import Rewind.Deck.Transport

/-!
Starting and stopping movies. A movie that starts from power-on starts at once; one that starts
from a snapshot waits until its state has been saved or loaded.
-/

namespace Rewind.Deck

open Savestate (Request)
open Storage (Pathname)
open Movie (Header Recording Task)

variable {M H D : Type} [Core M] [Frontend H] [Storage D]

/--
Takes up a movie. `start` is the request that a start from a snapshot waits for, and needs the
machine to run; without one the machine is reset.
-/
def takeUpMovie (path : Pathname) (movie : Recording) (task : Task) (start : Option Request)
    (d : Deck M H D) : Except Movie.Error Unit × Deck M H D :=
  if start.isSome && !d.queue.launched then (.error (.state .coreNotLaunched), d)
  else
    let d := { d with checkpoints := d.checkpoints.clear, warp := {} }
    match d.movie.start path movie task with
    | .error e => (.error e, d)
    | .ok log =>
      let d := { d with movie := log }
      match start with
      | none =>
        let d := { d with machine := Core.reset d.machine }
        (.ok (), d.queueCheckpoint.notify (.taskChanged task))
      | some request =>
        match d.enqueue { request with ignoreWarnings := true, tag := some .movieStart } with
        | (.error e, d) => (.error (.state e), d.dropMovie)
        | (.ok (), d) => (.ok (), d.notify (.taskChanged task))

/-- The header of a movie that is about to be recorded on a machine. -/
def newHeader (machine : M) (now : UInt32) (flags : UInt16) (author description : String) :
    Header :=
  let rom := Core.rom machine
  let controllers : UInt32 := Core.controllerFlags machine
  { uid := now
    visPerSecond := rom.visPerSecond
    numControllers := UInt8.ofNat
      ((List.range 4).countP fun i => controllers &&& Controller.present i != 0)
    startFlags :=
      if flags &&& Movie.StartFlags.existingSnapshot != 0 then Movie.StartFlags.snapshot else flags
    controllerFlags := controllers
    romName := rom.name
    romCrc1 := rom.crc1
    romCountry := rom.countryCode
    plugins := Core.pluginNames machine
    author, description }

/-- What a recording with the given flags does first, and the request that it waits for. -/
def recordingStart (flags : UInt16) (snapshot : Pathname) : Task × Option Request :=
  if flags &&& Movie.StartFlags.snapshot != 0 then
    (.startRecordingFromSnapshot, some { job := .save, medium := .path snapshot })
  else if flags &&& Movie.StartFlags.existingSnapshot != 0 then
    (.startRecordingFromExistingSnapshot, some { job := .load, medium := .path snapshot })
  else (.startRecordingFromReset, none)

/-- Starts to record a movie at the time `now`. Its file is written at once. -/
def startRecording (now : UInt32) (path : Pathname) (flags : UInt16) (author description : String)
    (d : Deck M H D) : Except Movie.Error Unit × Deck M H D :=
  if d.movie.isActive then (.error .alreadyActive, d)
  else
    let header := newHeader d.machine now flags author description
    let (task, start) := recordingStart flags (path.withExtension "st")
    match d.takeUpMovie path ⟨header, #[]⟩ task start with
    | (.error e, d) => (.error e, d)
    | (.ok (), d) =>
      match d.saveMovie with
      | (.error e, d) => (.error e, d.dropMovie)
      | (.ok (), d) => (.ok (), d)

/-- Whether a movie was recorded on a cartridge, by name without spaces at its end and checksum. -/
def isRecordedOn (header : Header) (rom : RomIdentity) : Bool :=
  header.romCrc1 == rom.crc1 &&
    Text.trimEnd header.romName.toList == Text.trimEnd rom.name.toList

/-- The question about a movie of another cartridge. -/
def foreignMovieMessage (header : Header) (rom : RomIdentity) : String :=
  "The movie was recorded on \"" ++ header.romName ++ "\" (CRC " ++
    Text.hex 8 header.romCrc1.toNat ++ ") but \"" ++ rom.name ++ "\" (CRC " ++
    Text.hex 8 rom.crc1.toNat ++ ") is loaded.\n" ++
    "Playback might desynchronize. Are you sure you want to continue?"

/-- What playback of a movie does first, and the request that it waits for. -/
def playbackStart (header : Header) (snapshot : Pathname) : Task × Option Request :=
  let snapshotFlags := Movie.StartFlags.snapshot ||| Movie.StartFlags.existingSnapshot
  if header.startFlags &&& snapshotFlags != 0 then
    (.startPlaybackFromSnapshot, some { job := .load, medium := .path snapshot })
  else (.startPlaybackFromReset, none)

/-- Starts to play back a movie from a file. -/
def startPlayback (path : Pathname) (d : Deck M H D) : Except Movie.Error Unit × Deck M H D :=
  if d.movie.isActive then (.error .alreadyActive, d)
  else
    let (read, disk) := Movie.readRecording (m := StateM D) path d.disk
    let d := { d with disk }
    match read with
    | .error e => (.error e, d)
    | .ok movie =>
      let rom := Core.rom d.machine
      let (go, d) :=
        if isRecordedOn movie.header rom then (true, d)
        else d.confirm (foreignMovieMessage movie.header rom)
      if go then
        let (task, start) := playbackStart movie.header (path.withExtension "st")
        d.takeUpMovie path movie task start
      else (.error .cancelled, d)

/-- The task that a movie takes up once its start is done. -/
def taskAfterStart? : Task → Option Task
  | .startRecordingFromSnapshot | .startRecordingFromExistingSnapshot => some .recording
  | .startPlaybackFromSnapshot => some .playback
  | _ => none

/-- A movie's start from a snapshot is done, or has failed. -/
def settleStart (succeeded : Bool) (d : Deck M H D) : Deck M H D :=
  match taskAfterStart? d.movie.task with
  | none => d
  | some next =>
    if succeeded then
      ({ d with movie.task := next }.notify (.taskChanged next)).queueCheckpoint
    else d.dropMovie

/-- Stops the movie, if there is one. What was recorded is written to its file. -/
def stopMovie (d : Deck M H D) : Except Movie.Error Unit × Deck M H D :=
  let d := d.stopSeek
  if d.movie.task = .idle then (.ok (), d)
  else
    let (saved, d) := if d.movie.task.isRecording then d.saveMovie else (.ok (), d)
    (saved, d.dropMovie.notify .seekSavestatesChanged)

/-- Changes the author and the description in a movie's file, and in the movie if it is active. -/
def setAuthor (path : Pathname) (author description : String) (d : Deck M H D) :
    Except Movie.Error Unit × Deck M H D :=
  let (written, disk) := Movie.writeAuthor (m := StateM D) path author description d.disk
  let d := { d with disk }
  match written with
  | .error e => (.error e, d)
  | .ok () =>
    if d.movie.path.any (·.same path) then
      (.ok (), { d with movie := d.movie.setAuthor author description })
    else (.ok (), d)

/-- One poll of controller `index`: what it did, and what the machine sees. -/
def poll (index : Nat) (live : Sample) (d : Deck M H D) :
    (Movie.PollOutcome × Sample) × Deck M H D :=
  let before := d.movie.task
  let (outcome, seen, movie) := d.movie.poll index live
  let d := { d with movie }.notifyTask before
  let d := match outcome with
    | .recorded | .played =>
      (if d.checkpoints.isDue d.movie.currentSample then d.queueCheckpoint else d).checkSeek
    | .ended => (if d.config.pauseAtLastSample then d.pause else d).stopMovie.2
    | .passthrough => d
  ((outcome, seen), d)

/-- One vertical interrupt. -/
def vi (d : Deck M H D) : Deck M H D := { d with movie := d.movie.vi }

end Rewind.Deck
