import Rewind.Deck.Basic
import Rewind.Gzip.Member
import Rewind.Savestate.Encoding

/-!
Carrying states from the machine to a slot, a file or memory, and back. A load first asks about
everything that speaks against it; the machine is touched only when nothing can refuse any more.
-/

namespace Rewind.Deck

open Savestate
open Storage (Pathname)

variable {M H D : Type} [Core M] [Frontend H] [Storage D]

/-- The file that a request reads or writes. -/
def statePath? (d : Deck M H D) : Medium → Option Pathname
  | .slot slot => some (slotPath d.config.savesDir (Core.rom d.machine) slot)
  | .path path => some path
  | .memory _ => none

/-- Writes a state to a file, whose directory is created. -/
def writeState (path : Pathname) (state : ByteArray) (d : Deck M H D) :
    Except Error Unit × Deck M H D :=
  let data :=
    if d.config.compressSavestates then Gzip.compress state d.config.compressionLevel else state
  let (made, disk) : Except Storage.Fault Unit × D := match path.parent? with
    | some directory =>
      if directory.text.isEmpty then (.ok (), d.disk)
      else Storage.createDirectories directory d.disk
    | none => (.ok (), d.disk)
  match made with
  | .error fault => (.error (.fileWrite fault), { d with disk })
  | .ok () =>
    let (written, disk) := Storage.write path data disk
    (written.mapError .fileWrite, { d with disk })

/-- The machine as it is saved: with the movie's position, and with the screen if it is kept. -/
def snapshot (d : Deck M H D) : Machine.Snapshot :=
  { Core.capture d.machine with
    movie := d.movie.freeze
    screenshot := if d.config.stScreenshot then Frontend.captureScreen d.frontend else none }

/-- Saves the machine and gives the state. -/
def saveState (medium : Medium) (d : Deck M H D) : Except Error ByteArray × Deck M H D :=
  match encode d.snapshot with
  | .error e => (.error e, d)
  | .ok encoded =>
    let d :=
      if encoded.transferEnded then
        { d with machine := Core.skipTransfer (Core.apply encoded.snapshot d.machine) }
      else d
    let (written, d) := match d.statePath? medium with
      | some path => d.writeState path encoded.bytes
      | none => (.ok (), d)
    match written with
    | .error e => (.error e, d)
    | .ok () => (.ok encoded.bytes, d.notify .stateSaved)

/-- The data that a load reads, still as it is stored. -/
def fetch (medium : Medium) (d : Deck M H D) : Except Error ByteArray :=
  match d.statePath? medium, medium with
  | some path, _ =>
    match Storage.read path d.disk with
    | .ok data => .ok data
    | .error .notFound => .error .notFound
    | .error fault => .error (.io fault)
  | none, .memory state => .ok state
  | none, _ => .ok ByteArray.empty

/-- The state that a load reads, expanded, and the hash of the ROM that it was made on. -/
def fetchState (medium : Medium) (d : Deck M H D) :
    Except Error (ByteArray × Wire.Block Machine.romHashSize) := do
  let raw ← d.fetch medium
  if raw.isEmpty then .error .notFound
  let data ← (Gzip.decompress raw).mapError .decompression
  return (data, ← romHash data)

/-- Goes on if the user wants to. -/
def ask (message : String) (d : Deck M H D) : Except Error Unit × Deck M H D :=
  match d.confirm message with
  | (true, d) => (.ok (), d)
  | (false, d) => (.error .cancelled, d)

/-- The question about a state of another cartridge. -/
def foreignRomMessage (hash : Wire.Block Machine.romHashSize) : String :=
  "The savestate was created on a rom with hash " ++ Text.ofBytesLossy hash.bytes ++
    ", but is being loaded on another rom.\n" ++
    "The emulator may crash. Are you sure you want to continue?"

/-- The question about a state whose movie position cannot be restored. -/
def lostPositionMessage (cause : Movie.Error) : String :=
  "Failed to restore movie, " ++ cause.message ++
    ". Loading the savestate might desynchronize the movie.\nAre you sure you want to continue?"

/-- The question about a state without a movie position. -/
def noPositionMessage : String :=
  "The savestate is not from a movie. Loading it might desynchronize the movie.\n" ++
    "Are you sure you want to continue?"

/--
What of a state's movie position to restore, and how. Where a position cannot be restored, or is
missing, the active movie is at risk and the user is asked.
-/
def admitPosition (position : Option Movie.Freeze) (ignoreWarnings : Bool)
    (mode : Option Movie.RestoreMode) (d : Deck M H D) :
    Except Error (Option (Movie.Freeze × Movie.RestoreMode)) × Deck M H D :=
  match mode, position with
  | none, _ => (.ok none, d)
  | some mode, some freeze =>
    match d.movie.checkFreeze freeze mode with
    | .ok () => (.ok (some (freeze, mode)), d)
    | .error cause =>
      if !ignoreWarnings && d.movie.isActive then
        let (go, d) := d.ask (lostPositionMessage cause)
        (go.map fun _ => none, d)
      else (.ok none, d)
  | some _, none =>
    if !ignoreWarnings && d.movie.task.isRunning then
      let (go, d) := d.ask noPositionMessage
      (go.map fun _ => none, d)
    else (.ok none, d)

/-- What a rerecord entails: stale checkpoints go, and the movie's file is brought up to date. -/
def finishRerecord (divergedAt : Nat) (d : Deck M H D) : Deck M H D :=
  let d := d.dropCheckpoints (min divergedAt d.movie.currentSample)
  let d := d.saveMovie.2
  d.notify (.rerecordsChanged d.movie.header.rerecordCount)

/-- Moves the movie to a position. -/
def restorePosition (freeze : Movie.Freeze) (mode : Movie.RestoreMode) (d : Deck M H D) :
    Deck M H D :=
  let before := d.movie.task
  let divergedAt := Warp.commonLength d.movie.inputs freeze.samples
  match d.movie.unfreeze freeze mode with
  | .error _ => d.notifyTask before
  | .ok movie =>
    let d := { d with movie }
    (if mode = .rerecord then d.finishRerecord divergedAt else d).notifyTask before

/-- Shows a state's screen, if it fits and no replay is about to redraw it. -/
def restoreScreen (screenshot : Option Machine.Screenshot) (d : Deck M H D) : Deck M H D :=
  match screenshot with
  | none => d
  | some shot =>
    if !d.seek.isSeeking && Frontend.videoSize d.frontend == some (shot.width, shot.height) then
      { d with frontend := Frontend.restoreScreen shot d.frontend }
    else d

/-- Puts the machine, the movie and the screen into a state. -/
def applyState (decoded : Decoded) (position : Option (Movie.Freeze × Movie.RestoreMode))
    (d : Deck M H D) : Deck M H D :=
  let machine := Core.apply decoded.snapshot d.machine
  let d := { d with machine := if decoded.transferEnded then Core.skipTransfer machine else machine }
  let d := match position with
    | some (freeze, mode) => d.restorePosition freeze mode
    | none => d
  (d.restoreScreen decoded.snapshot.screenshot).notify .stateLoaded

/-- Loads a state that was read, unless it is ill-formed or the user declines. -/
def loadDecoded (data : ByteArray) (ignoreWarnings : Bool) (mode : Option Movie.RestoreMode)
    (d : Deck M H D) : Except Error ByteArray × Deck M H D :=
  match decode data with
  | .error e => (.error e, d)
  | .ok decoded =>
    match d.admitPosition decoded.snapshot.movie ignoreWarnings mode with
    | (.error e, d) => (.error e, d)
    | (.ok position, d) => (.ok data, d.applyState decoded position)

/-- Tells the machine whether it goes on from the legacy entry. -/
def settleEntry (d : Deck M H D) : Deck M H D :=
  { d with
    machine := Core.noteEntry (Core.programCounter d.machine == legacyEntry) d.machine }

/-- Loads a state and gives it. -/
def loadState (medium : Medium) (ignoreWarnings : Bool) (mode : Option Movie.RestoreMode)
    (d : Deck M H D) : Except Error ByteArray × Deck M H D :=
  match d.fetchState medium with
  | .error e => (.error e, d)
  | .ok (data, hash) =>
    let foreign := !ignoreWarnings && hash != (Core.rom d.machine).md5
    let (go, d) := if foreign then d.ask (foreignRomMessage hash) else (.ok (), d)
    match go with
    | .error e => (.error e, d)
    | .ok () =>
      let (result, d) := d.loadDecoded data ignoreWarnings mode
      (result, d.settleEntry)

/-- How the movie position in a state is restored, which depends on who asked for the load. -/
def restoreMode (tag : Option Tag) (config : Config) : Option Movie.RestoreMode :=
  match tag with
  | some .movieStart => none
  | some .seekRollback | some .checkpoint => some .reposition
  | _ => some (if config.readOnly then .readOnly else .rerecord)

/-- Carries out a request. -/
def execute (r : Request) (d : Deck M H D) : Outcome × Deck M H D :=
  let (result, d) := match r.job with
    | .save => d.saveState r.medium
    | .load => d.loadState r.medium r.ignoreWarnings (restoreMode r.tag d.config)
  (⟨r.job, r.tag, r.medium.label, result⟩, d)

end Rewind.Deck
