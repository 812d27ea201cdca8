import Rewind.Movie.Recording

/-!
The log of the active movie: what it is doing, its header and samples, and a cursor. Recording
appends live samples at the end, but a sample that is already there at the cursor is fed back
instead; playback feeds samples until there are no more.
-/

namespace Rewind.Movie

open Storage (Pathname)

/-- What the movie is doing. -/
inductive Task
  | idle
  | startRecordingFromReset
  | startRecordingFromSnapshot
  | startRecordingFromExistingSnapshot
  | recording
  | startPlaybackFromReset
  | startPlaybackFromSnapshot
  | playback
deriving DecidableEq, Repr

namespace Task

/-- Recording, or about to. -/
def isRecording : Task → Bool
  | startRecordingFromReset | startRecordingFromSnapshot | startRecordingFromExistingSnapshot
  | recording => true
  | _ => false

/-- Playing back, or about to. -/
def isPlayback : Task → Bool
  | startPlaybackFromReset | startPlaybackFromSnapshot | playback => true
  | _ => false

/-- Recording or playing back, and not waiting for a start. -/
def isRunning : Task → Bool
  | recording | playback => true
  | _ => false

end Task

/-- What a controller poll did. -/
inductive PollOutcome
  /-- No movie sample is involved; the live state goes through. -/
  | passthrough
  /-- The live state was appended to the movie. -/
  | recorded
  /-- A sample of the movie took the live state's place. -/
  | played
  /-- Playback has no more samples. -/
  | ended
deriving DecidableEq, Repr

/-- The active movie. -/
structure Log where
  task : Task := .idle
  path : Option Pathname := none
  header : Header := {}
  inputs : Array Sample := #[]
  /-- The number of samples that the machine has consumed. -/
  currentSample : Nat := 0
  /-- The number of vertical interrupts that have passed. -/
  currentVi : Nat := 0

namespace Log

/-- Whether there is an active movie. -/
def isActive (log : Log) : Bool := log.task != .idle

/-- The number of samples in the movie. -/
def length (log : Log) : Nat := log.inputs.size

/-- Takes up a movie, with the cursor at the start. -/
def start (log : Log) (path : Pathname) (movie : Recording) (task : Task) : Except Error Log :=
  if log.isActive then .error .alreadyActive
  else .ok ⟨task, some path, movie.header, movie.inputs, 0, 0⟩

/-- Drops the movie. The header stays behind. -/
def stop (log : Log) : Log := { task := .idle, header := log.header }

/-- Puts other samples in place and keeps the cursor. -/
def replaceInputs (log : Log) (inputs : Array Sample) : Log :=
  { log with inputs, header.lengthSamples := UInt32.ofNat inputs.size }

/-- The log with the author and the description in the header. -/
def setAuthor (log : Log) (author description : String) : Log :=
  { log with header.author := author, header.description := description }

/-- The log with the header's count set to the number of samples. -/
def counted (log : Log) : Log :=
  { log with header.lengthSamples := UInt32.ofNat log.inputs.size }

/-- Writes the movie to its file, and counts its samples in the header. -/
def save [Storage D] (log : Log) (disk : D) : Except Error Unit × Log × D :=
  match log.path with
  | none => (.error .noMovie, log, disk)
  | some path =>
    let log := log.counted
    let (result, disk) := writeRecording (m := StateM D) path ⟨log.header, log.inputs⟩ disk
    (result, log, disk)

/-- The position to embed in a savestate, when there is a movie. -/
def freeze (log : Log) : Option Freeze :=
  if log.isActive then
    some (.ofInputs log.header.uid (UInt32.ofNat log.currentSample) (UInt32.ofNat log.currentVi)
      log.inputs)
  else none

/--
Whether a position can be restored in a given mode. The modes that keep the movie's samples also
ask for a position inside them.
-/
def checkFreeze (log : Log) (freeze : Freeze) (mode : RestoreMode) : Except Error Unit :=
  if !log.isActive then .error .noMovie
  else
    match freeze.check log.header.uid with
    | .error e => .error e
    | .ok () =>
      if mode ≠ .rerecord ∧ log.inputs.size < freeze.currentSample.toNat then .error .invalidFrame
      else .ok ()

/-- The log at a position that was checked for the mode. -/
def restore (log : Log) (freeze : Freeze) (mode : RestoreMode) : Log :=
  let log := match mode with
    | .rerecord =>
      { log with
        task := .recording
        inputs := freeze.samples.take freeze.currentSample.toNat
        header.lengthSamples := freeze.currentSample
        header.lengthVis := freeze.currentVi
        header.rerecordCount := log.header.rerecordCount + 1 }
    | .readOnly => { log with task := .playback }
    | .reposition => log
  { log with
    currentSample := freeze.currentSample.toNat
    currentVi := freeze.currentVi.toNat }

/-- Moves to a position from a savestate, if it can be restored. -/
def unfreeze (log : Log) (freeze : Freeze) (mode : RestoreMode) : Except Error Log :=
  match log.checkFreeze freeze mode with
  | .error e => .error e
  | .ok () => .ok (log.restore freeze mode)

/-- A movie that waits for power-on runs from the first poll on. -/
def arrive (log : Log) : Log :=
  match log.task with
  | .startRecordingFromReset => { log with task := .recording }
  | .startPlaybackFromReset => { log with task := .playback }
  | _ => log

/-- One poll of controller `index`: what it did, what the machine sees, and the log after it. -/
def poll (log : Log) (index : Nat) (live : Sample) : PollOutcome × Sample × Log :=
  let log := log.arrive
  if !log.task.isRunning || !log.header.controllerPresent index then (.passthrough, live, log)
  else
    match log.inputs[log.currentSample]? with
    | some sample => (.played, sample, { log with currentSample := log.currentSample + 1 })
    | none =>
      if log.task = .playback then (.ended, live, log)
      else
        let log := log.replaceInputs (log.inputs.push live)
        (.recorded, live, { log with currentSample := log.currentSample + 1 })

/-- One vertical interrupt. The movie grows in time while it grows at its end. -/
def vi (log : Log) : Log :=
  if !log.task.isRunning then log
  else
    let log := { log with currentVi := log.currentVi + 1 }
    if log.task = .recording ∧ log.inputs.size ≤ log.currentSample then
      { log with header.lengthVis := UInt32.ofNat log.currentVi }
    else log

end Log

end Rewind.Movie
