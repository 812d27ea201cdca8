import Rewind.Deck.Basic

/-!
Moving about in a movie that runs. A seek never touches the machine: it asks for the load of a
checkpoint when it goes back, and the machine then replays the movie to the target. A warp puts
other samples in the movie's place, and seeks back to where it was if what was consumed changed.
-/

namespace Rewind.Deck

open Savestate (Request)

variable {M H D : Type} [Core M] [Frontend H] [Storage D]

/-- The request that returns to a checkpoint. -/
def rollbackRequest (state : ByteArray) : Request :=
  { job := .load, medium := .memory state, ignoreWarnings := true, tag := some .seekRollback }

/-- Asks for the return to the latest checkpoint at or before a sample. -/
def requestRollback (sample : Nat) (d : Deck M H D) : Except Seek.Error Unit × Deck M H D :=
  match d.checkpoints.nearest? sample with
  | none => (.error (.noCheckpoint sample), d)
  | some (_, state) =>
    match d.enqueue (rollbackRequest state) with
    | (.error e, d) => (.error (.queue e), d)
    | (.ok (), d) => (.ok (), d)

/-- Begins a seek that goes back to a checkpoint at or before `rollbackTo` first, if it must. -/
def seekTo (target rollbackTo : Nat) (pauseAtEnd mustRollback : Bool) (d : Deck M H D) :
    Except Seek.Error Unit × Deck M H D :=
  if d.seek.isSeeking then (.error .alreadySeeking, d)
  else
    let rollback := mustRollback || target < d.movie.currentSample
    let (requested, d) := if rollback then d.requestRollback rollbackTo else (.ok (), d)
    match requested with
    | .error e => (.error e, d)
    | .ok () =>
      match d.seek.start ⟨target, pauseAtEnd, rollback⟩ with
      | .error e => (.error e, d)
      | .ok seek => (.ok (), { d with seek }.checkSeek)

/-- Begins a seek to the target that a text names. -/
def beginSeek (text : String) (pauseAtEnd : Bool) (d : Deck M H D) :
    Except Seek.Error Unit × Deck M H D :=
  if !d.movie.task.isRunning then (.error .noMovie, d)
  else
    match Seek.Target.parse text with
    | .error e => (.error e, d)
    | .ok target =>
      match target.resolve d.movie.currentSample d.movie.length with
      | .error e => (.error e, d)
      | .ok sample => d.seekTo sample sample pauseAtEnd false

/-- The cursor, and the target of the seek under way. -/
def seekProgress (d : Deck M H D) : Nat × Option Nat :=
  (d.movie.currentSample, d.seek.target?)

/-- Takes note of what a warp changed. -/
def recordWarp (plan : Warp.Plan) (d : Deck M H D) : Deck M H D :=
  { d with warp.firstDifference := plan.firstDifference? }

/-- Puts samples in the movie's place and replays the machine onto them. -/
def replayOnto (inputs : Array Sample) (rollbackTo resumeAt : Nat) (d : Deck M H D) :
    Except Warp.Error Unit × Deck M H D :=
  if (d.checkpoints.nearest? rollbackTo).isNone then
    (.error (.seek (.noCheckpoint rollbackTo)), d)
  else if !d.queue.launched then (.error (.seek (.queue .coreNotLaunched)), d)
  else
    let d :=
      if d.warp.warping then d
      else { d with warp.warping := true }.notify (.warpModifyStatusChanged true)
    let before := d.movie.task
    let d := { d with movie := { d.movie.replaceInputs inputs with task := .recording } }
    let d := (d.notifyTask before).dropCheckpoints rollbackTo
    match d.seekTo resumeAt rollbackTo false true with
    | (.error e, d) => (.error (.seek e), d.endWarp)
    | (.ok (), d) => (.ok (), d)

/-- Puts samples in the movie's place as planned. -/
def carryOut (plan : Warp.Plan) (inputs : Array Sample) (d : Deck M H D) :
    Except Warp.Error Unit × Deck M H D :=
  match plan with
  | .identical => (.ok (), d)
  | .extend _ => (.ok (), { d with movie := d.movie.replaceInputs inputs })
  | .rollback _ rollbackTo resumeAt => d.replayOnto inputs rollbackTo resumeAt

/-- Puts other samples in the place of the movie's. -/
def beginWarp (inputs : Array Sample) (d : Deck M H D) : Except Warp.Error Unit × Deck M H D :=
  if inputs.isEmpty then (.error .emptyInput, d)
  else if !d.movie.task.isRunning then (.error .noMovie, d)
  else if d.warp.warping then (.error .alreadyWarping, d)
  else if d.seek.isSeeking then (.error (.seek .alreadySeeking), d)
  else
    match Warp.plan d.movie.inputs inputs d.movie.currentSample with
    | .error e => (.error e, d)
    | .ok plan =>
      match d.carryOut plan inputs with
      | (.error e, d) => (.error e, d)
      | (.ok (), d) => (.ok (), d.recordWarp plan)

end Rewind.Deck
