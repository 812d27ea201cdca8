import Rewind.Checkpoints
import Rewind.Config.Basic
import Rewind.Frontend
import Rewind.Machine.Core
import Rewind.Savestate.Queue
import Rewind.Warp

/-!
The deck: a machine with everything that records, replays, saves and restores it. Operations take
a deck and give the deck after them, with a result in front where they have one. A request that is
refused gives an error and the deck as the refusal leaves it.
-/

namespace Rewind

/-- What a deck keeps beside its machine, its frontend and its files. -/
structure Session where
  config : Config
  queue : Savestate.Queue := {}
  movie : Movie.Log := {}
  checkpoints : Checkpoints
  seek : Seek.State := {}
  warp : Warp.State := {}
  /-- The machine before the latest batch that loaded, if it was captured. -/
  undo : Option ByteArray := none
  selectedSlot : Nat := 0

/-- A machine, a frontend, files, and the session that ties them together. -/
structure Deck (M H D : Type) extends Session where
  machine : M
  frontend : H
  disk : D

/-- The number of slots. -/
def slotCount : Nat := 10

/-- The slot after a slot. The numbers that name slots have 64 bits, and only then wrap around. -/
def slotAfter (slot : Nat) : Nat := (slot + 1) % UInt64.size

/-- A session in which nothing has happened yet. -/
def Session.new (config : Config) : Session :=
  { config, checkpoints :=
      .empty config.seekSavestateInterval.toNat config.seekSavestateMaxCount.toNat }

namespace Deck

open Savestate (Request)

variable {M H D : Type} [Core M] [Frontend H] [Storage D]

/-- A deck in which nothing has happened yet. -/
def new (config : Config) (machine : M) (frontend : H) (disk : D) : Deck M H D :=
  { Session.new config with machine, frontend, disk }

/-- Tells the frontend what happened. -/
def notify (event : Event) (d : Deck M H D) : Deck M H D :=
  { d with frontend := Frontend.notify event d.frontend }

/-- Has the frontend pause. -/
def pause (d : Deck M H D) : Deck M H D := { d with frontend := Frontend.pause d.frontend }

/-- Asks whether to go on in spite of what the text says. -/
def confirm (message : String) (d : Deck M H D) : Bool × Deck M H D :=
  if d.config.silent then (true, d)
  else
    let (yes, frontend) := Frontend.confirm message d.frontend
    (yes, { d with frontend })

/-- Tells the frontend what the movie is doing, if it did something else before. -/
def notifyTask (before : Movie.Task) (d : Deck M H D) : Deck M H D :=
  if d.movie.task = before then d else d.notify (.taskChanged d.movie.task)

/-- Queues a request. -/
def enqueue (r : Request) (d : Deck M H D) : Except Savestate.Error Unit × Deck M H D :=
  match d.queue.enqueue r with
  | .error e => (.error e, d)
  | .ok queue => (.ok (), { d with queue })

/-- Queues a checkpoint; there is none while the machine does not run. -/
def queueCheckpoint (d : Deck M H D) : Deck M H D := (d.enqueue (.capture .checkpoint)).2

/-- Ends the warp under way. -/
def endWarp (d : Deck M H D) : Deck M H D :=
  if d.warp.warping then
    { d with warp.warping := false }.notify (.warpModifyStatusChanged false)
  else d

/-- Ends the seek under way, and the warp that it belongs to. -/
def stopSeek (d : Deck M H D) : Deck M H D :=
  if d.seek.isSeeking then { d with seek := {} }.endWarp else d

/-- Ends the seek under way if it has arrived. -/
def checkSeek (d : Deck M H D) : Deck M H D :=
  match d.seek.arrived? d.movie.currentSample with
  | none => d
  | some op =>
    let d := { d with seek := {} }.notify .seekCompleted
    (if op.pauseAtEnd then d.pause else d).endWarp

/-- Drops checkpoints after a sample, and tells the frontend if there were any. -/
def dropCheckpoints (sample : Nat) (d : Deck M H D) : Deck M H D :=
  let dropped := d.checkpoints.countAfter sample
  let d := { d with checkpoints := d.checkpoints.dropAfter sample }
  if dropped = 0 then d else d.notify .seekSavestatesChanged

/-- Drops the movie and everything that belongs to it. -/
def dropMovie (d : Deck M H D) : Deck M H D :=
  { d with
    movie := d.movie.stop
    checkpoints := d.checkpoints.clear
    warp := {} }.notify (.taskChanged .idle)

/-- Writes the movie to its file. -/
def saveMovie (d : Deck M H D) : Except Movie.Error Unit × Deck M H D :=
  let (result, movie, disk) := d.movie.save d.disk
  (result, { d with movie, disk })

/-- Says whether the machine runs. When it stops, requests and seeks end. -/
def setLaunched (launched : Bool) (d : Deck M H D) : Deck M H D :=
  let d := { d with queue := d.queue.setLaunched launched }
  if launched then d else d.stopSeek

/-- Whether the frontend should show, play and pace this frame. -/
def presents (d : Deck M H D) : Bool := !d.seek.isSeeking

/-- Whether the machine may be paused: not while it is replayed for a warp. -/
def canPause (d : Deck M H D) : Bool := !d.warp.warping

/-! ## Requests for savestates -/

/-- Selects a slot. -/
def selectSlot (slot : Nat) (d : Deck M H D) : Deck M H D :=
  { d with selectedSlot := slot % slotCount }.notify (.slotChanged (slot % slotCount))

/-- Asks for a save to a slot, which becomes the selected one, or the one after it does. -/
def saveSlot (slot : Nat) (d : Deck M H D) : Except Savestate.Error Unit × Deck M H D :=
  match d.enqueue { job := .save, medium := .slot slot } with
  | (.error e, d) => (.error e, d)
  | (.ok (), d) =>
    let d := d.selectSlot slot
    (.ok (), if d.config.incrementSlot then d.selectSlot (slotAfter slot) else d)

/-- Asks for a load from a slot, which becomes the selected one. -/
def loadSlot (slot : Nat) (d : Deck M H D) : Except Savestate.Error Unit × Deck M H D :=
  match d.enqueue { job := .load, medium := .slot slot } with
  | (.error e, d) => (.error e, d)
  | (.ok (), d) => (.ok (), d.selectSlot slot)

/-- Asks for a save to a file. -/
def saveFile (path : Storage.Pathname) : Deck M H D → Except Savestate.Error Unit × Deck M H D :=
  enqueue { job := .save, medium := .path path }

/-- Asks for a load from a file. -/
def loadFile (path : Storage.Pathname) (ignoreWarnings : Bool) :
    Deck M H D → Except Savestate.Error Unit × Deck M H D :=
  enqueue { job := .load, medium := .path path, ignoreWarnings }

/-- Asks for a save to memory; its outcome carries the number and the state. -/
def saveMemory (id : UInt64) : Deck M H D → Except Savestate.Error Unit × Deck M H D :=
  enqueue { job := .save, medium := .memory ByteArray.empty, tag := some (.caller id) }

/-- Asks for a load of a state in memory; its outcome carries the number. -/
def loadMemory (state : ByteArray) (id : UInt64) :
    Deck M H D → Except Savestate.Error Unit × Deck M H D :=
  enqueue { job := .load, medium := .memory state, tag := some (.caller id) }

/-- Asks for a load of the machine from before the latest load. -/
def undoLoad (d : Deck M H D) : Except Savestate.Error Unit × Deck M H D :=
  match d.undo with
  | none => (.error .notFound, d)
  | some state => d.enqueue { job := .load, medium := .memory state }

end Deck

end Rewind
