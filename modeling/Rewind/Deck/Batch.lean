import Rewind.Deck.Movie

/-!
Carrying out a batch of requests. The requests run in order, and each outcome either goes to the
caller or is used up here.
-/

namespace Rewind.Deck

open Savestate

variable {M H D : Type} [Core M] [Frontend H] [Storage D]

/-- Keeps a checkpoint of the active movie. -/
def keepCheckpoint (state : ByteArray) (d : Deck M H D) : Deck M H D :=
  if d.movie.isActive then
    { d with checkpoints := d.checkpoints.insert d.movie.currentSample state }.notify
      .seekSavestatesChanged
  else d

/-- The machine is back at a checkpoint. -/
def finishRollback (d : Deck M H D) : Deck M H D :=
  { d with seek := d.seek.rollbackDone }.checkSeek

/-- The machine could not be brought back to a checkpoint. -/
def failRollback (d : Deck M H D) : Deck M H D :=
  (if d.warp.warping then d.notify .warpModifyFailed else d).stopSeek

/-- Uses up the outcome of a request of the deck's own, and hands over that of a caller's. -/
def deliver (o : Outcome) (d : Deck M H D) : Option Outcome × Deck M H D :=
  match o.tag, o.result with
  | some .undo, .ok state => (none, { d with undo := some state })
  | some .undo, .error _ => (none, d)
  | some .checkpoint, .ok state => (none, d.keepCheckpoint state)
  | some .checkpoint, .error _ => (none, d)
  | some .movieStart, result => (none, d.settleStart result.isOk)
  | some .seekRollback, .ok _ => (none, d.finishRollback)
  | some .seekRollback, .error _ => (none, d.failRollback)
  | some (.caller _), _ | none, _ => (some o, d)

/-- Carries out a request and deals with the outcome. -/
def perform (r : Request) (d : Deck M H D) : Option Outcome × Deck M H D :=
  let (outcome, d) := d.execute r
  d.deliver outcome

/-- Carries out requests in order and gives the outcomes that go to callers. -/
def performAll : List Request → Deck M H D → List Outcome × Deck M H D
  | [], d => ([], d)
  | r :: rs, d =>
    let (outcome, d) := d.perform r
    let (outcomes, d) := performAll rs d
    (outcome.toList ++ outcomes, d)

/-- Takes everything that is pending and carries it out. -/
def runBatch (d : Deck M H D) : List Outcome × Deck M H D :=
  { d with queue := d.queue.clear }.performAll (prepare d.queue.pending d.config.undoOnLoad)

end Rewind.Deck
