import Rewind.Machine.Snapshot
import Rewind.Movie.Log

/-!
What is asked of a frontend: to put questions to the user, to hear what happened, and to show and
restore the screen.
-/

namespace Rewind

open Machine (Screenshot)

/-- What happened. -/
inductive Event
  | stateSaved
  | stateLoaded
  | slotChanged (slot : Nat)
  | taskChanged (task : Movie.Task)
  | rerecordsChanged (count : UInt64)
  | seekCompleted
  | seekSavestatesChanged
  /-- A warp began, or ended. -/
  | warpModifyStatusChanged (warping : Bool)
  /-- A warp's return to a checkpoint failed: the samples are in place, but not replayed. -/
  | warpModifyFailed
deriving DecidableEq, Repr

/-- The frontend of an emulator. Every request has an answer that asks for nothing. -/
class Frontend (H : Type) where
  /-- Whether to go on in spite of what the text says. -/
  confirm : String → H → Bool × H := fun _ h => (true, h)
  notify : Event → H → H := fun _ h => h
  pause : H → H := fun h => h
  captureScreen : H → Option Screenshot := fun _ => none
  videoSize : H → Option (UInt32 × UInt32) := fun _ => none
  restoreScreen : Screenshot → H → H := fun _ h => h

/-- A frontend that answers from a list and writes down everything it is told. -/
structure Journal where
  /-- The answers to the next questions. -/
  answers : List Bool := []
  /-- The answer when there are no more. -/
  accept : Bool := true
  /-- Whether it has a user to ask and a screen to show. -/
  interactive : Bool := true
  screen : Option Screenshot := none
  size : Option (UInt32 × UInt32) := none
  /-- The questions asked, the latest first. -/
  prompts : List String := []
  /-- What happened, the latest first. -/
  events : List Event := []
  pauses : Nat := 0
  /-- The screens restored, the latest first. -/
  restored : List Screenshot := []

namespace Journal

/-- Writes a question down and answers it; with no user to ask, the answer is yes. -/
def answer (j : Journal) (message : String) : Bool × Journal :=
  let j := { j with prompts := message :: j.prompts }
  if j.interactive then (j.answers.headD j.accept, { j with answers := j.answers.tail })
  else (true, j)

instance : Frontend Journal where
  confirm message j := j.answer message
  notify event j := { j with events := event :: j.events }
  pause j := { j with pauses := j.pauses + 1 }
  captureScreen j := if j.interactive then j.screen else none
  videoSize j := if j.interactive then j.size else none
  restoreScreen shot j := { j with restored := shot :: j.restored }

end Journal

end Rewind
