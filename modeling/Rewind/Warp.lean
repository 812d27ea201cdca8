import Rewind.Movie.Sample
import Rewind.Seek

/-!
Warping: putting other samples in the place of a movie's while it runs. Main notion: `plan` says
how much of what the machine has consumed must be replayed.
-/

namespace Rewind.Warp

/-- Why a warp cannot begin. -/
inductive Error
  | emptyInput
  | noMovie
  | alreadyWarping
  | seek (cause : Seek.Error)
deriving DecidableEq, Repr

/-- The text for an error. -/
def Error.message : Error → String
  | emptyInput => "the new input buffer is empty"
  | noMovie => "no movie is running"
  | alreadyWarping => "a warp modify operation is already in progress"
  | seek cause => cause.message

/-- What a change of samples asks for. -/
inductive Plan
  /-- The samples are the same. -/
  | identical
  /-- The samples are more, and none that was consumed changed. -/
  | extend (common : Nat)
  /-- Go back to `rollbackTo` or before, and replay to `resumeAt`. -/
  | rollback (common rollbackTo resumeAt : Nat)
deriving DecidableEq

/-- How many samples two movies have in common at their front. -/
def commonLength (a b : Array Sample) : Nat :=
  ((a.toList.zip b.toList).takeWhile fun (x, y) => x == y).length

/-- What it takes to put `candidate` in the place of `current`, with the cursor where it is. -/
def plan (current candidate : Array Sample) (cursor : Nat) : Except Error Plan :=
  if candidate.isEmpty then .error .emptyInput
  else
    let common := commonLength current candidate
    if common = current.size ∧ common = candidate.size then .ok .identical
    else if current.size < candidate.size ∧ cursor ≤ common then .ok (.extend common)
    else .ok (.rollback common (min common cursor) (min cursor candidate.size))

/-- The first sample that a plan changes. -/
def Plan.firstDifference? : Plan → Option Nat
  | identical => none
  | extend common => some common
  | rollback common .. => some common

/-- The warp under way, if there is one, and what the last one changed. -/
structure State where
  /-- Whether the machine is being replayed onto other samples. -/
  warping : Bool := false
  /-- The first sample that differed in the last change. -/
  firstDifference : Option Nat := none
deriving DecidableEq

end Rewind.Warp
