import Rewind.Savestate.Error
import Rewind.Text.Blank
import Rewind.Text.Number
import Rewind.Text.Quoted

/-!
Seeking: the text that names a target, the sample it stands for, and the seek under way. A target
resolves in signed 64-bit numbers; sums that leave them stop at the nearest one, which no movie
reaches.
-/

namespace Rewind.Seek

/-- Why a seek cannot begin. -/
inductive Error
  | noMovie
  | parse (text : String)
  | outOfRange (target : Int) (length : Nat)
  | alreadySeeking
  | noCheckpoint (sample : Nat)
  | queue (cause : Savestate.Error)
deriving DecidableEq, Repr

/-- The text for an error. -/
def Error.message : Error → String
  | noMovie => "no movie is running"
  | parse text => "invalid seek target " ++ Text.quote text
  | outOfRange target length =>
    "seek target " ++ toString target ++ " is outside the movie (0..=" ++ toString length ++ ")"
  | alreadySeeking => "a seek is already in progress"
  | noCheckpoint sample => "no seek savestate at or before sample " ++ toString sample
  | queue cause => "failed to queue checkpoint load: " ++ cause.message

/-- Where to seek to. -/
inductive Target
  | absolute (n : UInt64)
  | forward (n : UInt64)
  | backward (n : UInt64)
  /-- Samples before the end of the movie. -/
  | fromEnd (n : UInt64)
deriving DecidableEq, Repr

namespace Target

/-- The kind of target that a sign in front selects, and the digits behind it. -/
def splitSign : List Char → (UInt64 → Target) × List Char
  | '+' :: cs => (forward, cs)
  | '-' :: cs => (backward, cs)
  | '^' :: cs => (fromEnd, cs)
  | cs => (absolute, cs)

/-- Reads a target: a number behind an optional sign, with white space around it. -/
def parse (text : String) : Except Error Target :=
  let cs := Text.trim text.toList
  let (kind, digits) := splitSign cs
  match Text.decimalBelow? UInt64.size digits with
  | some n => .ok (kind (UInt64.ofNat n))
  | none => .error (.parse (String.ofList cs))

/-- The largest signed 64-bit number. -/
def maxInt : Int := 0x7FFFFFFFFFFFFFFF

/-- The smallest signed 64-bit number. -/
def minInt : Int := -0x8000000000000000

/-- The signed 64-bit number nearest to `n`. -/
def clamp (n : Int) : Int := max minInt (min maxInt n)

/-- The signed number with the 64 bits of `n`. -/
def signed (n : Nat) : Int := Int.bmod n UInt64.size

/-- The number behind the sign. -/
def count : Target → UInt64
  | absolute n | forward n | backward n | fromEnd n => n

/-- The sample that a target stands for, in signed 64-bit numbers. -/
def position (t : Target) (current length : Int) : Int :=
  match t with
  | absolute n => n.toNat
  | forward n => clamp (current + n.toNat)
  | backward n => clamp (current - n.toNat)
  | fromEnd n => clamp (length - n.toNat)

/-- What is reported for a number that is itself no signed 64-bit number. -/
def overflow : Target → Int
  | absolute _ | forward _ => maxInt
  | backward _ | fromEnd _ => minInt

/-- The sample that a target stands for, which must lie in a movie of the given length. -/
def resolve (t : Target) (current length : Nat) : Except Error Nat :=
  if maxInt < t.count.toNat then .error (.outOfRange t.overflow length)
  else
    let target := t.position (signed current) (signed length)
    if 0 ≤ target ∧ target ≤ signed length then .ok target.toNat
    else .error (.outOfRange target length)

end Target

/-- A seek under way. -/
structure Operation where
  target : Nat
  pauseAtEnd : Bool
  /-- The return to a checkpoint is pending, so the cursor does not count yet. -/
  awaitingRollback : Bool
deriving DecidableEq

/-- The seek under way, if there is one. -/
structure State where
  active : Option Operation := none
deriving DecidableEq

namespace State

/-- Whether a seek is under way. -/
def isSeeking (s : State) : Bool := s.active.isSome

/-- Begins a seek, unless one is under way. -/
def start (s : State) (op : Operation) : Except Error State :=
  if s.isSeeking then .error .alreadySeeking else .ok ⟨some op⟩

/-- The machine is back at the checkpoint. -/
def rollbackDone (s : State) : State :=
  ⟨s.active.map fun op => { op with awaitingRollback := false }⟩

/-- The target of the seek under way. -/
def target? (s : State) : Option Nat := s.active.map (·.target)

/-- The seek under way if it has arrived: its cursor counts and has reached the target. -/
def arrived? (s : State) (current : Nat) : Option Operation :=
  s.active.filter fun op => !op.awaitingRollback && op.target ≤ current

end State

end Rewind.Seek
