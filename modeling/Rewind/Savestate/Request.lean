import Rewind.Rom
import Rewind.Savestate.Error
import Rewind.Storage.Pathname
import Rewind.Text.Blank

/-!
Requests to save or load a savestate, and the order in which a batch of them runs. Main notions:
`simplify` drops a save to a slot that an earlier save to it makes needless, and `prepare` puts a
capture of the machine in front of a batch that loads.
-/

namespace Rewind.Savestate

open Storage (Pathname)

/-- Which way a state goes. -/
inductive Job
  | save
  | load
deriving DecidableEq, Repr

/-- Where a state goes to or comes from. -/
inductive Medium
  | slot (slot : Nat)
  | path (path : Pathname)
  /-- A load reads the state given here; a save ignores it and gives the new one back. -/
  | memory (state : ByteArray)
deriving DecidableEq

/-- Who asked for a state, where it matters for what happens to it. -/
inductive Tag
  /-- The state to return to if a load was a mistake. -/
  | undo
  /-- A state to return to when seeking. -/
  | checkpoint
  /-- The state that a movie starts from. -/
  | movieStart
  /-- The return to a checkpoint. -/
  | seekRollback
  /-- A request with a number of the caller's choice. -/
  | caller (id : UInt64)
deriving DecidableEq, Repr

/-- A request. -/
structure Request where
  job : Job
  medium : Medium
  /-- Go on where the user would be asked. -/
  ignoreWarnings : Bool := false
  tag : Option Tag := none
deriving DecidableEq

/-- What became of a request. -/
structure Outcome where
  job : Job
  tag : Option Tag
  /-- The target in words. -/
  label : String
  /-- The state, expanded. -/
  result : Except Error ByteArray

namespace Request

/-- A capture of the machine in memory. -/
def capture (tag : Tag) : Request := ⟨.save, .memory ByteArray.empty, true, some tag⟩

/-- The slot that a request saves to. -/
def savedSlot? (r : Request) : Option Nat :=
  match r.job, r.medium with
  | .save, .slot slot => some slot
  | _, _ => none

/-- Whether a request loads. -/
def isLoad (r : Request) : Bool := r.job == .load

end Request

/-- The requests without the saves to `slot` that come before the first load. -/
def dropSaves (slot : Nat) : List Request → List Request
  | [] => []
  | r :: rs =>
    if r.isLoad then r :: rs
    else if r.savedSlot? = some slot then dropSaves slot rs
    else r :: dropSaves slot rs

theorem dropSaves_sublist (slot : Nat) (rs : List Request) : (dropSaves slot rs).Sublist rs := by
  fun_induction dropSaves slot rs with
  | case1 => exact .slnil
  | case2 => exact .refl _
  | case3 _ _ _ _ ih => exact ih.cons _
  | case4 _ _ _ _ ih => exact ih.cons_cons _

/--
Drops each save to a slot that was saved to before without a load in between. A load keeps the
saves on both sides of it, as they capture different machines.
-/
def simplify : List Request → List Request
  | [] => []
  | r :: rs =>
    match r.savedSlot? with
    | none => r :: simplify rs
    | some slot => r :: simplify (dropSaves slot rs)
termination_by rs => rs.length
decreasing_by
  · simp
  · have := (dropSaves_sublist slot rs).length_le; simp; omega

theorem simplify_sublist (rs : List Request) : (simplify rs).Sublist rs := by
  fun_induction simplify rs with
  | case1 => exact .slnil
  | case2 _ _ _ ih => exact ih.cons_cons _
  | case3 _ _ slot _ ih => exact (ih.trans (dropSaves_sublist slot _)).cons_cons _

/-- Whether some request loads. -/
def hasLoad (rs : List Request) : Bool := rs.any Request.isLoad

/-- Whether a save comes after a load, and so captures the loaded machine. -/
def savesAfterLoad (rs : List Request) : Bool :=
  (rs.dropWhile (!·.isLoad)).any (!·.isLoad)

/-- Puts a capture of the machine in front of requests that load. -/
def withUndo (rs : List Request) : List Request :=
  if hasLoad rs then .capture .undo :: rs else rs

/-- The requests of a batch in the order in which they run. -/
def prepare (rs : List Request) (undoOnLoad : Bool) : List Request :=
  let rs := simplify rs
  simplify (if undoOnLoad then withUndo rs else rs)

/-- The file of a slot: named after the cartridge and its region, in the directory for states. -/
def slotPath (directory : Pathname) (rom : RomIdentity) (slot : Nat) : Pathname :=
  let name := String.ofList (Text.trimEnd rom.name.toList)
  directory.join ⟨name ++ " " ++ rom.countryName ++ ".st" ++ toString slot⟩

/-- The target of a request in words: the slot, the file's name, or memory. -/
def Medium.label : Medium → String
  | slot n => "slot " ++ toString n
  | path p => p.fileName?.getD p.text
  | memory _ => "memory"

end Rewind.Savestate
