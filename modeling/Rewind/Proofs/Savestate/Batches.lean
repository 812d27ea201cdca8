import Rewind.Savestate.Request

/-!
Batches: what of the pending requests is carried out, and what comes in front. Main statements:
nothing is dropped but saves to slots (`mem_prepare_of_savedSlot?`), nothing is added but a capture
for undo (`mem_prepare`), and that comes first, in front of everything else (`prepare_of_hasLoad`).
-/

namespace Rewind.Savestate

/-- Whether what carries a tag, or none, is a caller's and not the deck's own. -/
def isCallers : Option Tag → Bool
  | none | some (.caller _) => true
  | some .undo | some .checkpoint | some .movieStart | some .seekRollback => false

variable {r : Request} {rs : List Request}

theorem savedSlot?_of_isLoad (h : r.isLoad = true) : r.savedSlot? = none := by
  have hjob : r.job = .load := by simpa [Request.isLoad] using h
  rw [Request.savedSlot?, hjob]

theorem savedSlot?_eq_some {slot : Nat} (h : r.savedSlot? = some slot) :
    r.job = .save ∧ r.medium = .slot slot := by
  unfold Request.savedSlot? at h
  split at h
  · next hj hm =>
    cases h
    exact ⟨hj, hm⟩
  · cases h

theorem job_of_not_isLoad (h : ¬r.isLoad = true) : r.job = .save := by
  cases hj : r.job with
  | save => rfl
  | load => exact absurd (by rw [Request.isLoad, hj]; rfl) h

/-! ## What is dropped -/

theorem mem_dropSaves (hr : r.savedSlot? = none) (slot : Nat) (h : r ∈ rs) :
    r ∈ dropSaves slot rs := by
  fun_induction dropSaves slot rs with
  | case1 => exact h
  | case2 => exact h
  | case3 r' rs hl hs ih =>
    obtain rfl | h := List.mem_cons.1 h
    · rw [hr] at hs
      cases hs
    · exact ih h
  | case4 r' rs hl hs ih =>
    obtain rfl | h := List.mem_cons.1 h
    · exact .head _
    · exact .tail _ (ih h)

theorem mem_simplify (hr : r.savedSlot? = none) (h : r ∈ rs) : r ∈ simplify rs := by
  fun_induction simplify rs with
  | case1 => exact h
  | case2 r' rs _ ih =>
    obtain rfl | h := List.mem_cons.1 h
    · exact .head _
    · exact .tail _ (ih h)
  | case3 r' rs slot _ ih =>
    obtain rfl | h := List.mem_cons.1 h
    · exact .head _
    · exact .tail _ (ih (mem_dropSaves hr slot h))

theorem simplify_cons (h : r.savedSlot? = none) (rs : List Request) :
    simplify (r :: rs) = r :: simplify rs := by
  rw [simplify, h]

theorem simplify_nil : simplify [] = [] := by rw [simplify]

theorem simplify_singleton (r : Request) : simplify [r] = [r] := by
  rw [simplify]
  cases r.savedSlot? <;> simp [dropSaves, simplify]

/-- Requests that do not save to slots stay as they are. -/
theorem simplify_eq_self (h : ∀ r ∈ rs, r.savedSlot? = none) : simplify rs = rs := by
  induction rs with
  | nil => rw [simplify]
  | cons r rs ih =>
    rw [simplify_cons (h r (.head _))]
    exact congrArg (r :: ·) (ih fun r hr => h r (.tail _ hr))

theorem hasLoad_simplify (rs : List Request) : hasLoad (simplify rs) = hasLoad rs := by
  rw [Bool.eq_iff_iff]
  simp only [hasLoad, List.any_eq_true]
  constructor
  · rintro ⟨r, hr, hload⟩
    exact ⟨r, (simplify_sublist rs).mem hr, hload⟩
  · rintro ⟨r, hr, hload⟩
    exact ⟨r, mem_simplify (savedSlot?_of_isLoad hload) hr, hload⟩

/-! ## What comes in front -/

/-- A batch that loads is carried out behind a capture of the machine, if there is to be one. -/
theorem prepare_of_hasLoad (h : hasLoad rs = true) (undoOnLoad : Bool) :
    prepare rs undoOnLoad =
      (if undoOnLoad then [.capture .undo] else []) ++ simplify (simplify rs) := by
  have hundo : withUndo (simplify rs) = .capture .undo :: simplify rs :=
    if_pos ((hasLoad_simplify rs).trans h)
  cases undoOnLoad with
  | false => rfl
  | true =>
    rw [prepare]
    simp only [↓reduceIte, hundo]
    exact simplify_cons rfl _

theorem prepare_of_not_hasLoad (h : hasLoad rs = false) (undoOnLoad : Bool) :
    prepare rs undoOnLoad = simplify (simplify rs) := by
  have hundo : withUndo (simplify rs) = simplify rs :=
    if_neg (by rw [hasLoad_simplify, h]; exact Bool.false_ne_true)
  rw [prepare]
  simp only [hundo, ite_self]

/-- A batch with a load in front may capture the machine before it. -/
theorem prepare_load (hr : r.isLoad = true) (rs : List Request) (undoOnLoad : Bool) :
    prepare (r :: rs) undoOnLoad =
      (if undoOnLoad then [.capture .undo] else []) ++ r :: simplify (simplify rs) := by
  have hload : hasLoad (r :: rs) = true := by rw [hasLoad, List.any_cons, hr, Bool.true_or]
  have hslot := savedSlot?_of_isLoad hr
  rw [prepare_of_hasLoad hload, simplify_cons hslot, simplify_cons hslot]

/-- A batch holds what is pending, and captures of the machine. -/
theorem mem_prepare {undoOnLoad : Bool} (h : r ∈ prepare rs undoOnLoad) :
    r ∈ rs ∨ r = .capture .undo := by
  have hsimplify (h : r ∈ simplify (simplify rs)) : r ∈ rs :=
    (simplify_sublist rs).mem ((simplify_sublist _).mem h)
  cases hload : hasLoad rs with
  | false =>
    rw [prepare_of_not_hasLoad hload] at h
    exact .inl (hsimplify h)
  | true =>
    rw [prepare_of_hasLoad hload] at h
    obtain h | h := List.mem_append.1 h
    · cases undoOnLoad with
      | false => cases h
      | true => exact .inr (List.mem_singleton.1 h)
    · exact .inl (hsimplify h)

/-- Nothing is dropped from a batch but saves to slots. -/
theorem mem_prepare_of_savedSlot? (hr : r.savedSlot? = none) (undoOnLoad : Bool) (h : r ∈ rs) :
    r ∈ prepare rs undoOnLoad := by
  have hkept := mem_simplify hr (mem_simplify hr h)
  cases hload : hasLoad rs with
  | false => rwa [prepare_of_not_hasLoad hload]
  | true =>
    rw [prepare_of_hasLoad hload]
    exact List.mem_append_right _ hkept

/-! ## Checkpoints -/

theorem simplify_of_captures (h : ∀ r ∈ rs, r = .capture .checkpoint) : simplify rs = rs :=
  simplify_eq_self fun r hr => by rw [h r hr]; rfl

/-- Checkpoints are carried out as they were asked for, and nothing is captured for undo. -/
theorem prepare_of_captures (h : ∀ r ∈ rs, r = .capture .checkpoint) (undoOnLoad : Bool) :
    prepare rs undoOnLoad = rs := by
  have hload : hasLoad rs = false := by
    rw [hasLoad, List.any_eq_false]
    intro r hr
    rw [h r hr]
    nofun
  rw [prepare_of_not_hasLoad hload, simplify_of_captures h, simplify_of_captures h]

/-- A load in front of checkpoints is carried out before them. -/
theorem prepare_load_of_captures (hr : r.isLoad = true)
    (h : ∀ r ∈ rs, r = .capture .checkpoint) (undoOnLoad : Bool) :
    prepare (r :: rs) undoOnLoad =
      (if undoOnLoad then [.capture .undo] else []) ++ r :: rs := by
  rw [prepare_load hr, simplify_of_captures h, simplify_of_captures h]

end Rewind.Savestate
