import Mathlib.Data.List.Induction
import Rewind.Proofs.Savestate.Batches

/-!
Saves that repeat an earlier one. A request repeats an earlier one if both save to the same slot
and no load stands between them (`Repeats`). Read from the front, that is a save to a slot that was
saved to since the last load (`openSlots`). Main statement: simplifying drops exactly the requests
that repeat an earlier one, once and for all, and a batch is what it leaves, behind a capture of
the machine if it loads and there is to be one (`prepare_eq_simplify`).
-/

namespace Rewind.Savestate

/-- The request saves to the slot. -/
def Request.SavesTo (r : Request) (slot : Nat) : Prop := r.job = .save ∧ r.medium = .slot slot

instance (r : Request) (slot : Nat) : Decidable (r.SavesTo slot) :=
  inferInstanceAs (Decidable (_ ∧ _))

/-- The request at `i` saves to a slot that one before it saves to, with no load between them. -/
def Repeats (rs : List Request) (i : Nat) : Prop :=
  ∃ slot, (∃ r ∈ rs[i]?, r.SavesTo slot) ∧
    ∃ j < i, (∃ r ∈ rs[j]?, r.SavesTo slot) ∧ ∀ k < i, j < k → ∀ r ∈ rs[k]?, r.job ≠ .load

theorem Request.savesTo_iff {r : Request} {slot : Nat} :
    r.SavesTo slot ↔ r.savedSlot? = some slot := by
  refine ⟨fun ⟨hjob, hmedium⟩ => ?_, savedSlot?_eq_some⟩
  rw [savedSlot?, hjob, hmedium]

theorem Request.SavesTo.job_ne_load {r : Request} {slot : Nat} (h : r.SavesTo slot) :
    r.job ≠ .load := by
  rw [h.1]
  nofun

theorem Request.SavesTo.unique {r : Request} {slot slot' : Nat} (h : r.SavesTo slot)
    (h' : r.SavesTo slot') : slot = slot' := by
  rw [savesTo_iff] at h h'
  exact Option.some.inj (h.symm.trans h')

theorem Request.isLoad_iff {r : Request} : r.isLoad = true ↔ r.job = .load := by
  rw [isLoad, beq_iff_eq]

instance (rs : List Request) (i : Nat) : Decidable (Repeats rs i) :=
  decidable_of_iff
    (∃ slot ∈ rs[i]?.bind (·.savedSlot?), ∃ j < i, rs[j]?.bind (·.savedSlot?) = some slot ∧
      ∀ k < i, j < k → ∀ r ∈ rs[k]?, r.job ≠ .load)
    (by simp only [Repeats, Request.savesTo_iff, Option.mem_def, Option.bind_eq_some_iff])

/-! ## The slots that were saved to -/

/-- The slots saved to since the last load, after one more request. -/
def noteSlot (seen : List Nat) (r : Request) : List Nat :=
  if r.isLoad then [] else r.savedSlot?.toList ++ seen

/-- The slots saved to since the last load. -/
def openSlots (rs : List Request) : List Nat := rs.foldl noteSlot []

theorem mem_noteSlot {seen : List Nat} {r : Request} {slot : Nat} :
    slot ∈ noteSlot seen r ↔ r.job ≠ .load ∧ (r.SavesTo slot ∨ slot ∈ seen) := by
  rw [noteSlot, Request.savesTo_iff, ne_eq, ← Request.isLoad_iff]
  split
  · next h => simp [h]
  · next h => simp [h]

theorem openSlots_concat (rs : List Request) (r : Request) :
    openSlots (rs ++ [r]) = noteSlot (openSlots rs) r := by
  rw [openSlots, List.foldl_append]
  rfl

theorem mem_openSlots {rs : List Request} {slot : Nat} : slot ∈ openSlots rs ↔
    ∃ j < rs.length, (∃ r ∈ rs[j]?, r.SavesTo slot) ∧
      ∀ k < rs.length, j < k → ∀ r ∈ rs[k]?, r.job ≠ .load := by
  induction rs using List.reverseRecOn with
  | nil => simp [openSlots]
  | append_singleton front r ih =>
    have hleft {i : Nat} (h : i < front.length) : (front ++ [r])[i]? = front[i]? :=
      List.getElem?_append_left h
    have hlast : (front ++ [r])[front.length]? = some r := List.getElem?_concat_length
    rw [openSlots_concat, mem_noteSlot, ih, List.length_append, List.length_singleton]
    constructor
    · rintro ⟨hload, hsaves | ⟨j, hj, hsaves, hbetween⟩⟩
      · exact ⟨front.length, Nat.lt_succ_self _, ⟨r, hlast, hsaves⟩, fun k hk hlt => by omega⟩
      · refine ⟨j, Nat.lt_succ_of_lt hj, by rwa [hleft hj], fun k hk hlt e he => ?_⟩
        obtain hk | rfl := Nat.lt_succ_iff_lt_or_eq.1 hk
        · exact hbetween k hk hlt e (hleft hk ▸ he)
        · rw [hlast] at he
          exact Option.some.inj he ▸ hload
    · rintro ⟨j, hj, hsaves, hbetween⟩
      obtain hj | rfl := Nat.lt_succ_iff_lt_or_eq.1 hj
      · rw [hleft hj] at hsaves
        exact ⟨hbetween _ (Nat.lt_succ_self _) hj r hlast, .inr ⟨j, hj, hsaves,
          fun k hk hlt e he => hbetween k (Nat.lt_succ_of_lt hk) hlt e ((hleft hk).symm ▸ he)⟩⟩
      · rw [hlast] at hsaves
        obtain ⟨e, he, hsaves⟩ := hsaves
        obtain rfl := Option.some.inj he
        exact ⟨hsaves.job_ne_load, .inl hsaves⟩

/-- A request repeats an earlier one if it saves to a slot saved to since the last load. -/
theorem repeats_iff {front rest : List Request} {r : Request} :
    Repeats (front ++ r :: rest) front.length ↔ ∃ slot ∈ openSlots front, r.SavesTo slot := by
  have hleft {i : Nat} (h : i < front.length) : (front ++ r :: rest)[i]? = front[i]? :=
    List.getElem?_append_left h
  have hhere : (front ++ r :: rest)[front.length]? = some r := by simp
  simp only [Repeats, mem_openSlots, hhere, Option.mem_def, Option.some.injEq, exists_eq_left']
  refine exists_congr fun slot => and_comm.trans (and_congr_left fun _ => ?_)
  refine exists_congr fun j => and_congr_right fun hj => ?_
  rw [hleft hj]
  exact and_congr_right fun _ => forall₂_congr fun k hk => by rw [hleft hk]

/-! ## What simplifying keeps -/

/-- The requests but those that save to a slot in `seen`, or to one saved to since the last load. -/
def keepNew (seen : List Nat) : List Request → List Request
  | [] => []
  | r :: rs =>
    if ∃ slot ∈ seen, r.SavesTo slot then keepNew (noteSlot seen r) rs
    else r :: keepNew (noteSlot seen r) rs

variable {seen : List Nat} {rs : List Request}

theorem noteSlot_of_load {r : Request} (h : r.isLoad = true) : noteSlot seen r = [] := if_pos h

theorem noteSlot_of_not_load {r : Request} (h : ¬r.isLoad = true) :
    noteSlot seen r = r.savedSlot?.toList ++ seen := if_neg h

/-- Only which slots were saved to matters. -/
theorem keepNew_congr {seen' : List Nat} (h : ∀ slot, slot ∈ seen ↔ slot ∈ seen')
    (rs : List Request) : keepNew seen rs = keepNew seen' rs := by
  induction rs generalizing seen seen' with
  | nil => rfl
  | cons r rs ih =>
    have hnote (slot : Nat) : slot ∈ noteSlot seen r ↔ slot ∈ noteSlot seen' r := by
      rw [mem_noteSlot, mem_noteSlot, h]
    simp only [keepNew, h, ih hnote]

/-- A slot that was saved to is as good as the saves to it dropped. -/
theorem keepNew_cons (slot : Nat) (seen : List Nat) (rs : List Request) :
    keepNew (slot :: seen) rs = keepNew seen (dropSaves slot rs) := by
  fun_induction dropSaves slot rs generalizing seen with
  | case1 => rfl
  | case2 r rs hload =>
    have hsaves (slot : Nat) : ¬r.SavesTo slot := by
      rw [Request.savesTo_iff, savedSlot?_of_isLoad hload]
      exact Option.some_ne_none slot ∘ Eq.symm
    simp only [keepNew, noteSlot_of_load hload, hsaves, and_false, exists_false, if_false]
  | case3 r rs hload hslot ih =>
    rw [keepNew, if_pos ⟨slot, .head _, Request.savesTo_iff.2 hslot⟩, noteSlot_of_not_load hload,
      hslot, ← ih]
    exact keepNew_congr (by simp) rs
  | case4 r rs hload hslot ih =>
    have hknown : (∃ n ∈ slot :: seen, r.SavesTo n) ↔ ∃ n ∈ seen, r.SavesTo n := by
      simp [Request.savesTo_iff, hslot]
    have hrest : keepNew (noteSlot (slot :: seen) r) rs =
        keepNew (noteSlot seen r) (dropSaves slot rs) := by
      rw [noteSlot_of_not_load hload, noteSlot_of_not_load hload, ← ih]
      exact keepNew_congr (by simp [or_left_comm]) rs
    simp only [keepNew, hknown, hrest]

theorem simplify_eq_keepNew (rs : List Request) : simplify rs = keepNew [] rs := by
  fun_induction simplify rs with
  | case1 => rfl
  | case2 r rs hslot ih =>
    have hnote : noteSlot [] r = [] := by simp [noteSlot, hslot]
    rw [keepNew, if_neg (by simp), hnote, ih]
  | case3 r rs slot hslot ih =>
    have hload : ¬r.isLoad = true := fun h => by rw [savedSlot?_of_isLoad h] at hslot; cases hslot
    rw [keepNew, if_neg (by simp), noteSlot_of_not_load hload, hslot, ih, ← keepNew_cons]
    rfl

theorem keepNew_openSlots (front rs : List Request) : keepNew (openSlots front) rs =
    ((rs.zipIdx front.length).filter fun e => ¬Repeats (front ++ rs) e.2).map (·.1) := by
  induction rs generalizing front with
  | nil => rfl
  | cons r rs ih =>
    have ih := ih (front ++ [r])
    rw [openSlots_concat, List.length_append, List.length_singleton, List.append_assoc] at ih
    rw [keepNew, ih, List.zipIdx_cons, List.filter_cons]
    simp only [repeats_iff, List.singleton_append]
    split <;> simp_all

theorem simplify_eq_filter (rs : List Request) :
    simplify rs = (rs.zipIdx.filter fun e => ¬Repeats rs e.2).map (·.1) := by
  rw [simplify_eq_keepNew]
  exact keepNew_openSlots [] rs

theorem keepNew_keepNew (seen : List Nat) (rs : List Request) :
    keepNew seen (keepNew seen rs) = keepNew seen rs := by
  induction rs generalizing seen with
  | nil => rfl
  | cons r rs ih =>
    rw [keepNew]
    split
    · next hknown =>
      obtain ⟨slot, hseen, hsaves⟩ := hknown
      -- A slot that is saved to again was among those saved to before.
      have hnote (n : Nat) : n ∈ noteSlot seen r ↔ n ∈ seen := by
        rw [mem_noteSlot]
        refine ⟨fun ⟨_, hn⟩ => hn.elim (fun hn => hsaves.unique hn ▸ hseen) id, fun hn => ?_⟩
        exact ⟨hsaves.job_ne_load, .inr hn⟩
      rw [keepNew_congr hnote rs]
      exact ih seen
    · next hnew => rw [keepNew, if_neg hnew, ih]

theorem simplify_simplify (rs : List Request) : simplify (simplify rs) = simplify rs := by
  rw [simplify_eq_keepNew, simplify_eq_keepNew]
  exact keepNew_keepNew [] rs

/-! ## Batches -/

theorem hasLoad_iff {rs : List Request} : hasLoad rs = true ↔ ∃ r ∈ rs, r.job = .load := by
  simp only [hasLoad, List.any_eq_true, Request.isLoad_iff]

theorem withUndo_simplify (rs : List Request) (undoOnLoad : Bool) :
    (if undoOnLoad then withUndo (simplify rs) else simplify rs) =
      (if undoOnLoad ∧ ∃ r ∈ rs, r.job = .load then [.capture .undo] else []) ++ simplify rs := by
  rw [withUndo, hasLoad_simplify]
  by_cases hload : hasLoad rs = true
  · simp only [hload, hasLoad_iff.1 hload, and_true, if_true]
    cases undoOnLoad <;> rfl
  · simp only [hload, mt hasLoad_iff.2 hload, and_false, if_false]
    cases undoOnLoad <;> rfl

/-- **What a batch carries out.** Simplifying leaves the requests that do not repeat an earlier
one, as they were and in their order, and simplifying again leaves them all. A batch is these
requests, behind a capture of the machine if one is wanted and there is a load; simplifying it once
more, capture and all, removes nothing. -/
theorem prepare_eq_simplify (rs : List Request) (undoOnLoad : Bool) :
    simplify rs = (rs.zipIdx.filter fun e => ¬Repeats rs e.2).map (·.1) ∧
      simplify (simplify rs) = simplify rs ∧
      prepare rs undoOnLoad =
        (if undoOnLoad ∧ ∃ r ∈ rs, r.job = .load then
          [⟨.save, .memory ByteArray.empty, true, some .undo⟩] else []) ++ simplify rs ∧
      prepare rs undoOnLoad = if undoOnLoad then withUndo (simplify rs) else simplify rs := by
  have hagain := simplify_simplify rs
  have hpass : prepare rs undoOnLoad =
      if undoOnLoad then withUndo (simplify rs) else simplify rs := by
    change simplify (if undoOnLoad then withUndo (simplify rs) else simplify rs) = _
    rw [withUndo_simplify]
    split
    · exact (simplify_cons rfl _).trans (congrArg _ hagain)
    · exact hagain
  exact ⟨simplify_eq_filter rs, hagain, hpass.trans (withUndo_simplify rs undoOnLoad), hpass⟩

end Rewind.Savestate
