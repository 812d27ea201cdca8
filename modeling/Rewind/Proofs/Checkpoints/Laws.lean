import Rewind.Checkpoints

/-!
Laws of the checkpoint store, one for each operation and each thing that is asked of it. Which
samples are held does not depend on what the checkpoints hold (`samples_insert`).
-/

namespace Rewind.Checkpoints

variable {s : Checkpoints} {entries : List (Nat × ByteArray)} {sample : Nat} {state : ByteArray}
  {e : Nat × ByteArray}

/-! ## Entries -/

theorem mem_insertEntry : e ∈ insertEntry entries sample state ↔
    e = (sample, state) ∨ e ∈ entries ∧ e.1 ≠ sample := by
  simp only [insertEntry, List.mem_append, List.mem_cons, List.mem_filter, decide_eq_true_eq]
  rw [or_left_comm, ← and_or_left, Nat.ne_iff_lt_or_gt]

theorem mem_insert (h : e ∈ (s.insert sample state).entries) :
    e = (sample, state) ∨ e ∈ s.entries ∧ e.1 ≠ sample :=
  mem_insertEntry.1 ((dropEarliest_sublist _ _).mem h)

theorem contains_iff : s.contains sample = true ↔ ∃ e ∈ s.entries, e.1 = sample := by
  simp [contains]

/-! ## Samples -/

/-- Samples in order without the earliest `n`, sample 0 not counted. -/
def dropEarliestSamples (n : Nat) : List Nat → List Nat
  | 0 :: rest => 0 :: rest.drop n
  | samples => samples.drop n

theorem map_dropEarliest (n : Nat) (entries : List (Nat × ByteArray)) :
    (dropEarliest n entries).map (·.1) = dropEarliestSamples n (entries.map (·.1)) := by
  cases entries with
  | nil => simp [dropEarliest, dropEarliestSamples]
  | cons e rest =>
    obtain ⟨k, state⟩ := e
    cases k with
    | zero => simp [dropEarliest, dropEarliestSamples]
    | succ k => simp [dropEarliest, dropEarliestSamples]

/-- Samples in order with one more among them. -/
def mergeSample (samples : List Nat) (sample : Nat) : List Nat :=
  samples.filter (· < sample) ++ sample :: samples.filter (sample < ·)

theorem map_insertEntry (entries : List (Nat × ByteArray)) (sample : Nat) (state : ByteArray) :
    (insertEntry entries sample state).map (·.1) = mergeSample (entries.map (·.1)) sample := by
  simp [insertEntry, mergeSample, List.filter_map, Function.comp_def]

theorem samples_insert (s : Checkpoints) (sample : Nat) (state : ByteArray) :
    (s.insert sample state).samples =
      dropEarliestSamples ((mergeSample s.samples sample).length - s.room)
        (mergeSample s.samples sample) := by
  have hmerge := map_insertEntry s.entries sample state
  rw [samples, insert, map_dropEarliest, ← List.length_map (·.1), hmerge]
  rfl

theorem isDue_eq (s : Checkpoints) (sample : Nat) : s.isDue sample =
    (s.interval != 0 && sample % s.interval == 0 && !s.samples.any (· == sample)) := by
  simp [isDue, contains, samples, List.any_map, Function.comp_def]

/-! ## Sample 0 -/

/-- Among sorted entries, the one at sample 0 is never dropped to make room. -/
theorem exists_zero_dropEarliest (h : entries.Pairwise (·.1 < ·.1)) (n : Nat) :
    (∃ e ∈ dropEarliest n entries, e.1 = 0) ↔ ∃ e ∈ entries, e.1 = 0 := by
  refine ⟨fun ⟨e, he, h0⟩ => ⟨e, (dropEarliest_sublist n entries).mem he, h0⟩,
    fun ⟨e, he, h0⟩ => ?_⟩
  cases entries with
  | nil => cases he
  | cons first rest =>
    obtain ⟨k, state⟩ := first
    cases k with
    | zero => exact ⟨(0, state), .head _, rfl⟩
    | succ k =>
      -- The first entry is the earliest, and there is none before it.
      obtain rfl | he := List.mem_cons.1 he
      · cases h0
      · have hlt := (List.pairwise_cons.1 h).1 e he
        exact absurd h0 (Nat.ne_of_gt (Nat.lt_trans (Nat.succ_pos k) hlt))

@[simp] theorem contains_zero_insert (s : Checkpoints) (sample : Nat) (state : ByteArray) :
    (s.insert sample state).contains 0 = true ↔ sample = 0 ∨ s.contains 0 = true := by
  rw [contains_iff, contains_iff, insert,
    exists_zero_dropEarliest (sorted_insertEntry s.sorted sample state)]
  simp only [mem_insertEntry]
  refine ⟨fun ⟨e, he, h0⟩ => he.imp (fun he => ?_) fun he => ⟨e, he.1, h0⟩, fun h => ?_⟩
  · rw [he] at h0
    exact h0
  · by_cases hs : sample = 0
    · exact ⟨(sample, state), .inl rfl, hs⟩
    · obtain ⟨e, he, h0⟩ := h.resolve_left hs
      exact ⟨e, .inr ⟨he, fun he => hs (he.symm.trans h0)⟩, h0⟩

@[simp] theorem contains_zero_dropAfter (s : Checkpoints) (sample : Nat) :
    (s.dropAfter sample).contains 0 = s.contains 0 := by
  rw [Bool.eq_iff_iff, contains_iff, contains_iff]
  refine ⟨fun ⟨e, he, h0⟩ => ⟨e, (List.mem_filter.1 he).1, h0⟩, fun ⟨e, he, h0⟩ => ?_⟩
  exact ⟨e, List.mem_filter.2 ⟨he, by simp [h0]⟩, h0⟩

/-! ## The latest checkpoint at or before a sample -/

theorem nearest?_eq_none_iff : s.nearest? sample = none ↔ ∀ k ∈ s.samples, sample < k := by
  simp [nearest?, samples]

theorem nearest?_eq_some (h : s.nearest? sample = some e) :
    e ∈ s.entries ∧ e.1 ≤ sample ∧ ∀ k ∈ s.samples, k ≤ sample → k ≤ e.1 := by
  obtain ⟨front, hfront⟩ := List.getLast?_eq_some_iff.1 h
  have hmem : e ∈ s.entries.filter (·.1 ≤ sample) := hfront ▸ List.mem_append_right _ (.head _)
  obtain ⟨he, hle⟩ := List.mem_filter.1 hmem
  refine ⟨he, of_decide_eq_true hle, fun k hk hks => ?_⟩
  obtain ⟨e', he', rfl⟩ := List.mem_map.1 hk
  have hsorted := s.sorted.filter (·.1 ≤ sample)
  rw [hfront, List.pairwise_append] at hsorted
  have hmem' : e' ∈ front ++ [e] := hfront ▸ List.mem_filter.2 ⟨he', decide_eq_true hks⟩
  obtain hin | hin := List.mem_append.1 hmem'
  · exact Nat.le_of_lt (hsorted.2.2 e' hin e (.head _))
  · exact Nat.le_of_eq (congrArg Prod.fst (List.mem_singleton.1 hin))

/-- With a checkpoint at sample 0, there is always one to go back to. -/
theorem exists_nearest? (h : s.contains 0 = true) (sample : Nat) :
    ∃ k state, s.nearest? sample = some (k, state) ∧ (k, state) ∈ s.entries ∧ k ≤ sample := by
  obtain ⟨e, he, h0⟩ := contains_iff.1 h
  cases hn : s.nearest? sample with
  | none =>
    have hlt := nearest?_eq_none_iff.1 hn e.1 (List.mem_map_of_mem he)
    rw [h0] at hlt
    cases hlt
  | some e =>
    obtain ⟨he, hle, -⟩ := nearest?_eq_some hn
    exact ⟨e.1, e.2, rfl, he, hle⟩

/-- Making room for two entries or more leaves the last one there. -/
theorem getLast?_dropEarliest {n : Nat} (h : n + 2 ≤ entries.length ∨ n = 0) :
    (dropEarliest n entries).getLast? = entries.getLast? := by
  have hdrop {l : List (Nat × ByteArray)} (h : n < l.length ∨ n = 0) :
      (l.drop n).getLast? = l.getLast? := by
    obtain h | rfl := h
    · rw [List.getLast?_drop, if_neg (Nat.not_le.2 h)]
    · rfl
  unfold dropEarliest
  split
  · next state rest =>
    rw [List.length_cons] at h
    rw [List.getLast?_cons, List.getLast?_cons, hdrop (by omega)]
  · exact hdrop (by omega)

/-- A checkpoint after all others serves its sample, unless there is room for a single one. -/
theorem nearest?_insert_newest (hroom : 2 ≤ s.maxCount) (h : ∀ k ∈ s.samples, k ≤ sample)
    (state : ByteArray) : (s.insert sample state).nearest? sample = some (sample, state) := by
  have hle : ∀ e ∈ s.entries, e.1 ≤ sample := fun e he => h _ (List.mem_map_of_mem he)
  have hentries : insertEntry s.entries sample state =
      s.entries.filter (·.1 < sample) ++ [(sample, state)] := by
    have hnone : s.entries.filter (sample < ·.1) = [] :=
      List.filter_eq_nil_iff.2 fun e he => by simpa using hle e he
    rw [insertEntry, hnone]
  have hall : ∀ e ∈ (s.insert sample state).entries, decide (e.1 ≤ sample) = true := by
    intro e he
    obtain rfl | ⟨he, -⟩ := mem_insert he
    · exact decide_eq_true (Nat.le_refl _)
    · exact decide_eq_true (hle e he)
  have hroom : 2 ≤ s.room := Nat.le_trans hroom (Nat.le_max_left _ _)
  rw [nearest?, List.filter_eq_self.2 hall, insert, getLast?_dropEarliest (by omega), hentries,
    List.getLast?_concat]
/-- Dropping what comes after a sample does not change which checkpoint serves it. -/
theorem nearest?_dropAfter (s : Checkpoints) (sample : Nat) :
    (s.dropAfter sample).nearest? sample = s.nearest? sample := by
  simp [nearest?, dropAfter, List.filter_filter]

end Rewind.Checkpoints
