import Mathlib.Data.Finset.Sort
import Mathlib.Data.List.DropRight
import Rewind.Proofs.Checkpoints.Laws

/-!
What the checkpoint store holds. Whatever is put in and dropped, it never holds more than it has
room for, and sample 0 stays until everything goes. When states are only put in, it holds sample 0
and as many of the largest other samples as there is room for (`Newest`), so that the order in
which they came does not matter. Main statement: `run_keeps_newest`.
-/

namespace Rewind.Checkpoints

/-- A change to the store. -/
inductive Change
  | insert (sample : Nat) (state : ByteArray)
  | dropAfter (sample : Nat)
  | clear

namespace Change

/-- The store after a change. -/
def apply (s : Checkpoints) : Change → Checkpoints
  | insert sample state => s.insert sample state
  | dropAfter sample => s.dropAfter sample
  | clear => s.clear

/-- The state that a change puts in at a sample. -/
def stateAt? (sample : Nat) : Change → Option ByteArray
  | insert k state => if k = sample then some state else none
  | dropAfter _ | clear => none

/-- Whether everything goes. -/
def isClear : Change → Bool
  | clear => true
  | insert .. | dropAfter _ => false

end Change

/-- The store after changes in order. -/
def run (s : Checkpoints) (changes : List Change) : Checkpoints := changes.foldl Change.apply s

/-- The state that was put in last at a sample. -/
def lastState? (changes : List Change) (sample : Nat) : Option ByteArray :=
  (changes.filterMap (·.stateAt? sample)).getLast?

/-- The changes since everything went the last time. -/
def sinceClear (changes : List Change) : List Change := changes.rtakeWhile (!·.isClear)

/-- States put in, by sample, in order. -/
def inserts (puts : List (Nat × ByteArray)) : List Change := puts.map fun e => .insert e.1 e.2

variable {s : Checkpoints} {changes : List Change}

theorem run_concat (s : Checkpoints) (changes : List Change) (c : Change) :
    s.run (changes ++ [c]) = c.apply (s.run changes) := by
  rw [run, List.foldl_append]
  rfl

/-! ## Room -/

theorem pairwise_samples (s : Checkpoints) : s.samples.Pairwise (· < ·) :=
  List.pairwise_map.2 s.sorted

theorem one_le_room (s : Checkpoints) : 1 ≤ s.room := Nat.le_max_right _ _

/-- What goes to make room are the earliest samples but 0, as many as asked for or all of them. -/
theorem dropEarliestSamples_split (n : Nat) {samples : List Nat}
    (h : samples.Pairwise (· < ·)) : ∃ anchor dropped kept,
      samples = anchor ++ (dropped ++ kept) ∧ dropEarliestSamples n samples = anchor ++ kept ∧
        (anchor = [] ∨ anchor = [0]) ∧ (∀ k ∈ dropped ++ kept, k ≠ 0) ∧
        dropped.length = min n (dropped ++ kept).length := by
  have hsplit (l : List Nat) : (l.take n).length = min n (l.take n ++ l.drop n).length := by
    rw [List.take_append_drop, List.length_take]
  cases samples with
  | nil => exact ⟨[], [], [], rfl, by simp [dropEarliestSamples], .inl rfl, nofun, by simp⟩
  | cons first rest =>
    obtain ⟨hfirst, -⟩ := List.pairwise_cons.1 h
    cases first with
    | zero =>
      refine ⟨[0], rest.take n, rest.drop n, ?_, rfl, .inr rfl, fun k hk => ?_, hsplit rest⟩
      · rw [List.take_append_drop]
        rfl
      · rw [List.take_append_drop] at hk
        exact Nat.ne_of_gt (hfirst k hk)
    | succ first =>
      refine ⟨[], _, _, (List.take_append_drop n _).symm, rfl, .inl rfl, fun k hk => ?_, hsplit _⟩
      rw [List.take_append_drop] at hk
      obtain rfl | hk := List.mem_cons.1 hk
      · exact Nat.succ_ne_zero first
      · exact Nat.ne_of_gt (Nat.zero_lt_of_lt (hfirst k hk))

theorem mem_mergeSample {samples : List Nat} {sample k : Nat} :
    k ∈ mergeSample samples sample ↔ k = sample ∨ k ∈ samples := by
  by_cases hk : k = sample
  · simp [mergeSample, hk]
  · simp only [mergeSample, List.mem_append, List.mem_cons, List.mem_filter, decide_eq_true_eq]
    have hne := Nat.lt_or_gt_of_ne hk
    tauto

theorem pairwise_mergeSample (s : Checkpoints) (sample : Nat) :
    (mergeSample s.samples sample).Pairwise (· < ·) := by
  have hsorted := sorted_insertEntry s.sorted sample ByteArray.empty
  rw [samples, ← map_insertEntry s.entries sample ByteArray.empty]
  exact List.pairwise_map.2 hsorted

theorem length_samples_insert (s : Checkpoints) (sample : Nat) (state : ByteArray) :
    (s.insert sample state).samples.length =
      min (mergeSample s.samples sample).length s.room := by
  obtain ⟨anchor, dropped, kept, hsamples, hresult, hanchor, -, hlength⟩ :=
    dropEarliestSamples_split ((mergeSample s.samples sample).length - s.room)
      (pairwise_mergeSample s sample)
  have hle : anchor.length ≤ 1 := by obtain rfl | rfl := hanchor <;> decide
  have hroom := s.one_le_room
  have htotal := congrArg List.length hsamples
  rw [samples_insert, hresult]
  simp only [List.length_append] at htotal hlength ⊢
  omega

theorem interval_run (s : Checkpoints) (changes : List Change) :
    (s.run changes).interval = s.interval := by
  induction changes using List.reverseRecOn with
  | nil => rfl
  | append_singleton changes c ih => rw [run_concat]; cases c <;> exact ih

theorem maxCount_run (s : Checkpoints) (changes : List Change) :
    (s.run changes).maxCount = s.maxCount := by
  induction changes using List.reverseRecOn with
  | nil => rfl
  | append_singleton changes c ih => rw [run_concat]; cases c <;> exact ih

theorem room_run (s : Checkpoints) (changes : List Change) : (s.run changes).room = s.room :=
  congrArg (max · 1) (maxCount_run s changes)

theorem length_apply_le (h : s.samples.length ≤ s.room) (c : Change) :
    (c.apply s).samples.length ≤ s.room := by
  cases c with
  | insert sample state =>
    rw [Change.apply, length_samples_insert]
    exact Nat.min_le_right _ _
  | dropAfter sample => exact Nat.le_trans ((List.filter_sublist.map _).length_le) h
  | clear => exact Nat.zero_le _

theorem length_run_le (h : s.samples.length ≤ s.room) (changes : List Change) :
    (s.run changes).samples.length ≤ s.room := by
  induction changes using List.reverseRecOn with
  | nil => exact h
  | append_singleton changes c ih =>
    rw [run_concat, ← room_run s changes]
    exact length_apply_le (room_run s changes ▸ ih) c

/-! ## Sample 0, and the states held -/

theorem contains_zero_run (h : s.contains 0 = false) (changes : List Change) :
    (s.run changes).contains 0 = true ↔ ∃ state, .insert 0 state ∈ sinceClear changes := by
  induction changes using List.reverseRecOn with
  | nil => simp [run, sinceClear, h]
  | append_singleton changes c ih =>
    rw [run_concat, sinceClear, List.rtakeWhile_concat]
    cases c with
    | insert sample state =>
      simp only [Change.apply, contains_zero_insert, ih, sinceClear]
      simp [Change.isClear, exists_or, eq_comm, or_comm]
    | dropAfter sample =>
      simp only [Change.apply, contains_zero_dropAfter, ih, sinceClear]
      simp [Change.isClear]
    | clear => simp [Change.apply, Checkpoints.clear, contains, Change.isClear]

theorem lastState?_concat (changes : List Change) (c : Change) (sample : Nat) :
    lastState? (changes ++ [c]) sample = (c.stateAt? sample).or (lastState? changes sample) := by
  rw [lastState?, List.filterMap_append, List.getLast?_append]
  cases hc : c.stateAt? sample <;> simp [hc, lastState?]

/-- What is held at a sample was put in there last. -/
theorem lastState?_of_mem_run (h : s.entries = []) {changes : List Change} {e : Nat × ByteArray}
    (he : e ∈ (s.run changes).entries) : lastState? changes e.1 = some e.2 := by
  induction changes using List.reverseRecOn with
  | nil =>
    rw [run, List.foldl_nil, h] at he
    cases he
  | append_singleton changes c ih =>
    rw [run_concat] at he
    rw [lastState?_concat]
    cases c with
    | insert sample state =>
      obtain rfl | ⟨he, hne⟩ := mem_insert he
      · simp [Change.stateAt?]
      · simp [Change.stateAt?, Ne.symm hne, ih he]
    | dropAfter sample =>
      exact ih (List.mem_filter.1 he).1
    | clear => cases he

/-! ## The newest samples -/

/-- Of the samples that were put in, the store holds 0 and the largest others, as many as there is
room for. -/
structure Newest (s : Checkpoints) (put : List Nat) : Prop where
  subset : ∀ k ∈ s.samples, k ∈ put
  anchor : 0 ∈ put → 0 ∈ s.samples
  largest : ∀ k ∈ put, k ∉ s.samples → ∀ j ∈ s.samples, j ≠ 0 → k < j
  full : ∀ k ∈ put, k ∉ s.samples → s.samples.length = s.room

theorem nodup_samples (s : Checkpoints) : s.samples.Nodup :=
  s.pairwise_samples.imp Nat.ne_of_lt

theorem length_mergeSample (s : Checkpoints) (sample : Nat) :
    (mergeSample s.samples sample).length =
      if sample ∈ s.samples then s.samples.length else s.samples.length + 1 := by
  have hnodup : (mergeSample s.samples sample).Nodup :=
    (pairwise_mergeSample s sample).imp Nat.ne_of_lt
  have hset : (mergeSample s.samples sample).toFinset =
      Insert.insert sample s.samples.toFinset := by
    ext k
    simp [mem_mergeSample]
  rw [← List.toFinset_card_of_nodup hnodup, hset, Finset.card_insert_eq_ite,
    List.toFinset_card_of_nodup s.nodup_samples]
  simp only [List.mem_toFinset]

/-- To put a sample in, others than 0 are dropped that are smaller than all that stay, and only as
long as the store is full; it then drops one for one that is new to it. -/
theorem exists_dropped (s : Checkpoints) (sample : Nat) (state : ByteArray) :
    ∃ dropped : List Nat,
      (∀ k, k ∈ (s.insert sample state).samples ↔ (k = sample ∨ k ∈ s.samples) ∧ k ∉ dropped) ∧
      (∀ k ∈ dropped, (k = sample ∨ k ∈ s.samples) ∧ k ≠ 0 ∧
        ∀ j ∈ (s.insert sample state).samples, j ≠ 0 → k < j) ∧
      (dropped ≠ [] → (s.insert sample state).samples.length = s.room) ∧
      (sample ∉ s.samples → s.samples.length = s.room → dropped ≠ []) := by
  have hmerged := pairwise_mergeSample s sample
  have hlengths := length_mergeSample s sample
  have hresult := length_samples_insert s sample state
  obtain ⟨anchor, dropped, kept, hsamples, hkept, hanchor, hother, hdropped⟩ :=
    dropEarliestSamples_split ((mergeSample s.samples sample).length - s.room) hmerged
  rw [← samples_insert s sample state] at hkept
  have hmem (k : Nat) : k = sample ∨ k ∈ s.samples ↔ k ∈ anchor ∨ k ∈ dropped ∨ k ∈ kept := by
    rw [← mem_mergeSample, hsamples, List.mem_append, List.mem_append]
  have hzero (k : Nat) (hk : k ∈ anchor) : k = 0 := by
    obtain rfl | rfl := hanchor
    · cases hk
    · exact List.mem_singleton.1 hk
  have hgone (k : Nat) (hk : k ∈ dropped) : k ≠ 0 := hother k (List.mem_append_left _ hk)
  have hlt (k : Nat) (hk : k ∈ dropped) (j : Nat) (hj : j ∈ kept) : k < j := by
    rw [hsamples, List.pairwise_append, List.pairwise_append] at hmerged
    exact hmerged.2.1.2.2 k hk j hj
  have hheld (k : Nat) : k ∈ (s.insert sample state).samples ↔ k ∈ anchor ∨ k ∈ kept := by
    rw [hkept, List.mem_append]
  simp only [List.length_append] at hdropped
  refine ⟨dropped, fun k => ?_, fun k hk => ⟨(hmem k).2 (.inr (.inl hk)), hgone k hk,
    fun j hj hj0 => ?_⟩, fun hne => ?_, fun hnew hfull => ?_⟩
  · have hanchored (hk : k ∈ anchor) : k ∉ dropped := fun hd => hgone k hd (hzero k hk)
    have hstays (hk : k ∈ kept) : k ∉ dropped := fun hd => Nat.lt_irrefl k (hlt k hd k hk)
    rw [hheld, hmem]
    tauto
  · exact hlt k hk j (((hheld j).1 hj).resolve_left fun hj => hj0 (hzero j hj))
  · have hpos := List.length_pos_of_ne_nil hne
    omega
  · have htotal := congrArg List.length hsamples
    have hle : anchor.length ≤ 1 := by obtain rfl | rfl := hanchor <;> decide
    have hroom := s.one_le_room
    rw [if_neg hnew] at hlengths
    simp only [List.length_append] at htotal
    exact List.ne_nil_of_length_pos (by omega)

theorem Newest.put {put : List Nat} (h : s.Newest put) (sample : Nat) (state : ByteArray) :
    (s.insert sample state).Newest (put ++ [sample]) := by
  obtain ⟨dropped, hheld, hgone, hfull, hforced⟩ := s.exists_dropped sample state
  have hput (k : Nat) : k ∈ put ++ [sample] ↔ k ∈ put ∨ k = sample := by simp
  -- A sample that was put in and is not held was dropped now, or was not held before.
  have hmissing (k : Nat) (hk : k ∈ put ++ [sample]) (hnot : k ∉ (s.insert sample state).samples) :
      k ∈ dropped ∨ k ∈ put ∧ k ∉ s.samples := by
    rw [hput] at hk
    rw [hheld] at hnot
    tauto
  refine ⟨fun k hk => ?_, fun h0 => ?_, fun k hk hnot j hj hj0 => ?_, fun k hk hnot => ?_⟩
  · exact (hput k).2 (((hheld k).1 hk).1.symm.imp_left (h.subset k))
  · have hin := ((hput 0).1 h0).symm.imp_right h.anchor
    exact (hheld 0).2 ⟨hin, fun hd => (hgone 0 hd).2.1 rfl⟩
  · obtain hd | ⟨hin, hout⟩ := hmissing k hk hnot
    · exact (hgone k hd).2.2 j hj hj0
    · by_cases hjs : j ∈ s.samples
      · exact h.largest k hin hout j hjs hj0
      · -- The store was full, so that something smaller than the new sample had to go for it.
        have hnew : j = sample := ((hheld j).1 hj).1.resolve_right hjs
        obtain ⟨d, hd⟩ := List.exists_mem_of_ne_nil _ (hforced (hnew ▸ hjs) (h.full k hin hout))
        obtain ⟨hds, hd0, hlt⟩ := hgone d hd
        have hdj := hlt j hj hj0
        have hds := hds.resolve_left fun hds => Nat.ne_of_lt hdj (hds.trans hnew.symm)
        exact Nat.lt_trans (h.largest k hin hout d hds hd0) hdj
  · have hroom : (s.insert sample state).room = s.room := rfl
    rw [hroom]
    obtain hd | ⟨hin, hout⟩ := hmissing k hk hnot
    · exact hfull (List.ne_nil_of_mem hd)
    · have hfull := h.full k hin hout
      rw [length_samples_insert, length_mergeSample]
      split <;> omega

theorem newest_run {s : Checkpoints} (h : s.entries = []) (puts : List (Nat × ByteArray)) :
    (s.run (inserts puts)).Newest (puts.map (·.1)) := by
  induction puts using List.reverseRecOn with
  | nil =>
    have hs : s.samples = [] := by rw [samples, h]; rfl
    have hnone (k : Nat) : k ∉ [] := List.not_mem_nil
    exact ⟨fun k hk => absurd (hs ▸ hk) (hnone k), fun h0 => absurd h0 (hnone 0),
      fun k hk => absurd hk (hnone k), fun k hk => absurd hk (hnone k)⟩
  | append_singleton puts e ih =>
    have hrun := ih.put e.1 e.2
    rw [inserts, List.map_append, List.map_append, List.map_singleton, List.map_singleton,
      run_concat]
    exact hrun

/-- Samples in order begin with 0, if that is among them. -/
theorem eq_anchor_append {samples : List Nat} (h : samples.Pairwise (· < ·)) :
    samples = (if 0 ∈ samples then [0] else []) ++ samples.filter (· ≠ 0) := by
  cases samples with
  | nil => rfl
  | cons first rest =>
    obtain ⟨hfirst, -⟩ := List.pairwise_cons.1 h
    have hrest : rest.filter (· ≠ 0) = rest :=
      List.filter_eq_self.2 fun k hk =>
        decide_eq_true (Nat.ne_of_gt (Nat.zero_lt_of_lt (hfirst k hk)))
    cases first with
    | zero =>
      rw [if_pos List.mem_cons_self, List.filter_cons_of_neg (by simp), hrest]
      rfl
    | succ first =>
      have h0 : 0 ∉ (first + 1) :: rest := by
        rw [List.mem_cons, not_or]
        exact ⟨nofun, fun h0 => absurd (hfirst 0 h0) (Nat.not_lt_zero _)⟩
      rw [if_neg h0, List.filter_cons_of_pos (by simp), hrest]
      rfl

/-- The samples held are 0, if it was put in, and the last of the others in order. -/
theorem Newest.samples_eq {put : List Nat} (h : s.Newest put)
    (hroom : s.samples.length ≤ s.room) :
    let anchor := if 0 ∈ put then [0] else []
    s.samples = anchor ++ (put.toFinset.erase 0).sort.rtake (s.room - anchor.length) := by
  intro anchor
  have hsorted := s.pairwise_samples
  have hzero : 0 ∈ put ↔ 0 ∈ s.samples := ⟨h.anchor, h.subset 0⟩
  have hsamples : s.samples = anchor ++ s.samples.filter (· ≠ 0) := by
    have heq := eq_anchor_append hsorted
    simp only [← hzero] at heq
    exact heq
  -- In order, the other samples are those that are missing and then those that are held.
  let missing := ((put.toFinset.erase 0).filter (· ∉ s.samples)).sort
  have hmissing {k : Nat} (hk : k ∈ missing) : k ∈ put ∧ k ∉ s.samples := by
    simp only [missing, Finset.mem_sort, Finset.mem_filter, Finset.mem_erase,
      List.mem_toFinset] at hk
    exact ⟨hk.1.2, hk.2⟩
  have hall : (missing ++ s.samples.filter (· ≠ 0)).Pairwise (· < ·) := by
    refine List.pairwise_append.2 ⟨(Finset.sortedLT_sort _).pairwise, hsorted.filter _,
      fun k hk j hj => ?_⟩
    obtain ⟨hj, hj0⟩ := List.mem_filter.1 hj
    exact h.largest k (hmissing hk).1 (hmissing hk).2 j hj (of_decide_eq_true hj0)
  have hset : (missing ++ s.samples.filter (· ≠ 0)).toFinset = put.toFinset.erase 0 := by
    ext k
    have hk := h.subset k
    simp only [missing, List.toFinset_append, Finset.sort_toFinset, Finset.mem_union,
      Finset.mem_filter, List.mem_toFinset, Finset.mem_erase, List.mem_filter, decide_eq_true_eq]
    tauto
  have hsort : (put.toFinset.erase 0).sort = missing ++ s.samples.filter (· ≠ 0) := by
    rw [← hset]
    exact (List.toFinset_sort (· ≤ ·) (hall.imp Nat.ne_of_lt)).2 (hall.imp Nat.le_of_lt)
  have hlength := congrArg List.length hsamples
  rw [List.length_append] at hlength
  rw [hsort, List.rtake, List.length_append]
  cases hm : missing with
  | nil =>
    rw [List.nil_append, List.length_nil, Nat.sub_eq_zero_of_le (by omega), List.drop_zero]
    exact hsamples
  | cons k ks =>
    have hk := hmissing (hm ▸ List.mem_cons_self : k ∈ missing)
    have hfull := h.full k hk.1 hk.2
    rw [List.drop_left' (by omega)]
    exact hsamples

/-! ## Order -/

theorem isSome_lastState?_inserts {puts : List (Nat × ByteArray)} {sample : Nat} :
    (lastState? (inserts puts) sample).isSome = true ↔ sample ∈ puts.map (·.1) := by
  induction puts using List.reverseRecOn with
  | nil => simp [lastState?, inserts]
  | append_singleton puts e ih =>
    have hinserts : inserts (puts ++ [e]) = inserts puts ++ [.insert e.1 e.2] := List.map_append
    rw [hinserts, lastState?_concat, Option.isSome_or, Bool.or_eq_true, ih, or_comm]
    by_cases hk : e.1 = sample
    · simp [Change.stateAt?, hk]
    · simp [Change.stateAt?, hk, Ne.symm hk]

/-- The entries are the samples held, each with what was put in there last. -/
theorem entries_run (h : s.entries = []) (changes : List Change) :
    (s.run changes).entries = (s.run changes).samples.map fun k =>
      (k, (lastState? changes k).getD ByteArray.empty) := by
  rw [samples, List.map_map]
  refine (List.map_id _).symm.trans (List.map_congr_left fun e he => ?_)
  rw [Function.comp_apply, lastState?_of_mem_run h he]
  rfl

theorem eq_of_entries {s s' : Checkpoints} (hi : s.interval = s'.interval)
    (hm : s.maxCount = s'.maxCount) (he : s.entries = s'.entries) : s = s' := by
  cases s
  cases s'
  simp only at hi hm he
  subst hi hm he
  rfl

/-- **The store keeps sample 0 and the newest samples.** Whatever is put in and dropped, it holds no
more entries than fit, and sample 0 iff that was put in since all was dropped; and it serves a
sample by the greatest one held at or before it. When states are only put in, it holds 0 and the
largest of the other samples, in whatever order they came. -/
theorem run_keeps_newest (interval maxCount : Nat) :
    (∀ changes, let s := (empty interval maxCount).run changes
      s.entries.length ≤ max maxCount 1 ∧
      (s.contains 0 = true ↔ ∃ state, .insert 0 state ∈ sinceClear changes) ∧
      ∀ sample, match s.nearest? sample with
        | none => ∀ k ∈ s.samples, sample < k
        | some (k, state) => (k ∈ s.samples ∧ k ≤ sample ∧ ∀ j ∈ s.samples, j ≤ sample → j ≤ k) ∧
          lastState? changes k = some state) ∧
    (∀ puts, let put := puts.map (·.1)
      let anchor := if 0 ∈ put then [0] else []
      ((empty interval maxCount).run (inserts puts)).samples =
        anchor ++ (put.toFinset.erase 0).sort.rtake (max maxCount 1 - anchor.length)) ∧
    ∀ puts puts',
      (∀ sample, lastState? (inserts puts) sample = lastState? (inserts puts') sample) →
        (empty interval maxCount).run (inserts puts) =
          (empty interval maxCount).run (inserts puts') := by
  have hlength (changes : List Change) :
      ((empty interval maxCount).run changes).samples.length ≤ max maxCount 1 :=
    length_run_le (Nat.zero_le _) changes
  have hsamples (puts : List (Nat × ByteArray)) := (newest_run rfl puts).samples_eq
    (s := (empty interval maxCount).run (inserts puts)) (by rw [room_run]; exact hlength _)
  simp only [room_run] at hsamples
  refine ⟨fun changes => ⟨?_, contains_zero_run rfl changes, fun sample => ?_⟩, hsamples,
    fun puts puts' h => ?_⟩
  · rw [← List.length_map]
    exact hlength changes
  · cases hn : ((empty interval maxCount).run changes).nearest? sample with
    | none => exact nearest?_eq_none_iff.1 hn
    | some e =>
      obtain ⟨he, hle, hgreatest⟩ := nearest?_eq_some hn
      exact ⟨⟨List.mem_map_of_mem he, hle, hgreatest⟩, lastState?_of_mem_run rfl he⟩
  · have hput (k : Nat) : k ∈ puts.map (·.1) ↔ k ∈ puts'.map (·.1) := by
      rw [← isSome_lastState?_inserts, h, isSome_lastState?_inserts]
    have hset : (puts.map (·.1)).toFinset = (puts'.map (·.1)).toFinset := by
      ext k
      rw [List.mem_toFinset, hput, List.mem_toFinset]
    refine eq_of_entries (by simp only [interval_run]) (by simp only [maxCount_run]) ?_
    rw [entries_run rfl, entries_run rfl, hsamples, hsamples]
    simp only [hput, hset, h]

/-- There is room for three. The second time the sample at 10 comes late, twice, and is dropped at
once, and the one at 20 has another state before its last. -/
theorem run_keeps_newest_either_way :
    let a : ByteArray := ⟨#[1]⟩
    let b : ByteArray := ⟨#[2]⟩
    let puts := [(0, a), (10, a), (20, b), (30, b)]
    let puts' := [(30, b), (20, a), (0, a), (10, b), (20, b), (10, a)]
    (∀ sample, lastState? (inserts puts) sample = lastState? (inserts puts') sample) ∧
      (empty 10 3).run (inserts puts) = (empty 10 3).run (inserts puts') := by
  intro a b puts puts'
  have hnone {l : List (Nat × ByteArray)} {sample : Nat} (h : sample ∉ l.map (·.1)) :
      lastState? (inserts l) sample = none :=
    Option.not_isSome_iff_eq_none.1 (mt isSome_lastState?_inserts.1 h)
  have hlast (sample : Nat) :
      lastState? (inserts puts) sample = lastState? (inserts puts') sample := by
    by_cases hs : sample ∈ [0, 10, 20, 30]
    · simp only [List.mem_cons, List.not_mem_nil, or_false] at hs
      obtain rfl | rfl | rfl | rfl := hs <;> rfl
    · rw [hnone (by simpa [puts] using hs), hnone]
      simp only [puts', List.map_cons, List.map_nil, List.mem_cons] at hs ⊢
      tauto
  exact ⟨hlast, (run_keeps_newest 10 3).2.2 puts puts' hlast⟩

end Rewind.Checkpoints
