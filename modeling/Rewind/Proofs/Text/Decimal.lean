import Mathlib.Data.List.DropRight
import Mathlib.Data.Nat.Digits.Defs
import Rewind.Text.Blank
import Rewind.Text.Number

/-!
What is read as a number, said without the reader: the value of a run of digits is the one that
their places give (`decimalValue`), and `decimal?_eq_some_iff` says which texts are numbers and of
what value. Trimming takes all the white space at both ends and nothing else
(`exists_around_trim`, `trim_around`).
-/

namespace Rewind.Text

/-! ### White space at the ends -/

/-- Some white space, or none. -/
def Blank (cs : List Char) : Prop := ∀ c ∈ cs, isBlank c

theorem trimEnd_append_blank {core back : List Char} (hback : Blank back) :
    trimEnd (core ++ back) = trimEnd core := by
  change List.rdropWhile isBlank (core ++ back) = List.rdropWhile isBlank core
  induction back using List.reverseRecOn with
  | nil => rw [List.append_nil]
  | append_singleton back c ih =>
    have hc : isBlank c := hback c (by simp)
    have hrest : Blank back := fun x hx => hback x (by simp [hx])
    rw [← List.append_assoc, List.rdropWhile_concat_pos isBlank _ _ hc]
    exact ih hrest

theorem exists_trimEnd_append (cs : List Char) : ∃ back, cs = trimEnd cs ++ back ∧ Blank back :=
  ⟨cs.rtakeWhile isBlank, List.rdropWhile_append_rtakeWhile.symm,
    fun _ hc => List.mem_rtakeWhile_imp hc⟩

/-- Nothing but white space makes no difference at the end. -/
theorem trimEnd_append_eq_iff {core back : List Char} :
    trimEnd (core ++ back) = trimEnd core ↔ Blank back := by
  refine ⟨fun h => ?_, trimEnd_append_blank⟩
  obtain ⟨rest, hall, hrest⟩ := exists_trimEnd_append (core ++ back)
  obtain ⟨tail, hcore, -⟩ := exists_trimEnd_append core
  have hback : tail ++ back = rest := by
    rw [h] at hall
    nth_rewrite 1 [hcore] at hall
    rw [List.append_assoc] at hall
    exact List.append_cancel_left hall
  exact fun c hc => hrest c (hback ▸ List.mem_append_right _ hc)

theorem exists_around_trim (cs : List Char) :
    ∃ front back, cs = front ++ (trim cs ++ back) ∧ Blank front ∧ Blank back := by
  obtain ⟨back, hback, hblank⟩ := exists_trimEnd_append (cs.dropWhile isBlank)
  refine ⟨cs.takeWhile isBlank, back, ?_, fun c hc => List.mem_takeWhile_imp hc, hblank⟩
  rw [trim, ← hback, List.takeWhile_append_dropWhile]

/-- What begins and ends with something else than white space is all that trimming leaves. -/
theorem trim_around {front core back : List Char} (hfront : Blank front) (hback : Blank back)
    (hfirst : ∀ c ∈ core.head?, ¬isBlank c) (hlast : ∀ c ∈ core.getLast?, ¬isBlank c) :
    trim (front ++ (core ++ back)) = core := by
  have hend : trimEnd core = core := by
    refine List.rdropWhile_eq_self_iff.mpr fun hne => hlast _ ?_
    exact List.getLast_mem_getLast? hne
  rw [trim, List.dropWhile_append_of_pos hfront]
  cases core with
  | nil =>
    refine List.rdropWhile_eq_nil_iff.mpr fun c hc => hback c ?_
    exact (List.dropWhile_sublist _).mem hc
  | cons c cs =>
    have hc : ¬isBlank c := hfirst c rfl
    rw [List.cons_append, List.dropWhile_cons_of_neg hc, ← List.cons_append,
      trimEnd_append_blank hback, hend]

/-! ### Digits -/

theorem digit?_of_isDigit {c : Char} (h : c.isDigit) : digit? c = some (c.toNat - '0'.toNat) := by
  have hrange : '0' ≤ c ∧ c ≤ '9' := by
    simpa [Char.isDigit, Char.le_def] using h
  exact if_pos hrange

theorem digit?_of_not_isDigit {c : Char} (h : ¬c.isDigit) : digit? c = none := by
  have hrange : ¬('0' ≤ c ∧ c ≤ '9') := by
    simpa [Char.isDigit, Char.le_def] using h
  exact if_neg hrange

theorem not_isBlank_of_isDigit {c : Char} (h : c.isDigit) : ¬isBlank c := by
  have hrange : '0'.toNat ≤ c.toNat ∧ c.toNat ≤ '9'.toNat := by
    simpa [Char.isDigit, UInt32.le_iff_toNat_le] using h
  simp only [Char.reduceToNat] at hrange
  simp [isBlank, blankRanges]
  omega

/-- The number that a run of digits stands for: each counts ten times the one after it. -/
def decimalValue (cs : List Char) : Nat :=
  Nat.ofDigits 10 (cs.reverse.map fun c => c.toNat - '0'.toNat)

theorem decimalValue_concat (cs : List Char) (c : Char) :
    decimalValue (cs ++ [c]) = decimalValue cs * 10 + (c.toNat - '0'.toNat) := by
  simp only [decimalValue, List.reverse_append, List.reverse_singleton, List.singleton_append,
    List.map_cons, Nat.ofDigits_cons]
  omega

private theorem foldlM_digit?_eq_some_iff {cs : List Char} {n : Nat} :
    cs.foldlM (fun acc c => (digit? c).map (acc * 10 + ·)) 0 = some n ↔
      (∀ c ∈ cs, c.isDigit) ∧ decimalValue cs = n := by
  -- The reader goes from the left and the value is read from the right, so the last digit goes
  -- first.
  induction cs using List.reverseRecOn generalizing n with
  | nil => simp [decimalValue]
  | append_singleton cs c ih =>
    rw [List.foldlM_append, Option.bind_eq_bind, Option.bind_eq_some_iff]
    simp only [ih, List.foldlM_cons, List.foldlM_nil, decimalValue_concat, List.forall_mem_append,
      List.forall_mem_singleton]
    by_cases hc : c.isDigit
    · rw [digit?_of_isDigit hc]
      constructor
      · rintro ⟨_, ⟨hdigits, rfl⟩, hn⟩
        exact ⟨⟨hdigits, hc⟩, by simpa using hn⟩
      · rintro ⟨⟨hdigits, -⟩, rfl⟩
        exact ⟨_, ⟨hdigits, rfl⟩, rfl⟩
    · rw [digit?_of_not_isDigit hc]
      constructor
      · rintro ⟨_, -, hn⟩
        cases hn
      · rintro ⟨⟨-, hdigit⟩, -⟩
        exact absurd hdigit hc

theorem decimal?_eq_some_iff {cs : List Char} {n : Nat} :
    decimal? cs = some n ↔ cs ≠ [] ∧ (∀ c ∈ cs, c.isDigit) ∧ decimalValue cs = n := by
  unfold decimal?
  cases cs with
  | nil => simp
  | cons c cs =>
    rw [List.isEmpty_cons, if_neg Bool.false_ne_true, foldlM_digit?_eq_some_iff]
    exact ⟨fun h => ⟨List.cons_ne_nil _ _, h⟩, fun h => h.2⟩

theorem decimalBelow?_eq_some_iff {bound n : Nat} {cs : List Char} :
    decimalBelow? bound cs = some n ↔
      cs ≠ [] ∧ (∀ c ∈ cs, c.isDigit) ∧ decimalValue cs = n ∧ n < bound := by
  rw [decimalBelow?, Option.filter_eq_some_iff, decimal?_eq_some_iff, decide_eq_true_eq]
  tauto

end Rewind.Text
