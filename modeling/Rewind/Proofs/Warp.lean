import Mathlib.Order.Bounds.Defs
import Rewind.Warp

/-!
How far two movies agree, and what a plan promises. Main statements: `commonLength` is the greatest
length at which both movies begin with the same samples (`le_commonLength_iff`), and a machine is
kept only for samples that begin with those it consumed (`plan_keeps_past`).
-/

namespace Rewind.Warp

theorem le_takeWhile_zip_iff {as bs : List Sample} {n : Nat} :
    n ≤ ((as.zip bs).takeWhile fun (x, y) => x == y).length ↔
      n ≤ as.length ∧ n ≤ bs.length ∧ as.take n = bs.take n := by
  induction as generalizing bs n with
  | nil => cases n <;> simp
  | cons a as ih =>
    cases bs with
    | nil => cases n <;> simp
    | cons b bs =>
      cases n with
      | zero => simp
      | succ n =>
        by_cases hab : a = b
        · simp [hab, ih]
        · simp [hab]

/-- Two movies agree up to a sample if it lies in both and they begin in the same way. -/
theorem le_commonLength_iff {a b : Array Sample} {n : Nat} :
    n ≤ commonLength a b ↔ n ≤ a.size ∧ n ≤ b.size ∧ a.take n = b.take n := by
  rw [commonLength, le_takeWhile_zip_iff, Array.length_toList, Array.length_toList,
    ← Array.toList_inj]
  simp

theorem commonLength_le_right (a b : Array Sample) : commonLength a b ≤ b.size :=
  (le_commonLength_iff.1 (Nat.le_refl _)).2.1

/-- With a movie that is cut off, another agrees as far as it did, but not beyond the cut. -/
theorem le_commonLength_take_iff {a b : Array Sample} {k n : Nat} :
    k ≤ commonLength a (b.take n) ↔ k ≤ commonLength a b ∧ k ≤ n := by
  have hsize : k ≤ (b.take n).size ↔ k ≤ b.size ∧ k ≤ n := by
    rw [Array.take_eq_extract, Array.size_extract]
    omega
  have hfront (hk : k ≤ n) : (b.take n).take k = b.take k := by
    simp [Nat.min_eq_left hk]
  rw [le_commonLength_iff, le_commonLength_iff, hsize]
  constructor
  · rintro ⟨ha, ⟨hb, hn⟩, he⟩
    exact ⟨⟨ha, hb, he.trans (hfront hn)⟩, hn⟩
  · rintro ⟨⟨ha, hb, he⟩, hn⟩
    exact ⟨ha, ⟨hb, hn⟩, he.trans (hfront hn).symm⟩

/-- Two movies begin with the same `n` samples. -/
def Shared (a b : Array Sample) (n : Nat) : Prop := n ≤ a.size ∧ n ≤ b.size ∧ a.take n = b.take n

theorem isGreatest_commonLength (a b : Array Sample) :
    IsGreatest {n | Shared a b n} (commonLength a b) :=
  ⟨le_commonLength_iff.1 (Nat.le_refl _), fun _ => le_commonLength_iff.2⟩

theorem commonLength_eq_sizes_iff {a b : Array Sample} :
    commonLength a b = a.size ∧ commonLength a b = b.size ↔ b = a := by
  constructor
  · rintro ⟨ha, hb⟩
    have hshared := (isGreatest_commonLength a b).1.2.2
    have hall (c : Array Sample) : c.take c.size = c := by
      rw [Array.take_eq_extract, Array.extract_size]
    rwa [ha, hall, ← ha, hb, hall, eq_comm] at hshared
  · rintro rfl
    have hle : b.size ≤ commonLength b b :=
      le_commonLength_iff.2 ⟨Nat.le_refl _, Nat.le_refl _, rfl⟩
    have heq := Nat.le_antisymm (commonLength_le_right b b) hle
    exact ⟨heq, heq⟩

/-- Only a movie itself is the same as it. -/
theorem plan_identical {current candidate : Array Sample} {cursor : Nat}
    (h : plan current candidate cursor = .ok .identical) : candidate = current := by
  unfold plan at h
  split at h
  · cases h
  · simp only at h
    split at h
    · next hc => exact commonLength_eq_sizes_iff.1 hc
    · split at h <;> cases h

/-- A plan that extends a movie leaves what was consumed as it is. -/
theorem plan_extend {current candidate : Array Sample} {cursor common : Nat}
    (h : plan current candidate cursor = .ok (.extend common)) :
    common = commonLength current candidate ∧ current.size < candidate.size ∧ cursor ≤ common := by
  unfold plan at h
  split at h
  · cases h
  · simp only at h
    split at h
    · cases h
    · split at h
      · next he => cases h; exact ⟨rfl, he⟩
      · cases h

/-- A plan that rolls back returns to what both movies share, and resumes inside the new one. -/
theorem plan_rollback {current candidate : Array Sample} {cursor common rollbackTo resumeAt : Nat}
    (h : plan current candidate cursor = .ok (.rollback common rollbackTo resumeAt)) :
    common = commonLength current candidate ∧ rollbackTo = min common cursor ∧
      resumeAt = min cursor candidate.size := by
  unfold plan at h
  split at h
  · cases h
  · simp only at h
    split at h
    · cases h
    · split at h
      · cases h
      · cases h; exact ⟨rfl, rfl, rfl⟩

/-! ## What a plan keeps -/

variable {current candidate : Array Sample} {cursor : Nat}

/-- The plan for samples, of which there are some, by what they share with those in use. -/
theorem plan_eq (hne : candidate ≠ #[]) (hcursor : cursor ≤ current.size) :
    plan current candidate cursor =
      if candidate = current then .ok .identical
      else if current.size < candidate.size ∧ candidate.take cursor = current.take cursor then
        .ok (.extend (commonLength current candidate))
      else .ok (.rollback (commonLength current candidate)
        (min (commonLength current candidate) cursor) (min cursor candidate.size)) := by
  have hextends : current.size < candidate.size ∧ cursor ≤ commonLength current candidate ↔
      current.size < candidate.size ∧ candidate.take cursor = current.take cursor := by
    refine and_congr_right fun hlt => ?_
    rw [le_commonLength_iff, eq_comm (a := candidate.take cursor)]
    exact ⟨fun h => h.2.2, fun h => ⟨hcursor, by omega, h⟩⟩
  have hempty : ¬candidate.isEmpty = true := by simpa using hne
  simp only [plan, if_neg hempty, commonLength_eq_sizes_iff, hextends]

/-- A plan that rolls back to where nothing has changed yet, and resumes at the cursor or at the end
of the samples. -/
structure Returns (current candidate : Array Sample) (cursor common rollbackTo resumeAt : Nat) :
    Prop where
  greatest : IsGreatest {n | Shared current candidate n} common
  unchanged : candidate.take rollbackTo = current.take rollbackTo
  consumed : rollbackTo ≤ cursor
  forward : rollbackTo ≤ resumeAt
  resumes : resumeAt = min cursor candidate.size
  inside : resumeAt ≤ candidate.size

theorem returns_of_plan {common rollbackTo resumeAt : Nat}
    (h : plan current candidate cursor = .ok (.rollback common rollbackTo resumeAt)) :
    Returns current candidate cursor common rollbackTo resumeAt := by
  obtain ⟨rfl, rfl, rfl⟩ := plan_rollback h
  have hright := commonLength_le_right current candidate
  have hshared := le_commonLength_iff.1 (Nat.min_le_left (commonLength current candidate) cursor)
  exact {
    greatest := isGreatest_commonLength current candidate
    unchanged := hshared.2.2.symm
    consumed := Nat.min_le_right _ _
    forward := by omega
    resumes := rfl
    inside := Nat.min_le_right _ _ }

theorem plan_identical_iff (hne : candidate ≠ #[]) (hcursor : cursor ≤ current.size) :
    plan current candidate cursor = .ok .identical ↔ candidate = current := by
  refine ⟨plan_identical, fun h => ?_⟩
  rw [plan_eq hne hcursor, if_pos h]

theorem exists_extend_iff (hne : candidate ≠ #[]) (hcursor : cursor ≤ current.size) :
    (∃ common, plan current candidate cursor = .ok (.extend common)) ↔
      current.size < candidate.size ∧ candidate.take cursor = current.take cursor := by
  constructor
  · rintro ⟨common, h⟩
    obtain ⟨rfl, hlonger, hconsumed⟩ := plan_extend h
    exact ⟨hlonger, (le_commonLength_iff.1 hconsumed).2.2.symm⟩
  · rintro ⟨hlonger, hsame⟩
    have hchanged : candidate ≠ current := by
      rintro rfl
      exact Nat.lt_irrefl _ hlonger
    exact ⟨_, by rw [plan_eq hne hcursor, if_neg hchanged, if_pos ⟨hlonger, hsame⟩]⟩

theorem exists_rollback_iff (hne : candidate ≠ #[]) (hcursor : cursor ≤ current.size) :
    (∃ common rollbackTo resumeAt,
        plan current candidate cursor = .ok (.rollback common rollbackTo resumeAt)) ↔
      candidate ≠ current ∧
        ¬(current.size < candidate.size ∧ candidate.take cursor = current.take cursor) := by
  rw [plan_eq hne hcursor]
  constructor
  · rintro ⟨common, rollbackTo, resumeAt, h⟩
    split at h
    · cases h
    · split at h
      · cases h
      · exact ⟨‹_›, ‹_›⟩
  · rintro ⟨hchanged, hextends⟩
    exact ⟨_, _, _, by rw [if_neg hchanged, if_neg hextends]⟩

/-- A machine that is kept consumed what the candidate has as well. -/
theorem unchanged_of_kept (hcursor : cursor ≤ current.size) {p : Plan}
    (h : plan current candidate cursor = .ok p)
    (hkept : ∀ common rollbackTo resumeAt, p ≠ .rollback common rollbackTo resumeAt) :
    cursor ≤ candidate.size ∧ candidate.take cursor = current.take cursor := by
  cases p with
  | identical =>
    obtain rfl := plan_identical h
    exact ⟨hcursor, rfl⟩
  | extend common =>
    obtain ⟨rfl, -, hconsumed⟩ := plan_extend h
    obtain ⟨-, hinside, hsame⟩ := le_commonLength_iff.1 hconsumed
    exact ⟨hinside, hsame.symm⟩
  | rollback common rollbackTo resumeAt => exact absurd rfl (hkept _ _ _)

/-- **A plan never keeps a past that has changed.** Nothing is to be done if and only if the samples
are the same, and they are only extended if and only if they are more and the consumed ones are the
same. Any other plan rolls back to where nothing has changed yet. So a machine that is kept, for the
plan does not roll back, consumed the samples that the candidate begins with. -/
theorem plan_keeps_past (hne : candidate ≠ #[]) (hcursor : cursor ≤ current.size) :
    (plan current candidate cursor = .ok .identical ↔ candidate = current) ∧
    ((∃ common, plan current candidate cursor = .ok (.extend common)) ↔
      current.size < candidate.size ∧ candidate.take cursor = current.take cursor) ∧
    ((∃ common rollbackTo resumeAt,
        plan current candidate cursor = .ok (.rollback common rollbackTo resumeAt)) ↔
      candidate ≠ current ∧
        ¬(current.size < candidate.size ∧ candidate.take cursor = current.take cursor)) ∧
    (∀ common, plan current candidate cursor = .ok (.extend common) →
      IsGreatest {n | Shared current candidate n} common) ∧
    (∀ common rollbackTo resumeAt,
      plan current candidate cursor = .ok (.rollback common rollbackTo resumeAt) →
        Returns current candidate cursor common rollbackTo resumeAt) ∧
    ∀ p, plan current candidate cursor = .ok p →
      (∀ common rollbackTo resumeAt, p ≠ .rollback common rollbackTo resumeAt) →
        cursor ≤ candidate.size ∧ candidate.take cursor = current.take cursor :=
  ⟨plan_identical_iff hne hcursor, exists_extend_iff hne hcursor, exists_rollback_iff hne hcursor,
    fun _ h => (plan_extend h).1 ▸ isGreatest_commonLength _ _, fun _ _ _ => returns_of_plan,
    fun _ => unchanged_of_kept hcursor⟩

/-- A candidate that ends before the cursor is replayed to its end. -/
theorem plan_keeps_past_cut :
    let current : Array Sample := #[⟨1, 0, 0⟩, ⟨2, 0, 0⟩, ⟨3, 0, 0⟩]
    let candidate : Array Sample := #[⟨1, 0, 0⟩, ⟨4, 0, 0⟩]
    candidate ≠ #[] ∧ 3 ≤ current.size ∧ plan current candidate 3 = .ok (.rollback 1 1 2) ∧
      Returns current candidate 3 1 1 2 := by
  intro current candidate
  have hne : candidate ≠ #[] := by decide
  have hcursor : 3 ≤ current.size := by decide
  have hplan : plan current candidate 3 = .ok (.rollback 1 1 2) := rfl
  obtain ⟨-, -, -, -, hreturns, -⟩ := plan_keeps_past hne hcursor
  exact ⟨hne, hcursor, hplan, hreturns _ _ _ hplan⟩

end Rewind.Warp
