/-!
Bits of a word set and cleared under a mask. The facts are read off the single bits (`eq_of_bits`).
-/

namespace Rewind.Wire.Mask

theorem eq_of_bits {a b : UInt32} (h : ∀ i (hi : i < 32), a.toBitVec[i] = b.toBitVec[i]) : a = b :=
  UInt32.toBitVec_inj.mp (BitVec.eq_of_getElem_eq h)

theorem or_clear (a m : UInt32) : (a ||| m) &&& ~~~m = a &&& ~~~m :=
  eq_of_bits fun i hi => by simp [Bool.and_or_distrib_right]

theorem or_and_self (a m : UInt32) : (a ||| m) &&& m = m :=
  eq_of_bits fun i hi => by simp [Bool.and_or_distrib_right]

theorem clear_or (a m : UInt32) : a &&& ~~~m ||| m = a ||| m :=
  eq_of_bits fun i hi => by simp [Bool.or_and_distrib_right]

theorem clear_and (a m : UInt32) : a &&& ~~~m &&& m = 0 := by
  rw [UInt32.and_assoc, UInt32.not_and_self, UInt32.and_zero]

theorem clear_of_and_eq_zero {a m : UInt32} (h : a &&& m = 0) : a &&& ~~~m = a := by
  refine eq_of_bits fun i hi => ?_
  have hbit : (a &&& m).toBitVec[i] = false := by rw [h]; exact BitVec.getElem_zero _
  rw [UInt32.toBitVec_and, BitVec.getElem_and] at hbit
  rw [UInt32.toBitVec_and, UInt32.toBitVec_not, BitVec.getElem_and, BitVec.getElem_not]
  grind

/-- A mask of one bit changes nothing where the bit is set already. -/
theorem or_of_and_ne_zero {a m : UInt32} {k : Nat} (hm : m.toBitVec = BitVec.twoPow 32 k)
    (h : a &&& m ≠ 0) : a ||| m = a := by
  have hset : a.toBitVec.getLsbD k = true := by
    refine Bool.of_not_eq_false fun hclear => h (UInt32.toBitVec_inj.mp ?_)
    rw [UInt32.toBitVec_and, hm, BitVec.and_twoPow, hclear]
    rfl
  refine eq_of_bits fun i hi => ?_
  rw [UInt32.toBitVec_or, hm, BitVec.getElem_or, BitVec.getElem_twoPow]
  by_cases hik : i = k
  · subst hik
    rw [← BitVec.getLsbD_eq_getElem, hset]
    rfl
  · simp [hik]

end Rewind.Wire.Mask
