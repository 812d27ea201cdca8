import Mathlib.Data.List.Forall2
import Rewind.Text.Utf8

/-!
Text in bytes. Main statements: the bytes of characters read back as these characters
(`decodeLossy_utf8`), and bytes without a zero, well-formed or not, as characters without a zero
(`zero_notMem_decodeLossy`).
-/

namespace Rewind.Text

open String (utf8EncodeChar)

theorem takeRanges_append {ranges : List (UInt8 × UInt8)} {tail : List UInt8}
    (h : List.Forall₂ (fun r b => r.1 ≤ b ∧ b ≤ r.2) ranges tail) (rest : List UInt8) :
    takeRanges ranges (tail ++ rest) = (tail, rest) := by
  induction h with
  | nil => cases rest <;> rfl
  | cons hb _ ih => rw [List.cons_append, takeRanges, if_pos hb, ih]

theorem decodeLossy_sequence {lead : UInt8} {ranges : List (UInt8 × UInt8)} {tail : List UInt8}
    (hr : tailRanges lead = some ranges)
    (ht : List.Forall₂ (fun r b => r.1 ≤ b ∧ b ≤ r.2) ranges tail) (rest : List UInt8) :
    decodeLossy (lead :: (tail ++ rest)) = ofSequence lead tail :: decodeLossy rest := by
  rw [decodeLossy]
  simp only [hr, takeRanges_append ht rest, ht.length_eq, ↓reduceIte]

theorem mem_tail {n : Nat} (h : 0x80 ≤ n ∧ n < 0xC0) :
    (0x80 : UInt8) ≤ UInt8.ofNat n ∧ UInt8.ofNat n ≤ 0xBF := by
  rw [UInt8.le_iff_toNat_le, UInt8.le_iff_toNat_le,
    UInt8.toNat_ofNat_of_lt' (show n < 256 by omega)]
  exact ⟨h.1, Nat.le_of_lt_succ h.2⟩

/-! ## One character -/

theorem tailRanges_one {b : UInt8} (h : b.toNat < 0x80) : tailRanges b = some [] :=
  if_pos h

theorem tailRanges_two {b : UInt8} (h : 0xC2 ≤ b.toNat ∧ b.toNat < 0xE0) :
    tailRanges b = some [(0x80, 0xBF)] := by
  simp only [tailRanges, UInt8.lt_iff_toNat_lt, UInt8.reduceToNat]
  rw [if_neg (by omega), if_neg (by omega), if_pos h.2]

theorem tailRanges_three {b : UInt8} (h : 0xE0 ≤ b.toNat ∧ b.toNat < 0xF0) :
    tailRanges b = some [(if b.toNat = 0xE0 then 0xA0 else 0x80,
      if b.toNat = 0xED then 0x9F else 0xBF), (0x80, 0xBF)] := by
  simp only [tailRanges, UInt8.lt_iff_toNat_lt, ← UInt8.toNat_inj, UInt8.reduceToNat]
  rw [if_neg (by omega), if_neg (by omega), if_neg (by omega)]
  by_cases h0 : b.toNat = 0xE0
  · simp [h0]
  · by_cases hd : b.toNat = 0xED
    · simp [hd]
    · simp [h0, hd, h.2]

theorem tailRanges_four {b : UInt8} (h : 0xF0 ≤ b.toNat ∧ b.toNat ≤ 0xF4) :
    tailRanges b = some [(if b.toNat = 0xF0 then 0x90 else 0x80,
      if b.toNat = 0xF4 then 0x8F else 0xBF), (0x80, 0xBF), (0x80, 0xBF)] := by
  simp only [tailRanges, UInt8.lt_iff_toNat_lt, ← UInt8.toNat_inj, UInt8.reduceToNat]
  rw [if_neg (by omega), if_neg (by omega), if_neg (by omega), if_neg (by omega),
    if_neg (by omega), if_neg (by omega)]
  by_cases h0 : b.toNat = 0xF0
  · simp [h0]
  · by_cases h4 : b.toNat = 0xF4
    · simp [h4]
    · have hlt : b.toNat < 0xF4 := by omega
      simp [h0, h4, hlt]

theorem decodeLossy_one {v : Nat} (h : v < 0x80) (rest : List UInt8) :
    decodeLossy (UInt8.ofNat v :: rest) = Char.ofNat v :: decodeLossy rest := by
  have hlead : (UInt8.ofNat v).toNat = v := UInt8.toNat_ofNat_of_lt' (show v < 256 by omega)
  have hs := decodeLossy_sequence (tailRanges_one (hlead.symm ▸ h)) .nil rest
  have hv : ofSequence (UInt8.ofNat v) [] = Char.ofNat v := congrArg Char.ofNat hlead
  rwa [hv] at hs

theorem decodeLossy_two {v : Nat} (h : 0x80 ≤ v ∧ v < 0x800) (rest : List UInt8) :
    decodeLossy (UInt8.ofNat (v / 64 % 32 + 192) :: UInt8.ofNat (v % 64 + 128) :: rest) =
      Char.ofNat v :: decodeLossy rest := by
  -- Each byte goes by one name, whose value is all that the ranges ask about.
  generalize ha : v / 64 % 32 + 192 = a
  generalize hb : v % 64 + 128 = b
  have hlead : (UInt8.ofNat a).toNat = a := UInt8.toNat_ofNat_of_lt' (show a < 256 by omega)
  have hnext : (UInt8.ofNat b).toNat = b := UInt8.toNat_ofNat_of_lt' (show b < 256 by omega)
  have hr : tailRanges (UInt8.ofNat a) = some [(0x80, 0xBF)] := tailRanges_two (by omega)
  have hs := decodeLossy_sequence hr (.cons (mem_tail (n := b) (by omega)) .nil) rest
  have hv : ofSequence (UInt8.ofNat a) [UInt8.ofNat b] = Char.ofNat v := by
    simp only [ofSequence, List.length_cons, List.length_nil, List.foldl_cons, List.foldl_nil,
      hlead, hnext]
    congr 1
    omega
  rwa [hv] at hs

theorem decodeLossy_three {v : Nat} (h : 0x800 ≤ v ∧ v < 0x10000)
    (hsurrogate : v < 0xD800 ∨ 0xDFFF < v) (rest : List UInt8) :
    decodeLossy (UInt8.ofNat (v / 4096 % 16 + 224) :: UInt8.ofNat (v / 64 % 64 + 128) ::
      UInt8.ofNat (v % 64 + 128) :: rest) = Char.ofNat v :: decodeLossy rest := by
  generalize ha : v / 4096 % 16 + 224 = a
  generalize hb : v / 64 % 64 + 128 = b
  generalize hc : v % 64 + 128 = c
  have hlead : (UInt8.ofNat a).toNat = a := UInt8.toNat_ofNat_of_lt' (show a < 256 by omega)
  have hnext : (UInt8.ofNat b).toNat = b := UInt8.toNat_ofNat_of_lt' (show b < 256 by omega)
  have hlast : (UInt8.ofNat c).toNat = c := UInt8.toNat_ofNat_of_lt' (show c < 256 by omega)
  have hr := tailRanges_three (b := UInt8.ofNat a) (by omega)
  rw [hlead] at hr
  have hmem : (if a = 0xE0 then 0xA0 else 0x80 : UInt8) ≤ UInt8.ofNat b ∧
      UInt8.ofNat b ≤ (if a = 0xED then 0x9F else 0xBF : UInt8) := by
    rw [UInt8.le_iff_toNat_le, UInt8.le_iff_toNat_le, hnext]
    split <;> split <;> simp only [UInt8.reduceToNat] <;> omega
  have hs := decodeLossy_sequence hr (.cons hmem (.cons (mem_tail (n := c) (by omega)) .nil)) rest
  have hv : ofSequence (UInt8.ofNat a) [UInt8.ofNat b, UInt8.ofNat c] = Char.ofNat v := by
    simp only [ofSequence, List.length_cons, List.length_nil, List.foldl_cons, List.foldl_nil,
      hlead, hnext, hlast]
    congr 1
    omega
  rwa [hv] at hs

theorem decodeLossy_four {v : Nat} (h : 0x10000 ≤ v ∧ v < 0x110000) (rest : List UInt8) :
    decodeLossy (UInt8.ofNat (v / 262144 % 8 + 240) :: UInt8.ofNat (v / 4096 % 64 + 128) ::
      UInt8.ofNat (v / 64 % 64 + 128) :: UInt8.ofNat (v % 64 + 128) :: rest) =
        Char.ofNat v :: decodeLossy rest := by
  generalize ha : v / 262144 % 8 + 240 = a
  generalize hb : v / 4096 % 64 + 128 = b
  generalize hc : v / 64 % 64 + 128 = c
  generalize hd : v % 64 + 128 = d
  have hlead : (UInt8.ofNat a).toNat = a := UInt8.toNat_ofNat_of_lt' (show a < 256 by omega)
  have hsecond : (UInt8.ofNat b).toNat = b := UInt8.toNat_ofNat_of_lt' (show b < 256 by omega)
  have hthird : (UInt8.ofNat c).toNat = c := UInt8.toNat_ofNat_of_lt' (show c < 256 by omega)
  have hlast : (UInt8.ofNat d).toNat = d := UInt8.toNat_ofNat_of_lt' (show d < 256 by omega)
  have hr := tailRanges_four (b := UInt8.ofNat a) (by omega)
  rw [hlead] at hr
  have hmem : (if a = 0xF0 then 0x90 else 0x80 : UInt8) ≤ UInt8.ofNat b ∧
      UInt8.ofNat b ≤ (if a = 0xF4 then 0x8F else 0xBF : UInt8) := by
    rw [UInt8.le_iff_toNat_le, UInt8.le_iff_toNat_le, hsecond]
    split <;> split <;> simp only [UInt8.reduceToNat] <;> omega
  have hs := decodeLossy_sequence hr (.cons hmem (.cons (mem_tail (n := c) (by omega))
    (.cons (mem_tail (n := d) (by omega)) .nil))) rest
  have hv : ofSequence (UInt8.ofNat a) [UInt8.ofNat b, UInt8.ofNat c, UInt8.ofNat d] =
      Char.ofNat v := by
    simp only [ofSequence, List.length_cons, List.length_nil, List.foldl_cons, List.foldl_nil,
      hlead, hsecond, hthird, hlast]
    congr 1
    omega
  rwa [hv] at hs

/-- The bytes of a character read back as the character. -/
theorem decodeLossy_utf8EncodeChar (c : Char) (rest : List UInt8) :
    decodeLossy (utf8EncodeChar c ++ rest) = c :: decodeLossy rest := by
  have hvalid : c.val.toNat < 0xD800 ∨ 0xDFFF < c.val.toNat ∧ c.val.toNat < 0x110000 := c.valid
  have hc : Char.ofNat c.val.toNat = c := Char.ofNat_toNat c
  unfold utf8EncodeChar
  simp only
  generalize c.val.toNat = v at hvalid hc
  rw [← hc]
  split
  · exact decodeLossy_one (by omega) rest
  · split
    · exact decodeLossy_two (by omega) rest
    · split
      · exact decodeLossy_three (by omega) (by omega) rest
      · exact decodeLossy_four (by omega) rest

/-! ## Text -/

/-- The bytes of characters. -/
def utf8 (cs : List Char) : List UInt8 := cs.flatMap utf8EncodeChar

/-- Text is read back from its bytes. -/
theorem decodeLossy_utf8 (cs : List Char) : decodeLossy (utf8 cs) = cs := by
  induction cs with
  | nil => rw [utf8, List.flatMap_nil, decodeLossy]
  | cons c cs ih => rw [utf8, List.flatMap_cons, decodeLossy_utf8EncodeChar, ← utf8, ih]

theorem toList_toUTF8 (cs : List Char) : (String.ofList cs).toUTF8.data.toList = utf8 cs := by
  rw [String.toUTF8_eq_toByteArray, String.toByteArray_ofList, List.utf8Encode]
  simp [utf8]

theorem length_utf8 (cs : List Char) : (utf8 cs).length = (String.ofList cs).utf8ByteSize := by
  rw [← toList_toUTF8]
  rfl

/-- Only the zero character has a zero byte. -/
theorem ne_zero_of_mem_utf8EncodeChar {c : Char} (h : c ≠ '\x00') {b : UInt8}
    (hb : b ∈ utf8EncodeChar c) : b ≠ 0 := by
  have hne {n : Nat} (hn : 0 < n ∧ n < 256) : UInt8.ofNat n ≠ 0 := by
    rw [← UInt8.toNat_inj.ne, UInt8.toNat_ofNat_of_lt' hn.2]
    exact Nat.ne_of_gt hn.1
  have hv : c.val.toNat ≠ 0 := by
    intro hz
    exact h (Char.ext (UInt32.toNat.inj hz))
  unfold utf8EncodeChar at hb
  simp only at hb
  generalize c.val.toNat = v at hv hb
  split at hb
  · obtain rfl := List.mem_singleton.1 hb
    exact hne (by omega)
  · split at hb
    · simp only [List.mem_cons, List.not_mem_nil, or_false] at hb
      rcases hb with rfl | rfl <;> exact hne (by omega)
    · split at hb
      · simp only [List.mem_cons, List.not_mem_nil, or_false] at hb
        rcases hb with rfl | rfl | rfl <;> exact hne (by omega)
      · simp only [List.mem_cons, List.not_mem_nil, or_false] at hb
        rcases hb with rfl | rfl | rfl | rfl <;> exact hne (by omega)

/-- Text ends at its first zero character where its bytes end at the first zero byte. -/
theorem takeWhile_utf8 (cs : List Char) (n : Nat) :
    (utf8 cs ++ List.replicate (n + 1) 0).takeWhile (· != 0) =
      utf8 (cs.takeWhile (· != '\x00')) := by
  induction cs with
  | nil => rfl
  | cons c cs ih =>
    rw [utf8, List.flatMap_cons, ← utf8, List.append_assoc]
    by_cases h : c = '\x00'
    · subst h
      rfl
    · have hall : ∀ b ∈ utf8EncodeChar c, (b != 0) = true :=
        fun b hb => bne_iff_ne.2 (ne_zero_of_mem_utf8EncodeChar h hb)
      have hc : (c != '\x00') = true := bne_iff_ne.2 h
      rw [List.takeWhile_append_of_pos hall, ih,
        List.takeWhile_cons_of_pos (p := (· != '\x00')) hc]
      rfl

theorem length_utf8_cutTo_le (limit : Nat) (cs : List Char) :
    (utf8 (cutTo limit cs)).length ≤ limit := by
  fun_induction cutTo limit cs with
  | case1 => exact Nat.zero_le _
  | case2 limit c cs h ih =>
    rw [utf8, List.flatMap_cons, List.length_append, ← utf8, String.length_utf8EncodeChar]
    omega
  | case3 => exact Nat.zero_le _

theorem cutTo_of_length_le {limit : Nat} {cs : List Char} (h : (utf8 cs).length ≤ limit) :
    cutTo limit cs = cs := by
  induction cs generalizing limit with
  | nil => cases limit <;> rfl
  | cons c cs ih =>
    rw [utf8, List.flatMap_cons, List.length_append, ← utf8, String.length_utf8EncodeChar] at h
    rw [cutTo, if_pos (by omega), ih (by omega)]

/-! ## Text that is cut -/

theorem cutTo_cutTo (limit : Nat) (cs : List Char) :
    cutTo limit (cutTo limit cs) = cutTo limit cs :=
  cutTo_of_length_le (length_utf8_cutTo_le limit cs)

/-- What is kept is the longest part from the front that fits. -/
theorem isPrefix_cutTo_iff {limit : Nat} {cs front : List Char} :
    front <+: cutTo limit cs ↔ front <+: cs ∧ (utf8 front).length ≤ limit := by
  induction cs generalizing limit front with
  | nil =>
    rw [cutTo, List.prefix_nil]
    exact ⟨by rintro rfl; exact ⟨rfl, Nat.zero_le _⟩, And.left⟩
  | cons c cs ih =>
    rw [cutTo]
    cases front with
    | nil => simp [utf8]
    | cons c' front =>
      have hsize : (utf8 (c' :: front)).length = c'.utf8Size + (utf8 front).length := by
        rw [utf8, List.flatMap_cons, List.length_append, ← utf8, String.length_utf8EncodeChar]
      rw [hsize, List.cons_prefix_cons]
      split
      · rw [List.cons_prefix_cons, ih]
        constructor
        · rintro ⟨rfl, hp, hl⟩
          exact ⟨⟨rfl, hp⟩, by omega⟩
        · rintro ⟨⟨rfl, hp⟩, hl⟩
          exact ⟨rfl, hp, by omega⟩
      · next hc =>
        rw [List.prefix_nil]
        refine iff_of_false (List.cons_ne_nil _ _) ?_
        rintro ⟨⟨rfl, -⟩, hl⟩
        omega

/-! ## Ill-formed text -/

theorem takeRanges_append_self (ranges : List (UInt8 × UInt8)) (bytes : List UInt8) :
    (takeRanges ranges bytes).1 ++ (takeRanges ranges bytes).2 = bytes := by
  fun_induction takeRanges ranges bytes with
  | case1 low high ranges b rest h taken rest' heq ih =>
    simp only [heq] at ih
    rw [List.cons_append, ih]
  | case2 => rfl
  | case3 => rfl

/-- What is taken lies in the ranges, if it is taken in full. -/
theorem forall₂_takeRanges {ranges : List (UInt8 × UInt8)} {bytes : List UInt8}
    (h : (takeRanges ranges bytes).1.length = ranges.length) :
    List.Forall₂ (fun r b => r.1 ≤ b ∧ b ≤ r.2) ranges (takeRanges ranges bytes).1 := by
  fun_induction takeRanges ranges bytes with
  | case1 low high ranges b rest hb taken rest' heq ih =>
    simp only [heq] at ih
    exact .cons hb (ih (Nat.succ.inj h))
  | case2 => cases h
  | case3 ranges rest hne =>
    cases ranges with
    | nil => exact .nil
    | cons r ranges => cases h

theorem ofNat_ne_zero {n : Nat} (hn : n ≠ 0) (hv : n.isValidChar) : Char.ofNat n ≠ '\x00' := by
  intro h
  have ht : (Char.ofNat n).toNat = n := by
    rw [Char.ofNat, dif_pos hv]
    rfl
  rw [h] at ht
  exact hn ht.symm

theorem tailRanges_none {b : UInt8} (h : 0x80 ≤ b.toNat ∧ b.toNat < 0xC2 ∨ 0xF4 < b.toNat) :
    tailRanges b = none := by
  simp only [tailRanges, UInt8.lt_iff_toNat_lt, ← UInt8.toNat_inj, UInt8.reduceToNat]
  split
  · omega
  · split
    · rfl
    · repeat rw [if_neg (by omega)]

/-- A sequence that does not start with a zero byte is not read as the zero character. -/
theorem ofSequence_ne_zero {lead : UInt8} {ranges : List (UInt8 × UInt8)} {tail : List UInt8}
    (h : lead ≠ 0) (hr : tailRanges lead = some ranges)
    (ht : List.Forall₂ (fun r b => r.1 ≤ b ∧ b ≤ r.2) ranges tail) :
    ofSequence lead tail ≠ '\x00' := by
  have hlead : lead.toNat ≠ 0 := fun hz => h (UInt8.toNat.inj hz)
  by_cases h1 : lead.toNat < 0x80
  · rw [tailRanges_one h1] at hr
    cases hr
    cases ht
    change Char.ofNat lead.toNat ≠ _
    exact ofNat_ne_zero hlead (.inl (by omega))
  by_cases h2 : 0xC2 ≤ lead.toNat ∧ lead.toNat < 0xE0
  · rw [tailRanges_two h2] at hr
    cases hr
    obtain _ | @⟨-, b, -, -, hb, _ | _⟩ := ht
    change Char.ofNat (lead.toNat % 0x20 * 0x40 + b.toNat % 0x40) ≠ _
    exact ofNat_ne_zero (by omega) (.inl (by omega))
  by_cases h3 : 0xE0 ≤ lead.toNat ∧ lead.toNat < 0xF0
  · rw [tailRanges_three h3] at hr
    cases hr
    obtain _ | @⟨-, b, -, -, hb, _ | @⟨-, c, -, -, hc, _ | _⟩⟩ := ht
    change Char.ofNat ((lead.toNat % 0x10 * 0x40 + b.toNat % 0x40) * 0x40 + c.toNat % 0x40) ≠ _
    simp only [UInt8.le_iff_toNat_le, apply_ite UInt8.toNat, UInt8.reduceToNat] at hb
    obtain ⟨hlow, hhigh⟩ := hb
    split at hlow <;> split at hhigh <;>
      exact ofNat_ne_zero (by omega) (by unfold Nat.isValidChar; omega)
  by_cases h4 : 0xF0 ≤ lead.toNat ∧ lead.toNat ≤ 0xF4
  · rw [tailRanges_four h4] at hr
    cases hr
    obtain _ | @⟨-, b, -, -, hb, _ | @⟨-, c, -, -, hc, _ | @⟨-, d, -, -, hd, _ | _⟩⟩⟩ := ht
    change Char.ofNat (((lead.toNat % 0x08 * 0x40 + b.toNat % 0x40) * 0x40 + c.toNat % 0x40) *
      0x40 + d.toNat % 0x40) ≠ _
    simp only [UInt8.le_iff_toNat_le, apply_ite UInt8.toNat, UInt8.reduceToNat] at hb
    obtain ⟨hlow, hhigh⟩ := hb
    split at hlow <;> split at hhigh <;>
      exact ofNat_ne_zero (by omega) (by unfold Nat.isValidChar; omega)
  · rw [tailRanges_none (by omega)] at hr
    cases hr

/-- Bytes without a zero read as text without the zero character. -/
theorem zero_notMem_decodeLossy {bytes : List UInt8} (h : 0 ∉ bytes) :
    '\x00' ∉ decodeLossy bytes := by
  fun_induction decodeLossy bytes with
  | case1 => exact List.not_mem_nil
  | case2 lead bytes hr ih =>
    rw [List.mem_cons, not_or] at h ⊢
    exact ⟨by decide, ih h.2⟩
  | case3 lead bytes ranges hr tail c ih =>
    rw [List.mem_cons, not_or] at h ⊢
    have hrest := takeRanges_append_self ranges bytes
    refine ⟨?_, ih fun hz => h.2 (hrest ▸ List.mem_append_right _ hz)⟩
    by_cases hlength : tail.length = ranges.length
    · have hc : c = ofSequence lead tail := if_pos hlength
      rw [hc]
      exact (ofSequence_ne_zero (Ne.symm h.1) hr (forall₂_takeRanges hlength)).symm
    · have hc : c = replacement := if_neg hlength
      rw [hc]
      decide

end Rewind.Text
