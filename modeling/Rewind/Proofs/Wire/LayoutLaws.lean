import Rewind.Wire.Register

/-!
Laws of layouts. `Layout.ReadsAs` says of one value that writing it appends its bytes, as many as
the layout promises, and that these bytes read back, wherever they stand, as a second value: the
same one for numbers, blocks and vectors, the fitted one for regions. `Layout.Lossless` says the
converse, that what is read is written back as it stood, and `Layout.Local` that nothing around it
matters. Main statement: a record whose members read back reads back as the blank record with these
members put in (`record_readsAs`).
-/

namespace Rewind

namespace Bytes

theorem getNat_lt (n : Nat) (data : ByteArray) (offset : Nat) :
    getNat n data offset < Nat.pow 256 n := by
  induction n generalizing offset with
  | zero => exact Nat.one_pos
  | succ n ih =>
    have hb := (peek data offset).toNat_lt
    have hn := ih (offset + 1)
    have hp : Nat.pow 256 (n + 1) = 256 * Nat.pow 256 n := Nat.mul_comm ..
    rw [getNat, hp]
    omega

theorem extract_succ {data : ByteArray} {offset : Nat} (n : Nat) (h : offset < data.size) :
    data.extract offset (offset + (n + 1)) =
      [peek data offset].toByteArray ++ data.extract (offset + 1) (offset + 1 + n) := by
  have hone : data.extract offset (offset + 1) = [peek data offset].toByteArray := by
    rw [peek, dif_pos h, ByteArray.extract_add_one h]
  rw [ByteArray.extract_eq_extract_append_extract (offset + 1) (by omega) (by omega), hone,
    Nat.add_assoc, Nat.add_comm 1 n]

/-- The digits of a number that was read are those that it was read from. -/
theorem putNat_getNat {n offset : Nat} {data : ByteArray} (h : offset + n ≤ data.size) :
    putNat n (getNat n data offset) ByteArray.empty = data.extract offset (offset + n) := by
  induction n generalizing offset with
  | zero => rw [Nat.add_zero, ByteArray.extract_same]; rfl
  | succ n ih =>
    have hb := (peek data offset).toNat_lt
    have hdigit : UInt8.ofNat (getNat (n + 1) data offset) = peek data offset := by
      apply UInt8.toNat.inj
      rw [UInt8.toNat_ofNat', getNat]
      omega
    have hrest : getNat (n + 1) data offset / 256 = getNat n data (offset + 1) := by
      rw [getNat]
      omega
    rw [putNat, hdigit, hrest, putNat_eq_append, push_eq_append, ByteArray.empty_append,
      ih (by omega), extract_succ n (by omega)]

theorem peek_extract {data : ByteArray} {offset n j : Nat} (h : offset + n ≤ data.size)
    (hj : j < n) : peek (data.extract offset (offset + n)) j = peek data (offset + j) := by
  rw [peek, peek, dif_pos (by rw [ByteArray.size_extract]; omega), dif_pos (by omega),
    ByteArray.getElem_extract]

/-- Parts of two byte strings are the same if they are so byte by byte. -/
theorem extract_eq_iff {a b : ByteArray} {offset n : Nat} (ha : offset + n ≤ a.size)
    (hb : offset + n ≤ b.size) :
    a.extract offset (offset + n) = b.extract offset (offset + n) ↔
      ∀ i, offset ≤ i → i < offset + n → peek a i = peek b i := by
  constructor
  · intro h i hle hlt
    have hi : peek (a.extract offset (offset + n)) (i - offset) =
        peek (b.extract offset (offset + n)) (i - offset) := by rw [h]
    rwa [peek_extract ha (by omega), peek_extract hb (by omega), Nat.add_sub_cancel' hle] at hi
  · intro h
    have hsize : (a.extract offset (offset + n)).size = (b.extract offset (offset + n)).size := by
      rw [ByteArray.size_extract, ByteArray.size_extract]
      omega
    refine ByteArray.ext_getElem hsize fun j hj hj' => ?_
    have hjn : j < n := by
      rw [ByteArray.size_extract] at hj
      omega
    have hsame := h (offset + j) (by omega) (by omega)
    rw [← peek_extract ha hjn, ← peek_extract hb hjn] at hsame
    rwa [peek, peek, dif_pos hj, dif_pos hj'] at hsame

/-- What is written over a byte string stands between what was in front of it and behind it. -/
theorem overwrite_eq (data : ByteArray) (offset : Nat) (patch : ByteArray) :
    overwrite data offset patch =
      data.extract 0 offset ++ patch ++ data.extract (offset + patch.size) data.size := by
  rw [overwrite, ByteArray.copySlice_eq_append]
  simp

theorem overwrite_front (data front : ByteArray) :
    overwrite data 0 front = front ++ data.extract front.size data.size := by
  rw [overwrite_eq, ByteArray.extract_same, ByteArray.empty_append, Nat.zero_add]

/-- Behind another front, the rest of a byte string stands where it did. -/
theorem peek_append_extract {front : ByteArray} (data : ByteArray) {i : Nat}
    (h : front.size ≤ i) :
    peek (front ++ data.extract front.size data.size) i = peek data i := by
  have hsize : (front ++ data.extract front.size data.size).size =
      front.size + (data.size - front.size) := by
    rw [ByteArray.size_append, ByteArray.size_extract, Nat.min_self]
  by_cases hi : i < data.size
  · rw [peek, peek, dif_pos (by omega), dif_pos hi, ByteArray.getElem_append_right h,
      ByteArray.getElem_extract]
    congr 1
    omega
  · rw [peek, peek, dif_neg (by omega), dif_neg hi]

theorem peek_append_right {a b : ByteArray} {i : Nat} (h : a.size ≤ i) :
    peek (a ++ b) i = peek b (i - a.size) := by
  have hsize : i < (a ++ b).size ↔ i - a.size < b.size := by
    rw [ByteArray.size_append]
    omega
  by_cases hi : i < (a ++ b).size
  · rw [peek, peek, dif_pos hi, dif_pos (hsize.1 hi), ByteArray.getElem_append_right h]
  · rw [peek, peek, dif_neg hi, dif_neg (mt hsize.2 hi)]

/-- What is written inside a byte string stands there, and the rest as it did. -/
theorem peek_overwrite {data patch : ByteArray} {offset : Nat} (h : offset + patch.size ≤ data.size)
    (i : Nat) : peek (overwrite data offset patch) i =
      if offset ≤ i ∧ i < offset + patch.size then peek patch (i - offset) else peek data i := by
  have hfront : (data.extract 0 offset).size = offset := by
    rw [ByteArray.size_extract]
    omega
  have hsize : (data.extract 0 offset ++ patch).size = offset + patch.size := by
    rw [ByteArray.size_append, hfront]
  rw [overwrite_eq]
  by_cases hlow : i < offset
  · rw [if_neg (by omega), peek_append_left (by omega), peek_append_left (by omega)]
    have hextract : peek (data.extract 0 (0 + offset)) i = peek data (0 + i) :=
      peek_extract (by omega) hlow
    rwa [Nat.zero_add, Nat.zero_add] at hextract
  · by_cases hhigh : i < offset + patch.size
    · rw [if_pos ⟨by omega, hhigh⟩, peek_append_left (by omega), peek_append_right (by omega),
        hfront]
    · rw [if_neg (by omega), ← hsize, peek_append_extract data (by omega)]

end Bytes

namespace Wire

namespace Layout

/-- The bytes of a value. -/
def bytes (layout : Layout α) (v : α) : ByteArray := layout.put v ByteArray.empty

/-- `v` is written as `layout.size` bytes behind anything, and read back from them as `v'`. -/
structure ReadsAs (layout : Layout α) (v v' : α) : Prop where
  put_eq : ∀ out, layout.put v out = out ++ layout.bytes v
  size_bytes : (layout.bytes v).size = layout.size
  get_bytes : ∀ front rest, layout.get (front ++ (layout.bytes v ++ rest)) front.size = v'

/-! ## Numbers and byte strings -/

theorem u8_readsAs (v : UInt8) : u8.ReadsAs v v where
  put_eq out := Bytes.push_eq_append out v
  size_bytes := rfl
  get_bytes front rest := by
    have h := Bytes.peek_push front v rest
    rwa [Bytes.push_eq_append, ByteArray.append_assoc] at h

private theorem getNat_bytes (n v : Nat) (front rest : ByteArray) :
    Bytes.getNat n (front ++ (Bytes.putNat n v ByteArray.empty ++ rest)) front.size =
      v % Nat.pow 256 n := by
  rw [← ByteArray.append_assoc, ← Bytes.putNat_eq_append, Bytes.getNat_putNat]

theorem u16_readsAs (v : UInt16) : u16.ReadsAs v v where
  put_eq := Bytes.putNat_eq_append 2 v.toNat
  size_bytes := by simp [u16, bytes]
  get_bytes front rest := by
    have h : v.toNat % Nat.pow 256 2 = v.toNat := Nat.mod_eq_of_lt v.toNat_lt
    simp [u16, bytes, getNat_bytes, h]

theorem u32_readsAs (v : UInt32) : u32.ReadsAs v v where
  put_eq := Bytes.putNat_eq_append 4 v.toNat
  size_bytes := by simp [u32, bytes]
  get_bytes front rest := by
    have h : v.toNat % Nat.pow 256 4 = v.toNat := Nat.mod_eq_of_lt v.toNat_lt
    simp [u32, bytes, getNat_bytes, h]

theorem u64_readsAs (v : UInt64) : u64.ReadsAs v v where
  put_eq := Bytes.putNat_eq_append 8 v.toNat
  size_bytes := by simp [u64, bytes]
  get_bytes front rest := by
    have h : v.toNat % Nat.pow 256 8 = v.toNat := Nat.mod_eq_of_lt v.toNat_lt
    simp [u64, bytes, getNat_bytes, h]

theorem extract_middle {n : Nat} {b : ByteArray} (h : b.size = n)
    (front rest : ByteArray) :
    (front ++ (b ++ rest)).extract front.size (front.size + n) = b := by
  have he := ByteArray.extract_append_size_add (a := front) (b := b ++ rest) (i := 0) (j := n)
  rw [Nat.add_zero] at he
  rw [he, ByteArray.extract_append_eq_left h.symm]

theorem block_readsAs (b : Block n) : (block n).ReadsAs b b where
  put_eq out := by simp [block, bytes]
  size_bytes := by simp [block, bytes, b.size_eq]
  get_bytes front rest := by
    simp [block, bytes, extract_middle b.size_eq, Block.ofBytes_bytes]

theorem region_readsAs (n : Nat) (v : ByteArray) : (region n).ReadsAs v (Bytes.fit n v) where
  put_eq out := by simp [region, bytes]
  size_bytes := by simp [region, bytes]
  get_bytes front rest := by
    have h := Bytes.size_fit n v
    simp [region, bytes, extract_middle h, Bytes.fit_of_size h]

/-! ## What is read is written back -/

/-- What is read where there is enough is written back as it stood there. -/
def Lossless (layout : Layout α) : Prop :=
  ∀ {data offset}, offset + layout.size ≤ data.size →
    layout.bytes (layout.get data offset) = data.extract offset (offset + layout.size)

theorem u8_lossless : u8.Lossless := by
  intro data offset h
  have h : offset < data.size := h
  have he := Bytes.extract_succ 0 h
  rw [Nat.add_zero, ByteArray.extract_same, ByteArray.append_empty] at he
  exact he.symm

theorem u16_lossless : u16.Lossless := by
  intro data offset h
  have hn : (UInt16.ofNat (Bytes.getNat 2 data offset)).toNat = Bytes.getNat 2 data offset :=
    UInt16.toNat_ofNat_of_lt' (Bytes.getNat_lt 2 data offset)
  simp only [bytes, u16, hn]
  exact Bytes.putNat_getNat h

theorem u32_lossless : u32.Lossless := by
  intro data offset h
  have hn : (UInt32.ofNat (Bytes.getNat 4 data offset)).toNat = Bytes.getNat 4 data offset :=
    UInt32.toNat_ofNat_of_lt' (Bytes.getNat_lt 4 data offset)
  simp only [bytes, u32, hn]
  exact Bytes.putNat_getNat h

theorem u64_lossless : u64.Lossless := by
  intro data offset h
  have hn : (UInt64.ofNat (Bytes.getNat 8 data offset)).toNat = Bytes.getNat 8 data offset :=
    UInt64.toNat_ofNat_of_lt' (Bytes.getNat_lt 8 data offset)
  simp only [bytes, u64, hn]
  exact Bytes.putNat_getNat h

theorem size_extract_of_le {data : ByteArray} {offset n : Nat} (h : offset + n ≤ data.size) :
    (data.extract offset (offset + n)).size = n := by
  rw [ByteArray.size_extract]; omega

theorem block_lossless (n : Nat) : (block n).Lossless := by
  intro data offset h
  simp only [bytes, block, Block.ofBytes, ByteArray.empty_append]
  exact Bytes.fit_of_size (size_extract_of_le h)

/-! ## What is read depends on nothing around it -/

/-- What is read depends on nothing but the bytes that the layout takes. -/
def Local (layout : Layout α) : Prop :=
  ∀ {data offset}, offset + layout.size ≤ data.size →
    layout.get (data.extract offset (offset + layout.size)) 0 = layout.get data offset

theorem Local.of_lossless {layout : Layout α} (hr : ∀ v, layout.ReadsAs v v)
    (hl : layout.Lossless) : layout.Local := by
  intro data offset h
  have hg := (hr (layout.get data offset)).get_bytes ByteArray.empty ByteArray.empty
  rwa [hl h, ByteArray.empty_append, ByteArray.append_empty, ByteArray.size_empty] at hg

theorem u8_local : u8.Local := Local.of_lossless u8_readsAs u8_lossless

theorem u16_local : u16.Local := Local.of_lossless u16_readsAs u16_lossless

theorem u32_local : u32.Local := Local.of_lossless u32_readsAs u32_lossless

theorem u64_local : u64.Local := Local.of_lossless u64_readsAs u64_lossless

theorem block_local (n : Nat) : (block n).Local :=
  Local.of_lossless block_readsAs (block_lossless n)

theorem region_local (n : Nat) : (region n).Local := by
  intro data offset h
  have hwhole := ByteArray.extract_zero_size (b := data.extract offset (offset + n))
  have hsize : offset + n ≤ data.size := h
  rw [size_extract_of_le hsize] at hwhole
  simp only [region, Nat.zero_add, hwhole]

theorem Local.map {wire : Layout α} (h : wire.Local) (ofWire : α → β) (toWire : β → α) :
    (Layout.map ofWire toWire wire).Local :=
  fun hle => congrArg ofWire (h hle)

/-! ## Layouts made of layouts -/

theorem map_readsAs {wire : Layout α} {ofWire : α → β} {toWire : β → α} {b : β} {a : α}
    (h : wire.ReadsAs (toWire b) a) : (map ofWire toWire wire).ReadsAs b (ofWire a) where
  put_eq := h.put_eq
  size_bytes := h.size_bytes
  get_bytes front rest := congrArg ofWire (h.get_bytes front rest)

section
variable {item : Layout α}

/-- Items written one after the other are appended as one byte string. -/
theorem foldl_put_eq {l : List α} (h : ∀ a ∈ l, item.ReadsAs a a) (out : ByteArray) :
    l.foldl (fun out a => item.put a out) out =
      out ++ l.foldl (fun out a => item.put a out) ByteArray.empty := by
  induction l generalizing out with
  | nil => simp
  | cons a l ih =>
    have ih := fun out => ih (fun b hb => h b (.tail _ hb)) out
    have ha := (h a (.head _)).put_eq
    simp only [List.foldl_cons]
    rw [ih, ha, ih (item.put a ByteArray.empty), ha ByteArray.empty, ByteArray.empty_append,
      ByteArray.append_assoc]

theorem size_foldl_put {l : List α} (h : ∀ a ∈ l, item.ReadsAs a a) :
    (l.foldl (fun out a => item.put a out) ByteArray.empty).size = l.length * item.size := by
  induction l with
  | nil => simp
  | cons a l ih =>
    have ha := h a (.head _)
    rw [List.foldl_cons, foldl_put_eq (fun b hb => h b (.tail _ hb)), ByteArray.size_append,
      ih fun b hb => h b (.tail _ hb), List.length_cons, Nat.add_mul, Nat.one_mul, Nat.add_comm]
    exact congrArg _ ha.size_bytes

/-- The `k`-th of the items written one after the other stands `k` items behind the front. -/
theorem get_foldl_put {l : List α} (h : ∀ a ∈ l, item.ReadsAs a a)
    {k : Nat} (hk : k < l.length) (front rest : ByteArray) :
    item.get (front ++ (l.foldl (fun out a => item.put a out) ByteArray.empty ++ rest))
      (front.size + k * item.size) = l[k] := by
  induction l generalizing front k with
  | nil => cases hk
  | cons a l ih =>
    have ha := h a (.head _)
    have hl : ∀ b ∈ l, item.ReadsAs b b := fun b hb => h b (.tail _ hb)
    rw [List.foldl_cons, foldl_put_eq hl, ha.put_eq, ByteArray.empty_append, ByteArray.append_assoc]
    cases k with
    | zero => simpa using ha.get_bytes front _
    | succ k =>
      have hs : front.size + (k + 1) * item.size =
          (front ++ item.bytes a).size + k * item.size := by
        rw [ByteArray.size_append, ha.size_bytes, Nat.add_mul, Nat.one_mul]; omega
      rw [hs, ← ByteArray.append_assoc]
      exact ih hl (Nat.lt_of_succ_lt_succ hk) _

theorem vector_readsAs (v : Vector α n) (h : ∀ a ∈ v, item.ReadsAs a a) :
    (vector n item).ReadsAs v v := by
  have hl : ∀ a ∈ v.toList, item.ReadsAs a a := fun a ha => h a (by simpa using ha)
  have hput : ∀ out, (vector n item).put v out =
      v.toList.foldl (fun out a => item.put a out) out := by
    intro out
    simp [vector, Vector.foldl_toList]
  refine ⟨fun out => ?_, ?_, fun front rest => ?_⟩
  · rw [bytes, hput, hput, foldl_put_eq hl]
  · rw [bytes, hput, size_foldl_put hl, Vector.length_toList]; rfl
  · rw [bytes, hput]
    apply Vector.ext
    intro k hk
    simp only [vector, Vector.getElem_ofFn]
    rw [get_foldl_put hl (by simpa using hk)]
    simp

end

end Layout

/-! ## Records -/

namespace Member

/-- `target` with the members taken over from `source`. -/
def copy (members : List (Member R)) (source target : R) : R :=
  members.foldl (fun r m => m.set (m.get source) r) target

/-- Every member of `r` reads back as that member of `r'`. -/
def ReadAs (members : List (Member R)) (r r' : R) : Prop :=
  ∀ m ∈ members, m.layout.ReadsAs (m.get r) (m.get r')

/-- Every member of `r` reads back as something that has the effect of that member of `r'`. -/
def RestoredAs (members : List (Member R)) (r r' : R) : Prop :=
  ∀ m ∈ members, ∃ v, m.layout.ReadsAs (m.get r) v ∧ m.set v = m.set (m.get r')

variable {members : List (Member R)} {r r' : R}

theorem ReadAs.restoredAs (h : ReadAs members r r') : RestoredAs members r r' :=
  fun m hm => ⟨_, h m hm, rfl⟩

theorem RestoredAs.putAll_eq (h : RestoredAs members r r') (out : ByteArray) :
    putAll members r out = out ++ putAll members r ByteArray.empty := by
  induction members generalizing out with
  | nil => simp [putAll]
  | cons m ms ih =>
    have ih := fun out => ih (fun m hm => h m (.tail _ hm)) out
    obtain ⟨v, hm, -⟩ := h m (.head _)
    have hm := hm.put_eq
    simp only [putAll, List.foldl_cons] at ih ⊢
    rw [ih, hm, ih (m.layout.put _ ByteArray.empty), hm ByteArray.empty, ByteArray.empty_append,
      ByteArray.append_assoc]

theorem RestoredAs.putAll_cons {m : Member R} (h : RestoredAs (m :: members) r r') :
    putAll (m :: members) r ByteArray.empty =
      m.layout.bytes (m.get r) ++ putAll members r ByteArray.empty :=
  RestoredAs.putAll_eq (fun m hm => h m (.tail _ hm)) (m.layout.put (m.get r) ByteArray.empty)

theorem RestoredAs.size_putAll (h : RestoredAs members r r') :
    (putAll members r ByteArray.empty).size = totalSize members := by
  induction members with
  | nil => rfl
  | cons m ms ih =>
    obtain ⟨v, hm, -⟩ := h m (.head _)
    rw [h.putAll_cons, ByteArray.size_append, hm.size_bytes, ih fun m hm => h m (.tail _ hm)]
    rfl

theorem RestoredAs.getAll_putAll (h : RestoredAs members r r') (target : R)
    (front rest : ByteArray) :
    getAll members target (front ++ (putAll members r ByteArray.empty ++ rest)) front.size =
      copy members r' target := by
  induction members generalizing target front with
  | nil => rfl
  | cons m ms ih =>
    obtain ⟨v, hm, hv⟩ := h m (.head _)
    have hs : front.size + m.layout.size = (front ++ m.layout.bytes (m.get r)).size := by
      rw [ByteArray.size_append, hm.size_bytes]
    rw [h.putAll_cons, ByteArray.append_assoc]
    simp only [getAll, List.foldl_cons]
    rw [hm.get_bytes, hs, hv, ← ByteArray.append_assoc]
    exact ih (fun m hm => h m (.tail _ hm)) _ _

/-- The members with the offsets at which they stand. -/
def placed : List (Member R) → (offset : Nat) → List (Nat × Member R)
  | [], _ => []
  | m :: members, offset => (offset, m) :: placed members (offset + m.layout.size)

theorem placed_append (front back : List (Member R)) (offset : Nat) :
    placed (front ++ back) offset =
      placed front offset ++ placed back (offset + totalSize front) := by
  induction front generalizing offset with
  | nil => rfl
  | cons m front ih =>
    have hsize : offset + m.layout.size + totalSize front = offset + totalSize (m :: front) :=
      Nat.add_assoc ..
    rw [List.cons_append, placed, placed, ih, hsize]
    rfl

theorem le_of_mem_placed {offset : Nat} {e : Nat × Member R} (he : e ∈ placed members offset) :
    e.1 + e.2.layout.size ≤ offset + totalSize members := by
  induction members generalizing offset with
  | nil => cases he
  | cons m ms ih =>
    have hsize : totalSize (m :: ms) = m.layout.size + totalSize ms := rfl
    obtain rfl | he := List.mem_cons.1 he
    · simp only [hsize]
      omega
    · have hle := ih he
      omega

/-- Every byte of a record belongs to a member. -/
theorem exists_placed {offset i : Nat} (h : offset ≤ i) (hi : i < offset + totalSize members) :
    ∃ e ∈ placed members offset, e.1 ≤ i ∧ i < e.1 + e.2.layout.size := by
  induction members generalizing offset with
  | nil => exact absurd hi (Nat.not_lt.2 h)
  | cons m ms ih =>
    by_cases hm : i < offset + m.layout.size
    · exact ⟨_, .head _, h, hm⟩
    · have hi : i < offset + (m.layout.size + totalSize ms) := hi
      obtain ⟨e, he, hin⟩ := ih (Nat.not_lt.1 hm) (by omega)
      exact ⟨e, .tail _ he, hin⟩

/-- Each member stands at its place. -/
theorem RestoredAs.extract_putAll (h : RestoredAs members r r') (front rest : ByteArray)
    {e : Nat × Member R} (he : e ∈ placed members front.size) :
    (front ++ (putAll members r ByteArray.empty ++ rest)).extract e.1 (e.1 + e.2.layout.size) =
      e.2.layout.bytes (e.2.get r) := by
  induction members generalizing front with
  | nil => cases he
  | cons m ms ih =>
    obtain ⟨v, hm, -⟩ := h m (.head _)
    have hs : front.size + m.layout.size = (front ++ m.layout.bytes (m.get r)).size := by
      rw [ByteArray.size_append, hm.size_bytes]
    rw [h.putAll_cons, ByteArray.append_assoc]
    obtain rfl | he := List.mem_cons.1 he
    · exact Layout.extract_middle hm.size_bytes front _
    · rw [hs] at he
      rw [← ByteArray.append_assoc]
      exact ih (fun m hm => h m (.tail _ hm)) _ he

/-- What holds of a record and is kept by every member that is read holds of what is read. -/
theorem getAll_induction {P : R → Prop}
    (h : ∀ m ∈ members, ∀ data offset v, m.layout.get data offset = v → ∀ r, P r → P (m.set v r))
    {target : R} (ht : P target) (data : ByteArray) (offset : Nat) :
    P (getAll members target data offset) := by
  unfold getAll
  induction members generalizing target offset with
  | nil => exact ht
  | cons m ms ih => exact ih (fun m hm => h m (.tail _ hm)) (h m (.head _) _ _ _ rfl _ ht) _

/-- What no member sets is not read. -/
theorem getAll_keeps {α : Type} (f : R → α) (h : ∀ m ∈ members, ∀ v r, f (m.set v r) = f r)
    (target : R) (data : ByteArray) (offset : Nat) :
    f (getAll members target data offset) = f target :=
  getAll_induction (fun m hm _ _ v _ r hr => (h m hm v r).trans hr) rfl data offset

/-- Records whose members are written alike are written alike. -/
theorem putAll_congr (h : ∀ m ∈ members, m.layout.put (m.get r) = m.layout.put (m.get r')) :
    putAll members r = putAll members r' := by
  funext out
  unfold putAll
  induction members generalizing out with
  | nil => rfl
  | cons m ms ih =>
    rw [List.foldl_cons, List.foldl_cons, h m (.head _)]
    exact ih (fun m hm => h m (.tail _ hm)) _

end Member

/-- A record reads back as the blank one with what was read put in, where that has the effect of
the members of another record. -/
theorem Layout.record_restoredAs {members : List (Member R)} {r r' : R}
    (h : Member.RestoredAs members r r') (blank : R) :
    (record blank members).ReadsAs r (Member.copy members r' blank) where
  put_eq := h.putAll_eq
  size_bytes := h.size_putAll
  get_bytes := h.getAll_putAll blank

/-- A record reads back as the blank one with every member that was read put in. -/
theorem Layout.record_readsAs {members : List (Member R)} {r r' : R}
    (h : Member.ReadAs members r r') (blank : R) :
    (record blank members).ReadsAs r (Member.copy members r' blank) :=
  record_restoredAs h.restoredAs blank

/-! ## Registers -/

theorem Width.layout_readsAs (w : Width) (v : w.Value) : w.layout.ReadsAs v v := by
  cases w with
  | byte => exact Layout.u8_readsAs v
  | half => exact Layout.u16_readsAs v
  | word => exact Layout.u32_readsAs v
  | bytes n => exact Layout.block_readsAs v

theorem Width.layout_local (w : Width) : w.layout.Local := by
  cases w with
  | byte => exact Layout.u8_local
  | half => exact Layout.u16_local
  | word => exact Layout.u32_local
  | bytes n => exact Layout.block_local n

theorem Register.layout_readsAs (blank : R) (registers : List (Register R)) (r : R) :
    (Register.layout blank registers).ReadsAs r
      (Member.copy (registers.map toMember) r blank) := by
  apply Layout.record_readsAs
  intro m hm
  obtain ⟨register, -, rfl⟩ := List.mem_map.mp hm
  exact register.width.layout_readsAs _

end Wire

end Rewind
