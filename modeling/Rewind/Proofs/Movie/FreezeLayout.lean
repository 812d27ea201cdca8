import Rewind.Movie.Freeze
import Rewind.Proofs.Savestate.Reading

/-!
Samples and freeze buffers on the wire. Main statement: a reader takes a freeze buffer back
unchanged if it holds as many samples as it says (`Freeze.get_takes`). A movie can have more samples
than 32 bits count, and then only a part of its buffer is covered by the count (`Freeze.covered`).
-/

namespace Rewind

namespace Sample

theorem ofRaw_toRaw (s : Sample) : ofRaw s.toRaw = s := by
  obtain ⟨b, x, y⟩ := s
  have hb := b.toNat_lt
  have hx := x.toUInt8.toNat_lt
  have hy := y.toUInt8.toNat_lt
  have hr : (toRaw ⟨b, x, y⟩).toNat =
      b.toNat + x.toUInt8.toNat * 0x10000 + y.toUInt8.toNat * 0x1000000 := by
    simp only [toRaw, UInt32.toNat_add, UInt32.toNat_mul, UInt16.toNat_toUInt32,
      UInt8.toNat_toUInt32, UInt32.reduceToNat]
    omega
  have hb' : (toRaw ⟨b, x, y⟩).toUInt16 = b := by
    apply UInt16.toNat.inj
    rw [UInt32.toNat_toUInt16, hr]
    omega
  have hx' : (toRaw ⟨b, x, y⟩ >>> 16).toUInt8 = x.toUInt8 := by
    apply UInt8.toNat.inj
    rw [UInt32.toNat_toUInt8, UInt32.toNat_shiftRight, hr]
    simp only [UInt32.reduceToNat, Nat.reduceMod, Nat.shiftRight_eq_div_pow]
    omega
  have hy' : (toRaw ⟨b, x, y⟩ >>> 24).toUInt8 = y.toUInt8 := by
    apply UInt8.toNat.inj
    rw [UInt32.toNat_toUInt8, UInt32.toNat_shiftRight, hr]
    simp only [UInt32.reduceToNat, Nat.reduceMod, Nat.shiftRight_eq_div_pow]
    omega
  simp only [ofRaw, hb', hx', hy']
  rfl

theorem layout_readsAs (s : Sample) : layout.ReadsAs s s := by
  have h : layout.ReadsAs s (ofRaw s.toRaw) :=
    Wire.Layout.map_readsAs (Wire.Layout.u32_readsAs s.toRaw)
  rwa [ofRaw_toRaw] at h

theorem putAll_eq (samples : Array Sample) (out : ByteArray) :
    putAll samples out = out ++ putAll samples ByteArray.empty := by
  rw [putAll, putAll, ← Array.foldl_toList, ← Array.foldl_toList]
  exact Wire.Layout.foldl_put_eq (fun s _ => layout_readsAs s) out

theorem putAll_append (samples more : Array Sample) :
    putAll (samples ++ more) ByteArray.empty =
      putAll samples ByteArray.empty ++ putAll more ByteArray.empty := by
  rw [← putAll_eq, putAll, Array.foldl_append]
  rfl

theorem size_putAll (samples : Array Sample) :
    (putAll samples ByteArray.empty).size = samples.size * size := by
  rw [putAll, ← Array.foldl_toList, ← Array.length_toList]
  exact Wire.Layout.size_foldl_put fun s _ => layout_readsAs s

theorem unpack_putAll (samples : Array Sample) :
    unpack (putAll samples ByteArray.empty) = samples := by
  have hn : (putAll samples ByteArray.empty).size / size = samples.size := by
    rw [size_putAll]
    exact Nat.mul_div_cancel _ (by decide)
  apply Array.ext
  · rw [unpack, Array.size_ofFn, hn]
  · intro k hk hk'
    have hg := Wire.Layout.get_foldl_put (l := samples.toList) (fun s _ => layout_readsAs s)
      (by simpa using hk') ByteArray.empty ByteArray.empty
    simpa [unpack, putAll, size] using hg

end Sample

namespace Movie.Freeze

open Savestate Wire

/-- The buffer's words, and then its samples. -/
def bytes (f : Freeze) : ByteArray :=
  Layout.u32.bytes f.size ++ (Layout.u32.bytes f.uid ++ (Layout.u32.bytes f.currentSample ++
    (Layout.u32.bytes f.currentVi ++ (Layout.u32.bytes f.lengthSamples ++
      Sample.putAll f.inputs ByteArray.empty))))

theorem put_eq (f : Freeze) (out : ByteArray) : f.put out = out ++ f.bytes := by
  have h (v : UInt32) := (Layout.u32_readsAs v).put_eq
  rw [put, Sample.putAll_eq]
  simp only [List.foldl_cons, List.foldl_nil, h, bytes, ByteArray.append_assoc]

theorem get_takes {f : Freeze} (h : f.inputs.size = f.lengthSamples.toNat + 1)
    (rest : ByteArray) : Reader.Takes get f.bytes rest f := by
  have hw (v : UInt32) (rest : ByteArray) := Reader.Takes.item (Layout.u32_readsAs v) rest
  have hs : (Sample.putAll f.inputs ByteArray.empty).size =
      (f.lengthSamples.toNat + 1) * Sample.size := by
    rw [Sample.size_putAll, h]
  refine (hw _ _).bind <| (hw _ _).bind <| (hw _ _).bind <| (hw _ _).bind <| (hw _ _).bind ?_
  refine (Reader.Takes.bytes hs rest).map ?_
  rw [Sample.unpack_putAll]

/-! ## Positions in a movie -/

theorem size_inputs_ofInputs {uid currentSample currentVi : UInt32} {inputs : Array Sample}
    (h : inputs.size < UInt32.size) :
    (ofInputs uid currentSample currentVi inputs).inputs.size =
      (ofInputs uid currentSample currentVi inputs).lengthSamples.toNat + 1 := by
  have hl : (UInt32.ofNat inputs.size).toNat = inputs.size := UInt32.toNat_ofNat_of_lt' h
  simp [ofInputs, hl]

theorem samples_ofInputs {uid currentSample currentVi : UInt32} {inputs : Array Sample}
    (h : inputs.size < UInt32.size) :
    (ofInputs uid currentSample currentVi inputs).samples = inputs := by
  have hl : (UInt32.ofNat inputs.size).toNat = inputs.size := UInt32.toNat_ofNat_of_lt' h
  simp [samples, ofInputs, hl]

theorem fieldsSize_le_expectedSize (length : UInt32) :
    fieldsSize ≤ (expectedSize length).toNat := by
  have hlt : min (fieldsSize + (length.toNat + 1) * Sample.size) (UInt32.size - 1) < UInt32.size :=
    Nat.lt_of_le_of_lt (Nat.min_le_right _ _) (by decide)
  rw [expectedSize, UInt32.toNat_ofNat_of_lt' hlt]
  exact Nat.le_min.2 ⟨Nat.le_add_right _ _, by decide⟩

/-- A position in a movie whose length fits the format is well formed. -/
theorem check_ofInputs {uid currentVi : UInt32} {cursor : Nat} {inputs : Array Sample}
    (h : inputs.size < UInt32.size) (hc : cursor ≤ inputs.size) :
    (ofInputs uid (UInt32.ofNat cursor) currentVi inputs).check uid = .ok () := by
  have hl : (UInt32.ofNat inputs.size).toNat = inputs.size := UInt32.toNat_ofNat_of_lt' h
  have hk : (UInt32.ofNat cursor).toNat = cursor :=
    UInt32.toNat_ofNat_of_lt' (Nat.lt_of_le_of_lt hc h)
  have hs := Nat.not_lt.2 (fieldsSize_le_expectedSize (UInt32.ofNat inputs.size))
  have hlt : ¬ UInt32.ofNat inputs.size < UInt32.ofNat cursor := by
    rw [UInt32.lt_iff_toNat_lt, hl, hk]; omega
  simp [check, ofInputs, hs, hlt, hl]

/-! ## Positions that count too few samples -/

/-- The part of a buffer that its count covers. -/
def covered (f : Freeze) : Freeze := { f with inputs := f.inputs.take (f.lengthSamples.toNat + 1) }

/-- The samples behind that part. -/
def surplus (f : Freeze) : Array Sample := f.inputs.drop (f.lengthSamples.toNat + 1)

theorem bytes_covered (f : Freeze) :
    f.covered.bytes ++ Sample.putAll f.surplus ByteArray.empty = f.bytes := by
  have hinputs : f.covered.inputs ++ f.surplus = f.inputs := by
    change f.inputs.extract 0 (f.lengthSamples.toNat + 1) ++
      f.inputs.extract (f.lengthSamples.toNat + 1) f.inputs.size = f.inputs
    rw [Array.extract_append_extract, Nat.zero_min]
    exact Array.extract_eq_self_of_le (Nat.le_max_right _ _)
  have hput := Sample.putAll_append f.covered.inputs f.surplus
  rw [hinputs] at hput
  rw [bytes, bytes, hput]
  simp only [covered, ByteArray.append_assoc]

theorem mem_inputs_of_mem_surplus {f : Freeze} {s : Sample} (h : s ∈ f.surplus) :
    s ∈ f.inputs := by
  obtain ⟨k, hk, rfl⟩ := Array.mem_extract_iff_getElem.1 h
  exact Array.getElem_mem _

theorem size_inputs_covered {f : Freeze} (h : f.lengthSamples.toNat < f.inputs.size) :
    f.covered.inputs.size = f.covered.lengthSamples.toNat + 1 := by
  simp only [covered, Array.take, Array.size_extract]
  omega

theorem lengthSamples_ofInputs_le (uid currentSample currentVi : UInt32) (inputs : Array Sample) :
    (ofInputs uid currentSample currentVi inputs).lengthSamples.toNat ≤ inputs.size :=
  Nat.mod_le _ _

/-- However many samples there are, the position at their end is well formed as far as it counts
them. -/
theorem check_covered_ofInputs (uid currentVi : UInt32) (inputs : Array Sample) :
    (ofInputs uid (UInt32.ofNat inputs.size) currentVi inputs).covered.check uid = .ok () := by
  have hs := Nat.not_lt.2 (fieldsSize_le_expectedSize (UInt32.ofNat inputs.size))
  have hsize : (ofInputs uid (UInt32.ofNat inputs.size) currentVi inputs).covered.inputs.size =
      (UInt32.ofNat inputs.size).toNat + 1 := by
    refine size_inputs_covered ?_
    have hle := lengthSamples_ofInputs_le uid (UInt32.ofNat inputs.size) currentVi inputs
    simp only [ofInputs, Array.size_push] at hle ⊢
    omega
  rw [check]
  simp only [hsize]
  simp [covered, ofInputs, hs]

end Movie.Freeze

end Rewind
