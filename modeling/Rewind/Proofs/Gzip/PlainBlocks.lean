import Rewind.Gzip.Member
import Rewind.Proofs.Wire.LayoutLaws

/-!
What is compressed expands again. `Bits.Runs` says what a reader of bits makes of given data, from
which position to which; the member that `compress` writes is gone through with it part by part,
along the recursion that writes its blocks. Main statement: `decompress_compress`.
-/

namespace Rewind.Gzip

open Bytes

/-- The bytes `w` stand in `data` from the byte `i` on. -/
def Stands (w data : ByteArray) (i : Nat) : Prop :=
  ∃ front rest, data = front ++ (w ++ rest) ∧ front.size = i

section Stands

variable {a b data : ByteArray} {i : Nat}

theorem Stands.left (h : Stands (a ++ b) data i) : Stands a data i := by
  obtain ⟨front, rest, rfl, hi⟩ := h
  exact ⟨front, b ++ rest, by rw [ByteArray.append_assoc], hi⟩

theorem Stands.right (h : Stands (a ++ b) data i) : Stands b data (i + a.size) := by
  obtain ⟨front, rest, rfl, rfl⟩ := h
  refine ⟨front ++ a, rest, ?_, ByteArray.size_append⟩
  rw [ByteArray.append_assoc, ByteArray.append_assoc]

theorem Stands.le (h : Stands a data i) : i + a.size ≤ data.size := by
  obtain ⟨front, rest, rfl, rfl⟩ := h
  rw [ByteArray.size_append, ByteArray.size_append]
  omega

theorem Stands.extract (h : Stands a data i) : data.extract i (i + a.size) = a := by
  obtain ⟨front, rest, rfl, rfl⟩ := h
  exact Wire.Layout.extract_middle rfl front rest

theorem Stands.peek {x : UInt8} (h : Stands [x].toByteArray data i) : peek data i = x := by
  obtain ⟨front, rest, rfl, rfl⟩ := h
  rw [← ByteArray.append_assoc, ← push_eq_append, peek_push]

end Stands

theorem size_digits (n v : Nat) : (putNat n v ByteArray.empty).size = n := by
  rw [size_putNat]
  exact Nat.zero_add n

/-! ### Readers of bits -/

namespace Bits

/-- On this data the reader gets from one position to another, and gives `v`. -/
def Runs {α : Type} (reader : Bits α) (data : ByteArray) (pos pos' : Nat) (v : α) : Prop :=
  (reader.run data).run pos = .ok (v, pos')

variable {α β : Type} {data w : ByteArray} {pos pos' pos'' i : Nat}

theorem Runs.pure (v : α) : Runs (pure v) data pos pos v := rfl

theorem Runs.read : Runs read data pos pos data := rfl

theorem Runs.bind {reader : Bits α} {next : α → Bits β} {a : α} {b : β}
    (h : Runs reader data pos pos' a) (h' : Runs (next a) data pos' pos'' b) :
    Runs (reader >>= next) data pos pos'' b := by
  have hbind : ((reader >>= next).run data).run pos =
      (reader.run data).run pos >>= fun p => ((next p.1).run data).run p.2 := rfl
  rw [Runs, hbind, h]
  exact h'

/-- A check that lets the reader go on. -/
theorem Runs.otherwise {c : Prop} [Decidable c] {reader reader' : Bits α} {a : α} (hc : ¬c)
    (h : Runs reader' data pos pos' a) : Runs (if c then reader else reader') data pos pos' a := by
  rwa [if_neg hc]

theorem Runs.align : Runs align data pos ((pos + 7) / 8 * 8) () := rfl

/-- Between bytes there is nothing to skip. -/
theorem Runs.align_byte : Runs Bits.align data (8 * i) (8 * i) () := by
  have h : Runs Bits.align data (8 * i) ((8 * i + 7) / 8 * 8) () := .align
  rwa [show (8 * i + 7) / 8 * 8 = 8 * i by omega] at h

theorem Runs.bit_of_lt (h : pos / 8 < data.size) :
    Runs bit data pos (pos + 1) ((peek data (pos / 8)).toNat >>> (pos % 8) % 2) := by
  rw [peek, dif_pos h]
  exact congrArg (fun reader : Bits Nat => (reader.run data).run pos) (dif_pos h)

theorem Runs.bit {x : UInt8} (h : Stands [x].toByteArray data i) {k : Nat} (hk : k < 8) :
    Runs bit data (8 * i + k) (8 * i + k + 1) (x.toNat >>> k % 2) := by
  have hbyte : (8 * i + k) / 8 = i := by omega
  have hplace : (8 * i + k) % 8 = k := by omega
  have hlt : (8 * i + k) / 8 < data.size := hbyte.symm ▸ h.le
  have hbit := bit_of_lt hlt
  rwa [hbyte, hplace, h.peek] at hbit

theorem Runs.bytes_of_le {n : Nat} (h : pos / 8 + n ≤ data.size) :
    Runs (bytes n) data pos ((pos / 8 + n) * 8) (data.extract (pos / 8) (pos / 8 + n)) :=
  congrArg (fun reader : Bits ByteArray => (reader.run data).run pos) (if_pos h)

theorem Runs.bytes (h : Stands w data i) {n : Nat} (hn : w.size = n) :
    Runs (bytes n) data (8 * i) (8 * (i + n)) w := by
  subst hn
  have hbyte : 8 * i / 8 = i := by omega
  have hle : 8 * i / 8 + w.size ≤ data.size := hbyte.symm ▸ h.le
  have hbytes := bytes_of_le hle
  rwa [hbyte, h.extract, Nat.mul_comm _ 8] at hbytes

theorem Runs.word {n v : Nat} (h : Stands (putNat n v ByteArray.empty) data i) :
    Runs (word n) data (8 * i) (8 * (i + n)) (v % Nat.pow 256 n) := by
  have hget := getNat_putNat n v ByteArray.empty ByteArray.empty
  rw [ByteArray.append_empty] at hget
  refine (Runs.bytes h (size_digits n v)).bind ?_
  rw [← hget]
  exact .pure _

theorem Runs.word_of_lt {n v : Nat} (h : Stands (putNat n v ByteArray.empty) data i)
    (hv : v < Nat.pow 256 n) : Runs (Bits.word n) data (8 * i) (8 * (i + n)) v := by
  have hword := Runs.word h
  rwa [Nat.mod_eq_of_lt hv] at hword

theorem Runs.discarded {reader : Bits α} {a : α} (h : Runs reader data pos pos' a) :
    Runs (discard reader) data pos pos' () := by
  have hmap : Functor.discard reader = (do let _ ← reader; Pure.pure ()) := rfl
  rw [hmap]
  exact h.bind (.pure ())

/-- Of a byte below two, the lowest bit is the byte and the two bits above it are zero. -/
theorem Runs.bit_number {x : UInt8} (h : Stands [x].toByteArray data i) (hx : x.toNat < 2) :
    Runs Bits.bit data (8 * i) (8 * i + 1) x.toNat ∧
      Runs (number 2) data (8 * i + 1) (8 * i + 3) 0 := by
  have hbit := Runs.bit h (k := 0) (by decide)
  have hone := Runs.bit h (k := 1) (by decide)
  have htwo := Runs.bit h (k := 2) (by decide)
  have h0 : x.toNat >>> 0 % 2 = x.toNat := Nat.mod_eq_of_lt hx
  have h1 : x.toNat >>> 1 % 2 = 0 := by rw [Nat.shiftRight_eq_div_pow]; omega
  have h2 : x.toNat >>> 2 % 2 = 0 := by rw [Nat.shiftRight_eq_div_pow]; omega
  rw [h0] at hbit
  rw [h1] at hone
  rw [h2] at htwo
  exact ⟨hbit, hone.bind (.bind (htwo.bind (.pure 0)) (.pure 0))⟩

end Bits

/-! ### Plain blocks -/

/-- The plain block that holds `w`, which may be the last. -/
def plainBytes (last : Bool) (w : ByteArray) : ByteArray :=
  [if last then 1 else 0].toByteArray ++ (putNat 2 w.size ByteArray.empty ++
    (putNat 2 (plainBlockLimit - w.size) ByteArray.empty ++ w))

/-- The bytes hold `w` in plain blocks. -/
inductive Plain : (w bytes : ByteArray) → Prop
  | last {w : ByteArray} (h : w.size ≤ plainBlockLimit) : Plain w (plainBytes true w)
  | more {w w' bytes : ByteArray} (h : w.size ≤ plainBlockLimit) (rest : Plain w' bytes) :
    Plain (w ++ w') (plainBytes false w ++ bytes)

theorem size_plainBytes (last : Bool) (w : ByteArray) :
    (plainBytes last w).size = w.size + 5 := by
  simp only [plainBytes, ByteArray.size_append, size_digits, List.size_toByteArray,
    List.length_singleton]
  omega

theorem append_plainBytes (out w : ByteArray) (last : Bool) :
    putNat 2 (plainBlockLimit - w.size) (putNat 2 w.size (out.push (if last then 1 else 0))) ++ w =
      out ++ plainBytes last w := by
  rw [putNat_eq_append, putNat_eq_append 2 w.size, push_eq_append, plainBytes]
  simp only [ByteArray.append_assoc]

/-- The writer appends what it is given in plain blocks. -/
theorem plain_putPlain {data : ByteArray} {offset : Nat} (hoffset : offset ≤ data.size)
    (out : ByteArray) : ∃ bytes, Plain (data.extract offset data.size) bytes ∧
      putPlain data offset out = out ++ bytes := by
  fun_induction putPlain data offset out with
  | case1 offset out n last out₁ out₂ h =>
    have hend : offset + n = data.size := by omega
    have hsize : (data.extract offset data.size).size = n := by
      rw [ByteArray.size_extract]
      omega
    have hlimit : n ≤ plainBlockLimit := Nat.min_le_left _ _
    refine ⟨_, .last (hsize ▸ hlimit), ?_⟩
    rw [← append_plainBytes, hsize, ← hend]
    exact congrArg (fun flag => putNat 2 (plainBlockLimit - n) (putNat 2 n (out.push flag)) ++
      data.extract offset (offset + n)) (if_pos h)
  | case2 offset out n last out₁ out₂ h hn ih =>
    obtain ⟨bytes, hplain, heq⟩ := ih (by omega)
    have hsize : (data.extract offset (offset + n)).size = n := by
      rw [ByteArray.size_extract]
      omega
    have hlimit : n ≤ plainBlockLimit := Nat.min_le_left _ _
    have hsplit : data.extract offset data.size =
        data.extract offset (offset + n) ++ data.extract (offset + n) data.size :=
      ByteArray.extract_eq_extract_append_extract (offset + n) (by omega) (by omega)
    have hfirst : out₂ = out ++ plainBytes false (data.extract offset (offset + n)) := by
      rw [← append_plainBytes, hsize]
      exact congrArg (fun flag => putNat 2 (plainBlockLimit - n) (putNat 2 n (out.push flag)) ++
        data.extract offset (offset + n)) (if_neg h)
    rw [hsplit, heq, hfirst, ByteArray.append_assoc]
    refine ⟨_, .more ?_ hplain, rfl⟩
    rwa [hsize]

theorem runs_plainBlock {w src : ByteArray} {i : Nat} {last : Bool}
    (h : Stands (plainBytes last w) src i) (hw : w.size ≤ plainBlockLimit) (out : ByteArray) :
    Bits.Runs (plainBlock out) src (8 * i + 3) (8 * (i + (plainBytes last w).size)) (out ++ w) := by
  have halign : (8 * i + 3 + 7) / 8 * 8 = 8 * (i + 1) := by omega
  have hend : i + (plainBytes last w).size = i + 1 + 2 + 2 + w.size := by
    rw [size_plainBytes]
    omega
  have hlimit : plainBlockLimit < Nat.pow 256 2 := by decide
  have hlength := h.right.left
  have hcomplement := h.right.right.left
  have hbytes := h.right.right.right
  simp only [List.size_toByteArray, List.length_singleton, size_digits] at hlength hcomplement
  simp only [List.size_toByteArray, List.length_singleton, size_digits] at hbytes
  rw [hend]
  have hstart : Bits.Runs Bits.align src (8 * i + 3) ((8 * i + 3 + 7) / 8 * 8) () := .align
  rw [halign] at hstart
  refine hstart.bind ((Bits.Runs.word_of_lt hlength (by omega)).bind ?_)
  refine (Bits.Runs.word_of_lt hcomplement (by omega)).bind ?_
  have hsum : ¬w.size + (plainBlockLimit - w.size) ≠ 0xFFFF := by
    unfold plainBlockLimit at *
    omega
  simp only [if_neg hsum]
  exact (Bits.Runs.bytes hbytes rfl).bind (.pure _)

theorem runs_blocks {w bytes src : ByteArray} {i fuel : Nat} (hplain : Plain w bytes)
    (h : Stands bytes src i) (hfuel : bytes.size ≤ fuel) (out : ByteArray) :
    Bits.Runs (blocks fuel out) src (8 * i) (8 * (i + bytes.size)) (out ++ w) := by
  induction hplain generalizing i fuel out with
  | @last w hw =>
    obtain ⟨hbit, hnumber⟩ := Bits.Runs.bit_number h.left (by decide)
    cases fuel with
    | zero =>
      rw [size_plainBytes] at hfuel
      omega
    | succ fuel =>
      refine hbit.bind (.bind .read (hnumber.bind ?_))
      exact (runs_plainBlock h hw out).bind (.pure _)
  | @more w w' bytes hw hrest ih =>
    obtain ⟨hbit, hnumber⟩ := Bits.Runs.bit_number h.left.left (by decide)
    rw [ByteArray.size_append, size_plainBytes] at hfuel
    cases fuel with
    | zero => omega
    | succ fuel =>
      refine hbit.bind (.bind .read (hnumber.bind ?_))
      have hroom : bytes.size ≤ fuel := by omega
      have hlater := ih h.right hroom (out ++ w)
      rw [ByteArray.append_assoc, Nat.add_assoc, ← ByteArray.size_append] at hlater
      exact (runs_plainBlock h.left hw out).bind hlater

/-! ### Members -/

/-- The header of a member. -/
def headerBytes (level : UInt32) : ByteArray := magic ++ ⟨#[8, 0, 0, 0, 0, 0, effort level, 0xFF]⟩

theorem headerBytes_eq (level : UInt32) :
    headerBytes level = magic ++ (putNat 1 deflateMethod ByteArray.empty ++
      (putNat 1 0 ByteArray.empty ++ ⟨#[0, 0, 0, 0, effort level, 0xFF]⟩)) := rfl

/-- A header without any of the fields that it may have besides. -/
theorem runs_skipHeader {src : ByteArray} {level : UInt32} (h : Stands (headerBytes level) src 0) :
    Bits.Runs skipHeader src 0 (8 * 10) () := by
  rw [headerBytes_eq] at h
  have hmethod := h.right.left
  have hflags := h.right.right.left
  have hrest := h.right.right.right
  have hmagic : magic.size = 2 := rfl
  simp only [hmagic, size_digits] at hmethod hflags hrest
  refine (Bits.Runs.bytes h.left hmagic).bind (.otherwise (not_not_intro rfl) ?_)
  refine (Bits.Runs.word_of_lt hmethod (by decide)).bind (.otherwise (not_not_intro rfl) ?_)
  refine (Bits.Runs.word_of_lt hflags (by decide)).bind (.otherwise (by decide) ?_)
  refine (Bits.Runs.bytes hrest rfl).discarded.bind ?_
  refine .otherwise (by decide) (.otherwise (by decide) (.otherwise (by decide) ?_))
  exact .otherwise (by decide) (.pure ())

theorem compress_eq (data : ByteArray) (level : UInt32) :
    ∃ bytes, Plain data bytes ∧ compress data level = headerBytes level ++
      (bytes ++ (putNat 4 (checksum data).toNat ByteArray.empty ++
        putNat 4 data.size ByteArray.empty)) := by
  obtain ⟨bytes, hplain, heq⟩ := plain_putPlain (Nat.zero_le data.size) (headerBytes level)
  rw [ByteArray.extract_zero_size] at hplain
  refine ⟨bytes, hplain, ?_⟩
  have hcompress : compress data level = putNat 4 data.size
      (putNat 4 (checksum data).toNat (putPlain data 0 (headerBytes level))) := rfl
  rw [hcompress, heq, putNat_eq_append, putNat_eq_append 4 (checksum data).toNat]
  simp only [ByteArray.append_assoc]

/-- A member in front of other data is read as it stands alone. -/
theorem runs_member (data : ByteArray) (level : UInt32) (rest : ByteArray) :
    ∃ pos, Bits.Runs member (compress data level ++ rest) 0 pos data := by
  obtain ⟨bytes, hplain, hcompress⟩ := compress_eq data level
  have hstands : Stands (compress data level) (compress data level ++ rest) 0 :=
    ⟨ByteArray.empty, rest, ByteArray.empty_append.symm, rfl⟩
  generalize compress data level ++ rest = src at hstands ⊢
  rw [hcompress] at hstands
  have hheader : (headerBytes level).size = 10 := rfl
  have hbytes := hstands.right.left
  have hsum := hstands.right.right.left
  have hlength := hstands.right.right.right
  simp only [hheader, size_digits, Nat.zero_add] at hbytes hsum hlength
  have hfuel : bytes.size ≤ 8 * src.size := by
    have := hbytes.le
    omega
  have hblocks := runs_blocks hplain hbytes hfuel ByteArray.empty
  rw [ByteArray.empty_append] at hblocks
  have hpow : Nat.pow 256 4 = UInt32.size := by decide
  have hsumlt : (checksum data).toNat < Nat.pow 256 4 := hpow ▸ (checksum data).toNat_lt_size
  have hlast := Bits.Runs.word hlength
  rw [hpow] at hlast
  refine ⟨8 * (10 + bytes.size + 4 + 4),
    (runs_skipHeader hstands.left).bind ((Bits.Runs.read.bind hblocks).bind ?_)⟩
  refine Bits.Runs.align_byte.bind ((Bits.Runs.word_of_lt hsum hsumlt).bind ?_)
  refine hlast.bind (.otherwise ?_ (.pure data))
  exact not_or.mpr ⟨not_not_intro rfl, not_not_intro rfl⟩

theorem isCompressed_compress_append (data : ByteArray) (level : UInt32) (rest : ByteArray) :
    isCompressed (compress data level ++ rest) = true := by
  obtain ⟨bytes, -, hcompress⟩ := compress_eq data level
  have hmagic : magic.size = 2 := rfl
  rw [isCompressed, hcompress, headerBytes, ByteArray.append_assoc, ByteArray.append_assoc,
    decide_eq_true_eq]
  exact ByteArray.extract_append_eq_left hmagic.symm

theorem decompress_compress_append (data : ByteArray) (level : UInt32) (rest : ByteArray) :
    decompress (compress data level ++ rest) =
      if expandedLimit < data.size then .error (.tooLarge expandedLimit)
      else if data.isEmpty then .error .empty else .ok data := by
  obtain ⟨pos, hmember⟩ := runs_member data level rest
  unfold Bits.Runs at hmember
  rw [decompress, if_pos (isCompressed_compress_append data level rest), expand, hmember]
  change (if _ then _ else _) = _
  split
  · rfl
  · split
    · rfl
    · rfl

/-- What is compressed expands to what it was, unless it was nothing or is too much to expand. -/
theorem decompress_compress (data : ByteArray) (level : UInt32) :
    decompress (compress data level) =
      if expandedLimit < data.size then .error (.tooLarge expandedLimit)
      else if data.isEmpty then .error .empty else .ok data := by
  have h := decompress_compress_append data level ByteArray.empty
  rwa [ByteArray.append_empty] at h

end Rewind.Gzip
