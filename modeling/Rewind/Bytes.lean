/-!
Byte strings: runs of zeros, fitting to a fixed width, overwriting in place, and numbers written
in base 256 with the low digit first. Main statement: a number of `n` digits reads back from its
digits (`getNat_putNat`), wherever they stand.
-/

namespace Rewind.Bytes

/-- Byte strings are compared as blocks of memory. -/
instance instDecidableEq : DecidableEq ByteArray := ByteArray.decEq

/-- A run of `n` zero bytes. -/
def zeros (n : Nat) : ByteArray := ⟨Array.replicate n 0⟩

/-- The byte at `i`, zero beyond the end. -/
def peek (data : ByteArray) (i : Nat) : UInt8 :=
  if h : i < data.size then data[i] else 0

/-- `data` cut, or extended with zeros, to exactly `n` bytes. -/
def fit (n : Nat) (data : ByteArray) : ByteArray :=
  if data.size = n then data
  else if data.size < n then data ++ zeros (n - data.size)
  else data.extract 0 n

/-- `data` with the bytes from `offset` on replaced by `patch`. -/
def overwrite (data : ByteArray) (offset : Nat) (patch : ByteArray) : ByteArray :=
  patch.copySlice 0 data offset patch.size

/-- Appends the `n` lowest base-256 digits of `v`, the lowest first. -/
def putNat : (n : Nat) → (v : Nat) → ByteArray → ByteArray
  | 0, _, out => out
  | n + 1, v, out => putNat n (v / 256) (out.push (UInt8.ofNat v))

/-- The number whose `n` base-256 digits, the lowest first, start at `offset`. -/
def getNat : (n : Nat) → ByteArray → (offset : Nat) → Nat
  | 0, _, _ => 0
  | n + 1, data, offset => (peek data offset).toNat + 256 * getNat n data (offset + 1)

@[simp] theorem size_zeros (n : Nat) : (zeros n).size = n := by
  simp [zeros, ByteArray.size]

@[simp] theorem size_fit (n : Nat) (data : ByteArray) : (fit n data).size = n := by
  unfold fit
  split
  · assumption
  · split
    · rw [ByteArray.size_append, size_zeros]; omega
    · rw [ByteArray.size_extract]; omega

theorem fit_of_size {n : Nat} {data : ByteArray} (h : data.size = n) : fit n data = data := by
  simp [fit, h]

@[simp] theorem size_putNat (n v : Nat) (out : ByteArray) :
    (putNat n v out).size = out.size + n := by
  induction n generalizing v out with
  | zero => rfl
  | succ n ih => rw [putNat, ih, ByteArray.size_push]; omega

theorem push_eq_append (out : ByteArray) (b : UInt8) : out.push b = out ++ [b].toByteArray :=
  ByteArray.append_toByteArray_singleton.symm

/-- What is appended does not depend on what stands before it. -/
theorem putNat_eq_append (n v : Nat) (out : ByteArray) :
    putNat n v out = out ++ putNat n v ByteArray.empty := by
  induction n generalizing v out with
  | zero => simp [putNat]
  | succ n ih =>
    rw [putNat, ih, putNat, ih _ (ByteArray.empty.push _), push_eq_append, push_eq_append,
      ByteArray.empty_append, ByteArray.append_assoc]

theorem peek_append_left {a b : ByteArray} {i : Nat} (h : i < a.size) :
    peek (a ++ b) i = peek a i := by
  have h' : i < (a ++ b).size := by rw [ByteArray.size_append]; omega
  rw [peek, peek, dif_pos h, dif_pos h', ByteArray.getElem_append_left h]

theorem peek_push (a : ByteArray) (b : UInt8) (rest : ByteArray) :
    peek (a.push b ++ rest) a.size = b := by
  rw [peek_append_left (by rw [ByteArray.size_push]; omega), push_eq_append]
  have h : a.size < (a ++ [b].toByteArray).size := by
    rw [ByteArray.size_append]; simp
  rw [peek, dif_pos h, ByteArray.getElem_append_right (by omega)]
  simp [List.getElem_toByteArray]

/-- A number reads back, reduced to its `n` lowest digits. -/
theorem getNat_putNat (n v : Nat) (out rest : ByteArray) :
    getNat n (putNat n v out ++ rest) out.size = v % Nat.pow 256 n := by
  induction n generalizing v out with
  | zero => exact (Nat.mod_one v).symm
  | succ n ih =>
    have hs : (out.push (UInt8.ofNat v)).size = out.size + 1 := ByteArray.size_push
    rw [getNat, putNat, ← hs, ih, putNat_eq_append, ByteArray.append_assoc, peek_push]
    have hp : Nat.pow 256 (n + 1) = 256 * Nat.pow 256 n := Nat.mul_comm ..
    rw [UInt8.toNat_ofNat', hp, Nat.mod_mul]

end Rewind.Bytes
