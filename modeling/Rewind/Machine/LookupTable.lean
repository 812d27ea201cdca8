import Rewind.Wire.Layout

/-!
Tables of 32-bit words, kept as the bytes they have on the wire.
-/

namespace Rewind.Machine

/-- A table of words, the low byte of each first. -/
structure LookupTable where
  bytes : ByteArray
  aligned : bytes.size % 4 = 0
deriving DecidableEq

namespace LookupTable

/-- The table of `n` zero words. -/
def zero (n : Nat) : LookupTable := ⟨Bytes.zeros (4 * n), by rw [Bytes.size_zeros]; omega⟩

instance : Inhabited LookupTable := ⟨zero 0⟩

/-- The number of words. -/
def length (t : LookupTable) : Nat := t.bytes.size / 4

/-- The word at `i`, zero beyond the end. -/
def get (t : LookupTable) (i : Nat) : UInt32 := Wire.Layout.u32.get t.bytes (4 * i)

/-- The table cut, or extended with zeros, to `n` words. -/
def resize (t : LookupTable) (n : Nat) : LookupTable :=
  ⟨Bytes.fit (4 * n) t.bytes, by rw [Bytes.size_fit]; omega⟩

/-- The table with the word at `i` replaced; nothing changes beyond the end. -/
def set (t : LookupTable) (i : Nat) (v : UInt32) : LookupTable :=
  (LookupTable.mk (Bytes.fit (4 * t.length)
    (Bytes.overwrite t.bytes (4 * i) (Wire.Layout.u32.put v ByteArray.empty)))
    (by rw [Bytes.size_fit]; omega))

/-- A table of `n` words on the wire. -/
def layout (n : Nat) : Wire.Layout LookupTable :=
  (Wire.Layout.region (4 * n)).map
    (fun bytes => ⟨Bytes.fit (bytes.size / 4 * 4) bytes, by rw [Bytes.size_fit]; omega⟩) (·.bytes)

end LookupTable

end Rewind.Machine
