import Rewind.Bytes
import Rewind.Gzip.Error

/-!
Reading bits, the lowest of each byte first, and whole bytes between them. The position counts
bits from the front of the data.
-/

namespace Rewind.Gzip

/-- Takes bits from a byte string. The state is the position. -/
abbrev Bits := ReaderT ByteArray (StateT Nat (Except Error))

namespace Bits

/-- The next bit. -/
def bit : Bits Nat := do
  let data ← read
  let pos ← get
  if h : pos / 8 < data.size then
    set (pos + 1)
    return data[pos / 8].toNat >>> (pos % 8) % 2
  else throw .truncated

/-- The number that the next `n` bits write, the lowest first. -/
def number : (n : Nat) → Bits Nat
  | 0 => return 0
  | n + 1 => do
    let low ← bit
    return low + 2 * (← number n)

/-- Skips to the next byte boundary. -/
def align : Bits Unit := modify fun pos => (pos + 7) / 8 * 8

/-- The next `n` bytes, from a byte boundary on. -/
def bytes (n : Nat) : Bits ByteArray := do
  let data ← read
  let start := (← get) / 8
  if start + n ≤ data.size then
    set ((start + n) * 8)
    return data.extract start (start + n)
  else throw .truncated

/-- The number that the next `n` bytes write, the lowest first. -/
def word (n : Nat) : Bits Nat := do return Bytes.getNat n (← bytes n) 0

end Bits

end Rewind.Gzip
