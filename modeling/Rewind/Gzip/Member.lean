import Rewind.Gzip.Checksum
import Rewind.Gzip.Inflate

/-!
Gzip members: deflated data between a header and a trailer with a checksum and the length. The
writer puts everything into plain blocks, which every reader takes at every level of compression.
-/

namespace Rewind.Gzip

/-- The two bytes that every member starts with. -/
def magic : ByteArray := ⟨#[0x1F, 0x8B]⟩

/-- The number of the deflate method. -/
def deflateMethod : Nat := 8

/-- The most bytes that a member may expand to. -/
def expandedLimit : Nat := 256 * 1024 * 1024

/-- Whether data starts like a member. -/
def isCompressed (data : ByteArray) : Bool := data.extract 0 2 = magic

/-- The most bytes of a name or a comment. -/
def textLimit : Nat := 0xFFFF

/-- Skips text up to the next zero byte; `room` is how many other bytes may come before it. -/
def skipText : (room : Nat) → Bits Unit
  | 0 => do if (← Bits.word 1) = 0 then return () else throw .badHeader
  | room + 1 => do if (← Bits.word 1) = 0 then return () else skipText room

/-- Skips a member's header, which may hold further fields, a name, a comment and a checksum. -/
def skipHeader : Bits Unit := do
  if (← Bits.bytes 2) ≠ magic then throw .badHeader
  if (← Bits.word 1) ≠ deflateMethod then throw .badHeader
  let flags ← Bits.word 1
  if 32 ≤ flags then throw .badHeader
  discard <| Bits.bytes 6
  if flags.testBit 2 then discard <| Bits.bytes (← Bits.word 2)
  if flags.testBit 3 then skipText textLimit
  if flags.testBit 4 then skipText textLimit
  if flags.testBit 1 then
    let sum := checksum ((← read).extract 0 ((← get) / 8))
    if (← Bits.word 2) ≠ sum.toNat % 0x10000 then throw .badChecksum

/-- The expanded contents of the member that comes next. -/
def member : Bits ByteArray := do
  skipHeader
  let out ← inflate
  Bits.align
  let sum ← Bits.word 4
  let length ← Bits.word 4
  if sum ≠ (checksum out).toNat ∨ length ≠ out.size % UInt32.size then throw .badChecksum
  return out

/-- The contents of the member at the front of `data`; what follows it is ignored. -/
def expand (data : ByteArray) : Except Error ByteArray := do
  let (out, _) ← (member.run data).run 0
  if expandedLimit < out.size then throw (.tooLarge expandedLimit)
  if out.isEmpty then throw .empty
  return out

/-- The most bytes of a plain block. -/
def plainBlockLimit : Nat := 0xFFFF

/-- Appends the bytes of `data` from `offset` on, in plain blocks. -/
def putPlain (data : ByteArray) (offset : Nat) (out : ByteArray) : ByteArray :=
  let n := min plainBlockLimit (data.size - offset)
  let last := data.size ≤ offset + n
  let out := out.push (if last then 1 else 0) |> Bytes.putNat 2 n |>
    Bytes.putNat 2 (plainBlockLimit - n)
  let out := out ++ data.extract offset (offset + n)
  if h : data.size ≤ offset + n then out
  else
    have : 0 < n := by simp only [n, plainBlockLimit] at h ⊢; omega
    putPlain data (offset + n) out
termination_by data.size - offset

/-- How hard a member of the given level was compressed, as its header says it. -/
def effort (level : UInt32) : UInt8 := if 9 ≤ level then 2 else if level ≤ 1 then 4 else 0

/-- The member that holds `data`. -/
def compress (data : ByteArray) (level : UInt32) : ByteArray :=
  let header : ByteArray := magic ++ ⟨#[8, 0, 0, 0, 0, 0, effort level, 0xFF]⟩
  putPlain data 0 header |> Bytes.putNat 4 (checksum data).toNat |> Bytes.putNat 4 data.size

/-- The contents of data that may be a member, and of any other data the data itself. -/
def decompress (data : ByteArray) : Except Error ByteArray :=
  if isCompressed data then expand data else .ok data

end Rewind.Gzip
