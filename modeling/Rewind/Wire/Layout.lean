import Rewind.Bytes

/-!
Layouts: values with a fixed size on the wire. A layout says how a value is appended to a buffer
and how it is read back at an offset; larger layouts are built from members written one after the
other. Reading is total: bytes beyond the end of the data count as zero, so whoever must refuse
short data checks the size first, once.
-/

namespace Rewind.Wire

/-- A byte string of exactly `n` bytes. -/
structure Block (n : Nat) where
  bytes : ByteArray
  size_eq : bytes.size = n
deriving DecidableEq

namespace Block

/-- `data` cut, or extended with zeros, to a block. -/
def ofBytes (n : Nat) (data : ByteArray) : Block n := ⟨Bytes.fit n data, Bytes.size_fit n data⟩

/-- The block of zeros. -/
def zero (n : Nat) : Block n := ⟨Bytes.zeros n, Bytes.size_zeros n⟩

instance : Inhabited (Block n) := ⟨zero n⟩

theorem ofBytes_bytes (b : Block n) : ofBytes n b.bytes = b := by
  cases b with
  | mk bytes h => simp [ofBytes, Bytes.fit_of_size h]

end Block

/-- How values of `α` are written in `size` bytes, and read back from them. -/
structure Layout (α : Type) where
  size : Nat
  put : α → ByteArray → ByteArray
  get : ByteArray → (offset : Nat) → α

namespace Layout

/-- One byte. -/
def u8 : Layout UInt8 := ⟨1, fun v out => out.push v, Bytes.peek⟩

/-- A 16-bit number, low byte first. -/
def u16 : Layout UInt16 :=
  ⟨2, fun v => Bytes.putNat 2 v.toNat, fun data i => UInt16.ofNat (Bytes.getNat 2 data i)⟩

/-- A 32-bit number, low byte first. -/
def u32 : Layout UInt32 :=
  ⟨4, fun v => Bytes.putNat 4 v.toNat, fun data i => UInt32.ofNat (Bytes.getNat 4 data i)⟩

/-- A 64-bit number, low byte first. -/
def u64 : Layout UInt64 :=
  ⟨8, fun v => Bytes.putNat 8 v.toNat, fun data i => UInt64.ofNat (Bytes.getNat 8 data i)⟩

/-- Exactly `n` bytes. -/
def block (n : Nat) : Layout (Block n) :=
  ⟨n, fun v out => out ++ v.bytes, fun data i => .ofBytes n (data.extract i (i + n))⟩

/-- A byte string of any length, cut or extended with zeros to `n` bytes when written. -/
def region (n : Nat) : Layout ByteArray :=
  ⟨n, fun v out => out ++ Bytes.fit n v, fun data i => Bytes.fit n (data.extract i (i + n))⟩

/-- `n` values of one layout, one after the other. -/
def vector (n : Nat) (item : Layout α) : Layout (Vector α n) where
  size := n * item.size
  put v out := v.foldl (fun out a => item.put a out) out
  get data i := Vector.ofFn fun k => item.get data (i + k * item.size)

/-- The layout of values that are kept in another form on the wire. -/
def map (ofWire : α → β) (toWire : β → α) (wire : Layout α) : Layout β :=
  ⟨wire.size, fun b => wire.put (toWire b), fun data i => ofWire (wire.get data i)⟩

end Layout

/-- One part of a record: its layout, and how it is taken from the record and put back. -/
structure Member (R : Type) where
  {Value : Type}
  layout : Layout Value
  get : R → Value
  set : Value → R → R

/-- A part that is written the same for every record and ignored when read. -/
def Member.fixed (layout : Layout α) (value : α) : Member R :=
  ⟨layout, fun _ => value, fun _ r => r⟩

/-- `n` zero bytes, ignored when read. -/
def Member.reserved (n : Nat) : Member R := .fixed (.region n) ByteArray.empty

namespace Member

/-- The bytes that `members` take together. -/
def totalSize (members : List (Member R)) : Nat := members.foldr (·.layout.size + ·) 0

/-- Appends every part of `r` in order. -/
def putAll (members : List (Member R)) (r : R) (out : ByteArray) : ByteArray :=
  members.foldl (fun out m => m.layout.put (m.get r) out) out

/-- Reads the members that stand from `offset` on into `r`, in order. -/
def getAll (members : List (Member R)) (r : R) (data : ByteArray) (offset : Nat) : R :=
  (members.foldl (fun (r, i) m => (m.set (m.layout.get data i) r, i + m.layout.size))
    (r, offset)).1

end Member

/-- A record is laid out as its members in order; reading starts from `blank`. -/
def Layout.record (blank : R) (members : List (Member R)) : Layout R where
  size := Member.totalSize members
  put r out := Member.putAll members r out
  get data i := Member.getAll members blank data i

end Rewind.Wire
