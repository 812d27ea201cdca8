import Rewind.Savestate.Error
import Rewind.Wire.Layout

/-!
Reading savestate data from front to back. The cursor never leaves the data: its position is at
most the size, and a read that asks for more than is left is refused with the position it would
have reached.
-/

namespace Rewind.Savestate

/-- A place in a byte string. -/
structure Cursor where
  data : ByteArray
  pos : Nat
  pos_le : pos ≤ data.size

namespace Cursor

/-- The place in front of the first byte. -/
def start (data : ByteArray) : Cursor := ⟨data, 0, Nat.zero_le _⟩

/-- The number of bytes from here on. -/
def remaining (c : Cursor) : Nat := c.data.size - c.pos

end Cursor

/-- A reader takes something from a cursor and moves it on. -/
abbrev Reader := StateT Cursor (Except Error)

namespace Reader

/-- Moves past `n` bytes and gives the position in front of them. -/
def advance (n : Nat) : Reader Nat := fun c =>
  if h : c.pos + n ≤ c.data.size then .ok (c.pos, ⟨c.data, c.pos + n, h⟩)
  else .error (.truncated (c.pos + n) c.data.size)

/-- Fails unless `n` bytes are left. -/
def require (n : Nat) : Reader Unit := fun c =>
  if c.pos + n ≤ c.data.size then .ok ((), c)
  else .error (.truncated (c.pos + n) c.data.size)

/-- The number of bytes left. -/
def remaining : Reader Nat := do return (← get).remaining

/-- Takes a value of fixed size. -/
def item (layout : Wire.Layout α) : Reader α := do
  let pos ← advance layout.size
  return layout.get (← get).data pos

/-- Takes the next `n` bytes. -/
def bytes (n : Nat) : Reader ByteArray := do
  let pos ← advance n
  return (← get).data.extract pos (pos + n)

/-- What a reader takes from the front of `data`. -/
def runOn (reader : Reader α) (data : ByteArray) : Except Error α :=
  (·.1) <$> reader (Cursor.start data)

end Reader

end Rewind.Savestate
