import Rewind.Wire.Layout

/-!
Named registers. A register block is described once, by the list of its registers in wire order:
the list is its layout, and also what shows or changes a register by name.
-/

namespace Rewind.Wire

/-- The widths a register comes in. -/
inductive Width
  | byte | half | word
  | bytes (n : Nat)

/-- What a register of a given width holds. -/
@[reducible] def Width.Value : Width → Type
  | .byte => UInt8
  | .half => UInt16
  | .word => UInt32
  | .bytes n => Block n

/-- How a register of a given width stands on the wire. -/
def Width.layout : (w : Width) → Layout w.Value
  | .byte => .u8
  | .half => .u16
  | .word => .u32
  | .bytes n => .block n

/-- A named register of the block `R`. -/
structure Register (R : Type) where
  name : String
  width : Width
  get : R → width.Value
  set : width.Value → R → R

namespace Register

/-- A register of one byte. -/
def byte (name : String) (get : R → UInt8) (set : UInt8 → R → R) : Register R :=
  ⟨name, .byte, get, set⟩

/-- A register of 16 bits. -/
def half (name : String) (get : R → UInt16) (set : UInt16 → R → R) : Register R :=
  ⟨name, .half, get, set⟩

/-- A register of 32 bits. -/
def word (name : String) (get : R → UInt32) (set : UInt32 → R → R) : Register R :=
  ⟨name, .word, get, set⟩

/-- Registers of one byte each that stand together. -/
def bytes (name : String) (n : Nat) (get : R → Block n) (set : Block n → R → R) : Register R :=
  ⟨name, .bytes n, get, set⟩

/-- A register as a part of its block. -/
def toMember (r : Register R) : Member R := ⟨r.width.layout, r.get, r.set⟩

/-- A register of an inner block, seen from the block around it and named after both. -/
def within (outer : String) (get : S → R) (set : R → S → S) (r : Register R) : Register S where
  name := outer ++ "." ++ r.name
  width := r.width
  get s := r.get (get s)
  set v s := set (r.set v (get s)) s

/-- The layout of a block: its registers in order. -/
def layout (blank : R) (registers : List (Register R)) : Layout R :=
  .record blank (registers.map toMember)

end Register

end Rewind.Wire
