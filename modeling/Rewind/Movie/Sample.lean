import Rewind.Wire.Layout

/-!
Controller samples: the buttons held and the position of the stick at one poll. A sample is one
32-bit word in movies and savestates: the buttons in the low half, the stick's horizontal and
vertical position in the two bytes above.
-/

namespace Rewind

/-- One polled controller state. -/
structure Sample where
  buttons : UInt16
  stickX : Int8
  stickY : Int8
deriving DecidableEq, Inhabited

namespace Sample

/-- The state with nothing held and the stick at rest. -/
def neutral : Sample := ⟨0, 0, 0⟩

/-- The state that a word stands for. -/
def ofRaw (raw : UInt32) : Sample where
  buttons := raw.toUInt16
  stickX := (raw >>> 16).toUInt8.toInt8
  stickY := (raw >>> 24).toUInt8.toInt8

/-- The word that stands for a state. -/
def toRaw (s : Sample) : UInt32 :=
  s.buttons.toUInt32 + s.stickX.toUInt8.toUInt32 * 0x10000 + s.stickY.toUInt8.toUInt32 * 0x1000000

/-- Whether one of the buttons in `mask` is held. -/
def isPressed (s : Sample) (mask : UInt16) : Bool := s.buttons &&& mask != 0

/-- A sample on the wire is its word. -/
def layout : Wire.Layout Sample := Wire.Layout.u32.map ofRaw toRaw

/-- The bytes that a sample takes. -/
def size : Nat := layout.size

/-- Appends the samples in order. -/
def putAll (samples : Array Sample) (out : ByteArray) : ByteArray :=
  samples.foldl (fun out s => layout.put s out) out

/-- The samples packed into `data`; bytes that do not fill a sample are ignored. -/
def unpack (data : ByteArray) : Array Sample :=
  Array.ofFn fun k : Fin (data.size / size) => layout.get data (k * size)

end Sample

end Rewind
