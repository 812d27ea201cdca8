import Rewind.Machine.Cpu
import Rewind.Machine.Interrupts
import Rewind.Machine.LookupTable
import Rewind.Machine.Peripherals
import Rewind.Movie.Freeze

/-!
Snapshots: everything a savestate keeps of the machine, and what is saved along with it.
-/

namespace Rewind.Machine

open Wire (Block)

/-- The bytes of a ROM hash, which is a digest in hexadecimal digits. -/
def romHashSize : Nat := 32

/-- The bytes of main memory that a savestate holds. -/
def rdramSize : Nat := 0x800000

/-- The bytes of each memory of the signal processor. -/
def spMemSize : Nat := 0x1000

/-- The bytes of the memory shared with the controllers. -/
def pifRamSize : Nat := 0x40

/-- The bytes that describe the cartridge's flash memory. -/
def flashramSize : Nat := 24

/-- The words of each lookup table of the TLB. -/
def lookupTableLength : Nat := 0x40000

/-- A copy of the screen, three bytes a pixel. -/
structure Screenshot where
  width : UInt32
  height : UInt32
  rgb : ByteArray
deriving DecidableEq, Inhabited

/-- The bytes of a screenshot of the given size, if a 64-bit machine can count them. -/
def Screenshot.byteCount? (width height : UInt32) : Option Nat :=
  let n := width.toNat * height.toNat * 3
  if n < UInt64.size then some n else none

/-- The machine as a savestate keeps it. -/
structure Snapshot where
  /-- Which cartridge the machine ran. -/
  romHash : Block romHashSize
  regs : Peripherals
  rdram : ByteArray
  spDmem : ByteArray
  spImem : ByteArray
  pifRam : Block pifRamSize
  flashram : Block flashramSize
  tlbLutR : LookupTable
  tlbLutW : LookupTable
  cpu : Cpu
  interrupts : Interrupts
  /-- The position in the active movie, when there is one. -/
  movie : Option Movie.Freeze
  screenshot : Option Screenshot
deriving DecidableEq

namespace Snapshot

/-- The machine with every memory zero and at its full size. -/
def blank : Snapshot where
  romHash := .zero _
  regs := {}
  rdram := Bytes.zeros rdramSize
  spDmem := Bytes.zeros spMemSize
  spImem := Bytes.zeros spMemSize
  pifRam := .zero _
  flashram := .zero _
  tlbLutR := .zero lookupTableLength
  tlbLutW := .zero lookupTableLength
  cpu := {}
  interrupts := {}
  movie := none
  screenshot := none

instance : Inhabited Snapshot := ⟨blank⟩

end Snapshot

end Rewind.Machine
