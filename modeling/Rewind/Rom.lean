import Rewind.Wire.Layout

/-!
What a cartridge says about itself: its name, checksum, region and digest, and how fast a console
of that region shows pictures.
-/

namespace Rewind

/-- The name of the region that the low byte of a country code stands for. -/
def countryName (code : UInt16) : String :=
  match code.toUInt8 with
  | 0x00 => "Demo"
  | 0x37 => "Beta"
  | 0x41 => "USA/Japan"
  | 0x44 => "Germany"
  | 0x45 => "USA"
  | 0x46 => "France"
  | 0x49 => "Italy"
  | 0x4A => "Japan"
  | 0x53 => "Spain"
  | 0x55 | 0x59 => "Australia"
  | 0x20 | 0x21 | 0x38 | 0x50 | 0x58 | 0x70 => "Europe"
  | other => "Unknown (" ++ toString other.toNat ++ ")"

/-- Vertical interrupts a second: 50 in the regions with the European television norm, else 60. -/
def visPerSecond (code : UInt16) : UInt8 :=
  if code.toUInt8 ∈ [0x44, 0x46, 0x49, 0x50, 0x53, 0x55, 0x58, 0x59] then 50 else 60

/-- The identity of a cartridge. -/
structure RomIdentity where
  /-- The name in the cartridge's own header. -/
  name : String
  crc1 : UInt32
  countryCode : UInt16
  /-- A digest of the contents, in hexadecimal digits. -/
  md5 : Wire.Block 32
deriving DecidableEq

namespace RomIdentity

/-- The name of the cartridge's region. -/
def countryName (rom : RomIdentity) : String := Rewind.countryName rom.countryCode

/-- Vertical interrupts a second in the cartridge's region. -/
def visPerSecond (rom : RomIdentity) : UInt8 := Rewind.visPerSecond rom.countryCode

end RomIdentity

end Rewind
