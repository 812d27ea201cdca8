import Rewind.Movie.Sample
import Rewind.Text.Utf8

/-!
The movie header: a block of 1024 bytes in front of the samples that says what was recorded, on
which cartridge, from which start, and by whom.
-/

namespace Rewind

/-- The bit of `Header.controllerFlags` for controller `i` being plugged in. -/
def Controller.present (i : Nat) : UInt32 := 1 <<< UInt32.ofNat i

/-- The bit for a memory pak in controller `i`. -/
def Controller.mempak (i : Nat) : UInt32 := 1 <<< UInt32.ofNat (i + 4)

/-- The bit for a rumble pak in controller `i`. -/
def Controller.rumble (i : Nat) : UInt32 := 1 <<< UInt32.ofNat (i + 8)

/-- The names of the plugins a movie was recorded with. -/
structure PluginNames where
  video : String := ""
  audio : String := ""
  input : String := ""
  rsp : String := ""
deriving DecidableEq, Inhabited

namespace Movie

/-- The bit of `Header.startFlags` for a movie that starts from a snapshot. -/
def StartFlags.snapshot : UInt16 := 1

/-- The bit for a movie that starts from power-on. -/
def StartFlags.nothing : UInt16 := 2

/-- The bit for a movie that starts with saved cartridge memory. -/
def StartFlags.eeprom : UInt16 := 4

/-- The bit for a movie that starts from a snapshot made before. -/
def StartFlags.existingSnapshot : UInt16 := 8

/-- Marks a block as a movie header: `M64` and a substitute character. -/
def magic : UInt32 := 0x1A34364D

/-- The only header version in use. -/
def version : UInt32 := 3

/-- The bit of `Header.extendedFlags` for a movie made on the Wii's virtual console. -/
def wiiFlag : UInt8 := 1

/-- What stands in front of a movie's samples. -/
structure Header where
  version : UInt32 := Movie.version
  /-- The time of creation; it ties savestates to the movie they were made with. -/
  uid : UInt32 := 0
  lengthVis : UInt32 := 0
  rerecordCount : UInt64 := 0
  visPerSecond : UInt8 := 60
  numControllers : UInt8 := 1
  /-- Zero in movies from before the extended block. -/
  extendedVersion : UInt8 := 1
  extendedFlags : UInt8 := 0
  lengthSamples : UInt32 := 0
  startFlags : UInt16 := StartFlags.nothing
  controllerFlags : UInt32 := Controller.present 0
  authorshipTag : Wire.Block 4 := .ofBytes 4 "MUPN".toUTF8
  bruteforceExtraData : UInt32 := 0
  oldAuthor : String := ""
  oldDescription : String := ""
  romName : String := ""
  romCrc1 : UInt32 := 0
  romCountry : UInt16 := 0
  plugins : PluginNames := {}
  author : String := ""
  description : String := ""
deriving DecidableEq, Inhabited

/--
Text in a field of `width` bytes that ends with the first zero byte. What does not fit is cut
between characters, so that a zero byte always remains.
-/
def textField (width : Nat) : Wire.Layout String where
  size := width
  put text out :=
    out ++ Bytes.fit width (String.ofList (Text.cutTo (width - 1) text.toList)).toUTF8
  get data i :=
    let bytes := (data.extract i (i + width)).data.toList
    String.ofList (Text.decodeLossy (bytes.takeWhile (· != 0)))

namespace Header

/-- Whether controller `i` is plugged in; there are four. -/
def controllerPresent (h : Header) (i : Nat) : Bool :=
  decide (i < 4) && h.controllerFlags &&& Controller.present i != 0

/-- Whether the movie was made on the Wii's virtual console. -/
def isWiiVc (h : Header) : Bool :=
  h.extendedVersion != 0 && h.extendedFlags &&& wiiFlag != 0

/--
The header's fields in wire order. The upper half of the rerecord count stands in the extended
block, so it counts only when that block is there.
-/
def members : List (Wire.Member Header) :=
  [ .fixed .u32 magic,
    ⟨.u32, (·.version), fun v h => { h with version := v }⟩,
    ⟨.u32, (·.uid), fun v h => { h with uid := v }⟩,
    ⟨.u32, (·.lengthVis), fun v h => { h with lengthVis := v }⟩,
    ⟨.u32, (·.rerecordCount.toUInt32), fun v h => { h with rerecordCount := v.toUInt64 }⟩,
    ⟨.u8, (·.visPerSecond), fun v h => { h with visPerSecond := v }⟩,
    ⟨.u8, (·.numControllers), fun v h => { h with numControllers := v }⟩,
    ⟨.u8, (·.extendedVersion), fun v h => { h with extendedVersion := v }⟩,
    ⟨.u8, (·.extendedFlags), fun v h => { h with extendedFlags := v }⟩,
    ⟨.u32, (·.lengthSamples), fun v h => { h with lengthSamples := v }⟩,
    ⟨.u16, (·.startFlags), fun v h => { h with startFlags := v }⟩,
    .reserved 2,
    ⟨.u32, (·.controllerFlags), fun v h => { h with controllerFlags := v }⟩,
    ⟨.block 4, (·.authorshipTag), fun v h => { h with authorshipTag := v }⟩,
    ⟨.u32, (·.bruteforceExtraData), fun v h => { h with bruteforceExtraData := v }⟩,
    ⟨.u32, fun h => (h.rerecordCount >>> 32).toUInt32, fun v h =>
      if h.extendedVersion = 0 then h
      else { h with rerecordCount := h.rerecordCount + v.toUInt64 * 0x100000000 }⟩,
    .reserved 20,
    ⟨textField 48, (·.oldAuthor), fun v h => { h with oldAuthor := v }⟩,
    ⟨textField 80, (·.oldDescription), fun v h => { h with oldDescription := v }⟩,
    ⟨textField 32, (·.romName), fun v h => { h with romName := v }⟩,
    ⟨.u32, (·.romCrc1), fun v h => { h with romCrc1 := v }⟩,
    ⟨.u16, (·.romCountry), fun v h => { h with romCountry := v }⟩,
    .reserved 56,
    ⟨textField 64, (·.plugins.video), fun v h => { h with plugins.video := v }⟩,
    ⟨textField 64, (·.plugins.audio), fun v h => { h with plugins.audio := v }⟩,
    ⟨textField 64, (·.plugins.input), fun v h => { h with plugins.input := v }⟩,
    ⟨textField 64, (·.plugins.rsp), fun v h => { h with plugins.rsp := v }⟩,
    ⟨textField 222, (·.author), fun v h => { h with author := v }⟩,
    ⟨textField 256, (·.description), fun v h => { h with description := v }⟩ ]

/-- The header on the wire. -/
def layout : Wire.Layout Header := .record {} members

/-- The bytes that a header takes. -/
def size : Nat := 1024

theorem layout_size : layout.size = size := rfl

/-- The header as bytes. -/
def toBytes (h : Header) : ByteArray := layout.put h (ByteArray.emptyWithCapacity size)

end Header

end Movie

end Rewind
