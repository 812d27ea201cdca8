import Rewind.Savestate.Transfer

/-!
The savestate format: the ROM hash, a block of fixed size for the machine, and then three parts of
varying size: the pending interrupts up to a terminator, the movie position if there is one, and a
screenshot if there is one.
-/

namespace Rewind.Savestate

open Machine Wire

/-- Marks a savestate whose transfer with the controllers was ended when it was made. -/
def transferBit : UInt32 := 0x80000000

/-- Follows the last pending interrupt. -/
def eventTerminator : UInt32 := 0xFFFFFFFF

/-- The bytes within which a reader looks for the terminator. -/
def eventScanLimit : Nat := 1024

/-- The most interrupts that leave room for the terminator within the scan limit. -/
def maxEvents : Nat := (eventScanLimit - 4) / 8

/-- Announces a screenshot. -/
def screenshotTag : ByteArray := ⟨#[0x53, 0x43, 0x52, 0x00]⟩

/-- The members of the fixed block, in wire order. -/
def fixedMembers : List (Member Snapshot) :=
  [ ⟨Peripherals.layout, (·.regs), fun v s => { s with regs := v }⟩,
    ⟨.region rdramSize, (·.rdram), fun v s => { s with rdram := v }⟩,
    ⟨.region spMemSize, (·.spDmem), fun v s => { s with spDmem := v }⟩,
    ⟨.region spMemSize, (·.spImem), fun v s => { s with spImem := v }⟩,
    ⟨.block pifRamSize, (·.pifRam), fun v s => { s with pifRam := v }⟩,
    ⟨.block flashramSize, (·.flashram), fun v s => { s with flashram := v }⟩,
    ⟨LookupTable.layout lookupTableLength, (·.tlbLutR), fun v s => { s with tlbLutR := v }⟩,
    ⟨LookupTable.layout lookupTableLength, (·.tlbLutW), fun v s => { s with tlbLutW := v }⟩,
    ⟨Cpu.layout, (·.cpu), fun v s => { s with cpu := v }⟩,
    ⟨.u32, (·.interrupts.next), fun v s => { s with interrupts.next := v }⟩,
    ⟨.u32, (·.interrupts.nextVi), fun v s => { s with interrupts.nextVi := v }⟩,
    ⟨.u32, (·.interrupts.viField), fun v s => { s with interrupts.viField := v }⟩ ]

/-- The fixed block; a reader starts from the blank machine. -/
def fixedLayout : Layout Snapshot := .record Snapshot.blank fixedMembers

/-- The bytes of the fixed block. -/
def fixedBlockSize : Nat := 10496916

theorem fixedLayout_size : fixedLayout.size = fixedBlockSize := by decide

/-- The ROM hash in front of the fixed block. -/
def hashLayout : Layout (Block romHashSize) := .block romHashSize

/-- A savestate, and the machine that it now describes. -/
structure Encoded where
  bytes : ByteArray
  snapshot : Snapshot
  /-- Whether a transfer was ended to make it. -/
  transferEnded : Bool

/-- What a savestate holds. -/
structure Decoded where
  snapshot : Snapshot
  /-- Whether a transfer was ended to make it; the machine must then skip the next one. -/
  transferEnded : Bool

/-- Appends the pending interrupts and the terminator. -/
def putEvents (events : List Interrupt) (out : ByteArray) : ByteArray :=
  Layout.u32.put eventTerminator
    (events.foldl (fun out e => Layout.u32.put e.count (Layout.u32.put e.kind out)) out)

/-- Appends a flag, and the movie position when there is one. -/
def putMovie : Option Movie.Freeze → ByteArray → ByteArray
  | none, out => Layout.u32.put 0 out
  | some freeze, out => freeze.put (Layout.u32.put 1 out)

/-- Appends the screenshot when there is one, its pixels cut or extended to its size. Bytes are
appended however many they are; that there can be too many to be held is a matter of its own. -/
def putScreenshot : Option Screenshot → ByteArray → Except Error ByteArray
  | none, out => .ok out
  | some shot, out =>
    match Screenshot.byteCount? shot.width shot.height with
    | none => .error (.malformed .screenshotOverflow)
    | some n =>
      .ok <| Layout.u32.put shot.width (out ++ screenshotTag) |> Layout.u32.put shot.height |>
        (Layout.region n).put shot.rgb

/-- The machine with the mark set under which its transfer was ended. -/
def mark (s : Snapshot) : Snapshot :=
  { s with regs.rdram.deviceManuf := s.regs.rdram.deviceManuf ||| transferBit }

/-- The bytes of a machine; `marked` says whether a transfer was ended for it. -/
def write (s : Snapshot) (marked : Bool) : Except Error ByteArray :=
  if maxEvents < s.interrupts.events.length then
    .error (.tooManyEvents s.interrupts.events.length)
  else
    let out := ByteArray.emptyWithCapacity (romHashSize + fixedBlockSize + 0x2000)
    hashLayout.put s.romHash out |> fixedLayout.put (if marked then mark s else s) |>
      putEvents s.interrupts.events |> putMovie s.movie |> putScreenshot s.screenshot

/-- Ends the transfer under way, if there is one, and writes the machine. -/
def encode (s : Snapshot) : Except Error Encoded :=
  let (s, transferEnded) := finishTransfer s
  (write s transferEnded).map fun bytes => ⟨bytes, s, transferEnded⟩

/-- Takes interrupts up to the terminator, at most `fuel` of them. -/
def getEvents : (fuel : Nat) → Reader (List Interrupt)
  | 0 => throw .eventQueueTooLong
  | fuel + 1 => do
    let kind ← .item .u32
    if kind = eventTerminator then return []
    let count ← .item .u32
    return ⟨kind, count⟩ :: (← getEvents fuel)

/-- Takes a flag, and a movie position unless it is zero. -/
def getMovie : Reader (Option Movie.Freeze) := do
  let flag ← .item .u32
  if flag = 0 then return none else return some (← Movie.Freeze.get)

/-- Takes a signed number that must not be negative. -/
def getExtent (what : Malformation) : Reader UInt32 := do
  let n ← .item .u32
  if n < 0x80000000 then return n else throw (.malformed what)

/-- Takes a screenshot, unless too little is left or it is not announced. -/
def getScreenshot : Reader (Option Screenshot) := do
  if (← .remaining) < screenshotTag.size then return none
  let tag ← .bytes screenshotTag.size
  if tag ≠ screenshotTag then return none
  let width ← getExtent .negativeWidth
  let height ← getExtent .negativeHeight
  match Screenshot.byteCount? width height with
  | none => throw (.malformed .screenshotOverflow)
  | some n => return some ⟨width, height, ← .bytes n⟩

/-- Takes a whole savestate. -/
def get : Reader Decoded := do
  let romHash ← .item hashLayout
  .require fixedBlockSize
  let fixed ← .item fixedLayout
  let manuf := fixed.regs.rdram.deviceManuf
  let events ← getEvents (eventScanLimit / 8)
  let movie ← getMovie
  let screenshot ← getScreenshot
  let snapshot := { fixed with
    romHash, movie, screenshot
    regs.rdram.deviceManuf := manuf &&& ~~~transferBit
    interrupts.events := events }
  return ⟨snapshot, manuf &&& transferBit != 0⟩

/-- Reads a savestate; what follows it is ignored. -/
def decode (data : ByteArray) : Except Error Decoded := get.runOn data

/-- The ROM hash of a savestate, which needs no more than its first bytes. -/
def romHash (data : ByteArray) : Except Error (Block romHashSize) :=
  (Reader.item hashLayout).runOn data

end Rewind.Savestate
