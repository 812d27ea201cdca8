import Rewind.Proofs.Checked.Reader

/-!
Savestates read with every check. The readers take the parts of a savestate field by field, as they
stand on the wire, and compute each length that the data gives before they ask for the bytes. Main
statement: on data within the limit they never stop dead and do as the savestate's own reader
(`state_follows`).
-/

namespace Rewind.Checked

open Machine Wire
open Savestate (Decoded)

/-! ## The machine -/

/-- A register of the coprocessor, of whose eight bytes the second four are skipped. -/
def cop0Register : Reader Savestate.Error UInt32 := do
  let v ← .item .u32
  let _ ← Reader.bytes 4
  return v

/-- Takes the processor. -/
def cpu : Reader Savestate.Error Cpu := do
  let llbit ← .item .u32
  let gpr ← .vector 32 (.item .u64)
  let cop0 ← .vector 32 cop0Register
  let lo ← .item .u64
  let hi ← .item .u64
  let fgr ← .vector 32 (.item .u64)
  let fcr0 ← .item .u32
  let fcr31 ← .item .u32
  let tlb ← .vector 32 (.block {} TlbEntry.registers)
  let pc ← .item .u32
  return ⟨llbit, gpr, cop0, lo, hi, fgr, fcr0, fcr31, tlb, pc⟩

/-- Takes the part of a machine that has a fixed size. -/
def machine : Reader Savestate.Error Snapshot := do
  let regs ← .block {} Peripherals.registers
  let rdram ← .bytes rdramSize
  let spDmem ← .bytes spMemSize
  let spImem ← .bytes spMemSize
  let pifRam ← .item (.block pifRamSize)
  let flashram ← .item (.block flashramSize)
  let tlbLutR ← .item (LookupTable.layout lookupTableLength)
  let tlbLutW ← .item (LookupTable.layout lookupTableLength)
  let cpu ← cpu
  let next ← .item .u32
  let nextVi ← .item .u32
  let viField ← .item .u32
  return { Snapshot.blank with
    regs, rdram, spDmem, spImem, pifRam, flashram, tlbLutR, tlbLutW, cpu
    interrupts := { next, nextVi, viField } }

section

open Reads

theorem cop0Register_reads : Reads cop0Register 8 Layout.u32.get :=
  (item Layout.u32_local).bind fun v => (bytes 4).bind fun _ => pure v

theorem cop0_reads : Reads (.vector 32 cop0Register) cop0Layout.size cop0Layout.get :=
  vector cop0Register_reads 32

theorem tlbEntry_reads :
    Reads (.block {} TlbEntry.registers) TlbEntry.layout.size TlbEntry.layout.get := by
  unfold TlbEntry.layout
  exact block _ _

theorem cpu_reads : Reads cpu Cpu.layout.size Cpu.layout.get := by
  change Reads cpu (Member.totalSize Cpu.members) (Member.getAll Cpu.members {})
  unfold cpu Cpu.members
  refine cons (item Layout.u32_local) fun llbit => ?_
  refine cons (vector_layout (item Layout.u64_local) 32) fun gpr => ?_
  refine cons cop0_reads fun cop0 => ?_
  refine cons (item Layout.u64_local) fun lo => ?_
  refine cons (item Layout.u64_local) fun hi => ?_
  refine cons (vector_layout (item Layout.u64_local) 32) fun fgr => ?_
  refine cons (item Layout.u32_local) fun fcr0 => ?_
  refine cons (item Layout.u32_local) fun fcr31 => ?_
  refine cons (vector_layout tlbEntry_reads 32) fun tlb => ?_
  refine cons (item Layout.u32_local) fun pc => ?_
  exact nil rfl

theorem peripherals_reads :
    Reads (.block {} Peripherals.registers) Peripherals.layout.size Peripherals.layout.get := by
  unfold Peripherals.layout
  exact block _ _

theorem machine_reads : Reads machine Savestate.fixedLayout.size Savestate.fixedLayout.get := by
  change Reads machine (Member.totalSize Savestate.fixedMembers)
    (Member.getAll Savestate.fixedMembers Snapshot.blank)
  unfold machine Savestate.fixedMembers
  have htable : (LookupTable.layout lookupTableLength).Local :=
    Layout.Local.map (Layout.region_local _) _ _
  refine cons peripherals_reads fun regs => ?_
  refine cons (region rdramSize) fun rdram => ?_
  refine cons (region spMemSize) fun spDmem => ?_
  refine cons (region spMemSize) fun spImem => ?_
  refine cons (item (Layout.block_local pifRamSize)) fun pifRam => ?_
  refine cons (item (Layout.block_local flashramSize)) fun flashram => ?_
  refine cons (item htable) fun tlbLutR => ?_
  refine cons (item htable) fun tlbLutW => ?_
  refine cons cpu_reads fun cpu => ?_
  refine cons (item Layout.u32_local) fun next => ?_
  refine cons (item Layout.u32_local) fun nextVi => ?_
  refine cons (item Layout.u32_local) fun viField => ?_
  exact nil rfl

end

/-! ## The parts of varying size -/

/-- Takes interrupts up to the terminator, in so many rounds; `length` counts the bytes that were
looked through. -/
def events : (rounds length : Nat) → Reader Savestate.Error (List Interrupt)
  | 0, _ => .compute (.error .endless)
  | rounds + 1, length => do
    if length < Savestate.eventScanLimit then
      let kind ← .item .u32
      if kind = Savestate.eventTerminator then return []
      let count ← .item .u32
      let length ← .compute (add length 8)
      return ⟨kind, count⟩ :: (← events rounds length)
    else throw .eventQueueTooLong

/-- Takes a movie position; how many samples there are to take is computed from the length. -/
def freeze : Reader Savestate.Error Movie.Freeze := do
  let size ← .item .u32
  let uid ← .item .u32
  let currentSample ← .item .u32
  let currentVi ← .item .u32
  let lengthSamples ← .item .u32
  let count ← .compute (add lengthSamples.toNat 1)
  let n ← .compute (mul count Sample.size)
  let packed ← .bytes n
  return ⟨size, uid, currentSample, currentVi, lengthSamples, Sample.unpack packed⟩

/-- Takes a flag, and a movie position unless it is zero. -/
def movie : Reader Savestate.Error (Option Movie.Freeze) := do
  let flag ← .item .u32
  if flag = 0 then return none else return some (← freeze)

/-- Takes a signed number that must not be negative. -/
def extent (what : Savestate.Malformation) : Reader Savestate.Error UInt32 := do
  let n ← .item .u32
  if n < 0x80000000 then return n else throw (.malformed what)

/-- Takes a screenshot; its bytes are computed from its sides. -/
def screenshot : Reader Savestate.Error (Option Screenshot) := do
  if (← .remaining) < Savestate.screenshotTag.size then return none
  let tag ← .bytes Savestate.screenshotTag.size
  if tag ≠ Savestate.screenshotTag then return none
  let width ← extent .negativeWidth
  let height ← extent .negativeHeight
  let area ← .compute (mul width.toNat height.toNat)
  let n ← .compute (mul area 3)
  return some ⟨width, height, ← .bytes n⟩

/-- Takes a whole savestate. -/
def state : Reader Savestate.Error Decoded := do
  let romHash ← .item Savestate.hashLayout
  .require Savestate.fixedBlockSize
  let fixed ← machine
  let manuf := fixed.regs.rdram.deviceManuf
  let events ← events (Savestate.eventScanLimit / 8 + 1) 0
  let movie ← movie
  let screenshot ← screenshot
  let snapshot := { fixed with
    romHash, movie, screenshot
    regs.rdram.deviceManuf := manuf &&& ~~~Savestate.transferBit
    interrupts.events := events }
  return ⟨snapshot, manuf &&& Savestate.transferBit != 0⟩

/-- Reads a savestate; what follows it is ignored. -/
def decode (data : ByteArray) : Except Trap (Except Savestate.Error Decoded) := state.runOn data

/-- The ROM hash of a savestate. -/
def romHash (data : ByteArray) : Except Trap (Except Savestate.Error (Block romHashSize)) :=
  (Reader.item Savestate.hashLayout).runOn data

open Follows

theorem word_follows : Follows (.item Layout.u32) (.item Layout.u32) :=
  item Layout.u32_local (by decide)

/-- A round passes eight bytes, so the rounds last until all that may be looked through is. -/
theorem events_follows {rounds length : Nat} (h : length + 8 * rounds = Savestate.eventScanLimit) :
    Follows (events (rounds + 1) length) (Savestate.getEvents rounds) := by
  induction rounds generalizing length with
  | zero =>
    rw [events, if_neg (by omega)]
    exact throw _
  | succ rounds ih =>
    have hlimit : Savestate.eventScanLimit = 1024 := rfl
    have hadd : add length 8 = .ok (length + 8) := by
      have : UInt64.size = 2 ^ 64 := rfl
      exact add_eq (by omega)
    rw [events, if_pos (by omega), Savestate.getEvents]
    refine word_follows.bind fun kind => ?_
    split
    · exact pure _
    · exact word_follows.bind fun count => compute hadd <| (ih (by omega)).map _

theorem freeze_follows : Follows freeze Movie.Freeze.get := by
  refine word_follows.bind fun size => word_follows.bind fun uid => word_follows.bind fun current =>
    word_follows.bind fun vi => word_follows.bind fun length => ?_
  have hlength := length.toNat_lt
  have hsize : Sample.size = 4 := rfl
  have hlimit : limit = 0x4000000000000000 := rfl
  have hword : UInt64.size = 2 ^ 64 := rfl
  have hcount : add length.toNat 1 = .ok (length.toNat + 1) := add_eq (by omega)
  have hbytes : mul (length.toNat + 1) Sample.size = .ok ((length.toNat + 1) * Sample.size) :=
    mul_eq (by rw [hsize]; omega)
  exact compute hcount <| compute hbytes <| (bytes (by rw [hsize]; omega)).map _

theorem movie_follows : Follows movie Savestate.getMovie := by
  refine word_follows.bind fun flag => ?_
  split
  · exact pure _
  · exact freeze_follows.map _

theorem extent_follows (what : Savestate.Malformation) :
    Follows (extent what) (Savestate.getExtent what) := by
  refine word_follows.bind fun n => ?_
  split
  · exact pure _
  · exact throw _

theorem screenshot_follows : Follows screenshot Savestate.getScreenshot := by
  refine remaining.bind fun left => ?_
  split
  · exact pure _
  · refine (bytes (by decide)).bind fun tag => ?_
    split
    · exact pure _
    · refine (extent_follows _).bind_gives (Savestate.getExtent_gives _) fun width hw => ?_
      refine (extent_follows _).bind_gives (Savestate.getExtent_gives _) fun height hh => ?_
      have harea := Screenshot.area_le hw hh
      have hlimit : limit = 0x4000000000000000 := rfl
      have hword : UInt64.size = 2 ^ 64 := rfl
      simp only [Screenshot.byteCount?_of_lt hw hh]
      exact compute (mul_eq (by omega)) <| compute (mul_eq (by omega)) <|
        (bytes (by omega)).map _

theorem state_follows : Follows state Savestate.get := by
  have hhash : Follows (.item Savestate.hashLayout) (.item Savestate.hashLayout) :=
    item (Layout.block_local _) (by decide)
  refine hhash.bind fun romHash => ?_
  refine fixed machine_reads Savestate.fixedLayout_size (by decide) fun fixed => ?_
  exact (events_follows rfl).bind fun events => movie_follows.bind fun movie =>
    screenshot_follows.bind fun screenshot => pure _

end Rewind.Checked
