import Rewind.Machine.Snapshot

/-!
Transfers with the controllers that are under way when a savestate is made. A savestate has no
place for a half-done transfer, so a machine that waits for one is first brought to its end: the
shared memory is copied into main memory, and the interrupt that reports it is queued.
-/

namespace Rewind.Savestate

open Machine

/-- Cycles from the end of the transfer until its interrupt fires. -/
def transferDelay : UInt32 := 0x900

/-- The bytes of `data` with the order inside each four reversed. -/
def swapWords (data : ByteArray) : ByteArray :=
  ⟨Array.ofFn fun k : Fin data.size => Bytes.peek data (k / 4 * 4 + 3 - k % 4)⟩

/--
Ends the transfer under way, if its interrupt is not queued yet, and says whether it did. The
shared memory goes to the word-aligned transfer address, if all of it fits into main memory.
-/
def finishTransfer (s : Snapshot) : Snapshot × Bool :=
  if s.interrupts.has Interrupt.si then (s, false)
  else
    let address := s.regs.si.dramAddr.toNat / 4 * 4
    let rdram :=
      if address + pifRamSize ≤ s.rdram.size then
        Bytes.overwrite s.rdram address (swapWords s.pifRam.bytes)
      else s.rdram
    let interrupts := s.interrupts.add Interrupt.si s.cpu.count transferDelay
    ({ s with rdram, interrupts }, true)

end Rewind.Savestate
