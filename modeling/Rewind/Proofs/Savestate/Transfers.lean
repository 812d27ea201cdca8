import Rewind.Proofs.Machine.Interrupts
import Rewind.Proofs.Savestate.RoundTrip

/-!
Ending a transfer. Main statement: a machine without the interrupt of the transfer gets the shared
memory at the transfer's address, if all of it fits there, and the interrupt; nothing else about it
changes, and nothing at all the second time (`finishTransfer_delivers`).
-/

namespace Rewind

namespace Savestate

open Machine

theorem peek_swapWords {data : ByteArray} {i j : Nat} (hj : j < 4) (h : 4 * i + j < data.size) :
    Bytes.peek (swapWords data) (4 * i + j) = Bytes.peek data (4 * i + 3 - j) := by
  have hsize : 4 * i + j < (swapWords data).size := by rwa [size_swapWords]
  have hget : (swapWords data)[4 * i + j] =
      Bytes.peek data ((4 * i + j) / 4 * 4 + 3 - (4 * i + j) % 4) := Array.getElem_ofFn _
  rw [Bytes.peek, dif_pos hsize, hget]
  congr 1
  omega

/-- Where the shared memory goes: the transfer's address, rounded down to a word. -/
def transferBase (s : Snapshot) : Nat := s.regs.si.dramAddr.toNat / 4 * 4

/-- Main memory has taken the shared memory, each word with its bytes reversed, or is left as it was
where that does not fit. -/
structure Delivered (s : Snapshot) (rdram : ByteArray) : Prop where
  size : rdram.size = s.rdram.size
  words : transferBase s + 64 ≤ s.rdram.size → ∀ i < 16, ∀ j < 4,
    Bytes.peek rdram (transferBase s + 4 * i + j) = Bytes.peek s.pifRam.bytes (4 * i + 3 - j)
  around : ∀ k, k < transferBase s ∨ transferBase s + 64 ≤ k →
    Bytes.peek rdram k = Bytes.peek s.rdram k
  outside : s.rdram.size < transferBase s + 64 → rdram = s.rdram

theorem delivered_overwrite {s : Snapshot} (h : transferBase s + 64 ≤ s.rdram.size) :
    Delivered s (Bytes.overwrite s.rdram (transferBase s) (swapWords s.pifRam.bytes)) := by
  have hpatch : (swapWords s.pifRam.bytes).size = 64 :=
    (size_swapWords _).trans s.pifRam.size_eq
  have hroom : transferBase s + (swapWords s.pifRam.bytes).size ≤ s.rdram.size := by rwa [hpatch]
  have hpeek := Bytes.peek_overwrite hroom
  rw [hpatch] at hpeek
  refine ⟨size_overwrite hroom, fun _ i hi j hj => ?_, fun k hk => ?_, fun hlt => by omega⟩
  · have hword : 4 * i + j < s.pifRam.bytes.size := by
      rw [s.pifRam.size_eq, pifRamSize]
      omega
    rw [hpeek, if_pos (by omega), Nat.add_assoc, Nat.add_sub_cancel_left, peek_swapWords hj hword]
  · rw [hpeek, if_neg (by omega)]

theorem delivered_self {s : Snapshot} (h : ¬transferBase s + 64 ≤ s.rdram.size) :
    Delivered s s.rdram :=
  ⟨rfl, fun hle => absurd hle h, fun _ _ => rfl, fun _ => rfl⟩

/-- One event was put among the others, and the count to wait for is that of the first. -/
structure Queued (e : Interrupt) (irq after : Interrupts) : Prop where
  inserted : ∃ front back, irq.events = front ++ back ∧ after.events = front ++ e :: back
  next : after.events.head?.map (·.count) = some after.next
  others : { after with events := irq.events, next := irq.next } = irq

theorem queued_add (irq : Interrupts) (kind now delay : UInt32) :
    Queued ⟨kind, now + delay⟩ irq (irq.add kind now delay) where
  inserted := ⟨_, _, List.takeWhile_append_dropWhile.symm, rfl⟩
  next := Interrupts.next_add irq kind now delay
  others := rfl

/-- **The transfer under way is ended once, and nothing else is touched.** A machine in whose queue
the transfer's interrupt stands is left alone. Any other gets the shared memory, if all of it fits,
and the interrupt among its events, and to end the transfer again does nothing. -/
theorem finishTransfer_delivers (s : Snapshot) :
    (s.HasSi → finishTransfer s = (s, false)) ∧
    (¬s.HasSi → ∃ rdram interrupts,
      finishTransfer s = ({ s with rdram, interrupts }, true) ∧ Delivered s rdram ∧
        Queued ⟨Interrupt.si, s.cpu.count + 0x900⟩ s.interrupts interrupts) ∧
    finishTransfer (finishTransfer s).1 = ((finishTransfer s).1, false) := by
  refine ⟨finishTransfer_of_hasSi, fun h => ?_, finishTransfer_of_hasSi (finishTransfer_hasSi s)⟩
  have hqueued := queued_add s.interrupts Interrupt.si s.cpu.count transferDelay
  have h : ¬s.interrupts.has Interrupt.si = true := h
  rw [finishTransfer, if_neg h]
  refine ⟨_, _, rfl, ?_, hqueued⟩
  split
  · next hfits => exact delivered_overwrite hfits
  · next hfits => exact delivered_self hfits

/-- A machine with 70 bytes of main memory, all but the ends of which a transfer goes to. -/
def transferring : Snapshot :=
  { Snapshot.blank with
    rdram := Bytes.zeros 70
    regs.si.dramAddr := 7
    pifRam := .ofBytes _ "0123456789".toUTF8
    interrupts.events := [⟨Interrupt.vi, 0x800⟩, ⟨Interrupt.compare, 0x901⟩] }

theorem finishTransfer_delivers_transferring :
    ¬transferring.HasSi ∧ ∃ rdram interrupts,
      finishTransfer transferring = ({ transferring with rdram, interrupts }, true) ∧
        (Bytes.peek rdram 3, Bytes.peek rdram 4, Bytes.peek rdram 5, Bytes.peek rdram 8) =
          (0, 0x33, 0x32, 0x37) ∧
        Queued ⟨Interrupt.si, 0x900⟩ transferring.interrupts interrupts := by
  obtain ⟨-, hended, -⟩ := finishTransfer_delivers transferring
  have hnone : ¬transferring.HasSi := Bool.false_ne_true
  obtain ⟨rdram, interrupts, heq, hdelivered, hqueued⟩ := hended hnone
  have hword {i j : Nat} (hi : i < 16) (hj : j < 4) :=
    hdelivered.words (by decide) i hi j hj
  have hbefore := hdelivered.around 3 (.inl (by decide))
  have h0 : Bytes.peek rdram 4 = _ := hword (i := 0) (j := 0) (by decide) (by decide)
  have h1 : Bytes.peek rdram 5 = _ := hword (i := 0) (j := 1) (by decide) (by decide)
  have h4 : Bytes.peek rdram 8 = _ := hword (i := 1) (j := 0) (by decide) (by decide)
  refine ⟨hnone, rdram, interrupts, heq, ?_, hqueued⟩
  rw [hbefore, h0, h1, h4]
  decide

end Savestate

end Rewind
