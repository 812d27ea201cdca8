import Rewind.Proofs.Savestate.Accepted

/-!
What is written of any machine. A savestate carries the machine with its memories and pixels cut, or
extended with zeros, to their sizes, and its own mark in the place of one bit of a register
(`Snapshot.carried`). Main statement: what is written of a machine without a value that means
something else to a reader reads back as what is carried of it (`decode_of_write`).
-/

namespace Rewind

open Wire

namespace Machine

/-- The parts of varying size have no value that means something else to a reader. -/
structure Snapshot.Expressible (s : Snapshot) : Prop where
  events : ∀ e ∈ s.interrupts.events, e.kind ≠ Savestate.eventTerminator
  movie : ∀ f ∈ s.movie, f.inputs.size = f.lengthSamples.toNat + 1
  screenshot : ∀ shot ∈ s.screenshot, shot.width < 0x80000000 ∧ shot.height < 0x80000000

/-- The screenshot with its pixels cut, or extended with zeros, to its size. -/
def Screenshot.fitted (shot : Screenshot) : Screenshot :=
  { shot with rgb := Bytes.fit (shot.width.toNat * shot.height.toNat * 3) shot.rgb }

/-- The sides of a screenshot. -/
def Screenshot.extent (shot : Screenshot) : UInt32 × UInt32 := (shot.width, shot.height)

/-- Whether the register holds the bit under which a savestate is marked. -/
def Snapshot.marked (s : Snapshot) : Bool :=
  s.regs.rdram.deviceManuf &&& Savestate.transferBit != 0

/-- What a savestate carries of a machine, its mark apart. -/
def Snapshot.carried (s : Snapshot) : Snapshot :=
  { s.fitted with
    regs.rdram.deviceManuf := s.regs.rdram.deviceManuf &&& ~~~Savestate.transferBit
    screenshot := s.screenshot.map Screenshot.fitted }

theorem LookupTable.length_resize (t : LookupTable) (n : Nat) : (t.resize n).length = n := by
  rw [length, resize, Bytes.size_fit]; omega

theorem Snapshot.Expressible.carried_wellFormed {s : Snapshot} (h : s.Expressible) :
    s.carried.WellFormed where
  rdram := Bytes.size_fit _ _
  spDmem := Bytes.size_fit _ _
  spImem := Bytes.size_fit _ _
  tlbLutR := LookupTable.length_resize _ _
  tlbLutW := LookupTable.length_resize _ _
  unmarked := Mask.clear_and _ _
  events := h.events
  movie := h.movie
  screenshot := by
    intro shot hshot
    obtain ⟨original, horiginal, rfl⟩ := Option.map_eq_some_iff.1 hshot
    obtain ⟨hw, hh⟩ := h.screenshot original horiginal
    refine ⟨hw, hh, (Bytes.size_fit _ _).trans ?_⟩
    rw [Nat.mul_comm, Nat.mul_assoc]
    rfl

theorem Snapshot.WellFormed.expressible {s : Snapshot} (h : s.WellFormed) : s.Expressible where
  events := h.events
  movie := h.movie
  screenshot shot hshot := ⟨(h.screenshot shot hshot).1, (h.screenshot shot hshot).2.1⟩

end Machine

namespace Savestate

open Machine

/-! ## Ending a transfer -/

/-- Ending a transfer does not change whether all interrupts have a property that the interrupt for
it has. -/
theorem events_finishTransfer {P : UInt32 → Prop} (hsi : P Interrupt.si) (s : Snapshot) :
    (∀ e ∈ (finishTransfer s).1.interrupts.events, P e.kind) ↔
      ∀ e ∈ s.interrupts.events, P e.kind := by
  unfold finishTransfer
  split
  · rfl
  · simp only [Interrupts.mem_add, forall_eq_or_imp, hsi, true_and]

theorem finishTransfer_expressible_iff {s : Snapshot} :
    (finishTransfer s).1.Expressible ↔ s.Expressible := by
  have hsi : Interrupt.si ≠ eventTerminator := by decide
  have hevents := events_finishTransfer (P := (· ≠ eventTerminator)) hsi s
  have hmovie := movie_finishTransfer s
  have hscreen := screenshot_finishTransfer s
  exact ⟨fun h => ⟨hevents.1 h.events, hmovie ▸ h.movie, hscreen ▸ h.screenshot⟩,
    fun h => ⟨hevents.2 h.events, hmovie ▸ h.movie, hscreen ▸ h.screenshot⟩⟩

/-! ## What is written -/

theorem putScreenshot_fitted {screenshot : Option Screenshot}
    (h : ∀ shot ∈ screenshot, (Screenshot.byteCount? shot.width shot.height).isSome)
    (out : ByteArray) : putScreenshot screenshot out =
      .ok (out ++ screenshotBytes (screenshot.map Screenshot.fitted)) := by
  cases screenshot with
  | none => simp [putScreenshot, screenshotBytes]
  | some shot =>
    obtain ⟨n, hn⟩ := Option.isSome_iff_exists.1 (h shot rfl)
    have hw (v : UInt32) := (Layout.u32_readsAs v).put_eq
    have hr : (Layout.region n).bytes shot.rgb = shot.fitted.rgb := by
      simp [Layout.region, Layout.bytes, Screenshot.fitted, Screenshot.eq_of_byteCount? hn]
    simp only [putScreenshot, hn, hw, (Layout.region_readsAs _ _).put_eq, hr, screenshotBytes,
      Option.map_some, Screenshot.fitted, ByteArray.append_assoc]

theorem exists_putScreenshot_iff {screenshot : Option Screenshot} {out : ByteArray} :
    (∃ bytes, putScreenshot screenshot out = .ok bytes) ↔
      ∀ shot ∈ screenshot, (Screenshot.byteCount? shot.width shot.height).isSome := by
  refine ⟨?_, fun h => ⟨_, putScreenshot_fitted h out⟩⟩
  rintro ⟨bytes, hput⟩ shot rfl
  rw [putScreenshot] at hput
  cases hn : Screenshot.byteCount? shot.width shot.height with
  | none => rw [hn] at hput; cases hput
  | some n => rfl

theorem exists_write_iff {s : Snapshot} (marked : Bool) :
    (∃ bytes, write s marked = .ok bytes) ↔ s.interrupts.events.length ≤ maxEvents ∧
      ∀ shot ∈ s.screenshot, (Screenshot.byteCount? shot.width shot.height).isSome := by
  by_cases hl : s.interrupts.events.length ≤ maxEvents
  · rw [write_of_length_le hl, exists_putScreenshot_iff, and_iff_right hl]
  · rw [write, if_pos (Nat.not_le.1 hl)]
    exact iff_of_false (by rintro ⟨bytes, ⟨⟩⟩) fun h => hl h.1

/-- A register that holds the bit already stays as it is under the mark. -/
theorem or_transferBit {a : UInt32} (h : a &&& transferBit ≠ 0) : a ||| transferBit = a :=
  have hbit : transferBit.toBitVec = BitVec.twoPow 32 31 := by decide
  Mask.or_of_and_ne_zero hbit h

/-- On the wire, the mark and the register's own bit are one. -/
theorem regs_carried (s : Snapshot) (marked : Bool) :
    (if marked || s.marked then mark s.carried else s.carried).regs =
      (if marked then mark s else s).regs := by
  cases marked with
  | true => exact congrArg (fun v => { s.regs with rdram.deviceManuf := v }) (Mask.clear_or _ _)
  | false =>
    cases hm : s.marked with
    | true =>
      have hset : s.regs.rdram.deviceManuf &&& transferBit ≠ 0 := bne_iff_ne.1 hm
      exact congrArg (fun v => { s.regs with rdram.deviceManuf := v })
        ((Mask.clear_or _ _).trans (or_transferBit hset))
    | false =>
      have hclear : s.regs.rdram.deviceManuf &&& transferBit = 0 := bne_eq_false_iff_eq.1 hm
      exact congrArg (fun v => { s.regs with rdram.deviceManuf := v })
        (Mask.clear_of_and_eq_zero hclear)

theorem machineBytes_carried (s : Snapshot) (marked : Bool) :
    machineBytes s.carried (marked || s.marked) = machineBytes s marked := by
  have hregs := regs_carried s marked
  have hfit (n : Nat) (v : ByteArray) :
      (Layout.region n).put (Bytes.fit n v) = (Layout.region n).put v := by
    simp [Layout.region, Bytes.fit_of_size]
  have hfixed : fixedLayout.bytes (if marked || s.marked then mark s.carried else s.carried) =
      fixedLayout.bytes (if marked then mark s else s) := by
    have hmark (t : Snapshot) (b : Bool) :
        (if b then mark t else t) = { t with regs := (if b then mark t else t).regs } := by
      cases b <;> rfl
    refine congrFun (Member.putAll_congr ?_) ByteArray.empty
    rw [hmark s marked, ← hregs, hmark]
    simp only [fixedMembers, List.forall_mem_cons, List.not_mem_nil, false_implies, implies_true,
      and_true, true_and]
    exact ⟨hfit _ _, hfit _ _, hfit _ _, rfl, rfl, hfit _ _, hfit _ _, rfl, rfl, rfl, rfl⟩
  rw [machineBytes, machineBytes, hfixed]
  rfl

theorem write_eq_ok {s : Snapshot} {marked : Bool} {bytes : ByteArray}
    (h : write s marked = .ok bytes) :
    bytes = machineBytes s marked ++ screenshotBytes (s.screenshot.map Screenshot.fitted) := by
  obtain ⟨hl, hpixels⟩ := (exists_write_iff marked).1 ⟨bytes, h⟩
  rw [write_of_length_le hl, putScreenshot_fitted hpixels] at h
  exact (Except.ok.inj h).symm

/-! ## What is accepted -/

/-- What is written of an expressible machine reads back as what a savestate carries of it. -/
theorem decode_of_write {s : Snapshot} (h : s.Expressible) {marked : Bool} {bytes : ByteArray}
    (hw : write s marked = .ok bytes) : decode bytes = .ok ⟨s.carried, marked || s.marked⟩ := by
  have hl := ((exists_write_iff marked).1 ⟨bytes, hw⟩).1
  have hd := decode_stateBytes h.carried_wellFormed hl (marked || s.marked)
  rw [write_eq_ok hw, ← machineBytes_carried]
  rwa [stateBytes_eq] at hd

theorem decode_of_encode_expressible {s : Snapshot} (h : s.Expressible) {encoded : Encoded}
    (he : encode s = .ok encoded) : decode encoded.bytes =
      .ok ⟨encoded.snapshot.carried, encoded.transferEnded || encoded.snapshot.marked⟩ := by
  obtain ⟨hfinish, hw⟩ := encode_eq_ok_iff.1 he
  rw [← finishTransfer_expressible_iff, hfinish] at h
  exact decode_of_write h hw

/-- The same interrupts, the same movie position and a screenshot of the same size. -/
structure Agrees (s t : Snapshot) : Prop where
  events : t.interrupts.events = s.interrupts.events
  movie : t.movie = s.movie
  extent : t.screenshot.map Screenshot.extent = s.screenshot.map Screenshot.extent

theorem agrees_carried (s : Snapshot) : Agrees s s.carried where
  events := rfl
  movie := rfl
  extent := Option.map_map _ _ _

theorem Agrees.expressible {s t : Snapshot} (h : Agrees s t) (ht : t.Expressible) :
    s.Expressible where
  events := h.events ▸ ht.events
  movie := h.movie ▸ ht.movie
  screenshot := by
    intro shot hshot
    have hextent := h.extent
    rw [Option.mem_def.1 hshot, Option.map_some, Option.map_eq_some_iff] at hextent
    obtain ⟨shot', hshot', he⟩ := hextent
    obtain ⟨hw, hh⟩ := Prod.mk.inj he
    rw [← hw, ← hh]
    exact ht.screenshot shot' hshot'

end Savestate

end Rewind
