import Rewind.Proofs.Machine.SnapshotLayout
import Rewind.Proofs.Movie.FreezeLayout
import Rewind.Proofs.Wire.Masks

/-!
Savestates read back. A machine that a savestate can hold (`Snapshot.WellFormed`) is read back from
its savestate as it was written, and the mark on the wire says whether a transfer was ended for it.
Main statement: `decode_encode`.
-/

namespace Rewind

open Wire

/-! ## Well-formed machines -/

namespace Machine

/-- A machine that a savestate can hold: every memory has its size on the wire, and no value stands
where the format has a mark of its own. -/
structure Snapshot.WellFormed (s : Snapshot) : Prop where
  rdram : s.rdram.size = rdramSize
  spDmem : s.spDmem.size = spMemSize
  spImem : s.spImem.size = spMemSize
  tlbLutR : s.tlbLutR.length = lookupTableLength
  tlbLutW : s.tlbLutW.length = lookupTableLength
  unmarked : s.regs.rdram.deviceManuf &&& Savestate.transferBit = 0
  events : ∀ e ∈ s.interrupts.events, e.kind ≠ Savestate.eventTerminator
  movie : ∀ f ∈ s.movie, f.inputs.size = f.lengthSamples.toNat + 1
  screenshot : ∀ shot ∈ s.screenshot, shot.width < 0x80000000 ∧ shot.height < 0x80000000 ∧
    shot.rgb.size = 3 * shot.width.toNat * shot.height.toNat

theorem Interrupts.length_add (irq : Interrupts) (kind now delay : UInt32) :
    (irq.add kind now delay).events.length = irq.events.length + 1 := by
  rw [add, List.length_append, List.length_cons, ← Nat.add_assoc, ← List.length_append,
    List.takeWhile_append_dropWhile]

theorem Interrupts.mem_add {irq : Interrupts} {kind now delay : UInt32} {e : Interrupt} :
    e ∈ (irq.add kind now delay).events ↔ e = ⟨kind, now + delay⟩ ∨ e ∈ irq.events := by
  simp only [add, List.mem_append, List.mem_cons]
  rw [or_left_comm, ← List.mem_append, List.takeWhile_append_dropWhile]

/-- Whether the interrupt that ends a transfer is queued. -/
def Snapshot.HasSi (s : Snapshot) : Prop := s.interrupts.has Interrupt.si = true

theorem LookupTable.length_zero (n : Nat) : (zero n).length = n := by
  rw [length, zero, Bytes.size_zeros]; omega

theorem LookupTable.resize_length (t : LookupTable) : t.resize t.length = t := by
  have h : 4 * t.length = t.bytes.size := by
    have := t.aligned
    rw [length]; omega
  cases t
  simp only [resize, LookupTable.mk.injEq] at h ⊢
  rw [h, Bytes.fit_of_size rfl]

/-- Nothing of a well-formed machine is cut or extended. -/
theorem Snapshot.WellFormed.fitted {s : Snapshot} (h : s.WellFormed) : s.fitted = s := by
  have hr := s.tlbLutR.resize_length
  have hw := s.tlbLutW.resize_length
  rw [h.tlbLutR] at hr
  rw [h.tlbLutW] at hw
  rw [Snapshot.fitted, Bytes.fit_of_size h.rdram, Bytes.fit_of_size h.spDmem,
    Bytes.fit_of_size h.spImem, hr, hw]

theorem Screenshot.area_le {width height : UInt32} (hw : width < 0x80000000)
    (hh : height < 0x80000000) : width.toNat * height.toNat ≤ 0x4000000000000000 := by
  have hw : width.toNat < 0x80000000 := hw
  have hh : height.toNat < 0x80000000 := hh
  exact Nat.mul_le_mul (Nat.le_of_lt hw) (Nat.le_of_lt hh)

/-- The pixels of a screen whose sides are below 2^31 can be counted in 64 bits. -/
theorem Screenshot.byteCount?_of_lt {width height : UInt32} (hw : width < 0x80000000)
    (hh : height < 0x80000000) :
    byteCount? width height = some (width.toNat * height.toNat * 3) := by
  have harea := area_le hw hh
  have hlt : width.toNat * height.toNat * 3 < UInt64.size := by
    have : UInt64.size = 2 ^ 64 := rfl
    omega
  exact if_pos hlt

theorem Screenshot.byteCount?_eq {shot : Screenshot} (hw : shot.width < 0x80000000)
    (hh : shot.height < 0x80000000)
    (hs : shot.rgb.size = 3 * shot.width.toNat * shot.height.toNat) :
    byteCount? shot.width shot.height = some shot.rgb.size := by
  rw [byteCount?_of_lt hw hh, hs, Nat.mul_comm, Nat.mul_assoc]

end Machine

namespace Savestate

open Machine

/-! ## Ending a transfer -/

theorem size_swapWords (data : ByteArray) : (swapWords data).size = data.size := Array.size_ofFn

theorem size_overwrite {data patch : ByteArray} {offset : Nat}
    (h : offset + patch.size ≤ data.size) :
    (Bytes.overwrite data offset patch).size = data.size := by
  rw [Bytes.overwrite, ByteArray.copySlice_eq_append]
  simp only [ByteArray.size_append, ByteArray.size_extract, ByteArray.size_data]
  omega

/-- Ending a transfer writes into main memory and queues an interrupt. -/
theorem finishTransfer_wellFormed {s : Snapshot} (h : s.WellFormed) :
    (finishTransfer s).1.WellFormed := by
  unfold finishTransfer
  split
  · exact h
  · refine { h with rdram := ?_, events := ?_ }
    · simp only
      split
      · next hle =>
        rw [size_overwrite, h.rdram]
        rwa [size_swapWords, s.pifRam.size_eq]
      · exact h.rdram
    · intro e he
      obtain rfl | he := Interrupts.mem_add.1 he
      · simp [Interrupt.si, eventTerminator]
      · exact h.events e he

theorem finishTransfer_hasSi (s : Snapshot) : (finishTransfer s).1.HasSi := by
  unfold finishTransfer
  split
  · next h => exact h
  · simp [Snapshot.HasSi, Interrupts.has, Interrupts.add]

theorem finishTransfer_of_hasSi {s : Snapshot} (h : s.HasSi) : finishTransfer s = (s, false) :=
  if_pos h

/-- A machine without the interrupt has one more of them when its transfer was ended. -/
theorem finishTransfer_of_not_hasSi {s : Snapshot} (h : ¬s.HasSi) : (finishTransfer s).2 = true ∧
    (finishTransfer s).1.interrupts.events.length = s.interrupts.events.length + 1 := by
  have h : ¬s.interrupts.has Interrupt.si = true := h
  rw [finishTransfer, if_neg h]
  exact ⟨rfl, Interrupts.length_add _ _ _ _⟩

theorem screenshot_finishTransfer (s : Snapshot) :
    (finishTransfer s).1.screenshot = s.screenshot := by
  unfold finishTransfer
  split <;> rfl

theorem movie_finishTransfer (s : Snapshot) : (finishTransfer s).1.movie = s.movie := by
  unfold finishTransfer
  split <;> rfl

theorem length_events_finishTransfer_le (s : Snapshot) :
    (finishTransfer s).1.interrupts.events.length ≤ s.interrupts.events.length + 1 := by
  by_cases h : s.HasSi
  · rw [finishTransfer_of_hasSi h]
    exact Nat.le_succ _
  · exact Nat.le_of_eq (finishTransfer_of_not_hasSi h).2

/-! ## The parts of varying size -/

/-- The bytes of the pending interrupts and the terminator. -/
def eventBytes : List Interrupt → ByteArray
  | [] => Layout.u32.bytes eventTerminator
  | e :: events => Layout.u32.bytes e.kind ++ (Layout.u32.bytes e.count ++ eventBytes events)

theorem putEvents_eq (events : List Interrupt) (out : ByteArray) :
    putEvents events out = out ++ eventBytes events := by
  have h (v : UInt32) := (Layout.u32_readsAs v).put_eq
  induction events generalizing out with
  | nil => exact h _ out
  | cons e events ih =>
    simp only [putEvents, List.foldl_cons] at ih ⊢
    rw [ih, h, h, eventBytes, ByteArray.append_assoc, ByteArray.append_assoc]

theorem getEvents_takes {events : List Interrupt} {fuel : Nat} (hl : events.length < fuel)
    (h : ∀ e ∈ events, e.kind ≠ eventTerminator) (rest : ByteArray) :
    Reader.Takes (getEvents fuel) (eventBytes events) rest events := by
  have hw (v : UInt32) (rest : ByteArray) := Reader.Takes.item (Layout.u32_readsAs v) rest
  induction events generalizing fuel with
  | nil =>
    cases fuel with
    | zero => cases hl
    | succ fuel =>
      refine (hw _ _).bind_last ?_
      rw [if_pos rfl]
      exact .pure _ _
  | cons e events ih =>
    cases fuel with
    | zero => cases hl
    | succ fuel =>
      have ih := ih (Nat.lt_of_succ_lt_succ hl) fun e he => h e (.tail _ he)
      refine (hw _ _).bind ?_
      rw [if_neg (h e (.head _))]
      exact (hw _ _).bind (ih.map rfl)

/-- The bytes of the flag and the movie position. -/
def movieBytes : Option Movie.Freeze → ByteArray
  | none => Layout.u32.bytes 0
  | some freeze => Layout.u32.bytes 1 ++ freeze.bytes

theorem putMovie_eq (movie : Option Movie.Freeze) (out : ByteArray) :
    putMovie movie out = out ++ movieBytes movie := by
  have h (v : UInt32) := (Layout.u32_readsAs v).put_eq
  cases movie with
  | none => exact h 0 out
  | some freeze => rw [putMovie, Movie.Freeze.put_eq, h, movieBytes, ByteArray.append_assoc]

theorem getMovie_takes {movie : Option Movie.Freeze}
    (h : ∀ f ∈ movie, f.inputs.size = f.lengthSamples.toNat + 1) (rest : ByteArray) :
    Reader.Takes getMovie (movieBytes movie) rest movie := by
  have hw (v : UInt32) (rest : ByteArray) := Reader.Takes.item (Layout.u32_readsAs v) rest
  cases movie with
  | none => exact (hw 0 _).bind_last (.pure _ _)
  | some freeze =>
    exact (hw 1 _).bind ((Movie.Freeze.get_takes (h freeze rfl) rest).map rfl)

/-- The bytes of the screenshot, if there is one. -/
def screenshotBytes : Option Screenshot → ByteArray
  | none => ByteArray.empty
  | some shot => screenshotTag ++
      (Layout.u32.bytes shot.width ++ (Layout.u32.bytes shot.height ++ shot.rgb))

theorem putScreenshot_eq {screenshot : Option Screenshot}
    (h : ∀ shot ∈ screenshot, Screenshot.byteCount? shot.width shot.height = some shot.rgb.size)
    (out : ByteArray) : putScreenshot screenshot out = .ok (out ++ screenshotBytes screenshot) := by
  have hw (v : UInt32) := (Layout.u32_readsAs v).put_eq
  cases screenshot with
  | none => simp [putScreenshot, screenshotBytes]
  | some shot =>
    have hr : (Layout.region shot.rgb.size).bytes shot.rgb = shot.rgb := by
      simp [Layout.region, Layout.bytes, Bytes.fit_of_size]
    simp only [putScreenshot, h shot rfl, hw, (Layout.region_readsAs _ _).put_eq, hr,
      screenshotBytes, ByteArray.append_assoc]

theorem getExtent_takes {n : UInt32} (h : n < 0x80000000) (what : Malformation)
    (rest : ByteArray) : Reader.Takes (getExtent what) (Layout.u32.bytes n) rest n := by
  refine (Reader.Takes.item (Layout.u32_readsAs n) _).bind_last ?_
  rw [if_pos h]
  exact .pure n rest

/-- Without a screenshot, what is left must be too little to announce one. -/
theorem getScreenshot_takes {screenshot : Option Screenshot}
    (h : ∀ shot ∈ screenshot, shot.width < 0x80000000 ∧ shot.height < 0x80000000 ∧
      shot.rgb.size = 3 * shot.width.toNat * shot.height.toNat)
    {rest : ByteArray} (hr : screenshot = none → rest.size < screenshotTag.size) :
    Reader.Takes getScreenshot (screenshotBytes screenshot) rest screenshot := by
  cases screenshot with
  | none =>
    refine (Reader.Takes.remaining _).bind_nothing ?_
    simp only [screenshotBytes, ByteArray.empty_append, hr rfl, ↓reduceIte]
    exact .pure none rest
  | some shot =>
    obtain ⟨hw, hh, hs⟩ := h shot rfl
    refine (Reader.Takes.remaining _).bind_nothing ?_
    rw [if_neg (by simp only [screenshotBytes, ByteArray.size_append]; omega)]
    refine (Reader.Takes.bytes rfl _).bind ?_
    rw [if_neg (fun hne => hne rfl)]
    refine (getExtent_takes hw _ _).bind <| (getExtent_takes hh _ _).bind ?_
    simp only [Screenshot.byteCount?_eq hw hh hs]
    exact (Reader.Takes.bytes rfl rest).map rfl

/-! ## The whole savestate -/

/-- The bytes of a machine; `marked` says whether a transfer was ended for it. -/
def stateBytes (s : Snapshot) (marked : Bool) : ByteArray :=
  hashLayout.bytes s.romHash ++ (fixedLayout.bytes (if marked then mark s else s) ++
    (eventBytes s.interrupts.events ++ (movieBytes s.movie ++ screenshotBytes s.screenshot)))

/-- The bytes in front of the screenshot. -/
def machineBytes (s : Snapshot) (marked : Bool) : ByteArray :=
  hashLayout.bytes s.romHash ++ (fixedLayout.bytes (if marked then mark s else s) ++
    (eventBytes s.interrupts.events ++ movieBytes s.movie))

theorem stateBytes_eq (s : Snapshot) (marked : Bool) :
    stateBytes s marked = machineBytes s marked ++ screenshotBytes s.screenshot := by
  simp only [stateBytes, machineBytes, ByteArray.append_assoc]

/-- Only its screenshot can keep a machine with few enough interrupts from being written. -/
theorem write_of_length_le {s : Snapshot} (hl : s.interrupts.events.length ≤ maxEvents)
    (marked : Bool) : write s marked = putScreenshot s.screenshot (machineBytes s marked) := by
  have he : ByteArray.emptyWithCapacity (romHashSize + fixedBlockSize + 0x2000) =
      ByteArray.empty := rfl
  rw [write, if_neg (Nat.not_lt.mpr hl)]
  simp only [putMovie_eq, putEvents_eq, (fixedLayout_readsAs _).put_eq,
    (Layout.block_readsAs _).put_eq, hashLayout, he, machineBytes, ByteArray.append_assoc,
    ByteArray.empty_append]

theorem write_eq {s : Snapshot} (h : s.WellFormed) (hl : s.interrupts.events.length ≤ maxEvents)
    (marked : Bool) : write s marked = .ok (stateBytes s marked) := by
  have hs : ∀ shot ∈ s.screenshot,
      Screenshot.byteCount? shot.width shot.height = some shot.rgb.size := by
    intro shot hshot
    obtain ⟨hw, hh, hs⟩ := h.screenshot shot hshot
    exact Screenshot.byteCount?_eq hw hh hs
  rw [write_of_length_le hl, putScreenshot_eq hs, stateBytes_eq]

/-- The mark comes off again, and says that it was there. -/
theorem mark_manuf {s : Snapshot} (h : s.WellFormed) (marked : Bool) :
    let manuf := (if marked then mark s else s).regs.rdram.deviceManuf
    manuf &&& ~~~transferBit = s.regs.rdram.deviceManuf ∧
      (manuf &&& transferBit != 0) = marked := by
  have hu := h.unmarked
  cases marked with
  | false => exact ⟨Mask.clear_of_and_eq_zero hu, by simp [hu]⟩
  | true =>
    refine ⟨(Mask.or_clear _ _).trans (Mask.clear_of_and_eq_zero hu), ?_⟩
    have hm : (mark s).regs.rdram.deviceManuf &&& transferBit = transferBit := Mask.or_and_self _ _
    change ((mark s).regs.rdram.deviceManuf &&& transferBit != 0) = true
    rw [hm]
    decide

theorem mark_wellFormed_fitted {s : Snapshot} (h : s.WellFormed) (marked : Bool) :
    (if marked then mark s else s).fitted = if marked then mark s else s := by
  have hf := h.fitted
  cases marked with
  | false => exact hf
  | true => exact congrArg mark hf

/-- Takes everything in front of the screenshot. -/
def getMachine : Reader Decoded := do
  let romHash ← .item hashLayout
  .require fixedBlockSize
  let fixed ← .item fixedLayout
  let manuf := fixed.regs.rdram.deviceManuf
  let events ← getEvents (eventScanLimit / 8)
  let movie ← getMovie
  let snapshot := { fixed with
    romHash, movie
    screenshot := none
    regs.rdram.deviceManuf := manuf &&& ~~~transferBit
    interrupts.events := events }
  return ⟨snapshot, manuf &&& transferBit != 0⟩

theorem get_eq : get = do
    let decoded ← getMachine
    return { decoded with snapshot.screenshot := ← getScreenshot } := by
  simp only [get, getMachine, bind_assoc, pure_bind]

theorem getMachine_takes {s : Snapshot} (h : s.WellFormed)
    (hl : s.interrupts.events.length ≤ maxEvents) (marked : Bool) (rest : ByteArray) :
    Reader.Takes getMachine (machineBytes s marked) rest
      ⟨{ s with screenshot := none }, marked⟩ := by
  have hfixed := fixedLayout_readsAs (if marked then mark s else s)
  rw [mark_wellFormed_fitted h] at hfixed
  have hfuel : s.interrupts.events.length < eventScanLimit / 8 :=
    Nat.lt_of_le_of_lt hl (by decide)
  obtain ⟨hmanuf, hmarked⟩ := mark_manuf h marked
  refine (Reader.Takes.item (Layout.block_readsAs _) _).bind ?_
  refine (Reader.Takes.require ?_).bind_nothing ?_
  · simp only [ByteArray.size_append, hfixed.size_bytes, fixedLayout_size]
    omega
  refine (Reader.Takes.item hfixed _).bind ?_
  refine (getEvents_takes hfuel h.events _).bind <| (getMovie_takes h.movie _).map ?_
  have hm : (if marked then mark s else s).fixedPart.regs.rdram.deviceManuf =
      (if marked then mark s else s).regs.rdram.deviceManuf := rfl
  simp only [hm, hmanuf, hmarked]
  cases marked <;> rfl

theorem get_takes {s : Snapshot} (h : s.WellFormed)
    (hl : s.interrupts.events.length ≤ maxEvents) (marked : Bool) {rest : ByteArray}
    (hr : s.screenshot = none → rest.size < screenshotTag.size) :
    Reader.Takes get (stateBytes s marked) rest ⟨s, marked⟩ := by
  rw [get_eq, stateBytes_eq]
  exact (getMachine_takes h hl marked _).bind ((getScreenshot_takes h.screenshot hr).map rfl)

theorem decode_stateBytes {s : Snapshot} (h : s.WellFormed)
    (hl : s.interrupts.events.length ≤ maxEvents) (marked : Bool) :
    decode (stateBytes s marked) = .ok ⟨s, marked⟩ := by
  have ht : Reader.Takes get (stateBytes s marked) ByteArray.empty ⟨s, marked⟩ :=
    get_takes h hl marked fun _ => by decide
  have hd := ht.runOn
  rwa [ByteArray.append_empty] at hd

theorem encode_eq_map (s : Snapshot) :
    encode s = (write (finishTransfer s).1 (finishTransfer s).2).map
      fun bytes => ⟨bytes, (finishTransfer s).1, (finishTransfer s).2⟩ := rfl

theorem encode_of_length_le {s : Snapshot} (h : s.WellFormed)
    (hl : (finishTransfer s).1.interrupts.events.length ≤ maxEvents) :
    encode s = .ok ⟨stateBytes (finishTransfer s).1 (finishTransfer s).2,
      (finishTransfer s).1, (finishTransfer s).2⟩ := by
  rw [encode_eq_map, write_eq (finishTransfer_wellFormed h) hl]
  rfl

theorem encode_of_lt_length {s : Snapshot}
    (hl : maxEvents < (finishTransfer s).1.interrupts.events.length) :
    encode s = .error (.tooManyEvents (finishTransfer s).1.interrupts.events.length) := by
  rw [encode_eq_map, write, if_pos hl]
  rfl

/-- A machine that is saved is written as it is after its transfer was ended. -/
theorem encode_eq_ok_iff {s : Snapshot} {encoded : Encoded} :
    encode s = .ok encoded ↔ finishTransfer s = (encoded.snapshot, encoded.transferEnded) ∧
      write encoded.snapshot encoded.transferEnded = .ok encoded.bytes := by
  rw [encode_eq_map]
  constructor
  · intro h
    cases hw : write (finishTransfer s).1 (finishTransfer s).2 with
    | error e => rw [hw] at h; cases h
    | ok bytes => rw [hw] at h; cases h; exact ⟨rfl, hw⟩
  · rintro ⟨hfinish, hw⟩
    rw [hfinish, hw]
    rfl

/-- What a machine is saved as says what it is after its transfer was ended. -/
theorem finishTransfer_of_encode {s : Snapshot} {encoded : Encoded} (h : encode s = .ok encoded) :
    finishTransfer s = (encoded.snapshot, encoded.transferEnded) := (encode_eq_ok_iff.1 h).1

theorem hasSi_of_encode {s : Snapshot} {encoded : Encoded} (h : encode s = .ok encoded) :
    encoded.snapshot.HasSi := by
  have hsi := finishTransfer_hasSi s
  rwa [finishTransfer_of_encode h] at hsi

theorem movie_of_encode {s : Snapshot} {encoded : Encoded} (h : encode s = .ok encoded) :
    encoded.snapshot.movie = s.movie := by
  rw [← movie_finishTransfer s, finishTransfer_of_encode h]

theorem screenshot_of_encode {s : Snapshot} {encoded : Encoded} (h : encode s = .ok encoded) :
    encoded.snapshot.screenshot = s.screenshot := by
  rw [← screenshot_finishTransfer s, finishTransfer_of_encode h]

theorem transferEnded_of_encode {s : Snapshot} {encoded : Encoded} (h : encode s = .ok encoded) :
    encoded.transferEnded = true ↔ ¬s.HasSi := by
  have hended : (finishTransfer s).2 = encoded.transferEnded :=
    congrArg Prod.snd (finishTransfer_of_encode h)
  rw [← hended]
  by_cases hsi : s.HasSi
  · rw [finishTransfer_of_hasSi hsi]
    exact iff_of_false nofun (not_not_intro hsi)
  · exact iff_of_true (finishTransfer_of_not_hasSi hsi).1 hsi

/-- A machine whose transfer needed no end is saved as it is. -/
theorem snapshot_of_encode {s : Snapshot} {encoded : Encoded} (h : encode s = .ok encoded)
    (hended : ¬encoded.transferEnded = true) : encoded.snapshot = s := by
  have hsi : s.HasSi := Classical.not_not.1 (mt (transferEnded_of_encode h).2 hended)
  have hfinish := finishTransfer_of_encode h
  rw [finishTransfer_of_hasSi hsi] at hfinish
  exact (congrArg Prod.fst hfinish).symm

/-- What a well-formed machine is saved as is a well-formed machine's bytes. -/
theorem encode_eq_ok {s : Snapshot} (h : s.WellFormed) {encoded : Encoded}
    (he : encode s = .ok encoded) :
    encoded.snapshot.WellFormed ∧ encoded.snapshot.interrupts.events.length ≤ maxEvents ∧
      encoded.bytes = stateBytes encoded.snapshot encoded.transferEnded := by
  by_cases hl : maxEvents < (finishTransfer s).1.interrupts.events.length
  · rw [encode_of_lt_length hl] at he
    cases he
  · rw [encode_of_length_le h (Nat.le_of_not_lt hl)] at he
    cases he
    exact ⟨finishTransfer_wellFormed h, Nat.le_of_not_lt hl, rfl⟩

/-- A well-formed machine with room for its interrupts is saved, and reads back. -/
theorem exists_encode_decode {s : Snapshot} (h : s.WellFormed)
    (hl : (finishTransfer s).1.interrupts.events.length ≤ maxEvents) :
    ∃ bytes, encode s = .ok ⟨bytes, (finishTransfer s).1, (finishTransfer s).2⟩ ∧
      decode bytes = .ok ⟨(finishTransfer s).1, (finishTransfer s).2⟩ :=
  ⟨_, encode_of_length_le h hl, decode_stateBytes (finishTransfer_wellFormed h) hl _⟩

/-- **A savestate reads back as the machine it was made of**, after its transfer was ended, and
says whether one was ended for it. A machine that has too many interrupts pending then cannot be
saved. -/
theorem decode_encode {s : Snapshot} (h : s.WellFormed) :
    let t := (finishTransfer s).1
    let ended := (finishTransfer s).2
    (t.interrupts.events.length ≤ maxEvents →
      ∃ bytes, encode s = .ok ⟨bytes, t, ended⟩ ∧ decode bytes = .ok ⟨t, ended⟩) ∧
    (maxEvents < t.interrupts.events.length →
      encode s = .error (.tooManyEvents t.interrupts.events.length)) :=
  ⟨exists_encode_decode h, encode_of_lt_length⟩

/-- A machine that waits for a transfer, at the first sample of a movie, with a screen. -/
def waiting : Snapshot :=
  { Snapshot.blank with
    interrupts.events := [⟨Interrupt.vi, 100⟩]
    movie := some (.ofInputs 7 1 2 #[.neutral])
    screenshot := some ⟨1, 2, Bytes.zeros 6⟩ }

theorem waiting_wellFormed : waiting.WellFormed where
  rdram := Bytes.size_zeros _
  spDmem := Bytes.size_zeros _
  spImem := Bytes.size_zeros _
  tlbLutR := LookupTable.length_zero _
  tlbLutW := LookupTable.length_zero _
  unmarked := by decide
  events := by simp [waiting, Interrupt.vi, eventTerminator]
  movie := by rintro f ⟨⟩; rfl
  screenshot := by rintro shot ⟨⟩; decide

theorem decode_encode_waiting :
    waiting.WellFormed ∧ (finishTransfer waiting).2 = true ∧
      ∃ bytes, encode waiting = .ok ⟨bytes, (finishTransfer waiting).1, true⟩ ∧
        decode bytes = .ok ⟨(finishTransfer waiting).1, true⟩ :=
  ⟨waiting_wellFormed, rfl, (decode_encode waiting_wellFormed).1 (by decide)⟩

end Savestate

end Rewind
