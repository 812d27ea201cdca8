import Rewind.Proofs.Machine.Replayable

/-!
Savestates of any origin. Whatever bytes are accepted, the machine read from them can be held by a
savestate (`decode_wellFormed`), because each part of the reader gives what the writer asks for.
So the machine can be saved again and reads back as it then is, unless the interrupt that ends its
transfer finds the queue full (`encode_of_decode`).
-/

namespace Rewind

open Wire

/-! ## What readers give -/

namespace Savestate.Reader

/-- Whatever the reader gives satisfies `P`. -/
def Gives (reader : Reader α) (P : α → Prop) : Prop :=
  ∀ c v c', reader c = .ok (v, c') → P v

variable {P : α → Prop} {Q : β → Prop}

theorem Gives.pure {v : α} (h : P v) : Gives (Pure.pure v) P := by
  rintro c v' c' ⟨⟩
  exact h

theorem Gives.throw (e : Error) : Gives (α := α) (MonadExcept.throw e) P := by
  rintro c v c' ⟨⟩

theorem Gives.bind {reader : Reader α} {next : α → Reader β} (h : Gives reader P)
    (h' : ∀ a, P a → Gives (next a) Q) : Gives (reader >>= next) Q := by
  intro c v c' hr
  obtain ⟨a, c₁, ha, hv⟩ := bind_eq_ok hr
  exact h' a (h c a c₁ ha) c₁ v c' hv

theorem Gives.trivial (reader : Reader α) : Gives reader fun _ => True := fun _ _ _ _ => .intro

/-- A reader that goes on with anything. -/
theorem Gives.after {reader : Reader α} {next : α → Reader β} (h : ∀ a, Gives (next a) Q) :
    Gives (reader >>= next) Q :=
  (Gives.trivial reader).bind fun a _ => h a

theorem Gives.map {reader : Reader α} {f : α → β} (h : Gives reader P) (hf : ∀ a, P a → Q (f a)) :
    Gives (do return f (← reader)) Q :=
  h.bind fun a ha => .pure (hf a ha)

theorem Gives.item {layout : Layout α} (h : ∀ data offset, P (layout.get data offset)) :
    Gives (item layout) P := by
  intro c v c' hr
  obtain ⟨pos, c₁, -, hv⟩ := bind_eq_ok hr
  cases hv
  exact h _ _

theorem Gives.bytes (n : Nat) : Gives (bytes n) (·.size = n) := by
  intro c v c' hr
  obtain ⟨pos, c₁, ha, hv⟩ := bind_eq_ok hr
  cases hv
  unfold advance at ha
  split at ha
  · next hle =>
    cases ha
    have hmin : min (c.pos + n) c.data.size = c.pos + n := Nat.min_eq_left hle
    exact ByteArray.size_extract.trans (by rw [hmin, Nat.add_sub_cancel_left])
  · cases ha

theorem Gives.runOn {reader : Reader α} (h : Gives reader P) {data : ByteArray} {v : α}
    (hv : reader.runOn data = .ok v) : P v := by
  obtain ⟨c, hr⟩ := runOn_eq_ok hv
  exact h _ v c hr

end Savestate.Reader

theorem Machine.Screenshot.eq_of_byteCount? {width height : UInt32} {n : Nat}
    (h : byteCount? width height = some n) : n = width.toNat * height.toNat * 3 := by
  simp only [byteCount?, Option.ite_none_right_eq_some] at h
  exact (Option.some.inj h.2).symm

namespace Savestate

open Machine
open Reader (Gives)

/-! ## What the parts of a savestate give -/

theorem getEvents_gives (fuel : Nat) :
    Gives (getEvents fuel) fun events =>
      events.length < fuel ∧ ∀ e ∈ events, e.kind ≠ eventTerminator := by
  induction fuel with
  | zero => exact .throw _
  | succ fuel ih =>
    refine .after fun kind => ?_
    split
    · exact .pure ⟨Nat.succ_pos _, by simp⟩
    · next hkind =>
      refine .after fun count => ih.map fun events h => ?_
      exact ⟨Nat.succ_lt_succ h.1, List.forall_mem_cons.2 ⟨hkind, h.2⟩⟩

theorem getFreeze_gives :
    Gives Movie.Freeze.get fun f => f.inputs.size = f.lengthSamples.toNat + 1 := by
  refine .after fun size => .after fun uid => .after fun current => .after fun vi =>
    .after fun length => (Gives.bytes _).map fun packed h => ?_
  have hs : 0 < Sample.size := by decide
  rw [Sample.unpack, Array.size_ofFn, h, Nat.mul_div_cancel _ hs]

theorem getMovie_gives :
    Gives getMovie fun movie => ∀ f ∈ movie, f.inputs.size = f.lengthSamples.toNat + 1 := by
  refine .after fun flag => ?_
  split
  · exact .pure (by rintro f ⟨⟩)
  · exact getFreeze_gives.map (by rintro f h f ⟨⟩; exact h)

theorem getExtent_gives (what : Malformation) : Gives (getExtent what) (· < 0x80000000) := by
  refine .after fun n => ?_
  split
  · next h => exact .pure h
  · exact .throw _

theorem getScreenshot_gives :
    Gives getScreenshot fun screenshot => ∀ shot ∈ screenshot, shot.width < 0x80000000 ∧
      shot.height < 0x80000000 ∧ shot.rgb.size = 3 * shot.width.toNat * shot.height.toNat := by
  have hnone : Gives (pure none : Reader (Option Screenshot)) fun screenshot =>
      ∀ shot ∈ screenshot, shot.width < 0x80000000 ∧ shot.height < 0x80000000 ∧
        shot.rgb.size = 3 * shot.width.toNat * shot.height.toNat := .pure (by rintro shot ⟨⟩)
  refine .after fun left => ?_
  split
  · exact hnone
  refine .after fun tag => ?_
  split
  · exact hnone
  refine (getExtent_gives _).bind fun width hw => (getExtent_gives _).bind fun height hh => ?_
  split
  · exact .throw _
  · next n hn =>
    refine (Gives.bytes n).map ?_
    rintro rgb hrgb shot ⟨⟩
    exact ⟨hw, hh, by rw [hrgb, Screenshot.eq_of_byteCount? hn, Nat.mul_comm, Nat.mul_assoc]⟩

/-! ## The machine that is read -/

/-- Every memory that is read with the fixed block has its size on the wire. -/
structure Sized (s : Snapshot) : Prop where
  rdram : s.rdram.size = rdramSize
  spDmem : s.spDmem.size = spMemSize
  spImem : s.spImem.size = spMemSize
  tlbLutR : s.tlbLutR.length = lookupTableLength
  tlbLutW : s.tlbLutW.length = lookupTableLength

theorem size_get_region {n : Nat} {data v : ByteArray} {offset : Nat}
    (h : (Layout.region n).get data offset = v) : v.size = n := by
  subst h
  exact Bytes.size_fit _ _

theorem length_get_layout {n : Nat} {data : ByteArray} {offset : Nat} {table : LookupTable}
    (h : (LookupTable.layout n).get data offset = table) : table.length = n := by
  subst h
  have hs : ((Layout.region (4 * n)).get data offset).size = 4 * n := size_get_region rfl
  simp only [LookupTable.length, LookupTable.layout, Layout.map, hs, Bytes.size_fit]
  omega

theorem fixedLayout_gives : Gives (.item fixedLayout) Sized := by
  have hb := blank_wellFormed
  have hblank : Sized Snapshot.blank := ⟨hb.rdram, hb.spDmem, hb.spImem, hb.tlbLutR, hb.tlbLutW⟩
  refine .item fun data offset => Member.getAll_induction ?_ hblank data offset
  simp only [fixedMembers, List.forall_mem_cons]
  refine ⟨fun _ _ _ _ _ h => ⟨h.1, h.2, h.3, h.4, h.5⟩,
    fun _ _ _ hv _ h => ⟨size_get_region hv, h.2, h.3, h.4, h.5⟩,
    fun _ _ _ hv _ h => ⟨h.1, size_get_region hv, h.3, h.4, h.5⟩,
    fun _ _ _ hv _ h => ⟨h.1, h.2, size_get_region hv, h.4, h.5⟩,
    fun _ _ _ _ _ h => ⟨h.1, h.2, h.3, h.4, h.5⟩, fun _ _ _ _ _ h => ⟨h.1, h.2, h.3, h.4, h.5⟩,
    fun _ _ _ hv _ h => ⟨h.1, h.2, h.3, length_get_layout hv, h.5⟩,
    fun _ _ _ hv _ h => ⟨h.1, h.2, h.3, h.4, length_get_layout hv⟩,
    fun _ _ _ _ _ h => ⟨h.1, h.2, h.3, h.4, h.5⟩, fun _ _ _ _ _ h => ⟨h.1, h.2, h.3, h.4, h.5⟩,
    fun _ _ _ _ _ h => ⟨h.1, h.2, h.3, h.4, h.5⟩, fun _ _ _ _ _ h => ⟨h.1, h.2, h.3, h.4, h.5⟩, ?_⟩
  rintro _ ⟨⟩

/-- Whatever is accepted gives a machine that a savestate can hold. -/
theorem decode_wellFormed {data : ByteArray} {decoded : Decoded} (h : decode data = .ok decoded) :
    decoded.snapshot.WellFormed ∧ decoded.snapshot.interrupts.events.length ≤ maxEvents := by
  have hget : Gives get fun decoded => decoded.snapshot.WellFormed ∧
      decoded.snapshot.interrupts.events.length ≤ maxEvents := by
    refine .after fun hash => .after fun _ => fixedLayout_gives.bind fun fixed hfixed => ?_
    refine (getEvents_gives _).bind fun events hevents => getMovie_gives.bind fun movie hmovie => ?_
    refine getScreenshot_gives.map fun screenshot hscreenshot => ⟨?_, Nat.le_of_lt_succ hevents.1⟩
    exact ⟨hfixed.rdram, hfixed.spDmem, hfixed.spImem, hfixed.tlbLutR, hfixed.tlbLutW,
      Mask.clear_and _ _, hevents.2, hmovie, hscreenshot⟩
  exact hget.runOn h

/-- **Whatever savestate is accepted, saving what it holds loses nothing.** The machine cannot be
saved only when the queue is full and the interrupt is to be added that ends its transfer. Else it
reads back as it is after its transfer was ended, and the savestate says whether one was. A machine
whose transfer ended before reads back as it is. -/
theorem encode_of_decode {data : ByteArray} {decoded : Decoded} (h : decode data = .ok decoded) :
    let s := decoded.snapshot
    let t := (finishTransfer s).1
    let ended := (finishTransfer s).2
    let full := s.interrupts.events.length = maxEvents ∧ ¬s.HasSi
    (full → encode s = .error (.tooManyEvents (maxEvents + 1))) ∧
      (¬full → ∃ bytes, encode s = .ok ⟨bytes, t, ended⟩ ∧ decode bytes = .ok ⟨t, ended⟩) ∧
      (ended = true ↔ ¬s.HasSi) ∧
      (s.HasSi → ∃ bytes, encode s = .ok ⟨bytes, s, false⟩ ∧ decode bytes = .ok ⟨s, false⟩) := by
  intro s t ended full
  obtain ⟨hwf, hl⟩ := decode_wellFormed h
  have hsaved : t.interrupts.events.length ≤ maxEvents →
      ∃ bytes, encode s = .ok ⟨bytes, t, ended⟩ ∧ decode bytes = .ok ⟨t, ended⟩ :=
    exists_encode_decode hwf
  by_cases hsi : s.HasSi
  · have hf : (t, ended) = (s, false) := finishTransfer_of_hasSi hsi
    obtain ⟨ht, hended⟩ := Prod.mk.inj hf
    rw [ht, hended] at hsaved ⊢
    exact ⟨fun hfull => absurd hsi hfull.2, fun _ => hsaved hl, by simp [hsi], fun _ => hsaved hl⟩
  · obtain ⟨hended, hlength⟩ := finishTransfer_of_not_hasSi hsi
    refine ⟨fun hfull => ?_, fun hfull => ?_, iff_of_true hended hsi, fun hs => absurd hs hsi⟩
    · rw [hfull.1] at hlength
      rw [encode_of_lt_length (by rw [hlength]; exact Nat.lt_succ_self _), hlength]
    · have hne : s.interrupts.events.length ≠ maxEvents := fun he => hfull ⟨he, hsi⟩
      exact hsaved (Nat.le_trans (Nat.le_of_eq hlength) (Nat.lt_of_le_of_ne hl hne))

/-- A machine with as many interrupts pending as the queue holds, none of them the one that ends
its transfer. -/
def overfull : Snapshot :=
  { waiting with interrupts.events := .replicate maxEvents ⟨Interrupt.vi, 100⟩ }

theorem overfull_wellFormed : overfull.WellFormed :=
  { waiting_wellFormed with
    events := fun e he => by
      rw [List.eq_of_mem_replicate he]
      decide }

/-- Its savestate is accepted, and yet it cannot be saved. -/
theorem encode_of_decode_overfull :
    decode (stateBytes overfull false) = .ok ⟨overfull, false⟩ ∧
      encode overfull = .error (.tooManyEvents 128) := by
  have hl : overfull.interrupts.events.length = maxEvents := List.length_replicate
  have hd := decode_stateBytes overfull_wellFormed (Nat.le_of_eq hl) false
  have hsi : ¬overfull.HasSi := by unfold Snapshot.HasSi; decide
  exact ⟨hd, (encode_of_decode hd).1 ⟨hl, hsi⟩⟩

end Savestate

end Rewind
