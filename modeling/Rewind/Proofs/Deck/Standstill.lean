import Rewind.Proofs.Deck.Loads
import Rewind.Proofs.Deck.Undo
import Rewind.Proofs.Savestate.Marks

/-!
Several states of one instant. A save that ends a transfer changes the machine and marks the state
that it gives, so whatever is saved next, before the machine runs on, finds the transfer ended and
gives the same state without the mark. Main statement: states of one instant hold the same machine,
and only the first of them says that a transfer was ended (`decode_of_standsStill`).
-/

namespace Rewind

open Machine Savestate

/-- A machine that is what it takes over, whatever that is, and keeps the hash of the cartridge that
it runs. -/
structure Core.Verbatim (M : Type) [Core M] : Prop extends Core.Faithful M fun _ => True where
  romHash_apply {s : Snapshot} {m : M} (h : s.romHash = (Core.capture m).romHash) :
    (Core.capture (Core.apply s m)).romHash = s.romHash
  romHash_skipTransfer (m : M) :
    (Core.capture (Core.skipTransfer m)).romHash = (Core.capture m).romHash

theorem Machine.Accumulator.verbatim : Core.Verbatim Accumulator where
  toFaithful := faithful _
  romHash_apply h := h.symm
  romHash_skipTransfer _ := rfl

theorem Machine.Snapshot.eq_of_bare {s t : Snapshot} (h : s.bare = t.bare)
    (hr : s.romHash = t.romHash) (hm : s.movie = t.movie) (hs : s.screenshot = t.screenshot) :
    s = t := by
  cases s
  cases t
  simp_all [bare]

theorem Machine.Snapshot.marked_of_bare {s s' : Snapshot} (h : s'.bare = s.bare) :
    s'.marked = s.marked := by
  have hm := congrArg Snapshot.marked h
  exact hm

namespace Core.Verbatim

variable {M : Type} [Core M] (h : Core.Verbatim M)
include h

/-- After a save, the machine is what was saved. -/
theorem capture_resume_encoded {s : Snapshot} {m : M} (hs : s.bare = (Core.capture m).bare)
    (hr : s.romHash = (Core.capture m).romHash) {encoded : Encoded}
    (he : encode s = .ok encoded) :
    (Core.capture (encoded.resume m)).bare = encoded.snapshot.bare ∧
      (Core.capture (encoded.resume m)).romHash = encoded.snapshot.romHash := by
  have hfinish := finishTransfer_of_encode he
  have hrom : encoded.snapshot.romHash = s.romHash := by
    rw [← romHash_finishTransfer s, hfinish]
  unfold Encoded.resume
  split
  · rw [h.capture_skipTransfer, h.romHash_skipTransfer]
    exact ⟨h.capture_apply trivial m, h.romHash_apply (hrom.trans hr)⟩
  · next hended =>
    rw [snapshot_of_encode he hended]
    exact ⟨hs.symm, hr.symm⟩

end Core.Verbatim

namespace Deck

variable {M H D : Type} [Core M] [Frontend H] [Storage D] {d e : Deck M H D} {r : Request}

/-! ## What a save gives, and where it leaves the machine -/

/-- The save gives this state, unless it writes a file and cannot. -/
def HandsOver (r : Request) (d : Deck M H D) (state : ByteArray) : Prop :=
  (d.execute r).1.result = .ok state ∨ (d.statePath? r.medium).isSome ∧
    ∃ fault, (d.execute r).1.result = .error (.fileWrite fault)

omit [Core M] [Frontend H] in
theorem writeState_cases (path : Storage.Pathname) (state : ByteArray) (d : Deck M H D) :
    (d.writeState path state).1 = .ok () ∨
      ∃ fault, (d.writeState path state).1 = .error (.fileWrite fault) := by
  have hmapped {result : Except Storage.Fault Unit} : result.mapError Error.fileWrite = .ok () ∨
      ∃ fault, result.mapError Error.fileWrite = .error (.fileWrite fault) := by
    cases result with
    | error fault => exact .inr ⟨fault, rfl⟩
    | ok => exact .inl rfl
  unfold writeState
  simp only
  split
  · exact .inr ⟨_, rfl⟩
  · exact hmapped

omit [Frontend H] [Storage D] in
theorem isSome_statePath? (medium : Medium) (d d' : Deck M H D) :
    (d.statePath? medium).isSome = (d'.statePath? medium).isSome := by
  cases medium <;> simp [statePath?]

theorem store_cases (medium : Medium) (state : ByteArray) (d : Deck M H D) :
    (d.store medium state).1 = .ok state ∨ (d.statePath? medium).isSome ∧
      ∃ fault, (d.store medium state).1 = .error (.fileWrite fault) := by
  unfold store
  cases d.statePath? medium with
  | none => exact .inl rfl
  | some path =>
    simp only
    obtain hw | ⟨fault, hw⟩ := writeState_cases path state d
    · rw [hw]
      exact .inl rfl
    · rw [hw]
      exact .inr ⟨rfl, fault, rfl⟩

theorem handsOver_of_encode (hr : r.job = .save) {encoded : Encoded}
    (he : encode d.snapshot = .ok encoded) : d.HandsOver r encoded.bytes := by
  rw [HandsOver, execute_save_eq hr, saveState_of_encode he]
  rw [isSome_statePath? r.medium d]
  exact store_cases r.medium encoded.bytes _

theorem machine_perform_of_encode (hr : r.job = .save) {encoded : Encoded}
    (he : encode d.snapshot = .ok encoded) :
    (d.perform r).2.machine = encoded.resume d.machine := by
  rw [perform_save_eq hr]
  exact (deliver_keeps _ _).2.trans (machine_saveState_of_encode he r.medium)

/-- A save between transfers leaves the machine alone. -/
theorem machine_perform_of_hasSi (hr : r.job = .save) (hsi : (Core.capture d.machine).HasSi) :
    (d.perform r).2.machine = d.machine := by
  rw [perform_save_eq hr]
  exact (deliver_keeps _ _).2.trans (congrArg Tape.machine (tape_saveState_of_si hsi _))

/-! ## Standstill -/

/-- From one deck to another, the machine takes no step, no state is loaded, and whatever else
happens leaves the machine alone. Saves may come in between. -/
inductive StandsStill (d : Deck M H D) : Deck M H D → Prop
  | refl : StandsStill d d
  | save {e : Deck M H D} {r : Request} (h : StandsStill d e) (hr : r.job = .save) :
    StandsStill d (e.perform r).2
  | aside {e e' : Deck M H D} (h : StandsStill d e) (hm : e'.machine = e.machine) :
    StandsStill d e'

/-- Between transfers, saves leave the machine alone too. -/
theorem StandsStill.machine (h : d.StandsStill e) (hsi : (Core.capture d.machine).HasSi) :
    e.machine = d.machine := by
  induction h with
  | refl => rfl
  | save h hr ih => exact (machine_perform_of_hasSi hr (ih.symm ▸ hsi)).trans ih
  | aside h hm ih => exact hm.trans ih

/-- What is saved of an instant in which something was saved before. -/
theorem snapshot_of_standsStill (verbatim : Core.Verbatim M) (hr : r.job = .save)
    {encoded : Encoded} (he : encode d.snapshot = .ok encoded)
    (h : (d.perform r).2.StandsStill e) (hmovie : e.movie.freeze = d.movie.freeze)
    (hscreen : e.snapshot.screenshot = d.snapshot.screenshot) :
    e.snapshot = encoded.snapshot := by
  have hfirst := machine_perform_of_encode hr he
  obtain ⟨hbare, hrom⟩ := verbatim.capture_resume_encoded (s := d.snapshot) (m := d.machine)
    rfl rfl he
  have hsi : (Core.capture (encoded.resume d.machine)).HasSi := by
    have hi := hasSi_of_encode he
    rwa [Snapshot.HasSi, Snapshot.interrupts_of_bare hbare]
  rw [← hfirst] at hsi hbare hrom
  have hmachine := h.machine hsi
  rw [← hmachine] at hbare hrom
  exact Snapshot.eq_of_bare hbare hrom (hmovie.trans (movie_of_encode he).symm)
    (hscreen.trans (screenshot_of_encode he).symm)

/-- The states of two saves at one instant, on `d` first and on `e` later. They read back alike,
but for the word that a transfer was ended. -/
structure SavedTwice (r r' : Request) (d e : Deck M H D) (encoded again : Encoded) : Prop where
  first : d.HandsOver r encoded.bytes
  second : e.HandsOver r' again.bytes
  decode_eq : decode encoded.bytes = (decode again.bytes).map fun decoded =>
    { decoded with transferEnded :=
        !(Core.capture d.machine).interrupts.has Interrupt.si || decoded.transferEnded }
  transferEnded : ∀ decoded, decode again.bytes = .ok decoded →
    decoded.transferEnded = (Core.capture d.machine).marked
  readable : d.snapshot.Expressible → ∃ decoded, decode again.bytes = .ok decoded

/-- Whatever is saved of one instant holds the same machine. -/
theorem decode_of_saves (verbatim : Core.Verbatim M) {r' : Request} (hr : r.job = .save)
    (hr' : r'.job = .save) {encoded : Encoded} (he : encode d.snapshot = .ok encoded)
    (h : (d.perform r).2.StandsStill e) (hmovie : e.movie.freeze = d.movie.freeze)
    (hscreen : e.snapshot.screenshot = d.snapshot.screenshot) :
    ∃ again, encode e.snapshot = .ok again ∧ SavedTwice r r' d e encoded again := by
  have hsnapshot := snapshot_of_standsStill verbatim hr he h hmovie hscreen
  obtain ⟨hfinish, hwrite⟩ := encode_eq_ok_iff.1 he
  obtain ⟨plain, hplain, hdecode, hmarked⟩ := decode_of_write_marked hwrite
  have hagain : encode e.snapshot = .ok ⟨plain, encoded.snapshot, false⟩ := by
    rw [hsnapshot]
    exact encode_eq_ok_iff.2 ⟨finishTransfer_of_hasSi (hasSi_of_encode he), hplain⟩
  have hregister : encoded.snapshot.marked = (Core.capture d.machine).marked := by
    have hm := marked_finishTransfer d.snapshot
    rwa [hfinish] at hm
  have hdue : encoded.transferEnded = !(Core.capture d.machine).interrupts.has Interrupt.si :=
    Bool.eq_iff_iff.2 ((transferEnded_of_encode he).trans (by simp [Snapshot.HasSi, snapshot]))
  have hsaved : SavedTwice r r' d e encoded ⟨plain, encoded.snapshot, false⟩ :=
    { first := handsOver_of_encode hr he
      second := handsOver_of_encode hr' hagain
      decode_eq := by rw [hdecode, hdue]
      transferEnded := fun decoded hd => (hmarked decoded hd).trans hregister
      readable := fun hx => by
        rw [← finishTransfer_expressible_iff, hfinish, ← hsnapshot] at hx
        exact ⟨_, decode_of_encode_expressible hx hagain⟩ }
  exact ⟨_, hagain, hsaved⟩

theorem bare_snapshot_of_load (verbatim : Core.Verbatim M) (hr : r.job = .load) {data : ByteArray}
    (hok : (d.execute r).1.result = .ok data) {loaded : Decoded} (hload : decode data = .ok loaded)
    (hm : e.machine = (d.perform r).2.machine) : e.snapshot.bare = loaded.snapshot.bare := by
  rw [execute_load_eq hr] at hok
  obtain ⟨decoded, messages, hdecode, hleft⟩ := loadState_ok hok
  obtain rfl : decoded = loaded := Except.ok.inj (hdecode.symm.trans hload)
  have hmachine : ∃ legacy, e.machine = Core.noteEntry legacy (decoded.resume d.machine) := by
    have hperform : (d.perform r).2.machine =
        (d.loadState r.medium r.ignoreWarnings (restoreMode r.tag d.config)).2.machine := by
      rw [perform_load_eq hr]
      exact (deliver_keeps _ _).2
    refine ⟨Core.programCounter (decoded.resume d.machine) == legacyEntry, ?_⟩
    rw [hm, hperform, hleft, settleEntry]
    simp only [machine_applyState]
    rfl
  obtain ⟨legacy, hmachine⟩ := hmachine
  have hcapture : e.snapshot.bare = (Core.capture e.machine).bare := rfl
  rw [hcapture, hmachine, verbatim.capture_noteEntry, verbatim.capture_resume trivial]

/-- What is saved after a load says whether a transfer had to be ended for it, not what the loaded
state said. -/
theorem transferEnded_of_load (verbatim : Core.Verbatim M) (hr : r.job = .load) {data : ByteArray}
    (hok : (d.execute r).1.result = .ok data) {loaded : Decoded} (hload : decode data = .ok loaded)
    (hm : e.machine = (d.perform r).2.machine) {encoded : Encoded}
    (he : encode e.snapshot = .ok encoded) {decoded : Decoded}
    (hdecode : decode encoded.bytes = .ok decoded) :
    decoded.transferEnded = true ↔ ¬loaded.snapshot.HasSi := by
  have hbare := bare_snapshot_of_load verbatim hr hok hload hm
  have hunmarked : e.snapshot.marked = false := by
    have hunmarked := (decode_wellFormed hload).1.unmarked
    rw [Snapshot.marked_of_bare hbare, Snapshot.marked, hunmarked]
    rfl
  rw [transferEnded_of_decode_encode he hdecode, hunmarked, Bool.or_false,
    transferEnded_of_encode he, Snapshot.HasSi, Snapshot.interrupts_of_bare hbare]
  rfl

/-- **States of one instant hold the same machine, and only the first of them says that its transfer
was ended**, whatever else is saved in between, as long as the machine does not run on, at the same
movie position and with the same screen. What is saved after a load says so exactly if the machine
that was loaded has no interrupt queued that ends a transfer, whatever the loaded state said. -/
theorem decode_of_standsStill (verbatim : Core.Verbatim M) (d : Deck M H D) :
    (∀ {r r' : Request} {e : Deck M H D} {encoded : Encoded}, r.job = .save → r'.job = .save →
      encode d.snapshot = .ok encoded → (d.perform r).2.StandsStill e →
      e.movie.freeze = d.movie.freeze → e.snapshot.screenshot = d.snapshot.screenshot →
      ∃ again, encode e.snapshot = .ok again ∧ SavedTwice r r' d e encoded again) ∧
    (∀ {r : Request} {data : ByteArray} {loaded decoded : Decoded} {e : Deck M H D}
      {encoded : Encoded}, r.job = .load → (d.execute r).1.result = .ok data →
      decode data = .ok loaded → e.machine = (d.perform r).2.machine →
      encode e.snapshot = .ok encoded → decode encoded.bytes = .ok decoded →
      (decoded.transferEnded = true ↔ ¬loaded.snapshot.HasSi)) :=
  ⟨fun hr hr' he h hmovie hscreen => decode_of_saves verbatim hr hr' he h hmovie hscreen,
    fun hr hok hload hm he hdecode => transferEnded_of_load verbatim hr hok hload hm he hdecode⟩

/-- A caller's save to memory. -/
def memorySave : Request := .capture (.caller 1)

/-- The load of a state in memory. -/
def memoryLoad (state : ByteArray) : Request := { job := .load, medium := .memory state }

/-- The silent deck after its waiting machine was saved. -/
def savedOnce : Deck Accumulator Journal Storage.Tree := ((silenced []).perform memorySave).2

theorem HandsOver.result_memorySave {d : Deck M H D} {state : ByteArray}
    (h : d.HandsOver memorySave state) : (d.execute memorySave).1.result = .ok state :=
  h.resolve_right fun ⟨hfile, _⟩ => nomatch hfile

/-- The waiting machine is saved with its transfer ended. -/
theorem encode_silenced : ∃ encoded, encode (silenced []).snapshot = .ok encoded ∧
    decode encoded.bytes = .ok ⟨encoded.snapshot, true⟩ ∧ encoded.snapshot.romHash.IsAscii ∧
    encoded.snapshot.interrupts.events.length < maxEvents := by
  obtain ⟨bytes, hencode, hdecode⟩ := exists_encode_decode (wellFormed_silenced []) (by decide)
  have hrom := romHash_finishTransfer (silenced []).snapshot
  refine ⟨_, hencode, hdecode, ?_, ?_⟩
  · simp only [hrom]
    exact isAscii_cutOff
  · simp only
    decide

omit [Storage D] in
theorem screenshot_snapshot (h : d.config.stScreenshot = false) :
    d.snapshot.screenshot = none := by
  rw [snapshot, h]
  rfl

theorem config_savedOnce : savedOnce.config = (silenced []).config := config_perform_any _ _

theorem movie_savedOnce : savedOnce.movie = {} := by
  obtain ⟨machine, htape⟩ := tape_saveState memorySave.medium (silenced [])
  exact congrArg Tape.movie htape

/-- A state without a movie position is brought back to the silent deck as it is. -/
theorem perform_memoryLoad {state : ByteArray} {loaded : Decoded}
    (hload : decode state = .ok loaded) (ha : loaded.snapshot.romHash.IsAscii)
    (hm : loaded.snapshot.movie = none) :
    (savedOnce.execute (memoryLoad state)).1.result = .ok state ∧
      (savedOnce.perform (memoryLoad state)).2.snapshot.movie = none ∧
      (savedOnce.perform (memoryLoad state)).2.snapshot.screenshot = none := by
  let mode := restoreMode none savedOnce.config
  have hsilent : savedOnce.config.silent = true := by
    rw [config_savedOnce]
    rfl
  have hposition : savedOnce.movie.admitted loaded.snapshot.movie mode = none := by
    rw [hm]
    cases mode <;> rfl
  have hloaded : savedOnce.loadState (.memory state) false mode =
      (.ok state, (savedOnce.applyState loaded none).settleEntry) :=
    hposition ▸ loadState_memory_of_quiet (.inr hsilent) hload ha mode
  have hperform : (savedOnce.perform (memoryLoad state)).2 =
      (savedOnce.applyState loaded none).settleEntry := by
    rw [perform_load_eq rfl]
    exact congrArg (fun l => (deliver ⟨.load, none, _, l.1⟩ l.2).2) hloaded
  refine ⟨congrArg Prod.fst hloaded, ?_, ?_⟩
  · rw [hperform]
    have htape := congrArg Tape.movie (tape_applyState_none loaded savedOnce)
    change (savedOnce.applyState loaded none).movie.freeze = none
    rw [show (savedOnce.applyState loaded none).movie = savedOnce.movie from htape, movie_savedOnce]
    rfl
  · refine screenshot_snapshot ?_
    rw [config_perform_any, config_savedOnce]
    rfl

/-- A waiting machine is saved twice, the first state is loaded again, and the machine is saved once
more. The first save and the second give the same machine, but only the first says that a transfer
was ended; the loaded state says so, and the state that is saved right after it does not. -/
theorem saves_differ_savedOnce : ∃ state second third : ByteArray, ∃ machine : Snapshot,
    ((silenced []).execute memorySave).1.result = .ok state ∧
      decode state = .ok ⟨machine, true⟩ ∧
      (savedOnce.execute memorySave).1.result = .ok second ∧
      decode second = .ok ⟨machine, false⟩ ∧
      (savedOnce.execute (memoryLoad state)).1.result = .ok state ∧
      ((savedOnce.perform (memoryLoad state)).2.execute memorySave).1.result = .ok third ∧
      ∃ decoded, decode third = .ok decoded ∧ decoded.transferEnded = false := by
  have hjob : memorySave.job = .save := rfl
  obtain ⟨encoded, he, hfirst, hascii, hroom⟩ := encode_silenced
  obtain ⟨again, hagain, hsaved⟩ :=
    decode_of_saves Accumulator.verbatim hjob hjob he (e := savedOnce) .refl rfl rfl
  have hdecode := hsaved.decode_eq
  have hsecond : decode again.bytes = .ok ⟨encoded.snapshot, false⟩ := by
    rw [hfirst] at hdecode
    cases hd : decode again.bytes with
    | error e => rw [hd] at hdecode; cases hdecode
    | ok decoded =>
      rw [hd] at hdecode
      have hflag : decoded.transferEnded = false := hsaved.transferEnded decoded hd
      have hsnapshot : encoded.snapshot = decoded.snapshot :=
        congrArg Decoded.snapshot (Except.ok.inj hdecode)
      rw [hsnapshot, ← hflag]
  obtain ⟨hok, hnomovie, hnoscreen⟩ :=
    perform_memoryLoad hfirst hascii (movie_of_encode he)
  have hinterrupts := Snapshot.interrupts_of_bare
    (bare_snapshot_of_load Accumulator.verbatim rfl hok hfirst rfl)
  obtain ⟨third, hthird⟩ := encode_of_noScreen hnoscreen (hinterrupts ▸ hroom)
  have hexpressible : (savedOnce.perform (memoryLoad encoded.bytes)).2.snapshot.Expressible :=
    { events := hinterrupts ▸ (decode_wellFormed hfirst).1.events
      movie := by rw [hnomovie]; rintro _ ⟨⟩
      screenshot := by rw [hnoscreen]; rintro _ ⟨⟩ }
  have hdecoded := decode_of_encode_expressible hexpressible hthird
  have hflag := transferEnded_of_load Accumulator.verbatim rfl hok hfirst rfl hthird hdecoded
  exact ⟨_, _, _, _, hsaved.first.result_memorySave, hfirst, hsaved.second.result_memorySave,
    hsecond, hok, (handsOver_of_encode rfl hthird).result_memorySave, _, hdecoded,
    Bool.eq_false_iff.2 fun h => hflag.1 h (hasSi_of_encode he)⟩

/-- The waiting machine is saved, saved again, loaded and saved once more. -/
theorem decode_of_standsStill_silenced : ∃ encoded again : Encoded,
    encode (silenced []).snapshot = .ok encoded ∧ encode savedOnce.snapshot = .ok again ∧
      (decode encoded.bytes = (decode again.bytes).map fun decoded =>
        { decoded with transferEnded := true }) ∧
      (∃ decoded, decode again.bytes = .ok decoded) ∧
      ∀ third decoded,
        encode (savedOnce.perform (memoryLoad encoded.bytes)).2.snapshot = .ok third →
        decode third.bytes = .ok decoded → decoded.transferEnded = false := by
  have hjob : memorySave.job = .save := rfl
  obtain ⟨hsaves, -⟩ := decode_of_standsStill Accumulator.verbatim (silenced [])
  obtain ⟨-, hloads⟩ := decode_of_standsStill Accumulator.verbatim savedOnce
  obtain ⟨encoded, he, hfirst, hascii, -⟩ := encode_silenced
  obtain ⟨again, hagain, hsaved⟩ := hsaves hjob hjob he (e := savedOnce) .refl rfl rfl
  obtain ⟨hok, -, -⟩ := perform_memoryLoad hfirst hascii (movie_of_encode he)
  refine ⟨encoded, again, he, hagain, hsaved.decode_eq,
    hsaved.readable (wellFormed_silenced []).expressible, fun third decoded hthird hdecoded => ?_⟩
  have hflag := hloads rfl hok hfirst rfl hthird hdecoded
  exact Bool.eq_false_iff.2 fun h => hflag.1 h (hasSi_of_encode he)

end Deck

end Rewind
