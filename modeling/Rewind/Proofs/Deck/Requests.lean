import Rewind.Proofs.Deck.Tape
import Rewind.Proofs.Machine.Replayable

/-!
What carrying out a request does to a tape. A save leaves it alone, unless a transfer is under way;
a load of a checkpoint moves the cursor and replaces the machine; and of what becomes of a request,
only a new checkpoint is kept.
-/

namespace Rewind

open Savestate

/-- A load of a checkpoint leaves a movie where it is, or moves it to a position inside. -/
def Movie.Log.Repositioned (log log' : Log) : Prop :=
  log' = log ∨ ∃ freeze : Freeze, freeze.currentSample.toNat ≤ log.inputs.size ∧
    log' = log.restore freeze .reposition

theorem Movie.Log.noStart_of_isRunning {log : Log} (h : log.task.isRunning = true) :
    Deck.taskAfterStart? log.task = none := by
  cases ht : log.task <;> simp_all [Task.isRunning, Deck.taskAfterStart?]

theorem Movie.Log.checkFreeze_reposition_iff {log : Log} {freeze : Freeze} :
    log.checkFreeze freeze .reposition = .ok () ↔
      log.isActive = true ∧ freeze.check log.header.uid = .ok () ∧
        freeze.currentSample.toNat ≤ log.inputs.size := by
  unfold checkFreeze
  cases log.isActive with
  | false => simp
  | true =>
    cases freeze.check log.header.uid with
    | error e => simp
    | ok => simp

namespace Deck

variable {M H D : Type} [Core M] [Frontend H] [Storage D]

/-! ## Saves -/

theorem encode_of_si {s : Machine.Snapshot} (h : s.interrupts.has Machine.Interrupt.si = true) :
    encode s = (write s false).map fun bytes => ⟨bytes, s, false⟩ := by
  have hf : finishTransfer s = (s, false) := if_pos h
  rw [encode, hf]

/-- Hands over or writes out a captured machine. -/
def store (medium : Medium) (state : ByteArray) (d : Deck M H D) :
    Except Error ByteArray × Deck M H D :=
  let (written, d) := match d.statePath? medium with
    | some path => d.writeState path state
    | none => (.ok (), d)
  match written with
  | .error e => (.error e, d)
  | .ok () => (.ok state, d.notify .stateSaved)

theorem saveState_eq (medium : Medium) (d : Deck M H D) :
    d.saveState medium = match encode d.snapshot with
      | .error e => (.error e, d)
      | .ok encoded =>
        (if encoded.transferEnded then
          { d with machine := Core.skipTransfer (Core.apply encoded.snapshot d.machine) }
        else d).store medium encoded.bytes := rfl

/-- A machine that could be encoded is resumed before its state goes anywhere. -/
theorem saveState_of_encode {d : Deck M H D} {encoded : Encoded}
    (he : encode d.snapshot = .ok encoded) (medium : Medium) :
    d.saveState medium =
      { d with machine := encoded.resume d.machine }.store medium encoded.bytes := by
  have hresumed : (if encoded.transferEnded then
      { d with machine := Core.skipTransfer (Core.apply encoded.snapshot d.machine) } else d) =
      { d with machine := encoded.resume d.machine } := by
    unfold Encoded.resume
    split
    · rfl
    · rfl
  rw [saveState_eq, he, ← hresumed]

theorem tape_store (medium : Medium) (state : ByteArray) (d : Deck M H D) :
    (d.store medium state).2.tape = d.tape := by
  unfold store
  cases hp : d.statePath? medium with
  | none => rfl
  | some path =>
    have h := tape_writeState path state d
    simp only
    split <;> exact h

theorem machine_saveState_of_encode {d : Deck M H D} {encoded : Encoded}
    (he : encode d.snapshot = .ok encoded) (medium : Medium) :
    (d.saveState medium).2.machine = encoded.resume d.machine := by
  rw [saveState_of_encode he]
  exact congrArg Tape.machine (tape_store _ _ _)

theorem store_eq_ok {medium : Medium} {state state' : ByteArray} {d : Deck M H D}
    (h : (d.store medium state).1 = .ok state') : state' = state := by
  unfold store at h
  simp only at h
  split at h
  · cases h
  · cases h; rfl

/-- A save may change the machine, which may have to end a transfer first. -/
theorem tape_saveState (medium : Medium) (d : Deck M H D) :
    ∃ machine, (d.saveState medium).2.tape = d.tape.withMachine machine := by
  cases he : encode d.snapshot with
  | error e =>
    rw [saveState_eq, he]
    exact ⟨d.machine, rfl⟩
  | ok encoded =>
    rw [saveState_of_encode he]
    exact ⟨_, tape_store medium encoded.bytes _⟩

/-- A save without a transfer under way leaves the tape alone. -/
theorem tape_saveState_of_si {d : Deck M H D}
    (h : (Core.capture d.machine).interrupts.has Machine.Interrupt.si = true) (medium : Medium) :
    (d.saveState medium).2.tape = d.tape := by
  have h : d.snapshot.interrupts.has Machine.Interrupt.si = true := h
  rw [saveState_eq, encode_of_si h]
  cases write d.snapshot false with
  | error e => rfl
  | ok bytes => exact tape_store medium bytes d

/-- A save that succeeds gives the machine as it was. -/
theorem saveState_eq_ok {medium : Medium} {d : Deck M H D} {state : ByteArray}
    (h : (d.saveState medium).1 = .ok state) :
    ∃ encoded, encode d.snapshot = .ok encoded ∧ encoded.bytes = state := by
  rw [saveState_eq] at h
  cases he : encode d.snapshot with
  | error e => rw [he] at h; cases h
  | ok encoded => rw [he] at h; exact ⟨encoded, rfl, (store_eq_ok h).symm⟩

theorem execute_save_eq {r : Request} (hr : r.job = .save) (d : Deck M H D) : d.execute r =
    (⟨.save, r.tag, r.medium.label, (d.saveState r.medium).1⟩, (d.saveState r.medium).2) := by
  rw [execute, hr]

theorem execute_load_eq {r : Request} (hr : r.job = .load) (d : Deck M H D) : d.execute r =
    (⟨.load, r.tag, r.medium.label,
      (d.loadState r.medium r.ignoreWarnings (restoreMode r.tag d.config)).1⟩,
      (d.loadState r.medium r.ignoreWarnings (restoreMode r.tag d.config)).2) := by
  rw [execute, hr]

theorem perform_save_eq {r : Request} (hr : r.job = .save) (d : Deck M H D) :
    d.perform r = (d.saveState r.medium).2.deliver
      ⟨.save, r.tag, r.medium.label, (d.saveState r.medium).1⟩ := by
  rw [perform, execute_save_eq hr]

theorem perform_load_eq {r : Request} (hr : r.job = .load) (d : Deck M H D) :
    d.perform r = (d.loadState r.medium r.ignoreWarnings (restoreMode r.tag d.config)).2.deliver
      ⟨.load, r.tag, r.medium.label,
        (d.loadState r.medium r.ignoreWarnings (restoreMode r.tag d.config)).1⟩ := by
  rw [perform, execute_load_eq hr]

/-! ## Loads of checkpoints -/

omit [Core M] in
theorem restorePosition_reposition {d : Deck M H D} {freeze : Movie.Freeze}
    (h : d.movie.checkFreeze freeze .reposition = .ok ()) :
    d.restorePosition freeze .reposition =
      { d with movie := d.movie.restore freeze .reposition } := by
  have hu : d.movie.unfreeze freeze .reposition = .ok (d.movie.restore freeze .reposition) := by
    rw [Movie.Log.unfreeze, h]
  unfold restorePosition
  rw [hu]
  exact if_pos rfl

theorem tape_applyState_none (decoded : Decoded) (d : Deck M H D) :
    (d.applyState decoded none).tape = d.tape.withMachine (decoded.resume d.machine) := by
  rw [applyState, tape_notify, tape_restoreScreen]
  rfl

theorem tape_applyState_reposition (decoded : Decoded) {d : Deck M H D} {freeze : Movie.Freeze}
    (h : d.movie.checkFreeze freeze .reposition = .ok ()) :
    (d.applyState decoded (some (freeze, .reposition))).tape =
      (d.tape.withMachine (decoded.resume d.machine)).withMovie
        (d.movie.restore freeze .reposition) := by
  have hr := restorePosition_reposition (d := { d with machine := decoded.resume d.machine }) h
  rw [applyState, tape_notify, tape_restoreScreen]
  exact congrArg tape hr

omit [Core M] [Storage D] in
theorem admitPosition_reposition (position : Option Movie.Freeze) (ignoreWarnings : Bool)
    (d : Deck M H D) :
    (∃ e, (d.admitPosition position ignoreWarnings (some .reposition)).1 = .error e) ∨
    (d.admitPosition position ignoreWarnings (some .reposition)).1 = .ok none ∨
    ∃ freeze, (d.admitPosition position ignoreWarnings (some .reposition)).1 =
      .ok (some (freeze, .reposition)) ∧ d.movie.checkFreeze freeze .reposition = .ok () := by
  have hgo {α : Type} (go : Except Error Unit) (P : Prop) :
      (∃ e, go.map (fun _ => (none : Option α)) = .error e) ∨
        go.map (fun _ => (none : Option α)) = .ok none ∨ P := by
    cases go with
    | error e => exact .inl ⟨e, rfl⟩
    | ok => exact .inr (.inl rfl)
  cases position with
  | none =>
    unfold admitPosition
    simp only
    split
    · exact hgo _ _
    · exact .inr (.inl rfl)
  | some freeze =>
    unfold admitPosition
    simp only
    split
    · next hc => exact .inr (.inr ⟨freeze, rfl, hc⟩)
    · split
      · exact hgo _ _
      · exact .inr (.inl rfl)

theorem tape_loadDecoded_reposition (data : ByteArray) (ignoreWarnings : Bool) (d : Deck M H D) :
    ∃ machine log,
      (d.loadDecoded data ignoreWarnings (some .reposition)).2.tape =
        (d.tape.withMachine machine).withMovie log ∧ d.movie.Repositioned log := by
  unfold loadDecoded
  cases hd : decode data with
  | error e => exact ⟨d.machine, d.movie, rfl, .inl rfl⟩
  | ok decoded =>
    have ht := tape_admitPosition decoded.snapshot.movie ignoreWarnings (some .reposition) d
    have hp := admitPosition_reposition decoded.snapshot.movie ignoreWarnings d
    simp only
    generalize d.admitPosition decoded.snapshot.movie ignoreWarnings (some .reposition) =
      admitted at ht hp ⊢
    obtain ⟨position, d'⟩ := admitted
    have hm : d'.movie = d.movie := congrArg Tape.movie ht
    rw [← ht, ← hm]
    obtain ⟨e, rfl⟩ | rfl | ⟨freeze, rfl, hf⟩ := hp
    · exact ⟨d'.machine, d'.movie, rfl, .inl rfl⟩
    · exact ⟨decoded.resume d'.machine, d'.movie, tape_applyState_none decoded d', .inl rfl⟩
    · rw [← hm] at hf
      exact ⟨_, _, tape_applyState_reposition decoded hf,
        .inr ⟨freeze, (Movie.Log.checkFreeze_reposition_iff.1 hf).2.2, rfl⟩⟩

/-- Whatever is loaded, a load that only repositions keeps all of the movie but the position. -/
theorem tape_loadState_reposition (medium : Medium) (ignoreWarnings : Bool) (d : Deck M H D) :
    ∃ machine log,
      (d.loadState medium ignoreWarnings (some .reposition)).2.tape =
        (d.tape.withMachine machine).withMovie log ∧ d.movie.Repositioned log := by
  have hsame : ∃ machine log, d.tape = (d.tape.withMachine machine).withMovie log ∧
      d.movie.Repositioned log := ⟨d.machine, d.movie, rfl, .inl rfl⟩
  unfold loadState
  split
  · exact hsame
  · next data hash hfetch =>
    have ht (foreign : Bool) :
        (if foreign then d.ask (foreignRomMessage hash) else (.ok (), d)).2.tape = d.tape := by
      cases foreign
      · rfl
      · exact tape_ask _ d
    have ht := ht (!ignoreWarnings && hash != (Core.rom d.machine).md5)
    simp only
    generalize (if (!ignoreWarnings && hash != (Core.rom d.machine).md5) = true then
      d.ask (foreignRomMessage hash) else (.ok (), d)) = asked at ht ⊢
    obtain ⟨go, d'⟩ := asked
    have ht : d'.tape = d.tape := ht
    cases go with
    | error e => exact ht ▸ hsame
    | ok =>
      obtain ⟨machine, log, hl, hlog⟩ := tape_loadDecoded_reposition data ignoreWarnings d'
      have hm : d'.movie = d.movie := congrArg Tape.movie ht
      rw [ht] at hl
      rw [hm] at hlog
      exact ⟨_, log, congrArg (Tape.withMachine _) hl, hlog⟩

omit [Frontend H] in
theorem fetchState_memory {state : ByteArray} {decoded : Decoded} (h : decode state = .ok decoded)
    (ha : decoded.snapshot.romHash.IsAscii) (d : Deck M H D) :
    d.fetchState (.memory state) = .ok (state, decoded.snapshot.romHash) := by
  have hr := romHash_of_decode h
  obtain ⟨hne, hd⟩ := decompress_of_romHash hr ha
  have hf : d.fetch (.memory state) = .ok state := rfl
  have hexpanded : (Gzip.decompress state).mapError Error.decompression = .ok state := by
    rw [hd]
    rfl
  simp only [fetchState, hf, hne, hexpanded, hr, bind, Except.bind, pure, Except.pure,
    Bool.false_eq_true, ↓reduceIte]

/-- The load of a checkpoint of the movie. -/
theorem loadState_checkpoint {state : ByteArray} {decoded : Decoded} {freeze : Movie.Freeze}
    {d : Deck M H D} (h : decode state = .ok decoded) (ha : decoded.snapshot.romHash.IsAscii)
    (hm : decoded.snapshot.movie = some freeze)
    (hf : d.movie.checkFreeze freeze .reposition = .ok ()) :
    d.loadState (.memory state) true (some .reposition) =
      (.ok state, (d.applyState decoded (some (freeze, .reposition))).settleEntry) := by
  have hp : d.admitPosition decoded.snapshot.movie true (some .reposition) =
      (.ok (some (freeze, .reposition)), d) := by
    rw [hm, admitPosition]
    simp only [hf]
  have hl : d.loadDecoded state true (some .reposition) =
      (.ok state, d.applyState decoded (some (freeze, .reposition))) := by
    rw [loadDecoded, h]
    simp only [hp]
  rw [loadState, fetchState_memory h ha]
  simp only [Bool.not_true, Bool.false_and, Bool.false_eq_true, ↓reduceIte, hl]

/-! ## What becomes of a request -/

omit [Core M] [Storage D] in
theorem settleStart_of_noStart {d : Deck M H D} (h : taskAfterStart? d.movie.task = none)
    (succeeded : Bool) : d.settleStart succeeded = d := by
  rw [settleStart, h]

omit [Core M] [Storage D] in
theorem tape_deliver {d : Deck M H D} (h : taskAfterStart? d.movie.task = none) (o : Outcome) :
    (d.deliver o).2.tape = d.tape ∨
      o.tag = some .checkpoint ∧ ∃ state, o.result = .ok state ∧
        (d.deliver o).2.tape = (d.keepCheckpoint state).tape := by
  obtain ⟨job, tag, label, result⟩ := o
  cases tag with
  | none => cases result <;> exact .inl rfl
  | some tag =>
    cases tag with
    | undo => cases result <;> exact .inl rfl
    | checkpoint =>
      cases result with
      | error e => exact .inl rfl
      | ok state => exact .inr ⟨rfl, state, rfl, rfl⟩
    | movieStart => exact .inl (congrArg tape (settleStart_of_noStart h _))
    | seekRollback =>
      cases result with
      | error e => exact .inl (tape_failRollback d)
      | ok state => exact .inl (tape_finishRollback d)
    | caller id => cases result <;> exact .inl rfl

/-! ## Returns to a checkpoint -/

omit [Frontend H] [Storage D] in
@[simp] theorem tape_settleEntry (d : Deck M H D) :
    d.settleEntry.tape = d.tape.withMachine
      (Core.noteEntry (Core.programCounter d.machine == legacyEntry) d.machine) := rfl

theorem perform_rollback (state : ByteArray) (d : Deck M H D) :
    d.perform (rollbackRequest state) =
      (d.loadState (.memory state) true (some .reposition)).2.deliver
        ⟨.load, some .seekRollback, "memory",
          (d.loadState (.memory state) true (some .reposition)).1⟩ :=
  perform_load_eq rfl d

/-- The return to whatever is given for a checkpoint changes the machine and the position. -/
theorem tape_perform_rollback (state : ByteArray) (d : Deck M H D) :
    ∃ machine log, (d.perform (rollbackRequest state)).2.tape =
      (d.tape.withMachine machine).withMovie log ∧ d.movie.Repositioned log := by
  obtain ⟨machine, log, ht, hlog⟩ := tape_loadState_reposition (.memory state) true d
  refine ⟨machine, log, ?_, hlog⟩
  rw [perform_rollback, ← ht]
  cases (d.loadState (.memory state) true (some .reposition)).1 with
  | error e => exact tape_failRollback _
  | ok state => exact tape_finishRollback _

/-- The return to a checkpoint of the movie. -/
theorem perform_rollback_eq {state : ByteArray} {decoded : Decoded} {freeze : Movie.Freeze}
    {d : Deck M H D} (h : decode state = .ok decoded) (ha : decoded.snapshot.romHash.IsAscii)
    (hm : decoded.snapshot.movie = some freeze)
    (hf : d.movie.checkFreeze freeze .reposition = .ok ()) :
    d.perform (rollbackRequest state) =
      (none, (d.applyState decoded (some (freeze, .reposition))).settleEntry.finishRollback) := by
  rw [perform_rollback, loadState_checkpoint h ha hm hf]
  rfl

end Deck

end Rewind
