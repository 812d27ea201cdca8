import Rewind.Proofs.Deck.SeekTargets
import Rewind.Proofs.Machine.Programs

/-!
Undoing loads. A drain that loads captures the machine in front of everything else, and nothing that
it carries out afterwards touches what was captured, unless a request claims the tag of that capture
(`undo_drain`). Main statement: after a drain that loads, undoing brings the machine back to where
it was (`machine_undoLoad`).
-/

namespace Rewind

open Machine Savestate

/-- A machine that is what it takes over, of the states with a property. What it is told about
transfers and addresses does not count as its state. -/
structure Core.Faithful (M : Type) [Core M] (P : Snapshot → Prop) : Prop where
  capture_apply {s : Snapshot} (h : P s) (m : M) : (Core.capture (Core.apply s m)).bare = s.bare
  capture_skipTransfer (m : M) : (Core.capture (Core.skipTransfer m)).bare = (Core.capture m).bare
  capture_noteEntry (legacy : Bool) (m : M) :
    (Core.capture (Core.noteEntry legacy m)).bare = (Core.capture m).bare

/-- A faithful machine that takes a savestate over is what the savestate says. -/
theorem Core.Faithful.capture_resume {M : Type} [Core M] {P : Snapshot → Prop}
    (h : Core.Faithful M P) {decoded : Decoded} (hs : P decoded.snapshot) (m : M) :
    (Core.capture (decoded.resume m)).bare = decoded.snapshot.bare := by
  unfold Decoded.resume
  split
  · rw [h.capture_skipTransfer, h.capture_apply hs]
  · exact h.capture_apply hs m

theorem Machine.Accumulator.faithful (P : Snapshot → Prop) : Core.Faithful Accumulator P where
  capture_apply _ _ := rfl
  capture_skipTransfer _ := rfl
  capture_noteEntry legacy m := by
    change (if m.tracksEntry then { m with legacyEntry := some legacy } else m).state.bare =
      m.state.bare
    split <;> rfl

namespace Deck

variable {M H D : Type} [Frontend H] {d : Deck M H D}

/-! ## What leaves the undo state alone -/

@[simp] theorem undo_notifyTask (before : Movie.Task) (d : Deck M H D) :
    (d.notifyTask before).undo = d.undo := by
  unfold notifyTask; split <;> rfl

@[simp] theorem undo_dropCheckpoints (sample : Nat) (d : Deck M H D) :
    (d.dropCheckpoints sample).undo = d.undo := by
  unfold dropCheckpoints; simp only; split <;> rfl

@[simp] theorem undo_restoreScreen (shot : Option Screenshot) (d : Deck M H D) :
    (d.restoreScreen shot).undo = d.undo := by
  unfold restoreScreen; split
  · rfl
  · split <;> rfl

@[simp] theorem undo_endWarp (d : Deck M H D) : d.endWarp.undo = d.undo := by
  unfold endWarp; split <;> rfl

@[simp] theorem undo_stopSeek (d : Deck M H D) : d.stopSeek.undo = d.undo := by
  unfold stopSeek; split <;> simp

@[simp] theorem undo_checkSeek (d : Deck M H D) : d.checkSeek.undo = d.undo := by
  unfold checkSeek; split
  · rfl
  · simp only [undo_endWarp]; split <;> rfl

@[simp] theorem undo_keepCheckpoint (state : ByteArray) (d : Deck M H D) :
    (d.keepCheckpoint state).undo = d.undo := by
  unfold keepCheckpoint; split <;> rfl

@[simp] theorem undo_failRollback (d : Deck M H D) : d.failRollback.undo = d.undo := by
  unfold failRollback; split <;> simp [notify]

@[simp] theorem undo_settleStart (succeeded : Bool) (d : Deck M H D) :
    (d.settleStart succeeded).undo = d.undo := by
  unfold settleStart; split
  · rfl
  · split
    · unfold queueCheckpoint enqueue; split <;> rfl
    · rfl

variable [Storage D]

@[simp] theorem undo_restorePosition (freeze : Movie.Freeze) (mode : Movie.RestoreMode)
    (d : Deck M H D) : (d.restorePosition freeze mode).undo = d.undo := by
  unfold restorePosition; simp only; split
  · simp
  · simp only [undo_notifyTask]; split <;> simp [finishRerecord, saveMovie, notify]

variable [Core M]

@[simp] theorem undo_applyState (decoded : Decoded)
    (position : Option (Movie.Freeze × Movie.RestoreMode)) (d : Deck M H D) :
    (d.applyState decoded position).undo = d.undo := by
  unfold applyState; simp only [notify, undo_restoreScreen]; split <;> simp

theorem undo_saveState (medium : Medium) (d : Deck M H D) :
    (d.saveState medium).2.undo = d.undo := by
  have hstore (state : ByteArray) (d : Deck M H D) : (d.store medium state).2.undo = d.undo := by
    unfold store
    cases d.statePath? medium with
    | none => rfl
    | some path =>
      have hwritten : (d.writeState path state).2.undo = d.undo := by
        unfold writeState; simp only; split <;> rfl
      simp only
      split <;> exact hwritten
  cases he : encode d.snapshot with
  | error e => rw [saveState_eq, he]
  | ok encoded =>
    rw [saveState_of_encode he]
    exact hstore encoded.bytes _

theorem undo_execute (r : Request) (d : Deck M H D) : (d.execute r).2.undo = d.undo := by
  unfold execute
  cases r.job with
  | save => exact undo_saveState r.medium d
  | load =>
    obtain ⟨messages, hd | hd | ⟨decoded, position, -, hd⟩⟩ :=
      loadState_cases r.medium r.ignoreWarnings (restoreMode r.tag d.config) d
    · exact congrArg (·.undo) hd
    · exact congrArg (·.undo) hd
    · exact (congrArg (·.undo) hd).trans (undo_applyState decoded position _)

/-- Only a request with the tag of the capture for undo replaces what was captured. -/
theorem undo_perform {r : Request} (h : r.tag ≠ some .undo) (d : Deck M H D) :
    (d.perform r).2.undo = d.undo := by
  have hexecuted := undo_execute r d
  refine Eq.trans ?_ hexecuted
  exact deliver_cases (·.undo = (d.execute r).2.undo) (d.execute r).1 (d.execute r).2 (fun _ => rfl)
    (fun ht => absurd ht h) (fun _ state => undo_keepCheckpoint state _)
    (fun _ succeeded => undo_settleStart succeeded _) (fun _ => undo_checkSeek _)
    (fun _ => undo_failRollback _)

theorem undo_performAll {rs : List Request} (h : ∀ r ∈ rs, r.tag ≠ some .undo) (d : Deck M H D) :
    (d.performAll rs).2.undo = d.undo := by
  induction rs generalizing d with
  | nil => rfl
  | cons r rs ih =>
    have hrest := ih (fun r hr => h r (.tail _ hr)) (d.perform r).2
    exact hrest.trans (undo_perform (h r (.head _)) d)

/-- The capture for undo is kept, if the machine can be saved. -/
theorem undo_perform_capture (d : Deck M H D) :
    (d.perform (.capture .undo)).2.undo =
      match encode d.snapshot with
      | .error _ => d.undo
      | .ok encoded => some encoded.bytes := by
  rw [perform_save_eq rfl, saveState_eq]
  cases encode d.snapshot with
  | error e => rfl
  | ok encoded => cases encoded.transferEnded <;> rfl

/-! ## Drains -/

omit [Core M] [Storage D] [Frontend H] in
theorem launched_enqueue (r : Request) (d : Deck M H D) :
    (d.enqueue r).2.queue.launched = d.queue.launched := by
  cases hl : d.queue.launched with
  | false => rw [enqueue_of_not_launched hl, hl]
  | true => rw [enqueue_of_launched hl, hl]

omit [Core M] [Storage D] in
theorem launched_deliver (o : Outcome) (d : Deck M H D) :
    (d.deliver o).2.queue.launched = d.queue.launched := by
  refine deliver_cases (·.queue.launched = d.queue.launched) o d (fun _ => rfl) (fun _ _ => rfl)
    (fun _ state => congrArg (·.launched) (queue_keepCheckpoint state d)) (fun _ succeeded => ?_)
    (fun _ => congrArg (·.launched) (queue_finishRollback d))
    (fun _ => congrArg (·.launched) (queue_failRollback d))
  unfold settleStart
  split
  · rfl
  · split
    · exact launched_enqueue _ _
    · rfl

/-- A drain changes no setting, and the machine runs on. -/
theorem settings_drain (d : Deck M H D) :
    d.drain.2.config = d.config ∧ d.drain.2.queue.launched = d.queue.launched := by
  refine (passes_drain d).keeps
    (fun _ e => e.config = d.config ∧ e.queue.launched = d.queue.launched)
    (fun e h => h) (fun r rest e ⟨hc, hl⟩ => ⟨(config_perform_any r e).trans hc, ?_⟩) ⟨rfl, rfl⟩
  have hexecuted : (e.execute r).2.queue.launched = e.queue.launched :=
    congrArg (·.launched) (queue_execute r e)
  exact (launched_deliver (e.execute r).1 (e.execute r).2).trans (hexecuted.trans hl)

theorem undo_drain_of_captures (h : d.tape.OnlyCaptures) : d.drain.2.undo = d.undo := by
  rw [drain_of_captures h]
  refine undo_performAll (fun r hr => ?_) { d with queue := d.queue.clear }
  rw [h r hr]
  nofun

/-- **A drain that loads captures the machine as it was.** The capture comes in front of all that is
carried out, and is kept if the machine can be saved; of what follows, only a request with the tag
of the capture could replace it. -/
theorem undo_drain (hundo : d.config.undoOnLoad = true) (hload : hasLoad d.queue.pending = true)
    (htags : ∀ r ∈ d.queue.pending, r.tag ≠ some .undo) :
    d.drain.2.undo =
      match encode d.snapshot with
      | .error _ => d.undo
      | .ok encoded => some encoded.bytes := by
  let cleared : Deck M H D := { d with queue := d.queue.clear }
  have hp : d.queue.pending ≠ [] := by
    intro hp
    rw [hp] at hload
    cases hload
  have hbatch : d.runBatch.2 = ((cleared.perform (.capture .undo)).2.performAll
      (simplify (simplify d.queue.pending))).2 := by
    rw [runBatch, hundo, prepare_of_hasLoad hload]
    rfl
  have hrest : d.runBatch.2.undo = (cleared.perform (.capture .undo)).2.undo := by
    rw [hbatch]
    refine undo_performAll (fun r hr => htags r ?_) _
    exact (simplify_sublist _).mem ((simplify_sublist _).mem hr)
  rw [drain, if_neg hp]
  change d.runBatch.2.drain.2.undo = _
  rw [undo_drain_of_captures d.onlyCaptures_runBatch, hrest]
  exact undo_perform_capture cleared

/-! ## A single load -/

/-- A drain of one load carries it out, perhaps behind a capture for undo. -/
theorem drain_of_load {r : Request} (hr : r.isLoad = true) (ht : r.tag ≠ some .movieStart)
    (hp : d.queue.pending = [r]) :
    ∃ d₁ : Deck M H D, d₁.config = d.config ∧ d.drain.2 = (d₁.perform r).2 := by
  let cleared : Deck M H D := { d with queue := d.queue.clear }
  have hpending : d.runBatch.2.queue.pending = [] := by
    obtain ⟨k, hk, hpending⟩ := pending_runBatch d
    have hnone : [r].countP isMovieStart = 0 := by simp [isMovieStart, ht]
    rw [hp, hnone] at hk
    obtain rfl := Nat.le_zero.1 hk
    exact hpending
  have hbatch := runBatch_of_load hr hp
  rw [simplify_nil, simplify_nil] at hbatch
  rw [drain_eq_runBatch (by rw [hp]; exact List.cons_ne_nil _ _) hpending]
  split at hbatch
  · exact ⟨_, config_perform_any (.capture .undo) cleared, hbatch⟩
  · exact ⟨cleared, rfl, hbatch⟩

theorem loadState_memory_of_quiet {ignoreWarnings : Bool}
    (h : ignoreWarnings = true ∨ d.config.silent = true) {state : ByteArray} {decoded : Decoded}
    (hdecode : decode state = .ok decoded) (ha : decoded.snapshot.romHash.IsAscii)
    (mode : Option Movie.RestoreMode) :
    d.loadState (.memory state) ignoreWarnings mode = (.ok state, (d.applyState decoded
      (d.movie.admitted decoded.snapshot.movie mode)).settleEntry) := by
  rw [loadState_of_quiet h, fetchState_memory hdecode ha]
  simp only [hdecode]

/-- A drain of the load of a state, on a deck that is silent, has the machine take it over. -/
theorem machine_drain_of_load (hsilent : d.config.silent = true) {state : ByteArray}
    {decoded : Decoded} (hdecode : decode state = .ok decoded)
    (ha : decoded.snapshot.romHash.IsAscii)
    (hp : d.queue.pending = [{ job := .load, medium := .memory state }]) :
    ∃ m legacy, d.drain.2.machine = Core.noteEntry legacy (decoded.resume m) := by
  have ht : (⟨.load, .memory state, false, none⟩ : Request).tag ≠ some .movieStart := nofun
  obtain ⟨d₁, hc, hd⟩ := drain_of_load rfl ht hp
  let mode := restoreMode none d₁.config
  let loaded := d₁.applyState decoded (d₁.movie.admitted decoded.snapshot.movie mode)
  have hloaded : d₁.loadState (.memory state) false mode = (.ok state, loaded.settleEntry) :=
    loadState_memory_of_quiet (.inr (hc ▸ hsilent)) hdecode ha mode
  have hmachine : d.drain.2.machine = loaded.settleEntry.machine := by
    rw [hd, perform_load_eq rfl, hloaded]
    rfl
  have hresumed : loaded.machine = decoded.resume d₁.machine := machine_applyState _ _ d₁
  refine ⟨d₁.machine, Core.programCounter loaded.machine == legacyEntry, ?_⟩
  rw [hmachine, ← hresumed]
  rfl

/-- A load that claims the tag of the capture for undo leaves its own state there. -/
theorem undo_drain_of_tagged (hsilent : d.config.silent = true) {state : ByteArray}
    {decoded : Decoded} (hdecode : decode state = .ok decoded)
    (ha : decoded.snapshot.romHash.IsAscii)
    (hp : d.queue.pending = [{ job := .load, medium := .memory state, tag := some .undo }]) :
    d.drain.2.undo = some state := by
  have ht : (⟨.load, .memory state, false, some .undo⟩ : Request).tag ≠ some .movieStart := nofun
  obtain ⟨d₁, hc, hd⟩ := drain_of_load rfl ht hp
  have hquiet : false = true ∨ d₁.config.silent = true := .inr (hc ▸ hsilent)
  have hloaded := loadState_memory_of_quiet hquiet hdecode ha (restoreMode (some .undo) d₁.config)
  rw [hd, perform_load_eq rfl, hloaded]
  rfl

/-! ## Undoing a drain -/

omit [Frontend H] [Storage D] [Core M] in
theorem undoLoad_eq {state : ByteArray} (hu : d.undo = some state)
    (hl : d.queue.launched = true) :
    d.undoLoad = (.ok (), { d with
      queue.pending := { job := .load, medium := .memory state } :: d.queue.pending }) := by
  have hasked : d.undoLoad = d.enqueue { job := .load, medium := .memory state } := by
    unfold undoLoad
    rw [hu]
  rw [hasked, enqueue_of_launched hl]

/-- After a drain, undoing has a silent deck load what was captured. -/
theorem machine_undoLoad_of_undo (hl : d.queue.launched = true)
    (hsilent : d.config.silent = true) {state : ByteArray} (hu : d.drain.2.undo = some state)
    {decoded : Decoded} (hdecode : decode state = .ok decoded)
    (ha : decoded.snapshot.romHash.IsAscii) :
    d.drain.2.undoLoad.1 = .ok () ∧ ∃ m legacy,
      d.drain.2.undoLoad.2.drain.2.machine = Core.noteEntry legacy (decoded.resume m) := by
  obtain ⟨hc, hl'⟩ := settings_drain d
  have hasked := undoLoad_eq hu (hl'.trans hl)
  refine ⟨congrArg Prod.fst hasked, machine_drain_of_load ?_ hdecode ha ?_⟩
  · rw [hasked]
    exact (congrArg (·.silent) hc).trans hsilent
  · rw [hasked]
    exact congrArg (_ :: ·) (pending_drain d)

/-- Undoing a load that claims the tag of the capture for undo loads its state again. -/
theorem capture_undoLoad_of_tagged (faithful : Core.Faithful M Snapshot.WellFormed)
    (hl : d.queue.launched = true) (hsilent : d.config.silent = true) {state : ByteArray}
    {decoded : Decoded} (hdecode : decode state = .ok decoded)
    (ha : decoded.snapshot.romHash.IsAscii) (hs : decoded.snapshot.WellFormed)
    (hp : d.queue.pending = [{ job := .load, medium := .memory state, tag := some .undo }]) :
    d.drain.2.undoLoad.1 = .ok () ∧
      (Core.capture d.drain.2.undoLoad.2.drain.2.machine).bare = decoded.snapshot.bare := by
  have hu := undo_drain_of_tagged hsilent hdecode ha hp
  obtain ⟨hok, m, legacy, hmachine⟩ := machine_undoLoad_of_undo hl hsilent hu hdecode ha
  refine ⟨hok, ?_⟩
  rw [hmachine, faithful.capture_noteEntry, faithful.capture_resume hs]

/-- **Undoing a drain that loads restores the machine.** The machine runs, nobody is asked, and some
of what is pending loads, whether it will succeed or not; whatever else is pending, nothing claims
the tag of the capture for undo. If the machine as it is saved at first can be read again, then
after the drain undoing is accepted, and after another drain the machine is what it was at first,
with its transfer ended if one was under way. -/
theorem machine_undoLoad (faithful : Core.Faithful M Snapshot.WellFormed)
    (hl : d.queue.launched = true) (hsilent : d.config.silent = true)
    (hundo : d.config.undoOnLoad = true) (hload : hasLoad d.queue.pending = true)
    (htags : ∀ r ∈ d.queue.pending, r.tag ≠ some .undo) (hs : d.snapshot.WellFormed)
    (hfits : (finishTransfer d.snapshot).1.interrupts.events.length ≤ maxEvents)
    (ha : d.snapshot.romHash.IsAscii) :
    let undone := d.drain.2.undoLoad
    undone.1 = .ok () ∧ (Core.capture undone.2.drain.2.machine).bare =
      (finishTransfer (Core.capture d.machine)).1.bare := by
  intro undone
  obtain ⟨state, hencode, hdecode⟩ := exists_encode_decode hs hfits
  have hu : d.drain.2.undo = some state := by rw [undo_drain hundo hload htags, hencode]
  have ha' : (finishTransfer d.snapshot).1.romHash.IsAscii := romHash_finishTransfer d.snapshot ▸ ha
  obtain ⟨hok, m, legacy, hmachine⟩ := machine_undoLoad_of_undo hl hsilent hu hdecode ha'
  have hbare : (finishTransfer d.snapshot).1.bare =
      (finishTransfer (Core.capture d.machine)).1.bare := by
    have hsame : d.snapshot.bare = (Core.capture d.machine).bare := rfl
    have hf := finishTransfer_bare d.snapshot
    rw [hsame, finishTransfer_bare] at hf
    exact (congrArg Prod.fst hf).symm
  refine ⟨hok, ?_⟩
  rw [show undone.2.drain.2.machine = _ from hmachine, faithful.capture_noteEntry,
    faithful.capture_resume (finishTransfer_wellFormed hs)]
  exact hbare

/-- A silent deck, whose machine waits for a transfer. -/
def silenced (pending : List Request) : Deck Accumulator Journal Storage.Tree :=
  { cutOff with
    config.silent := true
    queue := ⟨true, pending⟩
    movie := {}
    machine := { cutOff.machine with state := waiting } }

theorem wellFormed_silenced (pending : List Request) : (silenced pending).snapshot.WellFormed :=
  { waiting_wellFormed with
    movie := by rintro _ ⟨⟩
    screenshot := by rintro _ ⟨⟩ }

theorem machine_undoLoad_silenced :
    ∃ state, decode state = .ok ⟨ahead, false⟩ ∧
      let d := silenced [{ job := .load, medium := .memory state }, .capture (.caller 1)]
      d.drain.2.undoLoad.1 = .ok () ∧
        (Core.capture d.drain.2.undoLoad.2.drain.2.machine).bare =
          (finishTransfer (Core.capture d.machine)).1.bare := by
  refine ⟨_, decode_ahead, ?_⟩
  exact machine_undoLoad (Accumulator.faithful _) rfl rfl rfl rfl
    (by simp [silenced, Request.capture]) (wellFormed_silenced _) (by decide) isAscii_cutOff

/-- A load with the tag of the capture for undo is not undone: what is loaded again is its own
state. -/
theorem machine_undoLoad_ne_of_tagged :
    ∃ state, decode state = .ok ⟨ahead, false⟩ ∧
      let d := silenced [{ job := .load, medium := .memory state, tag := some .undo }]
      Core.Faithful Accumulator Snapshot.WellFormed ∧ d.queue.launched = true ∧
        d.config.silent = true ∧ d.config.undoOnLoad = true ∧ hasLoad d.queue.pending = true ∧
        d.snapshot.WellFormed ∧
        (finishTransfer d.snapshot).1.interrupts.events.length ≤ maxEvents ∧
        d.snapshot.romHash.IsAscii ∧ d.drain.2.undoLoad.1 = .ok () ∧
        (Core.capture d.drain.2.undoLoad.2.drain.2.machine).bare ≠
          (finishTransfer (Core.capture d.machine)).1.bare := by
  obtain ⟨hok, hcapture⟩ := capture_undoLoad_of_tagged (d := silenced
    [{ job := .load, medium := .memory (stateBytes ahead false), tag := some .undo }])
    (Accumulator.faithful _) rfl rfl decode_ahead isAscii_cutOff savable_ahead.toWellFormed rfl
  refine ⟨_, decode_ahead, Accumulator.faithful _, rfl, rfl, rfl, rfl, wellFormed_silenced _,
    by decide, isAscii_cutOff, hok, ?_⟩
  rw [hcapture]
  exact fun h => absurd (congrArg (·.cpu.gpr[frameRegister]) h) (by decide)

end Deck

end Rewind
