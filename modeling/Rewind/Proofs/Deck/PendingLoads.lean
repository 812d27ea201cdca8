import Rewind.Proofs.Deck.Frames
import Rewind.Proofs.Deck.QuietLoads

/-!
What is pending outlives what asked for it. Seeks and warps are kept apart from the queue and from
everything that a load looks at, so decks that differ in nothing else (`Alike`) carry out the same.
Main statement: to end a seek takes nothing back of what it asked for, and neither does the end of
a movie (`drain_stopSeek`).
-/

namespace Rewind

open Savestate

namespace Deck

variable {M H D : Type}

/-- Decks that differ at most in their seeks, warps and frontends, the machine kept for undo and the
selected slot. -/
structure Alike (d d' : Deck M H D) : Prop where
  tape : d'.tape = d.tape
  disk : d'.disk = d.disk

namespace Alike

variable {d d' d'' : Deck M H D}

theorem refl (d : Deck M H D) : Alike d d := ⟨rfl, rfl⟩

theorem symm (h : Alike d d') : Alike d' d := ⟨h.tape.symm, h.disk.symm⟩

theorem trans (h : Alike d d') (h' : Alike d' d'') : Alike d d'' :=
  ⟨h'.tape.trans h.tape, h'.disk.trans h.disk⟩

theorem config (h : Alike d d') : d'.config = d.config := congrArg Tape.config h.tape

theorem queue (h : Alike d d') : d'.queue = d.queue := congrArg Tape.queue h.tape

theorem movie (h : Alike d d') : d'.movie = d.movie := congrArg Tape.movie h.tape

theorem checkpoints (h : Alike d d') : d'.checkpoints = d.checkpoints :=
  congrArg Tape.checkpoints h.tape

theorem machine (h : Alike d d') : d'.machine = d.machine := congrArg Tape.machine h.tape

/-- Operations that change nothing that matters give decks that are alike. -/
theorem map {f : Deck M H D → Deck M H D} (hf : ∀ d, Alike d (f d)) (h : Alike d d') :
    Alike (f d) (f d') := (hf d).symm.trans (h.trans (hf d'))

theorem withMachine (h : Alike d d') (machine : M) :
    Alike { d with machine } { d' with machine } := by
  refine ⟨?_, h.disk⟩
  exact congrArg (Tape.withMachine machine) h.tape

theorem withMovie (h : Alike d d') (movie : Movie.Log) :
    Alike { d with movie } { d' with movie } := by
  refine ⟨?_, h.disk⟩
  exact congrArg (Tape.withMovie movie) h.tape

theorem withDisk (h : Alike d d') (disk : D) : Alike { d with disk } { d' with disk } :=
  ⟨h.tape, rfl⟩

theorem enqueue (h : Alike d d') (r : Request) : Alike (d.enqueue r).2 (d'.enqueue r).2 := by
  cases hl : d.queue.launched with
  | false =>
    rw [enqueue_of_not_launched hl, enqueue_of_not_launched (h.queue ▸ hl)]
    exact h
  | true =>
    rw [enqueue_of_launched hl, enqueue_of_launched (h.queue ▸ hl)]
    exact ⟨congrArg (Tape.ask r) h.tape, h.disk⟩

end Alike

/-! ## What does not matter -/

section
variable [Frontend H]

theorem alike_notify (e : Event) (d : Deck M H D) : Alike d (d.notify e) := ⟨rfl, rfl⟩

theorem alike_notifyTask (before : Movie.Task) (d : Deck M H D) :
    Alike d (d.notifyTask before) := by
  unfold notifyTask
  split
  · exact .refl d
  · exact alike_notify _ d

theorem alike_endWarp (d : Deck M H D) : Alike d d.endWarp := by
  unfold endWarp
  split
  · exact ⟨rfl, rfl⟩
  · exact .refl d

theorem alike_stopSeek (d : Deck M H D) : Alike d d.stopSeek := by
  unfold stopSeek
  split
  · have h : Alike d { d with seek := {} } := ⟨rfl, rfl⟩
    exact h.trans (alike_endWarp _)
  · exact .refl d

theorem alike_checkSeek (d : Deck M H D) : Alike d d.checkSeek := by
  unfold checkSeek
  split
  · exact .refl d
  · refine Alike.trans ?_ (alike_endWarp _)
    split <;> exact ⟨rfl, rfl⟩

theorem alike_finishRollback (d : Deck M H D) : Alike d d.finishRollback := by
  have h : Alike d { d with seek := d.seek.rollbackDone } := ⟨rfl, rfl⟩
  exact h.trans (alike_checkSeek _)

theorem alike_failRollback (d : Deck M H D) : Alike d d.failRollback := by
  refine Alike.trans ?_ (alike_stopSeek _)
  split
  · exact alike_notify _ d
  · exact .refl d

theorem disk_dropCheckpoints (sample : Nat) (d : Deck M H D) :
    (d.dropCheckpoints sample).disk = d.disk := by
  unfold dropCheckpoints
  simp only
  split <;> rfl

theorem alike_restoreScreen (shot : Option Machine.Screenshot) (d : Deck M H D) :
    Alike d (d.restoreScreen shot) := by
  unfold restoreScreen
  split
  · exact .refl d
  · split
    · exact ⟨rfl, rfl⟩
    · exact .refl d

end

/-! ## Carrying out requests -/

namespace Alike

variable {d d' : Deck M H D}

section
variable [Frontend H]

theorem dropCheckpoints (h : Alike d d') (sample : Nat) :
    Alike (d.dropCheckpoints sample) (d'.dropCheckpoints sample) := by
  refine ⟨?_, (disk_dropCheckpoints sample d').trans
    (h.disk.trans (disk_dropCheckpoints sample d).symm)⟩
  rw [tape_dropCheckpoints, tape_dropCheckpoints, h.tape]

theorem keepCheckpoint (h : Alike d d') (state : ByteArray) :
    Alike (d.keepCheckpoint state) (d'.keepCheckpoint state) := by
  let kept (t : Tape M) : Tape M :=
    if t.movie.isActive then
      { t with checkpoints := t.checkpoints.insert t.movie.currentSample state }
    else t
  have hkept (d : Deck M H D) :
      (d.keepCheckpoint state).tape = kept d.tape ∧ (d.keepCheckpoint state).disk = d.disk := by
    unfold Deck.keepCheckpoint
    split
    · next ha => exact ⟨(if_pos ha).symm, rfl⟩
    · next ha => exact ⟨(if_neg ha).symm, rfl⟩
  refine ⟨?_, (hkept d').2.trans (h.disk.trans (hkept d).2.symm)⟩
  rw [(hkept d).1, (hkept d').1, h.tape]

theorem settleStart (h : Alike d d') (succeeded : Bool) :
    Alike (d.settleStart succeeded) (d'.settleStart succeeded) := by
  have hdrop : Alike d.dropMovie d'.dropMovie := ⟨congrArg Tape.dropMovie h.tape, h.disk⟩
  unfold Deck.settleStart
  rw [h.movie]
  cases taskAfterStart? d.movie.task with
  | none => exact h
  | some next =>
    cases succeeded with
    | false => exact hdrop
    | true => exact ((h.withMovie { d.movie with task := next }).map (alike_notify _)).enqueue _

theorem deliver (h : Alike d d') (o : Outcome) :
    (d'.deliver o).1 = (d.deliver o).1 ∧ Alike (d.deliver o).2 (d'.deliver o).2 := by
  obtain ⟨job, tag, label, result⟩ := o
  cases tag with
  | none => cases result <;> exact ⟨rfl, h⟩
  | some tag =>
    cases tag with
    | undo => cases result <;> exact ⟨rfl, h.tape, h.disk⟩
    | checkpoint =>
      cases result with
      | error e => exact ⟨rfl, h⟩
      | ok state => exact ⟨rfl, h.keepCheckpoint state⟩
    | movieStart => exact ⟨rfl, h.settleStart _⟩
    | seekRollback =>
      cases result with
      | error e => exact ⟨rfl, h.map alike_failRollback⟩
      | ok state => exact ⟨rfl, h.map alike_finishRollback⟩
    | caller id => cases result <;> exact ⟨rfl, h⟩

end

section
variable [Storage D]

theorem saveMovie (h : Alike d d') : Alike d.saveMovie.2 d'.saveMovie.2 := by
  unfold Deck.saveMovie
  rw [h.movie, h.disk]
  exact (h.withMovie _).withDisk _

theorem writeState (h : Alike d d') (path : Storage.Pathname) (state : ByteArray) :
    (d'.writeState path state).1 = (d.writeState path state).1 ∧
      Alike (d.writeState path state).2 (d'.writeState path state).2 := by
  unfold Deck.writeState
  rw [h.config, h.disk]
  simp only
  split
  · exact ⟨rfl, h.withDisk _⟩
  · exact ⟨rfl, h.withDisk _⟩

variable [Frontend H]

theorem restorePosition (h : Alike d d') (freeze : Movie.Freeze) (mode : Movie.RestoreMode) :
    Alike (d.restorePosition freeze mode) (d'.restorePosition freeze mode) := by
  have hrerecord {d d' : Deck M H D} (h : Alike d d') (n : Nat) :
      Alike (d.finishRerecord n) (d'.finishRerecord n) := by
    have hd : Alike (d.dropCheckpoints (min n d.movie.currentSample)).saveMovie.2
        (d'.dropCheckpoints (min n d'.movie.currentSample)).saveMovie.2 := by
      rw [h.movie]
      exact (h.dropCheckpoints _).saveMovie
    exact (alike_notify _ _).symm.trans (hd.trans (alike_notify _ _))
  unfold Deck.restorePosition
  rw [h.movie]
  simp only
  split
  · exact h.map (alike_notifyTask _)
  · refine Alike.map (alike_notifyTask _) ?_
    split
    · exact hrerecord (h.withMovie _) _
    · exact h.withMovie _

end

variable [Core M]

theorem settleEntry (h : Alike d d') : Alike d.settleEntry d'.settleEntry := by
  unfold Deck.settleEntry
  rw [h.machine]
  exact h.withMachine _

theorem statePath? (h : Alike d d') (medium : Medium) :
    d'.statePath? medium = d.statePath? medium := by
  unfold Deck.statePath?
  rw [h.config, h.machine]

section
variable [Storage D]

theorem fetchState (h : Alike d d') (medium : Medium) :
    d'.fetchState medium = d.fetchState medium := by
  unfold Deck.fetchState fetch
  rw [h.statePath?, h.disk]

variable [Frontend H]

theorem store (h : Alike d d') (medium : Medium) (state : ByteArray) :
    (d'.store medium state).1 = (d.store medium state).1 ∧
      Alike (d.store medium state).2 (d'.store medium state).2 := by
  unfold Deck.store
  rw [h.statePath?]
  cases d.statePath? medium with
  | none => exact ⟨rfl, h.map (alike_notify _)⟩
  | some path =>
    obtain ⟨hw, hd⟩ := h.writeState path state
    simp only
    generalize d.writeState path state = written at hw hd ⊢
    generalize d'.writeState path state = written' at hw hd ⊢
    obtain ⟨result, d⟩ := written
    obtain ⟨result', d'⟩ := written'
    obtain rfl : result' = result := hw
    cases result' with
    | error e => exact ⟨rfl, hd⟩
    | ok => exact ⟨rfl, hd.map (alike_notify _)⟩

theorem saveState (h : Alike d d') (hscreen : d.config.stScreenshot = false) (medium : Medium) :
    (d'.saveState medium).1 = (d.saveState medium).1 ∧
      Alike (d.saveState medium).2 (d'.saveState medium).2 := by
  have hsnap : d'.snapshot = d.snapshot := by
    unfold snapshot
    rw [h.config, hscreen, h.machine, h.movie]
    rfl
  rw [saveState_eq, saveState_eq, hsnap]
  cases encode d.snapshot with
  | error e => exact ⟨rfl, h⟩
  | ok encoded =>
    refine Alike.store ?_ medium encoded.bytes
    split
    · rw [h.machine]
      exact h.withMachine _
    · exact h

theorem applyState (h : Alike d d') (decoded : Decoded)
    (position : Option (Movie.Freeze × Movie.RestoreMode)) :
    Alike (d.applyState decoded position) (d'.applyState decoded position) := by
  unfold Deck.applyState
  rw [h.machine]
  refine Alike.map (alike_notify _) (Alike.map (alike_restoreScreen _) ?_)
  cases position with
  | none => exact h.withMachine _
  | some position => exact (h.withMachine _).restorePosition position.1 position.2

theorem loadState (h : Alike d d') {ignoreWarnings : Bool}
    (hquiet : ignoreWarnings = true ∨ d.config.silent = true) (medium : Medium)
    (mode : Option Movie.RestoreMode) :
    (d'.loadState medium ignoreWarnings mode).1 = (d.loadState medium ignoreWarnings mode).1 ∧
      Alike (d.loadState medium ignoreWarnings mode).2
        (d'.loadState medium ignoreWarnings mode).2 := by
  rw [loadState_of_quiet hquiet, loadState_of_quiet (h.config ▸ hquiet), h.fetchState, h.movie]
  cases d.fetchState medium with
  | error e => exact ⟨rfl, h⟩
  | ok fetched =>
    simp only
    cases decode fetched.1 with
    | error e => exact ⟨rfl, h.settleEntry⟩
    | ok decoded => exact ⟨rfl, (h.applyState decoded _).settleEntry⟩

/-- What a request comes to depends on nothing in which alike decks differ. -/
theorem perform (h : Alike d d') (hscreen : d.config.stScreenshot = false) {r : Request}
    (hr : r.Quiet d.config) :
    (d'.perform r).1 = (d.perform r).1 ∧ Alike (d.perform r).2 (d'.perform r).2 := by
  have hexecute : (d'.execute r).1 = (d.execute r).1 ∧
      Alike (d.execute r).2 (d'.execute r).2 := by
    unfold execute
    rw [h.config]
    cases hjob : r.job with
    | save =>
      obtain ⟨hresult, hd⟩ := h.saveState hscreen r.medium
      exact ⟨congrArg (Outcome.mk _ _ _) hresult, hd⟩
    | load =>
      have hquiet := hr.resolve_left (by rw [hjob]; nofun)
      obtain ⟨hresult, hd⟩ := h.loadState hquiet r.medium (restoreMode r.tag d.config)
      exact ⟨congrArg (Outcome.mk _ _ _) hresult, hd⟩
  have hp (d : Deck M H D) : d.perform r = (d.execute r).2.deliver (d.execute r).1 := rfl
  rw [hp, hp, hexecute.1]
  exact hexecute.2.deliver _

end

end Alike

variable [Core M] [Frontend H] [Storage D]

/-! ## Batches -/

omit [Core M] [Storage D] in
theorem deliver_keeps (o : Outcome) (d : Deck M H D) :
    (d.deliver o).2.config = d.config ∧ (d.deliver o).2.machine = d.machine := by
  have hkeep {d d' : Deck M H D} (h : d'.tape = d.tape) :
      d'.config = d.config ∧ d'.machine = d.machine :=
    ⟨congrArg Tape.config h, congrArg Tape.machine h⟩
  obtain ⟨job, tag, label, result⟩ := o
  cases tag with
  | none => cases result <;> exact ⟨rfl, rfl⟩
  | some tag =>
    cases tag with
    | undo => cases result <;> exact ⟨rfl, rfl⟩
    | checkpoint =>
      cases result with
      | error e => exact ⟨rfl, rfl⟩
      | ok state =>
        change (d.keepCheckpoint state).config = _ ∧ (d.keepCheckpoint state).machine = _
        unfold keepCheckpoint
        split <;> exact ⟨rfl, rfl⟩
    | movieStart =>
      change (d.settleStart result.isOk).config = _ ∧ (d.settleStart result.isOk).machine = _
      unfold settleStart
      split
      · exact ⟨rfl, rfl⟩
      · next next _ =>
        split
        · obtain h | h := tape_queueCheckpoint
            (({ d with movie.task := next } : Deck M H D).notify (.taskChanged next))
          · exact ⟨congrArg Tape.config h, congrArg Tape.machine h⟩
          · exact ⟨congrArg Tape.config h, congrArg Tape.machine h⟩
        · exact ⟨rfl, rfl⟩
    | seekRollback =>
      cases result with
      | error e => exact hkeep (tape_failRollback d)
      | ok state => exact hkeep (tape_finishRollback d)
    | caller id => cases result <;> exact ⟨rfl, rfl⟩

theorem config_perform {d : Deck M H D} {r : Request} (hr : r.Quiet d.config) :
    (d.perform r).2.config = d.config := by
  refine (deliver_keeps (d.execute r).1 (d.execute r).2).1.trans ?_
  unfold execute
  cases hjob : r.job with
  | save =>
    obtain ⟨machine, ht⟩ := tape_saveState r.medium d
    exact congrArg Tape.config ht
  | load => exact config_loadState (hr.resolve_left (by rw [hjob]; nofun)) _ _

namespace Alike

variable {d d' : Deck M H D}

theorem performAll (h : Alike d d') (hscreen : d.config.stScreenshot = false)
    {rs : List Request} (hrs : ∀ r ∈ rs, r.Quiet d.config) :
    (d'.performAll rs).1 = (d.performAll rs).1 ∧
      Alike (d.performAll rs).2 (d'.performAll rs).2 ∧
      (d.performAll rs).2.config = d.config := by
  induction rs generalizing d d' with
  | nil => exact ⟨rfl, h, rfl⟩
  | cons r rs ih =>
    have hr := hrs r (.head _)
    have hconfig := config_perform hr
    obtain ⟨ho, hd⟩ := h.perform hscreen hr
    obtain ⟨hos, hds, hc⟩ := ih hd (hconfig ▸ hscreen) fun r hr => hconfig ▸ hrs r (.tail _ hr)
    refine ⟨?_, hds, hc.trans hconfig⟩
    change (d'.perform r).1.toList ++ ((d'.perform r).2.performAll rs).1 = _
    rw [ho, hos]
    rfl

theorem runBatch (h : Alike d d') (hscreen : d.config.stScreenshot = false)
    (hquiet : ∀ r ∈ d.queue.pending, r.Quiet d.config) :
    d'.runBatch.1 = d.runBatch.1 ∧ Alike d.runBatch.2 d'.runBatch.2 ∧
      d.runBatch.2.config = d.config := by
  have hclear : Alike { d with queue := d.queue.clear } { d' with queue := d.queue.clear } :=
    ⟨congrArg (fun t : Tape M => { t with queue := d.queue.clear }) h.tape, h.disk⟩
  have hprepared : ∀ r ∈ prepare d.queue.pending d.config.undoOnLoad, r.Quiet d.config := by
    intro r hr
    obtain hr | rfl := mem_prepare hr
    · exact hquiet r hr
    · exact .inl rfl
  have hrun : d'.runBatch = ({ d' with queue := d.queue.clear } : Deck M H D).performAll
      (prepare d.queue.pending d.config.undoOnLoad) := by
    rw [← h.queue, ← h.config]
    rfl
  rw [hrun]
  exact hclear.performAll hscreen hprepared

theorem quiet_runBatch {config : Config} {r : Request} (hr : r ∈ d.runBatch.2.queue.pending) :
    r.Quiet config := by
  obtain ⟨k, -, hp⟩ := pending_runBatch d
  rw [hp] at hr
  cases List.eq_of_mem_replicate hr
  exact .inl rfl

/-- What is pending comes to the same on decks that are alike. -/
theorem drain (h : Alike d d') (hscreen : d.config.stScreenshot = false)
    (hquiet : ∀ r ∈ d.queue.pending, r.Quiet d.config) :
    d'.drain.1 = d.drain.1 ∧ Alike d.drain.2 d'.drain.2 := by
  induction d using drain.induct generalizing d' with
  | case1 d hp =>
    rw [Deck.drain.eq_def d, Deck.drain.eq_def d', if_pos hp, if_pos (h.queue ▸ hp)]
    exact ⟨rfl, h⟩
  | case2 d hp _ _ _ ih =>
    -- What a batch leaves pending are checkpoints, which ask nothing either.
    obtain ⟨ho, hd, hc⟩ := h.runBatch hscreen hquiet
    obtain ⟨hos, hds⟩ := ih hd (hc ▸ hscreen) fun r hr => quiet_runBatch hr
    rw [Deck.drain.eq_def d, Deck.drain.eq_def d', if_neg hp, if_neg (h.queue ▸ hp)]
    refine ⟨?_, hds⟩
    change d'.runBatch.1 ++ d'.runBatch.2.drain.1 = d.runBatch.1 ++ d.runBatch.2.drain.1
    rw [ho, hos]

end Alike

/-! ## Ended operations -/

/-- A load that a deck asked itself for: the start of a movie, or the return of a seek. -/
def IsOwnLoad (r : Request) : Prop :=
  r.job = .load ∧ r.ignoreWarnings = true ∧
    (r.tag = some .movieStart ∨ r.tag = some .seekRollback)

/-- A deck's own load brings the machine into the state that it reads, whatever the deck is about
when it is carried out. -/
theorem machine_perform_of_isOwnLoad {r : Request} (hr : IsOwnLoad r) {d : Deck M H D}
    {data : ByteArray} {hash : Wire.Block Machine.romHashSize} {decoded : Decoded}
    (hfetch : d.fetchState r.medium = .ok (data, hash)) (hdecode : decode data = .ok decoded) :
    (d.perform r).2.machine = Core.noteEntry
      (Core.programCounter (decoded.resume d.machine) == legacyEntry)
      (decoded.resume d.machine) := by
  obtain ⟨hjob, hignore, -⟩ := hr
  have hloaded : (d.execute r).2 = (d.applyState decoded (d.movie.admitted decoded.snapshot.movie
      (restoreMode r.tag d.config))).settleEntry := by
    rw [execute_load_eq hjob, loadState_of_quiet (.inl hignore), hfetch]
    simp only [hdecode]
  refine (deliver_keeps (d.execute r).1 (d.execute r).2).2.trans ?_
  rw [hloaded, settleEntry]
  simp only [machine_applyState]

omit [Core M] in
theorem queue_stopMovie (d : Deck M H D) : d.stopMovie.2.queue = d.queue := by
  have hs (d : Deck M H D) : d.saveMovie.2.queue = d.queue := rfl
  unfold stopMovie
  simp only
  split
  · exact queue_stopSeek d
  · refine Eq.trans ?_ (queue_stopSeek d)
    split
    · exact hs d.stopSeek
    · rfl

/-- **An ended operation still acts.** Ending a seek has no effect on what is pending: what is
carried out afterwards gives the same outcomes and leaves the same movie, checkpoints, machine and
files as if the seek went on. Neither has the end of a movie: its start, or the return of its seek,
stays pending, and whenever a load of these is carried out, it brings the machine into its state. -/
theorem drain_stopSeek {d : Deck M H D} (hscreen : d.config.stScreenshot = false)
    (hquiet : ∀ r ∈ d.queue.pending, r.Quiet d.config) :
    (d.stopSeek.drain.1 = d.drain.1 ∧ Alike d.drain.2 d.stopSeek.drain.2) ∧
      d.stopMovie.2.queue = d.queue ∧
      ∀ r ∈ d.stopMovie.2.queue.pending, IsOwnLoad r →
        ∀ {later : Deck M H D} {data : ByteArray} {hash : Wire.Block Machine.romHashSize}
          {decoded : Decoded},
          later.fetchState r.medium = .ok (data, hash) → decode data = .ok decoded →
          (later.perform r).2.machine = Core.noteEntry
            (Core.programCounter (decoded.resume later.machine) == legacyEntry)
            (decoded.resume later.machine) :=
  ⟨(alike_stopSeek d).drain hscreen hquiet, queue_stopMovie d,
    fun _ _ hr _ _ _ _ hfetch hdecode => machine_perform_of_isOwnLoad hr hfetch hdecode⟩

/-- A seek waits for the return to a checkpoint. -/
def returning : Deck Machine.Accumulator Journal Storage.Tree :=
  { cutOff with
    queue.pending := [rollbackRequest (stateBytes ahead false)]
    seek := ⟨some ⟨1, false, true⟩⟩ }

/-- The seek is ended, and the machine goes to the checkpoint all the same. -/
theorem drain_stopSeek_returning :
    (∀ r ∈ returning.queue.pending, r.Quiet returning.config) ∧
      returning.stopSeek.seek.isSeeking = false ∧
      Alike returning.drain.2 returning.stopSeek.drain.2 ∧
      (returning.stopMovie.2.perform
        (rollbackRequest (stateBytes ahead false))).2.machine.frame = 1 := by
  have hquiet : ∀ r ∈ returning.queue.pending, r.Quiet returning.config := by
    intro r hr
    obtain rfl := List.mem_singleton.1 hr
    exact .inr (.inl rfl)
  obtain ⟨⟨-, halike⟩, hqueue, hown⟩ := drain_stopSeek (d := returning) rfl hquiet
  have hpending :
      rollbackRequest (stateBytes ahead false) ∈ returning.stopMovie.2.queue.pending := by
    rw [hqueue]
    exact .head _
  have hfetch := fetchState_memory decode_ahead isAscii_cutOff returning.stopMovie.2
  have hmachine := hown _ hpending ⟨rfl, rfl, .inr rfl⟩ hfetch decode_ahead
  refine ⟨hquiet, rfl, halike, ?_⟩
  rw [hmachine, Machine.Accumulator.frame, Machine.Accumulator.state_noteEntry]
  rfl

end Deck

end Rewind
