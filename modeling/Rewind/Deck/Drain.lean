import Rewind.Deck.Batch

/-!
Draining the queue. Only the start of a movie queues anything while a batch runs, and what it
queues is a checkpoint, which queues nothing. So each batch weighs less than the one before
(`weight_runBatch_lt`), and the drain comes to an end.
-/

namespace Rewind.Deck

open Savestate

variable {M H D : Type}

/-! ## Queuing checkpoints -/

/-- Whether a request is the one that a movie's start waits for. -/
def isMovieStart (r : Request) : Bool := r.tag == some .movieStart

/-- At most `n` checkpoints were queued between one deck and another, and nothing else. -/
def QueuesAtMost (n : Nat) (before after : Deck M H D) : Prop :=
  ∃ k ≤ n, after.queue.pending =
    List.replicate k (.capture .checkpoint) ++ before.queue.pending

theorem QueuesAtMost.of_queue_eq {before after : Deck M H D} (h : after.queue = before.queue)
    (n : Nat) : QueuesAtMost n before after := ⟨0, Nat.zero_le _, by simp [h]⟩

theorem QueuesAtMost.trans {m n : Nat} {a b c : Deck M H D} (hab : QueuesAtMost m a b)
    (hbc : QueuesAtMost n b c) : QueuesAtMost (m + n) a c := by
  obtain ⟨j, hj, hb⟩ := hab
  obtain ⟨k, hk, hc⟩ := hbc
  refine ⟨k + j, by omega, ?_⟩
  rw [hc, hb, ← List.append_assoc, List.replicate_append_replicate]

theorem queuesAtMost_queueCheckpoint (d : Deck M H D) : QueuesAtMost 1 d d.queueCheckpoint := by
  unfold queueCheckpoint enqueue Queue.enqueue
  split
  · exact .of_queue_eq rfl 1
  · next h =>
    split at h
    · cases h
      exact ⟨1, Nat.le_refl _, rfl⟩
    · cases h

/-! ## Operations that leave the queue alone -/

section
variable [Frontend H]

@[simp] theorem queue_notify (e : Event) (d : Deck M H D) : (d.notify e).queue = d.queue := rfl

@[simp] theorem queue_pause (d : Deck M H D) : d.pause.queue = d.queue := rfl

@[simp] theorem queue_notifyTask (before : Movie.Task) (d : Deck M H D) :
    (d.notifyTask before).queue = d.queue := by
  unfold notifyTask; split <;> rfl

@[simp] theorem queue_endWarp (d : Deck M H D) : d.endWarp.queue = d.queue := by
  unfold endWarp; split <;> rfl

@[simp] theorem queue_stopSeek (d : Deck M H D) : d.stopSeek.queue = d.queue := by
  unfold stopSeek; split <;> simp

@[simp] theorem queue_checkSeek (d : Deck M H D) : d.checkSeek.queue = d.queue := by
  unfold checkSeek; split
  · rfl
  · simp only [queue_endWarp]; split <;> simp

@[simp] theorem queue_dropCheckpoints (n : Nat) (d : Deck M H D) :
    (d.dropCheckpoints n).queue = d.queue := by
  unfold dropCheckpoints; simp only; split <;> rfl

@[simp] theorem queue_confirm (message : String) (d : Deck M H D) :
    (d.confirm message).2.queue = d.queue := by
  unfold confirm; split <;> rfl

@[simp] theorem queue_ask (message : String) (d : Deck M H D) :
    (d.ask message).2.queue = d.queue := by
  have h := queue_confirm message d
  unfold ask; split <;> simp_all

@[simp] theorem queue_admitPosition (position : Option Movie.Freeze) (ignoreWarnings : Bool)
    (mode : Option Movie.RestoreMode) (d : Deck M H D) :
    (d.admitPosition position ignoreWarnings mode).2.queue = d.queue := by
  unfold admitPosition
  split
  · rfl
  · split
    · rfl
    · split <;> simp
  · split <;> simp

@[simp] theorem queue_restoreScreen (shot : Option Machine.Screenshot) (d : Deck M H D) :
    (d.restoreScreen shot).queue = d.queue := by
  unfold restoreScreen; split
  · rfl
  · split <;> rfl

@[simp] theorem queue_keepCheckpoint (state : ByteArray) (d : Deck M H D) :
    (d.keepCheckpoint state).queue = d.queue := by
  unfold keepCheckpoint; split <;> rfl

@[simp] theorem queue_finishRollback (d : Deck M H D) : d.finishRollback.queue = d.queue := by
  simp [finishRollback]

@[simp] theorem queue_failRollback (d : Deck M H D) : d.failRollback.queue = d.queue := by
  unfold failRollback; split <;> simp

theorem queuesAtMost_settleStart (succeeded : Bool) (d : Deck M H D) :
    QueuesAtMost 1 d (d.settleStart succeeded) := by
  unfold settleStart
  split
  · exact .of_queue_eq rfl 1
  · split
    · exact queuesAtMost_queueCheckpoint _
    · exact .of_queue_eq rfl 1

theorem queuesAtMost_deliver (o : Outcome) (d : Deck M H D) :
    QueuesAtMost (if o.tag = some .movieStart then 1 else 0) d (d.deliver o).2 := by
  obtain ⟨job, tag, label, result⟩ := o
  by_cases h : tag = some .movieStart
  · subst h
    exact queuesAtMost_settleStart _ _
  · apply QueuesAtMost.of_queue_eq
    unfold deliver
    split <;> simp_all

end

@[simp] theorem queue_writeState [Storage D] (path : Storage.Pathname) (state : ByteArray)
    (d : Deck M H D) : (d.writeState path state).2.queue = d.queue := by
  unfold writeState; simp only; split <;> rfl

@[simp] theorem queue_restorePosition [Frontend H] [Storage D] (freeze : Movie.Freeze)
    (mode : Movie.RestoreMode) (d : Deck M H D) :
    (d.restorePosition freeze mode).queue = d.queue := by
  unfold restorePosition; simp only; split
  · simp
  · simp only [queue_notifyTask]; split <;> simp [finishRerecord, saveMovie]

variable [Core M] [Frontend H] [Storage D]

@[simp] theorem queue_saveState (medium : Medium) (d : Deck M H D) :
    (d.saveState medium).2.queue = d.queue := by
  unfold saveState
  split
  · rfl
  · simp only
    split <;> split <;> split <;> simp_all

@[simp] theorem queue_applyState (decoded : Decoded)
    (position : Option (Movie.Freeze × Movie.RestoreMode)) (d : Deck M H D) :
    (d.applyState decoded position).queue = d.queue := by
  unfold applyState; simp only [queue_notify, queue_restoreScreen]; split <;> simp

@[simp] theorem queue_loadDecoded (data : ByteArray) (ignoreWarnings : Bool)
    (mode : Option Movie.RestoreMode) (d : Deck M H D) :
    (d.loadDecoded data ignoreWarnings mode).2.queue = d.queue := by
  unfold loadDecoded
  split
  · rfl
  · next decoded _ =>
    have h := queue_admitPosition decoded.snapshot.movie ignoreWarnings mode d
    split <;> simp_all

@[simp] theorem queue_loadState (medium : Medium) (ignoreWarnings : Bool)
    (mode : Option Movie.RestoreMode) (d : Deck M H D) :
    (d.loadState medium ignoreWarnings mode).2.queue = d.queue := by
  unfold loadState
  split
  · rfl
  · simp only
    split <;> split <;> simp [settleEntry]

@[simp] theorem queue_execute (r : Request) (d : Deck M H D) :
    (d.execute r).2.queue = d.queue := by
  unfold execute; simp only; split <;> simp

@[simp] theorem tag_execute (r : Request) (d : Deck M H D) : (d.execute r).1.tag = r.tag := rfl

/-! ## What a batch queues -/

theorem queuesAtMost_perform (r : Request) (d : Deck M H D) :
    QueuesAtMost (if r.tag = some .movieStart then 1 else 0) d (d.perform r).2 := by
  have h := queuesAtMost_deliver (d.execute r).1 (d.execute r).2
  obtain ⟨k, hk, h⟩ := h
  exact ⟨k, hk, by simpa [perform] using h⟩

theorem queuesAtMost_performAll (rs : List Request) (d : Deck M H D) :
    QueuesAtMost (rs.countP isMovieStart) d (performAll rs d).2 := by
  induction rs generalizing d with
  | nil => exact .of_queue_eq rfl _
  | cons r rs ih =>
    have h := (queuesAtMost_perform r d).trans (ih (d.perform r).2)
    simpa [performAll, List.countP_cons, isMovieStart, Nat.add_comm] using h

/-- A capture for undo is the start of no movie. -/
theorem countP_prepare_le (rs : List Request) (undoOnLoad : Bool) :
    (prepare rs undoOnLoad).countP isMovieStart ≤ rs.countP isMovieStart := by
  have h := (simplify_sublist rs).countP_le (p := isMovieStart)
  refine Nat.le_trans (simplify_sublist _).countP_le (Nat.le_trans ?_ h)
  split
  · unfold withUndo
    split
    · simp [isMovieStart, Request.capture]
    · exact Nat.le_refl _
  · exact Nat.le_refl _

/-- What a batch leaves pending are checkpoints, at most one for each start of a movie. -/
theorem pending_runBatch (d : Deck M H D) : ∃ k ≤ d.queue.pending.countP isMovieStart,
    d.runBatch.2.queue.pending = List.replicate k (.capture .checkpoint) := by
  obtain ⟨k, hk, hp⟩ := queuesAtMost_performAll
    (prepare d.queue.pending d.config.undoOnLoad) { d with queue := d.queue.clear }
  exact ⟨k, Nat.le_trans hk (countP_prepare_le _ _), hp.trans (List.append_nil _)⟩

/-- Bounds how many requests are carried out before the queue is empty, those to come included. -/
def weight (rs : List Request) : Nat := rs.length + rs.countP isMovieStart

theorem countP_replicate_checkpoint (k : Nat) :
    (List.replicate k (Request.capture .checkpoint)).countP isMovieStart = 0 := by
  simp [List.countP_replicate, isMovieStart, Request.capture]

theorem weight_runBatch_lt {d : Deck M H D} (h : d.queue.pending ≠ []) :
    weight d.runBatch.2.queue.pending < weight d.queue.pending := by
  obtain ⟨k, hk, hp⟩ := pending_runBatch d
  have hl := List.length_pos_iff.2 h
  rw [hp]
  simp [weight, countP_replicate_checkpoint]
  omega

/-- Carries out batch after batch until nothing is pending, and gives the outcomes for callers. -/
def drain (d : Deck M H D) : List Outcome × Deck M H D :=
  if d.queue.pending = [] then ([], d)
  else
    let (outcomes, rest) := drain d.runBatch.2
    (d.runBatch.1 ++ outcomes, rest)
termination_by weight d.queue.pending
decreasing_by exact weight_runBatch_lt (by assumption)

end Rewind.Deck
