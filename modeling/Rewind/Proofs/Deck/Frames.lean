import Rewind.Deck.Frame
import Rewind.Proofs.Deck.InStep
import Rewind.Proofs.Movie.Polling

/-!
Frames. A frame carries out what is pending, hands over the sample at the cursor or appends the
live one, and lets the machine consume it. Main statement: a frame keeps the machine in step with
the movie, and a recording goes on (`frame_inStep`).
-/

namespace Rewind

open Savestate

namespace Deck

variable {M V H D : Type}

/-! ## Polls -/

theorem tape_queueCheckpoint (d : Deck M H D) :
    d.queueCheckpoint.tape = d.tape ∨ d.queueCheckpoint.tape = d.tape.ask (.capture .checkpoint) :=
  tape_enqueue _ d

/-- The deck with a checkpoint asked for if one belongs where the cursor is. -/
def offerCheckpoint (d : Deck M H D) : Deck M H D :=
  if d.checkpoints.isDue d.movie.currentSample then d.queueCheckpoint else d

theorem tape_offerCheckpoint (d : Deck M H D) :
    d.offerCheckpoint.tape = d.tape ∨
      d.offerCheckpoint.tape = d.tape.ask (.capture .checkpoint) := by
  unfold offerCheckpoint
  split
  · exact tape_queueCheckpoint d
  · exact .inl rfl

variable [Frontend H] [Storage D]

/-- A poll that hands over a sample may ask for a checkpoint, and may end a seek. -/
theorem poll_of_handed {d : Deck M H D} {index : Nat} {live seen : Sample}
    {outcome : Movie.PollOutcome} {log : Movie.Log}
    (h : d.movie.poll index live = (outcome, seen, log))
    (ho : outcome = .recorded ∨ outcome = .played) :
    d.poll index live = ((outcome, seen), (d.changeMovie log).offerCheckpoint.checkSeek) := by
  unfold poll
  rw [h]
  obtain rfl | rfl := ho <;> rfl

theorem tape_poll_of_handed {d : Deck M H D} {index : Nat} {live seen : Sample}
    {outcome : Movie.PollOutcome} {log : Movie.Log}
    (h : d.movie.poll index live = (outcome, seen, log))
    (ho : outcome = .recorded ∨ outcome = .played) :
    (d.poll index live).2.tape = d.tape.withMovie log ∨
      (d.poll index live).2.tape = (d.tape.withMovie log).ask (.capture .checkpoint) := by
  rw [poll_of_handed h ho, tape_checkSeek, ← tape_changeMovie]
  exact tape_offerCheckpoint _

theorem tape_stopMovie_of_playback {d : Deck M H D} (h : d.movie.task = .playback) :
    d.stopMovie.2.tape = d.tape.dropMovie := by
  have ht := tape_stopSeek d
  have hp : d.stopSeek.movie.task = .playback := (congrArg (·.movie.task) ht).trans h
  have hd : d.stopSeek.dropMovie.tape = d.stopSeek.tape.dropMovie := rfl
  unfold stopMovie
  simp only [hp, Movie.Task.isRecording, reduceCtorEq, Bool.false_eq_true, ↓reduceIte]
  rw [tape_notify, hd, ht]

/-- A poll behind the last sample stops playback. -/
theorem tape_poll_of_ended {d : Deck M H D} {live : Sample}
    (h : d.movie.poll 0 live = (.ended, live, { d.movie with task := .playback })) :
    (d.poll 0 live).1 = (.ended, live) ∧ (d.poll 0 live).2.tape = d.tape.dropMovie := by
  have ht := tape_changeMovie { d.movie with task := .playback } d
  have hp : (d.changeMovie { d.movie with task := .playback }).movie.task = .playback :=
    congrArg (·.movie.task) ht
  have hpoll : d.poll 0 live = ((.ended, live),
      (if (d.changeMovie { d.movie with task := .playback }).config.pauseAtLastSample then
        (d.changeMovie { d.movie with task := .playback }).pause
      else d.changeMovie { d.movie with task := .playback }).stopMovie.2) := by
    unfold poll
    rw [h]
    rfl
  rw [hpoll]
  generalize d.changeMovie { d.movie with task := .playback } = d' at ht hp
  have hdrop : d'.tape.dropMovie = d.tape.dropMovie := by rw [ht]; rfl
  refine ⟨rfl, ?_⟩
  split
  · exact (tape_stopMovie_of_playback (d := d'.pause) hp).trans hdrop
  · exact (tape_stopMovie_of_playback hp).trans hdrop

theorem tape_poll_of_idle {d : Deck M H D} (h : d.movie.task = .idle) (live : Sample) :
    (d.poll 0 live).1 = (.passthrough, live) ∧ (d.poll 0 live).2.tape = d.tape := by
  unfold poll
  rw [Movie.Log.poll_of_idle h]
  exact ⟨rfl, tape_notifyTask _ _⟩

/-! ## Frames -/

/-- A frame once everything pending was carried out. -/
def turn (step : M → Sample → M) (live : Sample) (d : Deck M H D) :
    Movie.PollOutcome × Deck M H D :=
  let ((outcome, seen), d) := d.poll 0 live
  (outcome, { d with machine := step d.machine seen }.vi)

theorem tape_turn (step : M → Sample → M) (live : Sample) (d : Deck M H D) :
    (d.turn step live).2.tape = ((d.poll 0 live).2.tape.withMachine
      (step (d.poll 0 live).2.machine (d.poll 0 live).1.2)).withMovie
        (d.poll 0 live).2.movie.vi := rfl

/-- A sample that was handed over is consumed, and a checkpoint may be asked for. -/
theorem tape_turn_of_handed {d : Deck M H D} {live seen : Sample} {outcome : Movie.PollOutcome}
    {log : Movie.Log} (h : d.movie.poll 0 live = (outcome, seen, log))
    (ho : outcome = .recorded ∨ outcome = .played) (step : M → Sample → M) :
    (d.turn step live).1 = outcome ∧
    ((d.turn step live).2.tape = (d.tape.withMovie log.vi).withMachine (step d.machine seen) ∨
      (d.turn step live).2.tape = ((d.tape.withMovie log.vi).withMachine
        (step d.machine seen)).ask (.capture .checkpoint)) := by
  have hp := poll_of_handed h ho
  have ht := tape_poll_of_handed h ho
  have hm : (d.poll 0 live).2.movie = log := ht.elim (congrArg Tape.movie) (congrArg Tape.movie)
  have hmachine : (d.poll 0 live).2.machine = d.machine :=
    ht.elim (congrArg Tape.machine) (congrArg Tape.machine)
  refine ⟨congrArg (·.1.1) hp, ?_⟩
  rw [tape_turn, hm, hmachine, congrArg (·.1.2) hp]
  obtain ht | ht := ht
  · exact .inl (by rw [ht]; rfl)
  · exact .inr (by rw [ht]; rfl)

end Deck

namespace Deck

variable {M V H D : Type} [Core M] [Frontend H] [Storage D] {R : Replayable M V} {origin : M}

theorem isUnderway_of_active {log : Movie.Log} (h : taskAfterStart? log.task = none)
    (ha : log.task ≠ .idle) : log.task.isUnderway = true := by
  cases ht : log.task <;> simp_all [taskAfterStart?, Movie.Task.isUnderway]

theorem isActive_iff {log : Movie.Log} : log.isActive = true ↔ log.task ≠ .idle := by
  simp [Movie.Log.isActive]

/-- The machine consumes the sample that the movie hands over. -/
theorem turn_handed_inStep {d : Deck M H D} (h : d.tape.InStep R origin) {live seen : Sample}
    {outcome : Movie.PollOutcome} {log : Movie.Log}
    (hp : d.movie.poll 0 live = (outcome, seen, log)) (ho : outcome = .recorded ∨ outcome = .played)
    (ha : d.movie.isActive = true) (hc : d.movie.Consumes seen log) :
    (d.turn R.step live).1 = outcome ∧ (d.turn R.step live).2.tape.InStep R origin ∧
      (d.turn R.step live).2.movie = log.vi := by
  obtain ⟨houtcome, ht⟩ := tape_turn_of_handed hp ho R.step
  obtain ⟨currentVi, lengthVis, hvi⟩ := log.vi_eq
  have hstep : ((d.tape.withMovie log.vi).withMachine (R.step d.machine seen)).InStep R origin := by
    rw [hvi]
    refine h.advance ⟨hc.grows.uid, hc.grows.inputs⟩ (fun _ => ha) ?_ (hc.present.trans h.present)
      hc.cursor_le fun hs => ⟨R.sound_step seen hs.sound, ?_⟩
    · exact Movie.Log.noStart_of_isRunning hc.isRunning
    · change _ = R.view (R.replay origin (log.inputs.take log.currentSample))
      rw [hc.take_eq, R.replay_push]
      exact R.view_step seen hs.view_eq
  refine ⟨houtcome, ?_, ht.elim (congrArg Tape.movie) (congrArg Tape.movie)⟩
  obtain ht | ht := ht
  · exact ht ▸ hstep
  · exact ht ▸ hstep.ask (.inl rfl)

theorem turn_ended_inStep {d : Deck M H D} (h : d.tape.InStep R origin) {live : Sample}
    (hp : d.movie.poll 0 live = (.ended, live, { d.movie with task := .playback })) :
    (d.turn R.step live).2.tape.InStep R origin ∧
      (d.turn R.step live).2.movie.isActive = false := by
  have ht := (tape_poll_of_ended hp).2
  have hm : (d.poll 0 live).2.movie = d.movie.stop := congrArg Tape.movie ht
  have hturn : (d.turn R.step live).2.tape = d.tape.dropMovie.withMachine
      (R.step (d.poll 0 live).2.machine (d.poll 0 live).1.2) := by
    rw [tape_turn, hm, ht]; rfl
  have hmovie : (d.turn R.step live).2.movie = d.movie.stop := congrArg Tape.movie hturn
  exact ⟨hturn ▸ h.dropMovie _, by rw [hmovie]; rfl⟩

theorem turn_idle_inStep {d : Deck M H D} (h : d.tape.InStep R origin)
    (hidle : d.movie.task = .idle) (live : Sample) :
    (d.turn R.step live).2.tape.InStep R origin ∧
      (d.turn R.step live).2.movie.isActive = false := by
  have ht := (tape_poll_of_idle hidle live).2
  have hm : (d.poll 0 live).2.movie = d.movie := congrArg Tape.movie ht
  have hvi : d.movie.vi = d.movie := by simp [Movie.Log.vi, hidle, Movie.Task.isRunning]
  have ha : d.movie.isActive = false := by simp [Movie.Log.isActive, hidle]
  have hturn : (d.turn R.step live).2.tape = d.tape.withMachine
      (R.step (d.poll 0 live).2.machine (d.poll 0 live).1.2) := by
    rw [tape_turn, hm, ht, hvi]; rfl
  have hmovie : (d.turn R.step live).2.movie = d.movie := congrArg Tape.movie hturn
  refine ⟨hturn ▸ h.withMachine fun ha' => ?_, hmovie ▸ ha⟩
  exact absurd (ha.symm.trans ha') Bool.false_ne_true

/-- What follows everything pending in a frame keeps the machine in step with the movie. -/
theorem turn_inStep {d : Deck M H D} (h : d.tape.InStep R origin) (live : Sample) :
    (d.turn R.step live).2.tape.InStep R origin ∧
      d.movie.GoesOnTo (Movie.Log.recordedBy (d.turn R.step live).1 live)
        (d.turn R.step live).2.movie := by
  -- A movie that is not recorded may end.
  have hends {added : Array Sample} {log : Movie.Log} (hr : d.movie.task.isRecording = false)
      (ha : log.isActive = false) : d.movie.GoesOnTo added log :=
    ⟨fun ha' => absurd (ha.symm.trans ha') Bool.false_ne_true,
      fun ha' => absurd (ha.symm.trans ha') Bool.false_ne_true,
      fun hr' => absurd (hr.symm.trans hr') Bool.false_ne_true⟩
  by_cases hidle : d.movie.task = .idle
  · obtain ⟨hstep, hended⟩ := turn_idle_inStep h hidle live
    exact ⟨hstep, hends (by rw [hidle]; rfl) hended⟩
  · have ha : d.movie.isActive = true := isActive_iff.2 hidle
    obtain ⟨outcome, seen, log, hp, ho, hc, hi⟩ | ⟨hr, hp⟩ :=
      Movie.Log.poll_cases (isUnderway_of_active h.noStart hidle) h.present h.cursor_le live
    · obtain ⟨houtcome, hstep, hmovie⟩ := turn_handed_inStep h hp ho ha hc
      obtain ⟨currentVi, lengthVis, hvi⟩ := log.vi_eq
      refine ⟨hstep, ?_⟩
      rw [hmovie, hvi, houtcome]
      exact ⟨fun _ => ha, fun _ => hi, fun hr => hc.isRecording.trans hr⟩
    · obtain ⟨hstep, hended⟩ := turn_ended_inStep h hp
      exact ⟨hstep, hends hr hended⟩

theorem frame_inStep {d : Deck M H D} (h : d.tape.InStep R origin) (live : Sample) :
    (d.frame R.step live).2.tape.InStep R origin ∧
      d.movie.GoesOnTo (Movie.Log.recordedBy (d.frame R.step live).1.poll live)
        (d.frame R.step live).2.movie := by
  obtain ⟨h', hs⟩ := drain_inStep h
  obtain ⟨h'', ht⟩ := turn_inStep h' live
  refine ⟨h'', ?_⟩
  have hg := hs.goesOnTo.trans ht
  rwa [Array.empty_append] at hg

end Deck

end Rewind
