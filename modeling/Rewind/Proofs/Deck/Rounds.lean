import Mathlib.Data.List.Forall2
import Rewind.Proofs.Deck.Captures
import Rewind.Proofs.Deck.PendingLoads

/-!
Rounds: frames in which any controllers are polled, any number of times. A recording takes what is
held on the controllers that it knows and lets the others through; playback hands the same samples
back. Main statements: what a recorder and a player do in one poll (`poll_records`, `poll_plays`),
and what becomes of a recording over any number of rounds (`rounds_records`).
-/

namespace Rewind

open Savestate

/-- A controller that is polled, and what is held on it. -/
structure Poll where
  index : Nat
  live : Sample
deriving DecidableEq

namespace Poll

/-- Whether the controller is one of those that are plugged in. -/
def reaches (controllers : UInt32) (p : Poll) : Bool :=
  decide (p.index < 4) && controllers &&& Controller.present p.index != 0

/-- What comes of a poll: something is done with what is held, or it goes through. -/
def answer (done : Movie.PollOutcome) (controllers : UInt32) (p : Poll) :
    Movie.PollOutcome × Sample :=
  (if p.reaches controllers then done else .passthrough, p.live)

/-- The samples that polls add to a recording. -/
def heard (controllers : UInt32) (polls : List Poll) : List Sample :=
  (polls.filter (·.reaches controllers)).map (·.live)

/-- Another poll of the same controller, which may hold anything if it is plugged in. -/
def Again (controllers : UInt32) (p p' : Poll) : Prop :=
  p'.index = p.index ∧ (p.reaches controllers = false → p'.live = p.live)

instance (controllers : UInt32) (p p' : Poll) : Decidable (p.Again controllers p') :=
  inferInstanceAs (Decidable (_ ∧ (_ → _)))

theorem heard_cons (controllers : UInt32) (p : Poll) (polls : List Poll) :
    heard controllers (p :: polls) =
      (if p.reaches controllers then [p.live] else []) ++ heard controllers polls := by
  rw [heard, List.filter_cons]
  split <;> rfl

theorem heard_append (controllers : UInt32) (polls more : List Poll) :
    heard controllers (polls ++ more) = heard controllers polls ++ heard controllers more := by
  rw [heard, List.filter_append, List.map_append]
  rfl

end Poll

namespace Deck

variable {M H D : Type} [Core M] [Frontend H] [Storage D]

/-- Polls one after the other: what each did, and what the machine saw. -/
def pollAll : List Poll → Deck M H D → List (Movie.PollOutcome × Sample) × Deck M H D
  | [], d => ([], d)
  | p :: polls, d =>
    let (answer, d) := d.poll p.index p.live
    let (answers, d) := pollAll polls d
    (answer :: answers, d)

/-- One round: what is pending is carried out, controllers are polled, the machine runs on what it
saw, and a vertical interrupt passes. -/
def round (step : M → List Sample → M) (polls : List Poll) (d : Deck M H D) :
    List (Movie.PollOutcome × Sample) × Deck M H D :=
  let (answers, d) := d.drain.2.pollAll polls
  (answers, { d with machine := step d.machine (answers.map Prod.snd) }.vi)

/-- One round after the other: the answers in each, and the machine after it. -/
def rounds (step : M → List Sample → M) : List (List Poll) → Deck M H D →
    List (List (Movie.PollOutcome × Sample) × M) × Deck M H D
  | [], d => ([], d)
  | polls :: frames, d =>
    let (answers, d) := d.round step polls
    let (results, d') := rounds step frames d
    ((answers, d.machine) :: results, d')

end Deck

/-! ## Recorders and players -/

namespace Movie.Log

/-- The movie goes on with samples added at its end; of its header only counts change. -/
structure Continues (log : Log) (added : List Sample) (log' : Log) : Prop where
  path : log'.path = log.path
  header : ∃ lengthVis lengthSamples, log'.header = { log.header with lengthVis, lengthSamples }
  inputs : log'.inputs.toList = log.inputs.toList ++ added

theorem Continues.refl (log : Log) : log.Continues [] log :=
  ⟨rfl, ⟨_, _, rfl⟩, (List.append_nil _).symm⟩

theorem Continues.trans {a b c : Log} {added more : List Sample} (h : a.Continues added b)
    (h' : b.Continues more c) : a.Continues (added ++ more) c := by
  obtain ⟨lengthVis, lengthSamples, hb⟩ := h.header
  obtain ⟨lengthVis', lengthSamples', hc⟩ := h'.header
  refine ⟨h'.path.trans h.path, ⟨lengthVis', lengthSamples', ?_⟩, ?_⟩
  · rw [hc, hb]
  · rw [h'.inputs, h.inputs, List.append_assoc]

theorem Continues.controllerFlags {log log' : Log} {added : List Sample}
    (h : log.Continues added log') : log'.header.controllerFlags = log.header.controllerFlags := by
  obtain ⟨lengthVis, lengthSamples, he⟩ := h.header
  rw [he]

theorem continues_vi (log : Log) : log.Continues [] log.vi := by
  obtain ⟨currentVi, lengthVis, h⟩ := log.vi_eq
  rw [h]
  exact ⟨rfl, ⟨_, _, rfl⟩, (List.append_nil _).symm⟩

theorem isUnderway_arrive {log : Log} (h : log.task.isUnderway = true) :
    log.arrive.task.isUnderway = true := by
  obtain ⟨ht, -⟩ | ⟨ht, -⟩ := task_arrive h <;> rw [ht] <;> rfl

theorem isRecording_arrive {log : Log} (h : log.task.isUnderway = true) :
    log.arrive.task.isRecording = log.task.isRecording := by
  obtain ⟨ht, hr⟩ | ⟨ht, hr⟩ := task_arrive h <;> rw [ht, hr] <;> rfl

theorem isActive_of_isUnderway {log : Log} (h : log.task.isUnderway = true) :
    log.isActive = true := by
  cases ht : log.task <;> simp_all [isActive, Task.isUnderway]

end Movie.Log

namespace Tape

variable {M : Type}

/-- The tape with a checkpoint asked for if one belongs where the cursor is. -/
def offer (t : Tape M) : Tape M :=
  if t.checkpoints.isDue t.movie.currentSample then t.ask (.capture .checkpoint) else t

/-- The tape after a poll that handed something over, and left a movie. -/
def handOver (log : Movie.Log) (t : Tape M) : Tape M := (t.withMovie log).offer

/-- A movie runs, or will from the next poll on, and nothing is pending but checkpoints. -/
structure Rolling (controllers : UInt32) (t : Tape M) : Prop where
  isUnderway : t.movie.task.isUnderway = true
  controllers : t.movie.header.controllerFlags = controllers
  launched : t.queue.launched = true
  onlyCaptures : t.OnlyCaptures

/-- A movie is recorded, and its cursor is at its end. -/
structure Records (controllers : UInt32) (t : Tape M) : Prop extends Rolling controllers t where
  isRecording : t.movie.task.isRecording = true
  cursor : t.movie.currentSample = t.movie.inputs.size

/-- A movie is played back. -/
structure Plays (controllers : UInt32) (t : Tape M) : Prop extends Rolling controllers t where
  isRecording : t.movie.task.isRecording = false

variable {controllers : UInt32} {t : Tape M}

theorem offer_eq (t : Tape M) : t.offer = t ∨ t.offer = t.ask (.capture .checkpoint) := by
  unfold offer
  split
  · exact .inr rfl
  · exact .inl rfl

theorem movie_handOver (log : Movie.Log) (t : Tape M) : (t.handOver log).movie = log := by
  obtain h | h := (t.withMovie log).offer_eq <;> rw [handOver, h] <;> rfl

theorem machine_handOver (log : Movie.Log) (t : Tape M) : (t.handOver log).machine = t.machine := by
  obtain h | h := (t.withMovie log).offer_eq <;> rw [handOver, h] <;> rfl

theorem controllerPresent_eq (h : t.movie.header.controllerFlags = controllers) (p : Poll) :
    t.movie.header.controllerPresent p.index = p.reaches controllers := by
  rw [Movie.Header.controllerPresent, h, Poll.reaches]

theorem Rolling.withMovie (h : t.Rolling controllers) {log : Movie.Log}
    (hu : log.task.isUnderway = true) (hc : log.header.controllerFlags = controllers) :
    (t.withMovie log).Rolling controllers := ⟨hu, hc, h.launched, h.onlyCaptures⟩

theorem Rolling.handOver (h : t.Rolling controllers) {log : Movie.Log}
    (hu : log.task.isUnderway = true) (hc : log.header.controllerFlags = controllers) :
    (t.handOver log).Rolling controllers := by
  have hlog := h.withMovie hu hc
  obtain ho | ho := (t.withMovie log).offer_eq
  · exact (congrArg (Rolling controllers) ho).mpr hlog
  · refine (congrArg (Rolling controllers) ho).mpr ⟨hu, hc, h.launched, ?_⟩
    intro r hr
    obtain rfl | hr := List.mem_cons.1 hr
    · rfl
    · exact h.onlyCaptures r hr

/-- The tape of a recorder after a poll. -/
def record (controllers : UInt32) (p : Poll) (t : Tape M) : Tape M :=
  if p.reaches controllers then
    t.handOver { t.movie.replaceInputs (t.movie.inputs.push p.live) with
      task := .recording, currentSample := t.movie.currentSample + 1 }
  else t.withMovie t.movie.arrive

/-- The tape of a player after a poll. -/
def play (controllers : UInt32) (p : Poll) (t : Tape M) : Tape M :=
  if p.reaches controllers then
    t.handOver { t.movie with task := .playback, currentSample := t.movie.currentSample + 1 }
  else t.withMovie t.movie.arrive

theorem machine_record (p : Poll) : (t.record controllers p).machine = t.machine := by
  unfold record
  split
  · exact machine_handOver _ t
  · rfl

theorem Records.record (h : t.Records controllers) (p : Poll) :
    (t.record controllers p).Records controllers ∧
      t.movie.Continues (Poll.heard controllers [p]) (t.record controllers p).movie := by
  have harrive := t.movie.arrive_eq
  unfold Tape.record
  rw [Poll.heard_cons]
  split
  · have hm := movie_handOver { t.movie.replaceInputs (t.movie.inputs.push p.live) with
      task := .recording, currentSample := t.movie.currentSample + 1 } t
    refine ⟨⟨h.handOver rfl h.controllers, ?_, ?_⟩, ?_⟩
    · rw [hm]; rfl
    · rw [hm]
      simp [Movie.Log.replaceInputs, h.cursor]
    · rw [hm]
      exact ⟨rfl, ⟨_, _, rfl⟩, Array.toList_push⟩
  · refine ⟨⟨h.withMovie (Movie.Log.isUnderway_arrive h.isUnderway) ?_, ?_, ?_⟩, ?_⟩
    · rw [harrive]
      exact h.controllers
    · exact (Movie.Log.isRecording_arrive h.isUnderway).trans h.isRecording
    · change t.movie.arrive.currentSample = t.movie.arrive.inputs.size
      rw [harrive]
      exact h.cursor
    · change t.movie.Continues _ t.movie.arrive
      rw [harrive]
      exact ⟨rfl, ⟨_, _, rfl⟩, (List.append_nil _).symm⟩

theorem Plays.play (h : t.Plays controllers) (p : Poll) :
    (t.play controllers p).Plays controllers ∧
      (t.play controllers p).movie.inputs = t.movie.inputs ∧
      (t.play controllers p).movie.currentSample =
        t.movie.currentSample + (Poll.heard controllers [p]).length := by
  have harrive := t.movie.arrive_eq
  unfold Tape.play
  rw [Poll.heard_cons]
  split
  · have hm := movie_handOver { t.movie with
      task := .playback, currentSample := t.movie.currentSample + 1 } t
    refine ⟨⟨h.handOver rfl h.controllers, ?_⟩, ?_, ?_⟩
    · rw [hm]; rfl
    · rw [hm]
    · rw [hm]; rfl
  · refine ⟨⟨h.withMovie (Movie.Log.isUnderway_arrive h.isUnderway) ?_, ?_⟩, ?_, ?_⟩
    · rw [harrive]
      exact h.controllers
    · exact (Movie.Log.isRecording_arrive h.isUnderway).trans h.isRecording
    · change t.movie.arrive.inputs = _
      rw [harrive]
    · change t.movie.arrive.currentSample = _
      rw [harrive]
      rfl

theorem Rolling.captured (h : t.Rolling controllers) (machine : M) (checkpoints : Checkpoints) :
    { t.settled with machine, checkpoints }.Rolling controllers :=
  ⟨h.isUnderway, h.controllers, h.launched, by rintro _ ⟨⟩⟩

/-- The tape after the machine has run a frame and a vertical interrupt has passed. -/
def ran (machine : M) (t : Tape M) : Tape M := (t.withMachine machine).withMovie t.movie.vi

/-- The tape of a recorder without a screen after a round. -/
def recordRound [Core M] (step : M → List Sample → M) (controllers : UInt32) (polls : List Poll)
    (t : Tape M) : Tape M :=
  let t := polls.foldl (fun t p => t.record controllers p) t.drained
  t.ran (step t.machine (polls.map (·.live)))

theorem config_recordRound [Core M] (step : M → List Sample → M) (controllers : UInt32)
    (polls : List Poll) (t : Tape M) :
    (t.recordRound step controllers polls).config = t.config := by
  have hrecord (t : Tape M) (p : Poll) : (t.record controllers p).config = t.config := by
    unfold record handOver
    split
    · obtain h | h := (t.withMovie _).offer_eq <;> rw [h] <;> rfl
    · rfl
  have hpolls (t : Tape M) :
      (polls.foldl (fun t p => t.record controllers p) t).config = t.config := by
    induction polls generalizing t with
    | nil => rfl
    | cons p polls ih => exact (ih _).trans (hrecord t p)
  obtain ⟨machine, checkpoints, hdrained⟩ := t.drained_eq
  exact (hpolls t.drained).trans (congrArg Tape.config hdrained :)

/-- Its machine after each round. -/
def machines [Core M] (step : M → List Sample → M) (controllers : UInt32) :
    List (List Poll) → Tape M → List M
  | [], _ => []
  | polls :: frames, t =>
    let t := t.recordRound step controllers polls
    t.machine :: machines step controllers frames t

theorem Rolling.ran (h : t.Rolling controllers) (machine : M) :
    (t.ran machine).Rolling controllers := by
  obtain ⟨currentVi, lengthVis, hv⟩ := t.movie.vi_eq
  rw [Tape.ran, hv]
  exact ⟨h.isUnderway, h.controllers, h.launched, h.onlyCaptures⟩

theorem Records.ran (h : t.Records controllers) (machine : M) :
    (t.ran machine).Records controllers := by
  obtain ⟨currentVi, lengthVis, hv⟩ := t.movie.vi_eq
  have hm : (t.ran machine).movie = t.movie.vi := rfl
  refine ⟨h.toRolling.ran machine, ?_, ?_⟩
  · rw [hm, hv]
    exact h.isRecording
  · rw [hm, hv]
    exact h.cursor

theorem Plays.ran (h : t.Plays controllers) (machine : M) : (t.ran machine).Plays controllers := by
  obtain ⟨currentVi, lengthVis, hv⟩ := t.movie.vi_eq
  have hm : (t.ran machine).movie = t.movie.vi := rfl
  refine ⟨h.toRolling.ran machine, ?_⟩
  rw [hm, hv]
  exact h.isRecording

end Tape

namespace Deck

variable {M H D : Type} [Frontend H] [Storage D] {controllers : UInt32}

omit [Frontend H] [Storage D] in
theorem offerCheckpoint_of_launched {d : Deck M H D} (h : d.queue.launched = true) :
    d.offerCheckpoint.tape = d.tape.offer ∧ d.offerCheckpoint.disk = d.disk := by
  have hq : d.queueCheckpoint.tape = d.tape.ask (.capture .checkpoint) ∧
      d.queueCheckpoint.disk = d.disk := by
    rw [queueCheckpoint, enqueue_of_launched h]
    exact ⟨rfl, rfl⟩
  rw [offerCheckpoint, Tape.offer]
  change (if d.checkpoints.isDue d.movie.currentSample then d.queueCheckpoint else d).tape =
      (if d.checkpoints.isDue d.movie.currentSample then _ else _) ∧
    (if d.checkpoints.isDue d.movie.currentSample then d.queueCheckpoint else d).disk = d.disk
  cases d.checkpoints.isDue d.movie.currentSample with
  | false => exact ⟨rfl, rfl⟩
  | true => exact hq

omit [Storage D] in
theorem alike_changeMovie (log : Movie.Log) (d : Deck M H D) :
    Alike { d with movie := log } (d.changeMovie log) := alike_notifyTask _ _

theorem poll_handed {d : Deck M H D} (hl : d.queue.launched = true) {index : Nat}
    {live seen : Sample} {outcome : Movie.PollOutcome} {log : Movie.Log}
    (h : d.movie.poll index live = (outcome, seen, log))
    (ho : outcome = .recorded ∨ outcome = .played) :
    (d.poll index live).1 = (outcome, seen) ∧ (d.poll index live).2.tape = d.tape.handOver log ∧
      (d.poll index live).2.disk = d.disk := by
  have hchanged := alike_changeMovie log d
  have hl : (d.changeMovie log).queue.launched = true := by rw [hchanged.queue, hl]
  obtain ⟨htape, hdisk⟩ := offerCheckpoint_of_launched hl
  have hchecked := alike_checkSeek (d.changeMovie log).offerCheckpoint
  rw [poll_of_handed h ho]
  refine ⟨rfl, ?_, ?_⟩
  · rw [hchecked.tape, htape, hchanged.tape]
    rfl
  · rw [hchecked.disk, hdisk, hchanged.disk]

theorem poll_passed {d : Deck M H D} {index : Nat} {live seen : Sample} {log : Movie.Log}
    (h : d.movie.poll index live = (.passthrough, seen, log)) :
    (d.poll index live).1 = (.passthrough, seen) ∧
      (d.poll index live).2.tape = d.tape.withMovie log ∧ (d.poll index live).2.disk = d.disk := by
  have hp : d.poll index live = ((.passthrough, seen), d.changeMovie log) := by
    unfold poll
    rw [h]
    rfl
  have hchanged := alike_changeMovie log d
  rw [hp]
  exact ⟨rfl, hchanged.tape, hchanged.disk⟩

/-- A recorder takes what is held on the controllers that it knows. -/
theorem poll_records {d : Deck M H D} (h : d.tape.Records controllers) (p : Poll) :
    (d.poll p.index p.live).1 = p.answer .recorded controllers ∧
      (d.poll p.index p.live).2.tape = d.tape.record controllers p ∧
      (d.poll p.index p.live).2.disk = d.disk := by
  have hp := Tape.controllerPresent_eq h.controllers p
  rw [Tape.record, Poll.answer]
  cases hr : p.reaches controllers with
  | true => exact poll_handed h.launched (Movie.Log.poll_of_recorder h.isUnderway h.isRecording
      h.cursor (hp.trans hr) p.live) (.inl rfl)
  | false => exact poll_passed (Movie.Log.poll_of_absent (hp.trans hr) p.live)

/-- A player hands over the next sample of its movie instead of what is held. -/
theorem poll_plays {e : Deck M H D} (h : e.tape.Plays controllers) {p p' : Poll}
    (hagain : p.Again controllers p')
    (hnext : p.reaches controllers = true →
      e.movie.inputs[e.movie.currentSample]? = some p.live) :
    (e.poll p'.index p'.live).1 = p.answer .played controllers ∧
      (e.poll p'.index p'.live).2.tape = e.tape.play controllers p := by
  have hp := Tape.controllerPresent_eq h.controllers p
  rw [Tape.play, Poll.answer, hagain.1]
  cases hr : p.reaches controllers with
  | true =>
    obtain ⟨ha, ht, -⟩ := poll_handed h.launched (Movie.Log.poll_of_player h.isUnderway
      h.isRecording (hnext hr) (hp.trans hr) p'.live) (.inr rfl)
    exact ⟨ha, ht⟩
  | false =>
    obtain ⟨ha, ht, -⟩ := poll_passed (Movie.Log.poll_of_absent (hp.trans hr) p'.live)
    exact ⟨ha.trans (by rw [hagain.2 hr]; rfl), ht⟩

/-- A player whose movie has no sample left hands over what is held. -/
theorem poll_ends {e : Deck M H D} (h : e.tape.Plays controllers) {p : Poll}
    (hp : p.reaches controllers = true) (hnone : e.movie.inputs[e.movie.currentSample]? = none) :
    (e.poll p.index p.live).1 = (.ended, p.live) := by
  have hpresent := (Tape.controllerPresent_eq h.controllers p).trans hp
  have hpoll := Movie.Log.poll_of_ended h.isUnderway h.isRecording hnone hpresent p.live
  exact congrArg (fun q => (q.1, q.2.1)) hpoll

/-! ## What becomes of a recording -/

/-- A recording has gone on with some samples, and no file was written meanwhile. -/
structure RecordsOn (controllers : UInt32) (added : List Sample) (d d' : Deck M H D) : Prop where
  records : d'.tape.Records controllers
  movie : d.movie.Continues added d'.movie
  disk : d'.disk = d.disk

omit [Frontend H] [Storage D] in
theorem RecordsOn.trans {a b c : Deck M H D} {added more : List Sample}
    (h : RecordsOn controllers added a b) (h' : RecordsOn controllers more b c) :
    RecordsOn controllers (added ++ more) a c :=
  ⟨h'.records, h.movie.trans h'.movie, h'.disk.trans h.disk⟩

theorem poll_recordsOn {d : Deck M H D} (h : d.tape.Records controllers) (p : Poll) :
    RecordsOn controllers (Poll.heard controllers [p]) d (d.poll p.index p.live).2 := by
  obtain ⟨-, ht, hdisk⟩ := poll_records h p
  obtain ⟨hrecords, hmovie⟩ := h.record p
  have hm : (d.poll p.index p.live).2.movie = (d.tape.record controllers p).movie :=
    congrArg Tape.movie ht
  exact ⟨ht ▸ hrecords, hm ▸ hmovie, hdisk⟩

theorem pollAll_records {d : Deck M H D} (h : d.tape.Records controllers) (polls : List Poll) :
    (d.pollAll polls).1 = polls.map (·.answer .recorded controllers) ∧
      RecordsOn controllers (Poll.heard controllers polls) d (d.pollAll polls).2 := by
  induction polls generalizing d with
  | nil => exact ⟨rfl, h, .refl _, rfl⟩
  | cons p polls ih =>
    have hp := poll_recordsOn h p
    obtain ⟨ha, hps⟩ := ih hp.records
    refine ⟨?_, ?_⟩
    · change (d.poll p.index p.live).1 :: ((d.poll p.index p.live).2.pollAll polls).1 = _
      rw [ha, (poll_records h p).1]
      rfl
    · rw [← List.singleton_append, Poll.heard_append]
      exact hp.trans hps

variable [Core M]

theorem tape_round (step : M → List Sample → M) (polls : List Poll) (d : Deck M H D) :
    (d.round step polls).2.tape = (d.drain.2.pollAll polls).2.tape.ran
      (step (d.drain.2.pollAll polls).2.machine
        ((d.drain.2.pollAll polls).1.map Prod.snd)) := rfl

/-- What a deck does in rounds depends on it only as far as what is pending leaves it. -/
theorem rounds_of_drain_eq {d d' : Deck M H D} (h : d.drain.2 = d'.drain.2)
    (step : M → List Sample → M) {frames : List (List Poll)} (hne : frames ≠ []) :
    d.rounds step frames = d'.rounds step frames := by
  -- Only the first round looks at what is pending at the start.
  cases frames with
  | nil => exact absurd rfl hne
  | cons polls frames =>
    have hround : d.round step polls = d'.round step polls := by rw [round, round, h]
    rw [rounds, rounds, hround]

theorem drain_rolling {d : Deck M H D} (h : d.tape.Rolling controllers) :
    d.drain.2.tape.Rolling controllers ∧ d.drain.2.movie = d.movie ∧ d.drain.2.disk = d.disk := by
  have hcaptured := captured_drain h.onlyCaptures
  obtain ⟨checkpoints, ht⟩ := hcaptured.tape
  have hr := h.captured d.drain.2.machine checkpoints
  exact ⟨ht ▸ hr, congrArg Tape.movie ht, hcaptured.disk⟩

theorem drain_recordsOn {d : Deck M H D} (h : d.tape.Records controllers) :
    RecordsOn controllers [] d d.drain.2 := by
  obtain ⟨hr, hmovie, hdisk⟩ := drain_rolling h.toRolling
  have hm : d.drain.2.tape.movie = d.tape.movie := hmovie
  refine ⟨⟨hr, ?_, ?_⟩, ?_, hdisk⟩
  · rw [hm]
    exact h.isRecording
  · rw [hm]
    exact h.cursor
  · rw [hmovie]
    exact .refl _

theorem round_records {d : Deck M H D} (h : d.tape.Records controllers)
    (step : M → List Sample → M) (polls : List Poll) :
    (d.round step polls).1 = polls.map (·.answer .recorded controllers) ∧
      RecordsOn controllers (Poll.heard controllers polls) d (d.round step polls).2 := by
  have hdrained := drain_recordsOn h
  obtain ⟨ha, hpolls⟩ := pollAll_records hdrained.records polls
  have hran : RecordsOn controllers [] (d.drain.2.pollAll polls).2 (d.round step polls).2 := by
    refine ⟨?_, (d.drain.2.pollAll polls).2.movie.continues_vi, rfl⟩
    rw [tape_round]
    exact hpolls.records.ran _
  have hall := hdrained.trans (hpolls.trans hran)
  rw [List.append_nil] at hall
  exact ⟨ha, hall⟩

/-- **A recording takes every sample that is held on its controllers**, in order, and lets the other
polls through. -/
theorem rounds_records {d : Deck M H D} (h : d.tape.Records controllers)
    (step : M → List Sample → M) (frames : List (List Poll)) :
    (d.rounds step frames).1.map Prod.fst =
        frames.map (·.map (·.answer .recorded controllers)) ∧
      RecordsOn controllers (frames.flatMap (Poll.heard controllers)) d
        (d.rounds step frames).2 := by
  induction frames generalizing d with
  | nil => exact ⟨rfl, h, .refl _, rfl⟩
  | cons polls frames ih =>
    obtain ⟨ha, hround⟩ := round_records h step polls
    obtain ⟨has, hrounds⟩ := ih hround.records
    refine ⟨?_, hround.trans hrounds⟩
    change (d.round step polls).1 :: ((d.round step polls).2.rounds step frames).1.map Prod.fst = _
    rw [ha, has]
    rfl

/-! ## Recorders without a screen -/

omit [Core M] in
theorem tape_pollAll_records {d : Deck M H D} (h : d.tape.Records controllers)
    (polls : List Poll) : (d.pollAll polls).2.tape =
      polls.foldl (fun t p => t.record controllers p) d.tape := by
  induction polls generalizing d with
  | nil => rfl
  | cons p polls ih =>
    obtain ⟨-, ht, -⟩ := poll_records h p
    have hall := ih (poll_recordsOn h p).records
    rw [ht] at hall
    exact hall

theorem tape_round_records {d : Deck M H D} (h : d.tape.Records controllers)
    (hscreen : d.config.stScreenshot = false) (step : M → List Sample → M) (polls : List Poll) :
    (d.round step polls).2.tape = d.tape.recordRound step controllers polls := by
  have hdrained := (drain_recordsOn h).records
  have hactive := Movie.Log.isActive_of_isUnderway h.isUnderway
  obtain ⟨ha, -⟩ := pollAll_records hdrained polls
  have hseen : (d.drain.2.pollAll polls).1.map Prod.snd = polls.map (·.live) := by
    rw [ha, List.map_map]
    rfl
  have ht := tape_pollAll_records hdrained polls
  rw [tape_drain_of_captures h.onlyCaptures hscreen hactive] at ht
  have hm : (d.drain.2.pollAll polls).2.machine = _ := congrArg Tape.machine ht
  rw [tape_round, hseen, hm, ht]
  rfl

/-- What the machine does in rounds of a recording can be told from the tape. -/
theorem machines_rounds {d : Deck M H D} (h : d.tape.Records controllers)
    (hscreen : d.config.stScreenshot = false) (step : M → List Sample → M)
    (frames : List (List Poll)) :
    (d.rounds step frames).1.map Prod.snd = d.tape.machines step controllers frames := by
  induction frames generalizing d with
  | nil => rfl
  | cons polls frames ih =>
    have ht := tape_round_records h hscreen step polls
    have hconfig : (d.round step polls).2.config = d.config :=
      (congrArg Tape.config ht).trans (d.tape.config_recordRound step controllers polls)
    have hscreen' : (d.round step polls).2.config.stScreenshot = false := hconfig ▸ hscreen
    have hall := ih (round_records h step polls).2.records hscreen'
    rw [ht] at hall
    have hm : (d.round step polls).2.machine = _ := congrArg Tape.machine ht
    change (d.round step polls).2.machine ::
      ((d.round step polls).2.rounds step frames).1.map Prod.snd = _
    rw [hall, hm]
    rfl

end Deck

end Rewind
