import Rewind.Proofs.Deck.Rounds
import Rewind.Proofs.Savestate.Cuts
import Rewind.Proofs.Seek

/-!
Recordings longer than a savestate can count. A movie that is recorded in one take stays with its
machine however long it gets (`frames_oneTake`). But a savestate counts samples in 32 bits, so one
that is made where the count wraps around brings the machine to the start of the movie
(`checkpoint_of_wrapped`).
-/

namespace Rewind

open Machine Savestate

/-! ## Savestates of long movies -/

namespace Savestate

/-- Samples do not announce a screenshot if none of them has the bytes of its tag. -/
theorem putAll_announces_none {samples : Array Sample}
    (h : ∀ s ∈ samples, Sample.layout.bytes s ≠ screenshotTag) :
    let more := Sample.putAll samples ByteArray.empty
    more.size < screenshotTag.size ∨ more.extract 0 screenshotTag.size ≠ screenshotTag := by
  obtain ⟨samples⟩ := samples
  cases samples with
  | nil => exact .inl (by decide)
  | cons s samples =>
    have hmore := Sample.putAll_append #[s] ⟨samples⟩
    rw [List.append_toArray, List.singleton_append] at hmore
    have hfirst := (Sample.layout_readsAs s).size_bytes
    rw [hmore]
    refine .inr ?_
    rw [show screenshotTag.size = (Sample.layout.bytes s).size from hfirst.symm]
    exact fun he => h s (by simp) ((ByteArray.extract_append_eq_left rfl).symm.trans he)

/-- Samples that a movie's count does not cover follow the savestate of what it covers. -/
theorem write_uncounted {s : Snapshot} {f : Movie.Freeze} (hm : s.movie = some f)
    (hscreen : s.screenshot = none) (hl : s.interrupts.events.length ≤ maxEvents) (marked : Bool) :
    write s marked = .ok (stateBytes { s with movie := some f.covered } marked ++
      Sample.putAll f.surplus ByteArray.empty) := by
  have hbytes : machineBytes s marked = machineBytes { s with movie := some f.covered } marked ++
      Sample.putAll f.surplus ByteArray.empty := by
    simp only [machineBytes, hm, movieBytes, ByteArray.append_assoc, f.bytes_covered]
    cases marked <;> rfl
  rw [write_of_length_le hl, hscreen, putScreenshot, hbytes, stateBytes_eq]
  simp only [hscreen, screenshotBytes, ByteArray.append_empty]

end Savestate

/-- A machine is saved with all samples of its movie, and read back with those that are counted. -/
theorem Machine.Accumulator.Sound.survives_uncounted {m : Accumulator} (h : m.Sound)
    {f : Movie.Freeze} (hlt : f.lengthSamples.toNat < f.inputs.size)
    (hquiet : ∀ s ∈ f.surplus, Sample.layout.bytes s ≠ screenshotTag) :
    ∃ bytes, encode (Core.captureAt f m) = .ok ⟨bytes, Core.captureAt f m, false⟩ ∧
      decode bytes = .ok ⟨Core.captureAt f.covered m, false⟩ := by
  have hs := h.savable_captureAt (Movie.Freeze.size_inputs_covered hlt)
  have hw := write_uncounted (s := Core.captureAt f m) rfl rfl hs.length_le false
  refine ⟨_, ?_, decode_extended hs.toWellFormed hs.length_le false
    (.inr (putAll_announces_none hquiet))⟩
  have he := Deck.encode_of_si (s := Core.captureAt f m) hs.has_si
  rw [he, hw]
  rfl

/-! ## One take -/

/-- The movie with what is held recorded at its end. -/
def Movie.Log.recorded (live : Sample) (log : Log) : Log :=
  { log.replaceInputs (log.inputs.push live) with
    task := .recording, currentSample := log.currentSample + 1 }

theorem Poll.reaches_zero (live : Sample) :
    (Poll.mk 0 live).reaches (Controller.present 0) = true := by
  have hplugged : (Controller.present 0 &&& Controller.present 0 != 0) = true := by decide
  exact Bool.and_eq_true_iff.2 ⟨rfl, hplugged⟩

theorem Poll.heard_zero (live : Sample) : heard (Controller.present 0) [⟨0, live⟩] = [live] := by
  rw [heard, List.filter_singleton, reaches_zero]
  rfl

namespace Tape

variable {M V : Type} [Core M] {R : Replayable M V} {origin : M} {t : Tape M}

/-- A movie was recorded from power-on without going back: the machine has consumed all of it, and
the next checkpoint is pending where one is due. -/
structure OneTake (R : Replayable M V) (origin : M) (t : Tape M) : Prop where
  records : t.Records (Controller.present 0)
  sound : R.Sound t.machine
  view_eq : R.view t.machine = R.view (R.replay origin t.movie.inputs)
  interval : t.checkpoints.interval = t.config.seekSavestateInterval.toNat
  maxCount : t.checkpoints.maxCount = t.config.seekSavestateMaxCount.toNat
  behind : ∀ k ∈ t.checkpoints.samples, k < t.movie.inputs.size
  pending : t.queue.pending =
    if t.movie.inputs.size % t.checkpoints.interval = 0 then [.capture .checkpoint] else []

/-- The checkpoints after one was made at the end of the movie, or could not be made. -/
structure Kept (t : Tape M) (checkpoints : Checkpoints) : Prop where
  interval : checkpoints.interval = t.checkpoints.interval
  maxCount : checkpoints.maxCount = t.checkpoints.maxCount
  behind : ∀ k ∈ checkpoints.samples, k ≤ t.movie.inputs.size

/-- A checkpoint of a machine without a transfer under way leaves the machine alone. -/
theorem capture_of_encode {bytes : ByteArray}
    (h : encode t.snapshot = .ok ⟨bytes, t.snapshot, false⟩) :
    t.capture = { t with checkpoints := t.checkpoints.insert t.movie.currentSample bytes } := by
  rw [capture, h]
  rfl

theorem capture_of_si (h : (Core.capture t.machine).interrupts.has Interrupt.si = true) :
    t.capture = t ∨ ∃ state, t.capture =
      { t with checkpoints := t.checkpoints.insert t.movie.currentSample state } := by
  have he := Deck.encode_of_si (s := t.snapshot) h
  cases hw : write t.snapshot false with
  | error e =>
    rw [hw] at he
    exact .inl (by rw [capture, he]; rfl)
  | ok bytes =>
    rw [hw] at he
    exact .inr ⟨bytes, capture_of_encode he⟩

theorem OneTake.drained (h : t.OneTake R origin) :
    ∃ checkpoints, t.drained = { t.settled with checkpoints } ∧ t.Kept checkpoints := by
  have hsame : t.Kept t.checkpoints := ⟨rfl, rfl, fun k hk => Nat.le_of_lt (h.behind k hk)⟩
  unfold Tape.drained
  rw [h.pending]
  split
  · have hsi := R.has_si (R.ready_of_sound h.sound)
    change ∃ checkpoints, t.settled.capture = _ ∧ _
    obtain hc | ⟨state, hc⟩ := capture_of_si (t := t.settled) hsi
    · exact ⟨_, hc, hsame⟩
    · refine ⟨_, hc, rfl, rfl, fun k hk => ?_⟩
      obtain ⟨e, he, rfl⟩ := List.mem_map.1 hk
      obtain rfl | ⟨he, -⟩ := Checkpoints.mem_insert he
      · exact Nat.le_of_eq h.records.cursor
      · exact hsame.behind _ (List.mem_map_of_mem he)
  · exact ⟨_, rfl, hsame⟩

omit [Core M] in
/-- Behind everything that is kept, a checkpoint is due wherever its distance says so. -/
theorem Kept.isDue_iff {checkpoints : Checkpoints} (h : t.Kept checkpoints) :
    checkpoints.isDue (t.movie.inputs.size + 1) = true ↔
      (t.movie.inputs.size + 1) % t.checkpoints.interval = 0 := by
  have hnone : checkpoints.samples.any (· == t.movie.inputs.size + 1) = false := by
    refine List.any_eq_false.2 fun k hk heq => ?_
    have hle := h.behind k hk
    rw [beq_iff_eq.1 heq] at hle
    omega
  rw [Checkpoints.isDue_eq, hnone, h.interval]
  by_cases hi : t.checkpoints.interval = 0
  · simp [hi]
  · simp [hi]

omit [Core M] in
theorem pending_handOver (log : Movie.Log) (t : Tape M) : (t.handOver log).queue.pending =
    if t.checkpoints.isDue log.currentSample = true then .capture .checkpoint :: t.queue.pending
    else t.queue.pending := by
  have hoffer : t.handOver log = if t.checkpoints.isDue log.currentSample = true then
      (t.withMovie log).ask (.capture .checkpoint) else t.withMovie log := rfl
  rw [hoffer]
  split <;> rfl

omit [Core M] in
theorem checkpoints_handOver (log : Movie.Log) (t : Tape M) :
    (t.handOver log).checkpoints = t.checkpoints := by
  obtain h | h := (t.withMovie log).offer_eq <;> rw [handOver, h] <;> rfl

/-- The tape after a frame in which something is held. -/
def taken (R : Replayable M V) (live : Sample) (t : Tape M) : Tape M :=
  t.recordRound (fun m seen => R.step m (seen.headD live)) (Controller.present 0) [⟨0, live⟩]

theorem config_taken (live : Sample) (t : Tape M) : (t.taken R live).config = t.config :=
  t.config_recordRound _ _ _

/-- What a frame does to a tape: the pending checkpoint is made, what is held is recorded, and the
machine consumes it. -/
theorem OneTake.taken_eq (h : t.OneTake R origin) (live : Sample) :
    t.taken R live = (t.drained.handOver (t.movie.recorded live)).ran (R.step t.machine live) := by
  obtain ⟨checkpoints, hdrained, -⟩ := h.drained
  have hrecord : t.drained.record (Controller.present 0) ⟨0, live⟩ =
      t.drained.handOver (t.movie.recorded live) := by
    have hmovie : t.drained.movie = t.movie := (congrArg Tape.movie hdrained :)
    rw [Movie.Log.recorded, ← hmovie]
    exact if_pos (Poll.reaches_zero live)
  have hmachine : t.drained.machine = t.machine := (congrArg Tape.machine hdrained :)
  change (t.drained.record (Controller.present 0) ⟨0, live⟩).ran (R.step
    (t.drained.record (Controller.present 0) ⟨0, live⟩).machine live) = _
  rw [hrecord, machine_handOver, hmachine]

theorem OneTake.movie_taken (h : t.OneTake R origin) (live : Sample) :
    (t.taken R live).movie = (t.movie.recorded live).vi := by
  rw [h.taken_eq]
  exact congrArg Movie.Log.vi (movie_handOver _ _)

theorem OneTake.inputs_taken (h : t.OneTake R origin) (live : Sample) :
    (t.taken R live).movie.inputs = t.movie.inputs.push live := by
  obtain ⟨currentVi, lengthVis, hvi⟩ := (t.movie.recorded live).vi_eq
  rw [h.movie_taken, hvi]
  rfl

theorem OneTake.checkpoints_taken (h : t.OneTake R origin) (live : Sample) :
    (t.taken R live).checkpoints = t.drained.checkpoints := by
  rw [h.taken_eq]
  exact checkpoints_handOver _ _

/-- One more frame: the machine has consumed what is held, and so has the movie. -/
theorem OneTake.taken (h : t.OneTake R origin) (live : Sample) :
    (t.taken R live).OneTake R origin := by
  have htaken := h.taken_eq live
  have hinputs := h.inputs_taken live
  have hcheckpoints := h.checkpoints_taken live
  have hconfig := t.config_taken (R := R) live
  obtain ⟨checkpoints, hdrained, hkept⟩ := h.drained
  have hdrained' : t.drained.checkpoints = checkpoints := (congrArg Tape.checkpoints hdrained :)
  rw [hdrained'] at hcheckpoints
  have hmachine : (t.taken R live).machine = R.step t.machine live := congrArg Tape.machine htaken
  refine ⟨?_, ?_, ?_, ?_, ?_, ?_, ?_⟩
  · have hrecords : t.drained.Records (Controller.present 0) := by
      rw [hdrained]
      exact ⟨h.records.toRolling.captured t.machine checkpoints, h.records.isRecording,
        h.records.cursor⟩
    exact (hrecords.record ⟨0, live⟩).1.ran _
  · rw [hmachine]
    exact R.sound_step live h.sound
  · rw [hmachine, hinputs, R.replay_push]
    exact R.view_step live h.view_eq
  · rw [hcheckpoints, hconfig, hkept.interval, h.interval]
  · rw [hcheckpoints, hconfig, hkept.maxCount, h.maxCount]
  · rw [hcheckpoints, hinputs, Array.size_push]
    exact fun k hk => Nat.lt_succ_of_le (hkept.behind k hk)
  · rw [hcheckpoints, hinputs, Array.size_push, hkept.interval, htaken]
    change (t.drained.handOver (t.movie.recorded live)).queue.pending = _
    rw [pending_handOver, hdrained', hdrained]
    change (if checkpoints.isDue (t.movie.currentSample + 1) = true then
      [Request.capture .checkpoint] else []) = _
    rw [h.records.cursor]
    exact if_congr hkept.isDue_iff rfl rfl

theorem OneTake.pending_taken (h : t.OneTake R origin)
    (hdue : t.movie.inputs.size % t.checkpoints.interval = 0)
    (hinterval : 1 < t.checkpoints.interval) (live : Sample) :
    (t.taken R live).queue.pending = [] := by
  have hinterval' : (t.taken R live).checkpoints.interval = t.checkpoints.interval := by
    rw [(h.taken live).interval, config_taken, h.interval]
  rw [(h.taken live).pending, h.inputs_taken, Array.size_push, hinterval', Nat.add_mod, hdue,
    Nat.mod_eq_of_lt hinterval]
  exact if_neg (by rw [Nat.mod_eq_of_lt hinterval]; decide)

/-- The checkpoint that is due at the end of a take serves its sample, if there is room for it
beside the one at sample 0. -/
theorem OneTake.nearest?_taken (h : t.OneTake R origin) {bytes : ByteArray}
    (hencode : encode t.snapshot = .ok ⟨bytes, t.snapshot, false⟩)
    (hdue : t.movie.inputs.size % t.checkpoints.interval = 0)
    (hroom : 1 < t.checkpoints.maxCount) (live : Sample) :
    (t.taken R live).checkpoints.nearest? t.movie.inputs.size =
      some (t.movie.inputs.size, bytes) := by
  have hdrained : t.drained = t.settled.capture := by
    rw [Tape.drained, h.pending, if_pos hdue]
    rfl
  rw [h.checkpoints_taken, hdrained, capture_of_encode (t := t.settled) hencode, ← h.records.cursor]
  refine Checkpoints.nearest?_insert_newest hroom (fun k hk => ?_) bytes
  exact Nat.le_trans (Nat.le_of_lt (h.behind k hk)) (Nat.le_of_eq h.records.cursor.symm)

end Tape

namespace Deck

variable {M V H D : Type} [Core M] [Frontend H] [Storage D] {R : Replayable M V} {origin : M}

/-- A frame is a round in which controller 0 is polled once. -/
theorem frame_eq_round (step : M → Sample → M) (live : Sample) (d : Deck M H D) :
    (d.frame step live).2 = (d.round (fun m seen => step m (seen.headD live)) [⟨0, live⟩]).2 := rfl

theorem tape_frame_oneTake {d : Deck M H D} (h : d.tape.OneTake R origin)
    (hscreen : d.config.stScreenshot = false) (live : Sample) :
    (d.frame R.step live).2.tape = d.tape.taken R live := by
  rw [frame_eq_round]
  exact tape_round_records h.records hscreen _ _

/-- One more frame is recorded, and the machine has consumed what is held. -/
theorem frame_oneTake {d : Deck M H D} (h : d.tape.OneTake R origin)
    (hscreen : d.config.stScreenshot = false) (live : Sample) :
    (d.frame R.step live).2.tape.OneTake R origin ∧
      (d.frame R.step live).2.config = d.config ∧
      d.movie.Continues [live] (d.frame R.step live).2.movie := by
  obtain ⟨-, hon⟩ := round_records h.records (fun m seen => R.step m (seen.headD live)) [⟨0, live⟩]
  have ht := tape_frame_oneTake h hscreen live
  refine ⟨ht ▸ h.taken live, (congrArg Tape.config ht).trans (d.tape.config_taken live), ?_⟩
  rw [← Poll.heard_zero live]
  exact hon.movie

/-- **A movie that is recorded in one take stays with its machine**, however long it gets. -/
theorem frames_oneTake {d : Deck M H D} (h : d.tape.OneTake R origin)
    (hscreen : d.config.stScreenshot = false) (lives : List Sample) :
    (d.frames R.step lives).2.tape.OneTake R origin ∧
      (d.frames R.step lives).2.config = d.config ∧
      d.movie.Continues lives (d.frames R.step lives).2.movie := by
  induction lives generalizing d with
  | nil => exact ⟨h, rfl, .refl _⟩
  | cons live lives ih =>
    obtain ⟨h', hconfig, hmovie⟩ := frame_oneTake h hscreen live
    obtain ⟨h'', hconfig', hmovie'⟩ := ih h' (hconfig ▸ hscreen)
    exact ⟨h'', hconfig'.trans hconfig, hmovie.trans hmovie'⟩

end Deck

/-! ## Where the count wraps around -/

namespace Tape

variable {t : Tape Accumulator}

/-- **Where the count wraps around, a checkpoint is one of the start of the movie**, but with the
machine that has consumed all of it. -/
theorem checkpoint_of_wrapped (hs : t.machine.Sound) (ha : t.movie.isActive = true)
    (hcursor : t.movie.currentSample = t.movie.inputs.size)
    (hwraps : t.movie.inputs.size % UInt32.size = 0)
    (hquiet : ∀ s ∈ t.movie.inputs, Sample.layout.bytes s ≠ screenshotTag) :
    ∃ bytes, encode t.snapshot = .ok ⟨bytes, t.snapshot, false⟩ ∧
      Accumulator.replayable.Checkpoint t.machine t.movie 0 bytes := by
  let f := Movie.Freeze.ofInputs t.movie.header.uid (UInt32.ofNat t.movie.inputs.size)
    (UInt32.ofNat t.movie.currentVi) t.movie.inputs
  have hf : t.movie.freeze = some f := by
    rw [Movie.Log.freeze, if_pos ha, hcursor]
  have hsnap : t.snapshot = Core.captureAt f t.machine := by
    rw [snapshot, hf]
    rfl
  have hle : f.lengthSamples.toNat ≤ t.movie.inputs.size :=
    Movie.Freeze.lengthSamples_ofInputs_le _ _ _ _
  have hsize : f.inputs.size = t.movie.inputs.size + 1 := Array.size_push _
  have hsurplus : ∀ s ∈ f.surplus, Sample.layout.bytes s ≠ screenshotTag := by
    intro s hs
    obtain hs | hs := Array.mem_push.1 (Movie.Freeze.mem_inputs_of_mem_surplus hs)
    · exact hquiet s hs
    · rw [hs]
      decide
  obtain ⟨bytes, he, hd⟩ := hs.survives_uncounted (by omega) hsurplus
  have hcount : f.covered.currentSample.toNat = 0 := hwraps
  refine ⟨bytes, by rw [hsnap]; exact he, Nat.zero_le _, _, f.covered, hd, hs.isAscii, rfl,
    Movie.Freeze.check_covered_ofInputs _ _ _, hcount, fun m hm => ?_⟩
  rw [show t.movie.inputs.take 0 = #[] by simp]
  exact Accumulator.replayable.restores hs hm f.covered

end Tape

namespace Deck

variable {M V H D : Type} [Core M] [Frontend H] [Storage D] {R : Replayable M V} {origin : M}

/-- The return to a checkpoint, with nothing else pending. -/
theorem drain_of_checkpoint {d : Deck M H D} {k : Nat} {state : ByteArray}
    (hpending : d.queue.pending = [rollbackRequest state])
    (hk : R.Checkpoint origin d.movie k state) (ha : d.movie.isActive = true)
    (hm : R.Ready d.machine) :
    ∃ machine freeze, d.drain.2.tape =
        (d.tape.settled.withMachine machine).withMovie (d.movie.restore freeze .reposition) ∧
      freeze.currentSample.toNat = k ∧ R.Sound machine ∧
      R.view machine = R.view (R.replay origin (d.movie.inputs.take k)) := by
  let cleared : Deck M H D := { d with queue := d.queue.clear }
  -- A capture of the machine may come first, and changes nothing.
  obtain ⟨d₁, ht₁, hd₁⟩ : ∃ d₁ : Deck M H D, d₁.tape = cleared.tape ∧
      d.runBatch.2 = (d₁.perform (rollbackRequest state)).2 := by
    have hbatch := runBatch_of_load rfl hpending
    rw [simplify_nil, simplify_nil] at hbatch
    split at hbatch
    · exact ⟨_, tape_perform_undo (d := cleared) (R.has_si hm), hbatch⟩
    · exact ⟨cleared, rfl, hbatch⟩
  have hmovie : d₁.movie = d.movie := congrArg Tape.movie ht₁
  have hmachine : d₁.machine = d.machine := congrArg Tape.machine ht₁
  obtain ⟨machine, freeze, ht, hcursor, hsound, hview⟩ :=
    perform_checkpoint (hmovie ▸ hk) (hmovie ▸ ha) (hmachine ▸ hm)
  rw [← hd₁, ht₁, hmovie] at ht
  rw [hmovie] at hview
  have hpending' : d.runBatch.2.queue.pending = [] := congrArg (·.queue.pending) ht
  rw [drain_eq_runBatch (by rw [hpending]; nofun) hpending']
  exact ⟨machine, freeze, ht, hcursor, hsound, hview⟩

/-- The frame after the return to a checkpoint consumes the sample there. -/
theorem frame_of_checkpoint {d : Deck M H D} {k : Nat} {state : ByteArray}
    (hpending : d.queue.pending = [rollbackRequest state])
    (hk : R.Checkpoint origin d.movie k state) (htask : d.movie.task = .recording)
    (hp : d.movie.header.controllerPresent 0 = true) (hlt : k < d.movie.inputs.size)
    (hm : R.Ready d.machine) (live : Sample) :
    let after := (d.frame R.step live).2
    after.movie.task = .recording ∧ after.movie.inputs = d.movie.inputs ∧
      after.movie.currentSample = k + 1 ∧
      R.view after.machine = R.view (R.replay origin (d.movie.inputs.take (k + 1))) := by
  intro after
  have ha : d.movie.isActive = true := by rw [Movie.Log.isActive, htask]; rfl
  obtain ⟨machine, freeze, ht, rfl, hsound, hview⟩ := drain_of_checkpoint hpending hk ha hm
  have hmovie : d.drain.2.movie = d.movie.restore freeze .reposition := congrArg Tape.movie ht
  have hmachine : d.drain.2.machine = machine := congrArg Tape.machine ht
  let back := d.movie.restore freeze .reposition
  have hback : back.task = .recording := htask
  have hrun : back.task.isRunning = true := by rw [hback]; rfl
  have hseen := Movie.Log.consumes_played hrun rfl (Array.getElem?_eq_getElem hlt)
  have hpoll := Movie.Log.poll_of_recording hback hp hlt live
  obtain ⟨-, hturn⟩ := tape_turn_of_handed ((congrArg (·.poll 0 live) hmovie).trans hpoll)
    (.inr rfl) R.step
  have hmovie' : after.movie = Movie.Log.vi { back with currentSample := back.currentSample + 1 } :=
    hturn.elim (congrArg Tape.movie) (congrArg Tape.movie)
  have hmachine' : after.machine =
      R.step d.drain.2.machine d.movie.inputs[freeze.currentSample.toNat] :=
    hturn.elim (congrArg Tape.machine) (congrArg Tape.machine)
  obtain ⟨currentVi, lengthVis, hvi⟩ :=
    Movie.Log.vi_eq { back with currentSample := back.currentSample + 1 }
  rw [hmovie', hvi, hmachine', hmachine]
  refine ⟨htask, rfl, rfl, ?_⟩
  have htake : d.movie.inputs.take (freeze.currentSample.toNat + 1) = _ := hseen.take_eq
  rw [htake, R.replay_push]
  exact R.view_step _ hview

omit [Core M] [Storage D] in
theorem isSeeking_stopSeek (d : Deck M H D) : d.stopSeek.seek.isSeeking = false := by
  unfold stopSeek
  split
  · unfold endWarp
    split <;> rfl
  · next h => exact Bool.eq_false_iff.2 h

omit [Storage D] in
/-- A seek from the end of a take to the sample in front returns to what serves that. -/
theorem tape_beginSeek_back {d : Deck M H D} (h : d.tape.OneTake R origin)
    (hrun : d.movie.task.isRunning = true) (hs : d.seek.isSeeking = false) {n k : Nat}
    (hsize : d.movie.inputs.size = n + 1) (hlt : n + 1 < 2 ^ 63 - 1) {state : ByteArray}
    (hnear : d.checkpoints.nearest? n = some (k, state)) :
    (d.beginSeek "-1" false).2.tape = d.tape.ask (rollbackRequest state) := by
  have hcursor : d.movie.currentSample = n + 1 := h.records.cursor.trans hsize
  have hlength : d.movie.length = n + 1 := hsize
  have hresolve : (Seek.Target.backward 1).resolve d.movie.currentSample d.movie.length =
      .ok n := by
    have hresolve : (Seek.Target.Form.backward.toTarget (UInt64.ofNat 1)).resolve (n + 1) (n + 1) =
        .ok n := (Seek.Target.resolve_toTarget_eq_ok_iff hlt hlt (by decide)).2
      ⟨by simp [Seek.Target.Form.place], Nat.le_succ n⟩
    rw [hcursor, hlength]
    exact hresolve
  have hback : n < d.movie.currentSample := by omega
  have hparse : Seek.Target.parse "-1" = .ok (.backward 1) := rfl
  rw [beginSeek_of_resolve hrun hparse hresolve, seekTo_of_lt hback,
    seekTo_of_nearest hs h.records.launched hnear]
  rfl

/-- A frame behind the checkpoint that is due at the end of a take, and a seek back to it. -/
theorem frame_beginSeek_back {d : Deck M H D} (h : d.tape.OneTake R origin)
    (hscreen : d.config.stScreenshot = false) {bytes : ByteArray}
    (hencode : encode d.tape.snapshot = .ok ⟨bytes, d.tape.snapshot, false⟩)
    (hdue : d.movie.inputs.size % d.checkpoints.interval = 0)
    (hinterval : 1 < d.checkpoints.interval) (hroom : 1 < d.checkpoints.maxCount)
    (hlt : d.movie.inputs.size + 1 < 2 ^ 63 - 1) (live : Sample) :
    let seeking := ((d.frame R.step live).2.stopSeek.beginSeek "-1" false).2
    seeking.queue.pending = [rollbackRequest bytes] ∧
      seeking.movie = (d.movie.recorded live).vi ∧ R.Ready seeking.machine := by
  let d₁ := (d.frame R.step live).2.stopSeek
  have ht : d₁.tape = d.tape.taken R live :=
    (tape_stopSeek _).trans (tape_frame_oneTake h hscreen live)
  have h₁ : d₁.tape.OneTake R origin := ht ▸ h.taken live
  have hmovie : d₁.movie = (d.movie.recorded live).vi :=
    (congrArg Tape.movie ht).trans (h.movie_taken live)
  have hcheckpoints : d₁.checkpoints = (d.tape.taken R live).checkpoints :=
    congrArg Tape.checkpoints ht
  have hnone : d₁.queue.pending = [] :=
    (congrArg (·.queue.pending) ht).trans (h.pending_taken hdue hinterval live)
  have hsize : d₁.movie.inputs.size = d.movie.inputs.size + 1 :=
    (congrArg (·.movie.inputs.size) ht).trans (by rw [h.inputs_taken]; exact Array.size_push _)
  have hrun : d₁.movie.task.isRunning = true := by
    obtain ⟨currentVi, lengthVis, hvi⟩ := (d.movie.recorded live).vi_eq
    rw [hmovie, hvi]
    rfl
  have hseeking := tape_beginSeek_back h₁ hrun (isSeeking_stopSeek _) hsize hlt
    (hcheckpoints ▸ h.nearest?_taken hencode hdue hroom live)
  have hmachine : (d₁.beginSeek "-1" false).2.machine = d₁.machine := congrArg Tape.machine hseeking
  refine ⟨?_, (congrArg Tape.movie hseeking).trans hmovie, ?_⟩
  · exact (congrArg (·.queue.pending) hseeking).trans (congrArg (rollbackRequest bytes :: ·) hnone)
  · exact hmachine ▸ R.ready_of_sound h₁.sound

/-- A frame, a seek from the end of the movie to the sample in front, and a frame from there. -/
def frameAndBack (step : M → Sample → M) (live live' : Sample) (d : Deck M H D) : Deck M H D :=
  (((d.frame step live).2.stopSeek.beginSeek "-1" false).2.frame step live').2

/-- **A return to where the count wraps around loses the place.** Behind it, the movie goes on from
its start, and the machine from where it has consumed 2^32 samples. -/
theorem frame_of_wrapped {origin : Accumulator} {d : Deck Accumulator H D}
    (h : d.tape.OneTake Accumulator.replayable origin) (hscreen : d.config.stScreenshot = false)
    (hsize : d.movie.inputs.size = UInt32.size)
    (hdue : d.movie.inputs.size % d.checkpoints.interval = 0)
    (hinterval : 1 < d.checkpoints.interval) (hroom : 1 < d.checkpoints.maxCount)
    (hquiet : ∀ s ∈ d.movie.inputs, Sample.layout.bytes s ≠ screenshotTag) (live live' : Sample) :
    let after := d.frameAndBack Accumulator.step live live'
    after.movie.task = .recording ∧ after.movie.inputs = d.movie.inputs.push live ∧
      after.movie.currentSample = 1 ∧
      Accumulator.replayable.view after.machine = Accumulator.replayable.view
        (Accumulator.replayable.replay d.machine (after.movie.inputs.take 1)) := by
  obtain ⟨bytes, hencode, hcheckpoint⟩ := Tape.checkpoint_of_wrapped h.sound
    (Movie.Log.isActive_of_isRecording h.records.isRecording) h.records.cursor
    ((congrArg (· % UInt32.size) hsize).trans (Nat.mod_self _)) hquiet
  let seeking := ((d.frame Accumulator.replayable.step live).2.stopSeek.beginSeek "-1" false).2
  obtain ⟨hpending, hmovie, hready⟩ : seeking.queue.pending = _ ∧ seeking.movie = _ ∧
      Accumulator.replayable.Ready seeking.machine :=
    frame_beginSeek_back h hscreen hencode hdue hinterval hroom (by rw [hsize]; decide) live
  obtain ⟨currentVi, lengthVis, hvi⟩ := (d.movie.recorded live).vi_eq
  rw [hvi] at hmovie
  have hinputs : seeking.movie.inputs = d.movie.inputs.push live := by rw [hmovie]; rfl
  have hgrows : d.movie.GrowsTo seeking.movie := by
    rw [hmovie]
    exact ⟨rfl, #[live], Array.push_eq_append⟩
  have hpresent : seeking.movie.header.controllerPresent 0 = true := by
    rw [hmovie]
    exact (Tape.controllerPresent_eq h.records.controllers ⟨0, live⟩).trans
      (Poll.reaches_zero live)
  have hpos : 0 < seeking.movie.inputs.size := by
    rw [hinputs, Array.size_push]
    exact Nat.succ_pos _
  obtain ⟨htask, hinputs', hcursor, hview⟩ := frame_of_checkpoint hpending
    (hcheckpoint.grow hgrows) (by rw [hmovie]; rfl) hpresent hpos hready live'
  have hafter : d.frameAndBack Accumulator.step live live' =
      (seeking.frame Accumulator.replayable.step live').2 := rfl
  have hmachine : d.tape.machine = d.machine := rfl
  rw [← hafter] at htask hinputs' hcursor hview
  rw [← hinputs', Nat.zero_add, hmachine] at hview
  exact ⟨htask, hinputs'.trans hinputs, hcursor, hview⟩

end Deck

end Rewind
