import Rewind.Proofs.Deck.Frames
import Rewind.Proofs.Deck.LongRecordings
import Rewind.Proofs.Deck.Starts

/-!
Seeking agrees with plain playback. Main statement: from the start of a movie at power-on, however
frames, seeks and saves to memory follow each other, the machine has consumed the samples in front
of the cursor, and the movie has only grown at its end (`run_replays`). A movie that outgrows the
count of a savestate shows that the bound on its samples is needed (`seek_departs`).
-/

namespace Rewind

open Savestate

/-- A movie begins at power-on unless it begins at a savestate. -/
def Movie.Header.BeginsAtReset (header : Movie.Header) : Prop :=
  header.startFlags &&& (StartFlags.snapshot ||| StartFlags.existingSnapshot) = 0

/-- Files that take what is written and keep none of it. -/
structure Storage.Sink

instance : Storage Storage.Sink where
  read _ _ := .error .notFound
  write _ _ disk := (.ok (), disk)
  patch _ _ disk := (.error .notFound, disk)
  createDirectories _ disk := (.ok (), disk)

namespace Deck

variable {M V H D : Type}

theorem tape_saveMovie [Storage D] (d : Deck M H D) :
    d.saveMovie.2.tape = d.tape ∨ d.saveMovie.2.tape = d.tape.withMovie d.movie.counted := by
  unfold saveMovie Movie.Log.save
  simp only
  split
  · exact .inl rfl
  · exact .inr rfl

theorem header_saveMovie [Storage D] (d : Deck M H D) :
    ∃ lengthSamples, d.saveMovie.2.movie.header = { d.movie.header with lengthSamples } := by
  obtain ht | ht := tape_saveMovie d
  · exact ⟨d.movie.header.lengthSamples, congrArg (·.movie.header) ht⟩
  · exact ⟨_, congrArg (·.movie.header) ht⟩

variable [Core M] [Frontend H]

/-! ## Starting a movie -/

theorem takeUpMovie_reset {d d' : Deck M H D} {path : Storage.Pathname} {movie : Movie.Recording}
    {task : Movie.Task} (h : d.takeUpMovie path movie task none = (.ok (), d')) :
    d'.tape = d.tape.takeUp ⟨task, some path, movie.header, movie.inputs, 0, 0⟩
        (Core.reset d.machine) ∨
      d'.tape = (d.tape.takeUp ⟨task, some path, movie.header, movie.inputs, 0, 0⟩
        (Core.reset d.machine)).ask (.capture .checkpoint) := by
  obtain ⟨-, rfl⟩ := takeUpMovie_eq_ok h
  exact tape_enqueue _ _

/-- A movie that was taken up is what was given. -/
theorem movie_takeUpMovie {d d' : Deck M H D} {path : Storage.Pathname} {movie : Movie.Recording}
    {task : Movie.Task} {start : Option Request}
    (h : d.takeUpMovie path movie task start = (.ok (), d')) :
    d'.movie = ⟨task, some path, movie.header, movie.inputs, 0, 0⟩ := by
  obtain ⟨-, rfl⟩ := takeUpMovie_eq_ok h
  exact movie_withStart _ start d

theorem playbackStart_of_reset {header : Movie.Header} (h : header.BeginsAtReset)
    (snapshot : Storage.Pathname) :
    playbackStart header snapshot = (.startPlaybackFromReset, none) := by
  unfold playbackStart
  simp [show header.startFlags &&& _ = 0 from h]

theorem recordingStart_of_reset {machine : M} {now : UInt32} {flags : UInt16}
    {author description : String}
    (h : (newHeader machine now flags author description).BeginsAtReset)
    (snapshot : Storage.Pathname) :
    recordingStart flags snapshot = (.startRecordingFromReset, none) := by
  have h : (if flags &&& Movie.StartFlags.existingSnapshot != 0 then Movie.StartFlags.snapshot
      else flags) &&& (Movie.StartFlags.snapshot ||| Movie.StartFlags.existingSnapshot) = 0 := h
  split at h
  · exact absurd h (by decide)
  · next he =>
    have hs : flags &&& Movie.StartFlags.snapshot = 0 := by
      rw [show Movie.StartFlags.snapshot = (Movie.StartFlags.snapshot |||
        Movie.StartFlags.existingSnapshot) &&& Movie.StartFlags.snapshot from rfl,
        ← UInt16.and_assoc, h, UInt16.zero_and]
    rw [recordingStart, if_neg he, hs]
    rfl

/-- A movie was taken up on the machine of another deck. -/
def TakesUp (d d' : Deck M H D) : Prop :=
  ∃ d₀ path movie task start, (d₀ : Deck M H D).tape = d.tape ∧
    d₀.takeUpMovie path movie task start = (.ok (), d') ∧
    (movie.header.BeginsAtReset → taskAfterStart? task = none ∧ start = none)

variable [Storage D]

theorem startRecording_eq_ok {d d' : Deck M H D} {now : UInt32} {path : Storage.Pathname}
    {flags : UInt16} {author description : String}
    (h : d.startRecording now path flags author description = (.ok (), d')) :
    ∃ d₁, d.TakesUp d₁ ∧ d' = d₁.saveMovie.2 := by
  have hrecords := startRecording_records now path flags author description d
  rw [h] at hrecords
  generalize hr : (Except.ok (), d') = result at hrecords
  cases hrecords with
  | refused => cases hr
  | dropped => cases hr
  | @recorded d₁ htaken _ =>
    refine ⟨d₁, ⟨d, _, _, _, _, rfl, htaken, fun hreset => ?_⟩, congrArg Prod.snd hr⟩
    rw [recordingStart_of_reset hreset]
    exact ⟨rfl, rfl⟩

theorem startPlayback_eq_ok {d d' : Deck M H D} {path : Storage.Pathname}
    (h : d.startPlayback path = (.ok (), d')) : d.TakesUp d' := by
  have hplays := startPlayback_plays path d
  rw [h] at hplays
  generalize hr : (Except.ok (), d') = result at hplays
  cases hplays with
  | refused e => cases hr
  | declined => cases hr
  | @played movie d₀ _ _ hasked htaken =>
    cases hr
    refine ⟨d₀, path, movie, _, _, hasked.tape, htaken, fun hreset => ?_⟩
    rw [playbackStart_of_reset hreset]
    exact ⟨rfl, rfl⟩

/-- A movie was started: it is played back, or recorded and written to its file. -/
def Starts (d d' : Deck M H D) : Prop :=
  (∃ path, d.startPlayback path = (.ok (), d')) ∨
    ∃ now path flags author description,
      d.startRecording now path flags author description = (.ok (), d')

variable {R : Replayable M V} {origin : M}

omit [Frontend H] in
/-- Writing the movie to its file counts its samples in the header, and that is all. -/
theorem saveMovie_inStep {d : Deck M H D} (h : d.tape.InStep R origin) :
    d.saveMovie.2.tape.InStep R origin := by
  obtain ht | ht := tape_saveMovie d
  · exact ht ▸ h
  · rw [ht]
    have hg : d.movie.GrowsTo d.movie.counted := ⟨rfl, #[], by simp [Movie.Log.counted]⟩
    have hstep : ((d.tape.withMovie d.movie.counted).withMachine d.machine).InStep R origin :=
      h.advance hg id h.noStart h.present h.cursor_le fun hs => ⟨hs.sound, hs.view_eq⟩
    exact hstep

omit [Storage D] in
/-- A movie that begins at power-on begins in step. -/
theorem takeUpMovie_inStep {d d' : Deck M H D} {path : Storage.Pathname} {movie : Movie.Recording}
    {task : Movie.Task} (h : d.takeUpMovie path movie task none = (.ok (), d'))
    (ht : taskAfterStart? task = none) (hq : d.queue.pending = [])
    (hscreen : d.config.stScreenshot = false) (hp : movie.header.controllerPresent 0 = true)
    (hs : R.Sound (Core.reset d.machine)) : d'.tape.InStep R (Core.reset d.machine) := by
  have hstart : (d.tape.takeUp ⟨task, some path, movie.header, movie.inputs, 0, 0⟩
      (Core.reset d.machine)).InStep R (Core.reset d.machine) := by
    refine ⟨ht, hp, hscreen, Nat.zero_le _, fun r hr => ?_, fun _ _ => ⟨hs, ?_, ?_⟩⟩
    · have hr : r ∈ d.queue.pending := hr
      rw [hq] at hr
      cases hr
    · have h0 : movie.inputs.take 0 = #[] := by simp
      change _ = R.view (R.replay _ (movie.inputs.take 0))
      rw [h0]
      rfl
    · rintro e ⟨⟩
  obtain ht | ht := takeUpMovie_reset h
  · exact ht ▸ hstart
  · exact ht ▸ hstart.ask (.inl rfl)

omit [Storage D] in
theorem TakesUp.inStep {d d' : Deck M H D} (h : d.TakesUp d')
    (hreset : d'.movie.header.BeginsAtReset) (hq : d.queue.pending = [])
    (hscreen : d.config.stScreenshot = false) (hp : d'.movie.header.controllerPresent 0 = true)
    (hs : R.Sound (Core.reset d.machine)) : d'.tape.InStep R (Core.reset d.machine) := by
  obtain ⟨d₀, path, movie, task, start, ht, htake, hstart⟩ := h
  have hm := movie_takeUpMovie htake
  rw [hm] at hreset hp
  obtain ⟨htask, rfl⟩ := hstart hreset
  have hmachine : d₀.machine = d.machine := congrArg Tape.machine ht
  have hqueue : d₀.queue = d.queue := congrArg Tape.queue ht
  have hconfig : d₀.config = d.config := congrArg Tape.config ht
  rw [← hmachine] at hs ⊢
  exact takeUpMovie_inStep htake htask (hqueue ▸ hq) (hconfig ▸ hscreen) hp hs

/-- A movie was started that begins at power-on and has controller 0, where nothing was pending and
savestates hold no screen. -/
structure StartsAtReset (R : Replayable M V) (d d' : Deck M H D) : Prop where
  starts : d.Starts d'
  beginsAtReset : d'.movie.header.BeginsAtReset
  controller : d'.movie.header.controllerPresent 0 = true
  pending : d.queue.pending = []
  noScreen : d.config.stScreenshot = false
  sound : R.Sound (Core.reset d.machine)

theorem StartsAtReset.inStep {d d' : Deck M H D} (h : d.StartsAtReset R d') :
    d'.tape.InStep R (Core.reset d.machine) := by
  obtain ⟨⟨path, hplay⟩ | ⟨now, path, flags, author, description, hrecord⟩, hreset, hp, hq,
    hscreen, hs⟩ := h
  · exact (startPlayback_eq_ok hplay).inStep hreset hq hscreen hp hs
  · obtain ⟨d₁, htake, rfl⟩ := startRecording_eq_ok hrecord
    obtain ⟨lengthSamples, hheader⟩ := header_saveMovie d₁
    rw [hheader] at hreset hp
    exact saveMovie_inStep (htake.inStep hreset hq hscreen hp hs)

/-! ## Runs -/

/-- What a caller does while a movie goes on. -/
inductive Action
  | frame (live : Sample)
  | seek (text : String) (pauseAtEnd : Bool)
  | stopSeek
  | saveMemory (id : UInt64)

/-- An action, with the samples that it adds to the movie in front. -/
def act (step : M → Sample → M) : Action → Deck M H D → Array Sample × Deck M H D
  | .frame live, d =>
    let (frame, d) := d.frame step live
    (Movie.Log.recordedBy frame.poll live, d)
  | .seek text pauseAtEnd, d => (#[], (d.beginSeek text pauseAtEnd).2)
  | .stopSeek, d => (#[], d.stopSeek)
  | .saveMemory id, d => (#[], (d.saveMemory id).2)

/-- One action after the other. -/
def run (step : M → Sample → M) : List Action → Deck M H D → Array Sample × Deck M H D
  | [], d => (#[], d)
  | action :: actions, d =>
    let (samples, d) := d.act step action
    let (more, d) := run step actions d
    (samples ++ more, d)

omit [Frontend H] [Storage D] in
theorem asksForRollback_inStep {d d' : Deck M H D} (h : d.tape.InStep R origin)
    (hd : d'.tape = d.tape ∨ AsksForRollback d d') : d'.tape.InStep R origin := by
  obtain hd | ⟨e, he, hd⟩ := hd
  · exact hd ▸ h
  · exact hd ▸ h.ask (.inr ⟨e.2, rfl, fun ha hb => ⟨e.1, (h.synced ha hb).checkpoints e he⟩⟩)

theorem act_inStep {d : Deck M H D} (h : d.tape.InStep R origin) (action : Action) :
    (d.act R.step action).2.tape.InStep R origin ∧
      d.movie.GoesOnTo (d.act R.step action).1 (d.act R.step action).2.movie := by
  have hsame {d' : Deck M H D} (hm : d'.movie = d.movie) : d.movie.GoesOnTo #[] d'.movie :=
    (Movie.Log.SameReel.of_eq hm).goesOnTo
  cases action with
  | frame live => exact frame_inStep h live
  | seek text pauseAtEnd =>
    have ht := beginSeek_tape text pauseAtEnd d
    refine ⟨asksForRollback_inStep h ht, hsame ?_⟩
    obtain ht | ⟨e, -, ht⟩ := ht
    · exact congrArg Tape.movie ht
    · exact congrArg Tape.movie ht
  | stopSeek =>
    have ht := tape_stopSeek d
    exact ⟨(congrArg (Tape.InStep R origin) ht).mpr h, hsame (congrArg Tape.movie ht)⟩
  | saveMemory id =>
    obtain ht | ht := tape_enqueue
      { job := .save, medium := .memory ByteArray.empty, tag := some (.caller id) } d
    · exact ⟨(congrArg (Tape.InStep R origin) ht).mpr h, hsame (congrArg Tape.movie ht)⟩
    · exact ⟨(congrArg (Tape.InStep R origin) ht).mpr (h.ask (.inl rfl)),
        hsame (congrArg Tape.movie ht)⟩

theorem run_inStep {d : Deck M H D} (h : d.tape.InStep R origin) (actions : List Action) :
    (d.run R.step actions).2.tape.InStep R origin ∧
      d.movie.GoesOnTo (d.run R.step actions).1 (d.run R.step actions).2.movie := by
  induction actions generalizing d with
  | nil => exact ⟨h, (Movie.Log.SameReel.of_eq rfl).goesOnTo⟩
  | cons action actions ih =>
    obtain ⟨h', hg⟩ := act_inStep h action
    obtain ⟨h'', hg'⟩ := ih h'
    exact ⟨h'', hg.trans hg'⟩

theorem size_act_le (step : M → Sample → M) (action : Action) (d : Deck M H D) :
    (d.act step action).1.size ≤ 1 := by
  cases action with
  | frame live => exact Movie.Log.size_recordedBy_le _ live
  | seek text pauseAtEnd => exact Nat.zero_le _
  | stopSeek => exact Nat.zero_le _
  | saveMemory id => exact Nat.zero_le _

theorem size_run_le (step : M → Sample → M) (actions : List Action) (d : Deck M H D) :
    (d.run step actions).1.size ≤ actions.length := by
  induction actions generalizing d with
  | nil => exact Nat.le_refl _
  | cons action actions ih =>
    have ha := size_act_le step action d
    have hs := ih (d.act step action).2
    change ((d.act step action).1 ++ ((d.act step action).2.run step actions).1).size ≤ _
    rw [Array.size_append, List.length_cons]
    omega

/-- A recording goes on, and grows by at most one sample with each action. -/
theorem run_of_isRecording {d : Deck M H D} (h : d.tape.InStep R origin)
    (hr : d.movie.task.isRecording = true) (actions : List Action) :
    (d.run R.step actions).2.movie.isActive = true ∧
      (d.run R.step actions).2.movie.inputs.size ≤ d.movie.inputs.size + actions.length := by
  have hg := (run_inStep h actions).2
  have ha := Movie.Log.isActive_of_isRecording (hg.isRecording hr)
  refine ⟨ha, ?_⟩
  rw [hg.inputs ha, Array.size_append]
  exact Nat.add_le_add_left (size_run_le R.step actions d) _

/-- **Seeking agrees with plain playback.** From the start of a movie at power-on, whatever frames,
seeks and saves follow, the machine is the one that has consumed the samples in front of the cursor
in order, until the movie outgrows the 32 bits in which savestates count samples. The movie holds
what it held at first, and then the live samples that were recorded. -/
theorem run_replays (R : Replayable M V) {d d' : Deck M H D} (h : d.StartsAtReset R d')
    (actions : List Action) (ha : (d'.run R.step actions).2.movie.isActive = true) :
    let after := (d'.run R.step actions).2
    (after.movie.inputs.size < UInt32.size → R.view after.machine = R.view
        (R.replay (Core.reset d.machine) (after.movie.inputs.take after.movie.currentSample))) ∧
      after.movie.inputs = d'.movie.inputs ++ (d'.run R.step actions).1 := by
  intro after
  obtain ⟨hstep, hgoes⟩ := run_inStep h.inStep actions
  exact ⟨fun hb => (hstep.synced ha hb).view_eq, hgoes.inputs ha⟩

/-- A running accumulator, before its first movie. -/
def running : Deck Machine.Accumulator Journal Storage.Sink :=
  { Session.new {} with
    queue.launched := true
    machine :=
      { rom := ⟨"ACCUMULATOR", 0, 0, .ofBytes _ "0123456789abcdef0123456789abcdef".toUTF8⟩
        state := Machine.Accumulator.powerOn }
    frontend := {}
    disk := {} }

/-- A recording is begun on it. -/
def begun : Deck Machine.Accumulator Journal Storage.Sink :=
  (running.startRecording 7 ⟨"run.m64"⟩ 0 "" "").2

/-- Two samples are recorded, and the machine is brought back to the first and on past the end. -/
def thereAndBack : List Action :=
  [.frame ⟨1, 0, 0⟩, .saveMemory 1, .frame ⟨2, 0, 0⟩, .seek "1" false, .frame .neutral, .stopSeek,
    .frame .neutral, .frame ⟨3, 0, 0⟩]

theorem startsAtReset_begun : running.StartsAtReset Machine.Accumulator.replayable begun where
  starts := .inr ⟨7, ⟨"run.m64"⟩, 0, "", "", Prod.ext rfl rfl⟩
  beginsAtReset := rfl
  controller := rfl
  pending := rfl
  noScreen := rfl
  sound := .of_reset (by decide)

theorem run_replays_thereAndBack :
    running.StartsAtReset Machine.Accumulator.replayable begun ∧
      let after := (begun.run Machine.Accumulator.step thereAndBack).2
      after.movie.isActive = true ∧ after.movie.inputs.size < UInt32.size ∧
      ({ after.machine.state with romHash := .zero _ } : Machine.Snapshot) =
        { (Machine.Accumulator.replayable.replay (Core.reset running.machine)
          (after.movie.inputs.take after.movie.currentSample)).state with romHash := .zero _ } := by
  have hr : begun.movie.task.isRecording = true := rfl
  obtain ⟨ha, hb⟩ := run_of_isRecording startsAtReset_begun.inStep hr thereAndBack
  have hb : _ < UInt32.size := Nat.lt_of_le_of_lt hb (by decide)
  exact ⟨startsAtReset_begun, ha, hb,
    (run_replays Machine.Accumulator.replayable startsAtReset_begun thereAndBack ha).1 hb⟩

/-! ## Past the count of a savestate -/

theorem run_frames (step : M → Sample → M) (lives : List Sample) (actions : List Action)
    (d : Deck M H D) : (d.run step (lives.map .frame ++ actions)).2 =
      ((d.frames step lives).2.run step actions).2 := by
  induction lives generalizing d with
  | nil => rfl
  | cons live lives ih => exact ih _

/-- An accumulator with a checkpoint at every 256 samples, before its first movie. -/
def unattended : Deck Machine.Accumulator Journal Storage.Sink :=
  { running with
    toSession := { Session.new { seekSavestateInterval := 256 } with queue.launched := true } }

/-- A recording is begun on it. -/
def idling : Deck Machine.Accumulator Journal Storage.Sink :=
  (unattended.startRecording 7 ⟨"run.m64"⟩ 0 "" "").2

/-- Nothing is held for some frames and one more. From the last of them the movie goes back by a
sample, and on by a frame. -/
def onceBack (frames : Nat) : List Action :=
  (List.replicate frames Sample.neutral).map .frame ++
    [.frame .neutral, .stopSeek, .seek "-1" false, .frame .neutral]

theorem oneTake_idling :
    idling.tape.OneTake Machine.Accumulator.replayable (Core.reset unattended.machine) where
  records := ⟨⟨rfl, rfl, rfl, fun _ hr => List.mem_singleton.1 hr⟩, rfl, rfl⟩
  sound := .of_reset (by decide)
  view_eq := rfl
  interval := rfl
  maxCount := rfl
  behind := nofun
  pending := rfl

/-- Where the count of a savestate has wrapped around, a seek leaves the machine ahead of the
movie. -/
theorem idling_onceBack {n : Nat} (hn : n = UInt32.size) :
    let after := (idling.run Machine.Accumulator.step (onceBack n)).2
    after.movie.isActive = true ∧ after.movie.currentSample = 1 ∧
      (after.movie.inputs.take 1).size = 1 ∧ after.machine.frame = UInt64.ofNat n + 1 := by
  intro after
  let d := (idling.frames Machine.Accumulator.step (List.replicate n Sample.neutral)).2
  obtain ⟨h, hconfig, hmovie⟩ : d.tape.OneTake Machine.Accumulator.replayable _ ∧
      d.config = idling.config ∧ idling.movie.Continues (List.replicate n Sample.neutral) d.movie :=
    frames_oneTake oneTake_idling rfl _
  have hafter : after = d.frameAndBack Machine.Accumulator.step .neutral .neutral :=
    run_frames Machine.Accumulator.step _ _ _
  have hinputs : d.movie.inputs.toList = List.replicate n .neutral :=
    hmovie.inputs.trans (List.nil_append _)
  have hsize : d.movie.inputs.size = n := by
    rw [← Array.length_toList, hinputs, List.length_replicate]
  have hquiet : ∀ s ∈ d.movie.inputs, Sample.layout.bytes s ≠ screenshotTag := by
    intro s hs
    have hs : s ∈ List.replicate n Sample.neutral := hinputs ▸ Array.mem_toList_iff.2 hs
    rw [List.eq_of_mem_replicate hs]
    decide
  have hinterval : d.checkpoints.interval = 256 :=
    h.interval.trans (congrArg (·.seekSavestateInterval.toNat) hconfig)
  have hroom : d.checkpoints.maxCount = 32 :=
    h.maxCount.trans (congrArg (·.seekSavestateMaxCount.toNat) hconfig)
  have hdue : d.movie.inputs.size % d.checkpoints.interval = 0 := by
    rw [hsize, hn, hinterval]
    decide
  obtain ⟨htask, hinputs', hcursor, hview⟩ := frame_of_wrapped h (hconfig ▸ rfl) (hsize.trans hn)
    hdue (by omega) (by omega) hquiet .neutral .neutral
  rw [← hafter] at htask hinputs' hcursor hview
  have htake : (after.movie.inputs.take 1).size = 1 := by
    rw [hinputs', Array.take, Array.size_extract, Array.size_push]
    omega
  have hframe : d.machine.frame = UInt64.ofNat n := by
    have hcount := Machine.Accumulator.frame_of_view h.view_eq
    rw [Machine.Accumulator.frame_replay] at hcount
    change _ = 0 + UInt64.ofNat d.movie.inputs.size at hcount
    rw [hsize, UInt64.zero_add] at hcount
    exact hcount
  have hframe' := Machine.Accumulator.frame_of_view hview
  rw [Machine.Accumulator.frame_replay, htake, hframe] at hframe'
  exact ⟨by rw [Movie.Log.isActive, htask]; rfl, hcursor, htake, hframe'⟩

theorem idling_departs {n : Nat} (hn : n = UInt32.size) :
    let after := (idling.run Machine.Accumulator.step (onceBack n)).2
    after.movie.isActive = true ∧
      Machine.Accumulator.replayable.view after.machine ≠ Machine.Accumulator.replayable.view
        (Machine.Accumulator.replayable.replay (Core.reset unattended.machine)
          (after.movie.inputs.take after.movie.currentSample)) := by
  obtain ⟨hactive, hcursor, htake, hframe⟩ := idling_onceBack hn
  refine ⟨hactive, fun hview => ?_⟩
  have hcount := Machine.Accumulator.frame_of_view hview
  rw [Machine.Accumulator.frame_replay, hcursor, htake, hframe, hn] at hcount
  exact absurd hcount (by decide)

theorem startsAtReset_idling : unattended.StartsAtReset Machine.Accumulator.replayable idling where
  starts := .inr ⟨7, ⟨"run.m64"⟩, 0, "", "", Prod.ext rfl rfl⟩
  beginsAtReset := rfl
  controller := rfl
  pending := rfl
  noScreen := rfl
  sound := .of_reset (by decide)

/-- Without a bound on the samples, seeking is not plain playback: from a checkpoint at 2^32
samples, the movie starts over, and the machine goes on. -/
theorem seek_departs :
    unattended.StartsAtReset Machine.Accumulator.replayable idling ∧
      let after := (idling.run Machine.Accumulator.step (onceBack UInt32.size)).2
      after.movie.isActive = true ∧
        Machine.Accumulator.replayable.view after.machine ≠ Machine.Accumulator.replayable.view
          (Machine.Accumulator.replayable.replay (Core.reset unattended.machine)
            (after.movie.inputs.take after.movie.currentSample)) :=
  ⟨startsAtReset_idling, idling_departs rfl⟩

end Deck

end Rewind
