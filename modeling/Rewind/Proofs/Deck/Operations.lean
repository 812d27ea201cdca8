import Rewind.Proofs.Deck.Beginnings
import Rewind.Proofs.Deck.Loads
import Rewind.Proofs.Deck.Rounds
import Rewind.Proofs.Deck.SeekReplay
import Rewind.Proofs.Seek
import Rewind.Proofs.Warp

/-!
What loads, polls and outcomes can do to a movie and to the files, said once for all that follows.
Main statements: a load leaves both alone or brings the movie to a position that was admitted
(`loadState_restores`), and a poll passes, hands over a sample or ends the movie (`poll_polls`).
-/

namespace Rewind

open Savestate

namespace Movie

theorem Freeze.currentSample_le_of_check {freeze : Freeze} {uid : UInt32}
    (h : freeze.check uid = .ok ()) : freeze.currentSample.toNat ≤ freeze.samples.size := by
  unfold check at h
  split at h
  · cases h
  · split at h
    · cases h
    · split at h
      · cases h
      · next hle =>
        split at h
        · cases h
        · next hsize =>
          have hsize : freeze.inputs.size = freeze.lengthSamples.toNat + 1 := by
            by_contra hne
            exact hsize (.inr hne)
          have hle : freeze.currentSample.toNat ≤ freeze.lengthSamples.toNat :=
            UInt32.le_iff_toNat_le.1 (UInt32.not_lt.1 hle)
          simp [samples, hsize, hle]

namespace Log

variable {log : Log} {freeze : Freeze} {mode : RestoreMode}

theorem checkFreeze_eq_ok (h : log.checkFreeze freeze mode = .ok ()) :
    log.isActive = true ∧ freeze.check log.header.uid = .ok () ∧
      (mode ≠ .rerecord → freeze.currentSample.toNat ≤ log.inputs.size) := by
  unfold checkFreeze at h
  split at h
  · cases h
  · next ha =>
    split at h
    · cases h
    · next hcheck =>
      split at h
      · cases h
      · next hinside =>
        exact ⟨by simpa using ha, hcheck, fun hm => Nat.not_lt.1 fun hlt => hinside ⟨hm, hlt⟩⟩

theorem currentSample_restore (log : Log) (freeze : Freeze) (mode : RestoreMode) :
    (log.restore freeze mode).currentSample = freeze.currentSample.toNat := by
  cases mode <;> rfl

theorem path_restore (log : Log) (freeze : Freeze) (mode : RestoreMode) :
    (log.restore freeze mode).path = log.path := by
  cases mode <;> rfl

theorem inputs_restore_of_ne (h : mode ≠ .rerecord) :
    (log.restore freeze mode).inputs = log.inputs := by
  cases mode with
  | rerecord => exact absurd rfl h
  | readOnly => rfl
  | reposition => rfl

theorem size_restore_rerecord (h : log.checkFreeze freeze .rerecord = .ok ()) :
    (log.restore freeze .rerecord).inputs.size = freeze.currentSample.toNat := by
  have hle := Freeze.currentSample_le_of_check (checkFreeze_eq_ok h).2.1
  simp [restore, hle]

/-- A position that was admitted lies in the movie as it is restored. -/
theorem currentSample_restore_le (h : log.checkFreeze freeze mode = .ok ()) :
    (log.restore freeze mode).currentSample ≤ (log.restore freeze mode).inputs.size := by
  rw [currentSample_restore]
  by_cases hm : mode = .rerecord
  · subst hm
    exact Nat.le_of_eq (size_restore_rerecord h).symm
  · rw [inputs_restore_of_ne hm]
    exact (checkFreeze_eq_ok h).2.2 hm

theorem isRunning_restore (h : log.task.isRunning = true) (freeze : Freeze) (mode : RestoreMode) :
    (log.restore freeze mode).task.isRunning = true := by
  cases mode with
  | rerecord => rfl
  | readOnly => rfl
  | reposition => exact h

/-- A movie that was cut at a position already counts its samples. -/
theorem counted_restore (h : log.checkFreeze freeze .rerecord = .ok ()) :
    (log.restore freeze .rerecord).counted = log.restore freeze .rerecord := by
  have hsize : UInt32.ofNat (log.restore freeze .rerecord).inputs.size = freeze.currentSample := by
    rw [size_restore_rerecord h, UInt32.ofNat_toNat]
  rw [counted, hsize]
  rfl

theorem save_eq_of_counted {D : Type} [Storage D] (h : log.counted = log) (disk : D) :
    (log.save disk).2.1 = log := by
  unfold save
  split
  · rfl
  · exact h

/-- What a poll may do: it passes, hands over the sample at the cursor, appends the live one behind
the last sample, or finds playback at its end. -/
inductive Polled (log : Log) (live : Sample) : PollOutcome × Sample × Log → Prop
  | passed : Polled log live (.passthrough, live, log.arrive)
  | played {s : Sample} (running : log.arrive.task.isRunning = true)
      (here : log.inputs[log.currentSample]? = some s) :
      Polled log live (.played, s,
        { log with task := log.arrive.task, currentSample := log.currentSample + 1 })
  | recorded (recording : log.arrive.task = .recording)
      (behind : log.inputs.size ≤ log.currentSample) :
      Polled log live (.recorded, live,
        { log.replaceInputs (log.inputs.push live) with
          task := .recording, currentSample := log.currentSample + 1 })
  | ended (playback : log.arrive.task = .playback)
      (behind : log.inputs.size ≤ log.currentSample) :
      Polled log live (.ended, live, log.arrive)

theorem poll_polled (log : Log) (index : Nat) (live : Sample) :
    log.Polled live (log.poll index live) := by
  have harrive := arrive_eq log
  unfold poll
  simp only
  split
  · exact .passed
  · next hgo =>
    have hrun : log.arrive.task.isRunning = true := by
      by_contra hn
      exact hgo (by simp [hn])
    rw [harrive] at hrun ⊢
    simp only at hrun ⊢
    cases hs : log.inputs[log.currentSample]? with
    | some s => exact .played hrun hs
    | none =>
      have hbehind := Array.getElem?_eq_none_iff.1 hs
      simp only
      split
      · next ht =>
        rw [← harrive]
        exact .ended ht hbehind
      · next ht =>
        have ht : log.arrive.task = .recording := by
          cases h : log.arrive.task <;> simp_all [Task.isRunning]
        rw [ht]
        exact .recorded ht hbehind

/-- A poll takes no sample away. -/
theorem Polled.size_le {live seen : Sample} {outcome : PollOutcome} {log' : Log}
    (h : log.Polled live (outcome, seen, log')) : log.inputs.size ≤ log'.inputs.size := by
  have harrive : log.arrive.inputs = log.inputs := by rw [arrive_eq]
  cases h with
  | passed => exact Nat.le_of_eq (congrArg Array.size harrive).symm
  | played => exact Nat.le_refl _
  | recorded => simp [replaceInputs]
  | ended => exact Nat.le_of_eq (congrArg Array.size harrive).symm

theorem arrive_of_isRunning (h : log.task.isRunning = true) : log.arrive = log := by
  unfold arrive
  split <;> simp_all [Task.isRunning]

end Log

end Movie

namespace Deck

variable {M H D : Type}

/-! ## Loads -/

/-- A load leaves the movie and the files alone, or it brings the movie to a position that was
admitted, and writes files only where it cuts the movie. -/
inductive Restores (mode : Option Movie.RestoreMode) (d d' : Deck M H D) : Prop
  | aside (movie : d'.movie = d.movie) (disk : d'.disk = d.disk)
  | moved {freeze : Movie.Freeze} {m : Movie.RestoreMode} (mode : mode = some m)
      (admitted : d.movie.checkFreeze freeze m = .ok ())
      (movie : d'.movie = d.movie.restore freeze m)
      (disk : m ≠ .rerecord → d'.disk = d.disk)

/-- What is to be restored was admitted for the mode. -/
def Admitted (mode : Option Movie.RestoreMode) (log : Movie.Log)
    (position : Option (Movie.Freeze × Movie.RestoreMode)) : Prop :=
  ∀ freeze m, position = some (freeze, m) → mode = some m ∧ log.checkFreeze freeze m = .ok ()

theorem admitted_none (mode : Option Movie.RestoreMode) (log : Movie.Log) :
    Admitted mode log none := nofun

theorem admits_admitted (position : Option Movie.Freeze) (mode : Option Movie.RestoreMode)
    (log : Movie.Log) : Admitted mode log (log.admitted position mode) := by
  cases mode with
  | none =>
    rw [Movie.Log.admitted_none]
    exact admitted_none _ _
  | some mode =>
    cases position with
    | none => exact admitted_none _ _
    | some freeze =>
      cases hc : log.checkFreeze freeze mode with
      | error e =>
        rw [Movie.Log.admitted_of_error hc]
        exact admitted_none _ _
      | ok =>
        rw [Movie.Log.admitted_of_ok hc]
        rintro _ _ ⟨⟩
        exact ⟨rfl, hc⟩

variable [Frontend H]

variable [Storage D]

/-- What a rerecord entails leaves the movie alone if its header counts the samples already. -/
theorem tape_finishRerecord {d : Deck M H D} (h : d.movie.counted = d.movie) (divergedAt : Nat) :
    (d.finishRerecord divergedAt).tape =
      d.tape.dropAfter (min divergedAt d.movie.currentSample) := by
  let dropped := d.dropCheckpoints (min divergedAt d.movie.currentSample)
  have ht : dropped.tape = d.tape.dropAfter (min divergedAt d.movie.currentSample) :=
    tape_dropCheckpoints _ d
  have hmovie : dropped.movie = d.movie := congrArg Tape.movie ht
  have hsaved : (dropped.movie.save dropped.disk).2.1 = dropped.movie :=
    Movie.Log.save_eq_of_counted (hmovie.symm ▸ h) dropped.disk
  change dropped.tape.withMovie (dropped.movie.save dropped.disk).2.1 = _
  rw [hsaved]
  exact ht

/-- The tape on which a movie goes on from a position: cut there, without what is not true any more
of the checkpoints. -/
theorem tape_restorePosition_rerecord {freeze : Movie.Freeze} {d : Deck M H D}
    (h : d.movie.checkFreeze freeze .rerecord = .ok ()) :
    (d.restorePosition freeze .rerecord).tape =
      (d.tape.withMovie (d.movie.restore freeze .rerecord)).dropAfter
        (min (Warp.commonLength d.movie.inputs freeze.samples) freeze.currentSample.toNat) := by
  have hu : d.movie.unfreeze freeze .rerecord = .ok (d.movie.restore freeze .rerecord) := by
    rw [Movie.Log.unfreeze, h]
  unfold restorePosition
  rw [hu]
  simp only
  rw [tape_notifyTask]
  exact tape_finishRerecord (Movie.Log.counted_restore h) _

/-- A position that was admitted is restored as it is; a cut movie counts what it holds already. -/
theorem movie_restorePosition {freeze : Movie.Freeze} {mode : Movie.RestoreMode} {d : Deck M H D}
    (h : d.movie.checkFreeze freeze mode = .ok ()) :
    (d.restorePosition freeze mode).movie = d.movie.restore freeze mode := by
  by_cases hm : mode = .rerecord
  · subst hm
    exact congrArg Tape.movie (tape_restorePosition_rerecord h)
  · unfold restorePosition
    rw [Movie.Log.unfreeze, h]
    simp only
    rw [if_neg hm]
    exact (alike_notifyTask d.movie.task _).movie

theorem restorePosition_restores {freeze : Movie.Freeze} {mode : Movie.RestoreMode}
    {d : Deck M H D} (h : d.movie.checkFreeze freeze mode = .ok ()) :
    Restores (some mode) d (d.restorePosition freeze mode) := by
  refine .moved rfl h (movie_restorePosition h) fun hm => ?_
  unfold restorePosition
  rw [Movie.Log.unfreeze, h]
  simp only
  rw [if_neg hm]
  exact (alike_notifyTask d.movie.task _).disk

variable [Core M]

theorem applyState_restores {decoded : Decoded} {mode : Option Movie.RestoreMode}
    {position : Option (Movie.Freeze × Movie.RestoreMode)} {d : Deck M H D}
    (h : Admitted mode d.movie position) : Restores mode d (d.applyState decoded position) := by
  let d₁ : Deck M H D := { d with machine := decoded.resume d.machine }
  have halike (d' : Deck M H D) :
      Alike d' ((d'.restoreScreen decoded.snapshot.screenshot).notify .stateLoaded) :=
    (alike_restoreScreen _ d').trans (alike_notify _ _)
  cases position with
  | none => exact .aside (halike d₁).movie (halike d₁).disk
  | some position =>
    obtain ⟨rfl, hc⟩ := h _ _ rfl
    have halike := halike (d₁.restorePosition position.1 position.2)
    cases restorePosition_restores (d := d₁) hc with
    | aside movie disk => exact .aside (halike.movie.trans movie) (halike.disk.trans disk)
    | moved mode admitted movie disk =>
      exact .moved mode admitted (halike.movie.trans movie) fun hne => halike.disk.trans (disk hne)

/-- A load asks questions and then fails, or puts the deck into a state. -/
theorem loadState_cases (medium : Medium) (ignoreWarnings : Bool)
    (mode : Option Movie.RestoreMode) (d : Deck M H D) : ∃ messages,
      (d.loadState medium ignoreWarnings mode).2 = d.questioned messages ∨
      (d.loadState medium ignoreWarnings mode).2 = (d.questioned messages).settleEntry ∨
      ∃ decoded position, Admitted mode d.movie position ∧
        (d.loadState medium ignoreWarnings mode).2 =
          ((d.questioned messages).applyState decoded position).settleEntry := by
  cases hfetch : d.fetchState medium with
  | error e =>
    rw [loadState, hfetch]
    exact ⟨[], .inl rfl⟩
  | ok fetched =>
    obtain ⟨messages, hdeclined | hread⟩ := loadState_of_fetch hfetch ignoreWarnings mode
    · rw [hdeclined]
      exact ⟨messages, .inl rfl⟩
    · rw [hread]
      cases hdecode : decode fetched.1 with
      | error e =>
        rw [loadDecoded_of_error hdecode]
        exact ⟨messages, .inr (.inl rfl)⟩
      | ok decoded =>
        obtain ⟨more, hdeclined | hloaded⟩ :=
          loadDecoded_of_decode hdecode ignoreWarnings mode (d.questioned messages)
        · rw [hdeclined, questioned_questioned]
          exact ⟨messages ++ more, .inr (.inl rfl)⟩
        · rw [hloaded, questioned_questioned]
          exact ⟨messages ++ more, .inr (.inr ⟨decoded, _, admits_admitted _ _ _, rfl⟩)⟩

theorem loadState_restores (medium : Medium) (ignoreWarnings : Bool)
    (mode : Option Movie.RestoreMode) (d : Deck M H D) :
    Restores mode d (d.loadState medium ignoreWarnings mode).2 := by
  obtain ⟨messages, hd | hd | ⟨decoded, position, hadmitted, hd⟩⟩ :=
    loadState_cases medium ignoreWarnings mode d
  · rw [hd]
    exact .aside rfl rfl
  · rw [hd]
    exact .aside rfl rfl
  · rw [hd]
    have hrestores : Restores mode (d.questioned messages)
        ((d.questioned messages).applyState decoded position) := applyState_restores hadmitted
    cases hrestores with
    | aside movie disk => exact .aside movie disk
    | moved mode admitted movie disk => exact .moved mode admitted movie disk

theorem config_loadState_any (medium : Medium) (ignoreWarnings : Bool)
    (mode : Option Movie.RestoreMode) (d : Deck M H D) :
    (d.loadState medium ignoreWarnings mode).2.config = d.config := by
  obtain ⟨messages, hd | hd | ⟨decoded, position, -, hd⟩⟩ :=
    loadState_cases medium ignoreWarnings mode d
  · rw [hd]; rfl
  · rw [hd]; rfl
  · rw [hd]
    obtain ⟨log, checkpoints, ht⟩ := tape_applyState decoded position (d.questioned messages)
    exact congrArg Tape.config ht

/-! ## Requests -/

/-- A save leaves the movie alone, and a load restores at most what it may. -/
theorem execute_cases (r : Request) (d : Deck M H D) :
    (d.execute r).2.config = d.config ∧
      (r.job = .save ∧ (d.execute r).2 = (d.saveState r.medium).2 ∧
          (d.execute r).2.movie = d.movie ∨
        r.job = .load ∧ Restores (restoreMode r.tag d.config) d (d.execute r).2) := by
  unfold execute
  cases hjob : r.job with
  | save =>
    obtain ⟨machine, ht⟩ := tape_saveState r.medium d
    exact ⟨congrArg Tape.config ht, .inl ⟨rfl, rfl, congrArg Tape.movie ht⟩⟩
  | load => exact ⟨config_loadState_any _ _ _ d, .inr ⟨rfl, loadState_restores _ _ _ d⟩⟩

/-- No request brings a movie about. -/
theorem isActive_of_execute {r : Request} {d : Deck M H D}
    (h : (d.execute r).2.movie.isActive = true) : d.movie.isActive = true := by
  obtain ⟨-, ⟨-, -, hm⟩ | ⟨-, ⟨hm, -⟩ | ⟨-, admitted, -⟩⟩⟩ := execute_cases r d
  · rwa [hm] at h
  · rwa [hm] at h
  · exact (Movie.Log.checkFreeze_eq_ok admitted).1

omit [Core M] [Storage D] in
/-- What can become of an outcome: most are put aside or kept, the start of a movie is settled, and
the return to a checkpoint ends or goes on with a seek. -/
theorem deliver_cases (Good : Deck M H D → Prop) (o : Outcome) (d : Deck M H D)
    (aside : o.tag ≠ some .seekRollback → Good d)
    (undo : o.tag = some .undo → ∀ state, Good { d with undo := some state })
    (keep : o.tag = some .checkpoint → ∀ state, Good (d.keepCheckpoint state))
    (start : o.tag = some .movieStart → ∀ succeeded, Good (d.settleStart succeeded))
    (finish : o.tag = some .seekRollback → Good d.finishRollback)
    (fail : o.tag = some .seekRollback → Good d.failRollback) : Good (d.deliver o).2 := by
  obtain ⟨job, tag, label, result⟩ := o
  cases tag with
  | none => cases result <;> exact aside nofun
  | some tag =>
    cases tag with
    | undo =>
      cases result with
      | error e => exact aside nofun
      | ok state => exact undo rfl state
    | checkpoint =>
      cases result with
      | error e => exact aside nofun
      | ok state => exact keep rfl state
    | movieStart => exact start rfl _
    | seekRollback =>
      cases result with
      | error e => exact fail rfl
      | ok state => exact finish rfl
    | caller id => cases result <;> exact aside nofun

/-- What becomes of an outcome leaves the files alone, and the movie unless its start is settled. -/
inductive Settles (d d' : Deck M H D) : Prop
  | aside (movie : d'.movie = d.movie) (disk : d'.disk = d.disk)
  | started {next : Movie.Task} (waits : taskAfterStart? d.movie.task = some next)
      (movie : d'.movie = { d.movie with task := next }) (disk : d'.disk = d.disk)
  | dropped (movie : d'.movie = d.movie.stop) (disk : d'.disk = d.disk)

omit [Core M] [Storage D] in
theorem deliver_settles (o : Outcome) (d : Deck M H D) : Settles d (d.deliver o).2 := by
  refine deliver_cases (Settles d) o d (fun _ => .aside rfl rfl) (fun _ _ => .aside rfl rfl)
    ?_ ?_ ?_ ?_
  · intro _ state
    unfold keepCheckpoint
    split <;> exact .aside rfl rfl
  · intro _ succeeded
    cases hstart : taskAfterStart? d.movie.task with
    | none =>
      rw [settleStart_of_noStart hstart]
      exact .aside rfl rfl
    | some next =>
      simp only [settleStart, hstart]
      split
      · have hd : Alike ({ d with movie.task := next } : Deck M H D)
            (({ d with movie.task := next } : Deck M H D).notify (.taskChanged next)) := ⟨rfl, rfl⟩
        refine .started hstart ?_ ?_
        · exact movie_enqueue _ _
        · exact disk_enqueue _ _
      · exact .dropped rfl rfl
  · intro _
    exact .aside (alike_finishRollback d).movie (alike_finishRollback d).disk
  · intro _
    exact .aside (alike_failRollback d).movie (alike_failRollback d).disk

/-! ## Starts and stops -/

/-- A movie is left alone, or dropped, or begins. -/
inductive Begins (path : Storage.Pathname) (movie : Movie.Recording) (task : Movie.Task)
    (log : Movie.Log) : Movie.Log → Prop
  | aside : Begins path movie task log log
  | dropped (header : Movie.Header) : Begins path movie task log { header }
  | begun : Begins path movie task log (.begin path movie task)

/-- A recording that is started begins without samples. -/
theorem startRecording_begins (now : UInt32) (path : Storage.Pathname) (flags : UInt16)
    (author description : String) (d : Deck M H D) :
    Begins path ⟨newHeader d.machine now flags author description, #[]⟩
      (recordingStart flags (path.withExtension "st")).1 d.movie
      (d.startRecording now path flags author description).2.movie := by
  have hrecords := startRecording_records now path flags author description d
  generalize d.startRecording now path flags author description = result at hrecords ⊢
  cases hrecords with
  | refused e => exact .aside
  | dropped fault => exact .dropped _
  | @recorded d' htaken hsaved =>
    obtain ⟨-, rfl⟩ := takeUpMovie_eq_ok htaken
    have hm := congrArg Tape.movie (saveMovie_eq_ok hsaved).1
    change (d.withStart _ _).saveMovie.2.movie = (d.withStart _ _).movie.counted at hm
    rw [hm, movie_withStart, counted_begin]
    exact .begun

/-- A movie that is played back begins as it was read. -/
theorem startPlayback_begins (path : Storage.Pathname) (d : Deck M H D) :
    (d.startPlayback path).2.movie = d.movie ∨
      ∃ movie, (Movie.readRecording (m := StateM D) path d.disk).1 = .ok movie ∧
        Begins path movie (playbackStart movie.header (path.withExtension "st")).1 d.movie
          (d.startPlayback path).2.movie := by
  have hplays := startPlayback_plays path d
  generalize d.startPlayback path = result at hplays ⊢
  cases hplays with
  | refused e => exact .inl rfl
  | declined e hread hasked => exact .inl hasked.movie
  | @played movie d' _ hread hasked htaken =>
    obtain ⟨-, rfl⟩ := takeUpMovie_eq_ok htaken
    refine .inr ⟨movie, hread, ?_⟩
    rw [movie_withStart]
    exact .begun

omit [Core M] in
theorem movie_stopMovie (d : Deck M H D) : d.stopMovie.2.movie.isActive = false := by
  unfold stopMovie
  simp only
  split
  · next ht => simp [Movie.Log.isActive, ht]
  · rfl

omit [Core M] in
/-- What was not recorded is not written either. -/
theorem stopMovie_of_not_isRecording {d : Deck M H D} (hr : ¬d.movie.task.isRecording = true) :
    d.stopMovie.1 = .ok () ∧ d.stopMovie.2.disk = d.disk := by
  have hstopped := alike_stopSeek d
  have hr' : ¬d.stopSeek.movie.task.isRecording = true := hstopped.movie.symm ▸ hr
  unfold stopMovie
  simp only [hr']
  split
  · exact ⟨rfl, hstopped.disk⟩
  · exact ⟨rfl, hstopped.disk⟩

/-! ## Polls -/

/-- What a poll of a deck may do: it passes, hands a sample over, or ends the movie. -/
inductive Polls (live : Sample) (d : Deck M H D) :
    (Movie.PollOutcome × Sample) × Deck M H D → Prop
  | passed : Polls live d ((.passthrough, live), d.changeMovie d.movie.arrive)
  | handed {outcome : Movie.PollOutcome} {seen : Sample} {log : Movie.Log}
      (polled : d.movie.Polled live (outcome, seen, log))
      (handed : outcome = .recorded ∨ outcome = .played) :
      Polls live d ((outcome, seen), (d.changeMovie log).offerCheckpoint.checkSeek)
  | ended {d' : Deck M H D} (paused : d' = d.changeMovie d.movie.arrive ∨
        d' = (d.changeMovie d.movie.arrive).pause)
      (playback : d.movie.arrive.task = .playback) :
      Polls live d ((.ended, live), d'.stopMovie.2)

omit [Core M] in
theorem poll_polls (index : Nat) (live : Sample) (d : Deck M H D) :
    Polls live d (d.poll index live) := by
  have hpolled := d.movie.poll_polled index live
  generalize hp : d.movie.poll index live = polled at hpolled
  have hpolled' := hpolled
  cases hpolled with
  | passed =>
    unfold poll
    rw [hp]
    exact .passed
  | played =>
    rw [poll_of_handed hp (.inr rfl)]
    exact .handed hpolled' (.inr rfl)
  | recorded =>
    rw [poll_of_handed hp (.inl rfl)]
    exact .handed hpolled' (.inl rfl)
  | ended playback behind =>
    unfold poll
    rw [hp]
    refine .ended ?_ playback
    split
    · exact .inr rfl
    · exact .inl rfl

omit [Core M] [Storage D] in
theorem movie_changeMovie (log : Movie.Log) (d : Deck M H D) :
    (d.changeMovie log).movie = log ∧ (d.changeMovie log).disk = d.disk := by
  have hchanged := alike_notifyTask d.movie.task { d with movie := log }
  exact ⟨hchanged.movie, hchanged.disk⟩

omit [Core M] [Storage D] in
theorem movie_offered (log : Movie.Log) (d : Deck M H D) :
    (d.changeMovie log).offerCheckpoint.movie = log ∧
      (d.changeMovie log).offerCheckpoint.disk = d.disk := by
  obtain ⟨hm, hdisk⟩ := movie_changeMovie log d
  unfold offerCheckpoint
  split
  · exact ⟨(movie_enqueue _ _).trans hm, (disk_enqueue _ _).trans hdisk⟩
  · exact ⟨hm, hdisk⟩

omit [Core M] [Storage D] in
theorem movie_handed (log : Movie.Log) (d : Deck M H D) :
    (d.changeMovie log).offerCheckpoint.checkSeek.movie = log ∧
      (d.changeMovie log).offerCheckpoint.checkSeek.disk = d.disk := by
  have hchecked := alike_checkSeek (d.changeMovie log).offerCheckpoint
  obtain ⟨hm, hd⟩ := movie_offered log d
  exact ⟨hchecked.movie.trans hm, hchecked.disk.trans hd⟩

omit [Core M] [Frontend H] in
/-- A change of the author changes files, and the movie in nothing but its author. -/
theorem setAuthor_cases (path : Storage.Pathname) (author description : String)
    (d : Deck M H D) : ∃ disk, (d.setAuthor path author description).2 = { d with disk } ∨
      (d.setAuthor path author description).2 =
        { d with disk, movie := d.movie.setAuthor author description } := by
  unfold setAuthor
  generalize Movie.writeAuthor (m := StateM D) path author description d.disk = written
  obtain ⟨written, disk⟩ := written
  cases written with
  | error e => exact ⟨disk, .inl rfl⟩
  | ok =>
    simp only
    split
    · exact ⟨disk, .inr rfl⟩
    · exact ⟨disk, .inl rfl⟩

omit [Core M] [Frontend H] in
theorem disk_setAuthor (path : Storage.Pathname) (author description : String) (d : Deck M H D) :
    (d.setAuthor path author description).2.disk =
      (Movie.writeAuthor (m := StateM D) path author description d.disk).2 := by
  unfold setAuthor
  generalize Movie.writeAuthor (m := StateM D) path author description d.disk = written
  obtain ⟨written, disk⟩ := written
  cases written with
  | error e => rfl
  | ok =>
    simp only
    split <;> rfl

/-! ## Seeks and warps -/

omit [Core M] [Frontend H] [Storage D] in
theorem requestRollback_cases (sample : Nat) (d : Deck M H D) :
    (∃ e, (∀ k, e = .noCheckpoint k → d.checkpoints.nearest? sample = none) ∧
      d.requestRollback sample = (.error e, d)) ∨ ∃ state, d.requestRollback sample =
      (.ok (), { d with queue.pending := rollbackRequest state :: d.queue.pending }) := by
  unfold requestRollback
  split
  · next hn => exact .inl ⟨_, fun _ _ => hn, rfl⟩
  · next state _ =>
    cases hl : d.queue.launched with
    | false =>
      rw [enqueue_of_not_launched hl]
      exact .inl ⟨.queue .coreNotLaunched, nofun, rfl⟩
    | true =>
      rw [enqueue_of_launched hl]
      exact .inr ⟨state, rfl⟩

/-- What the beginning of a seek may do: it is refused, or the seek goes on from where it is, or it
waits for the return to a checkpoint. -/
inductive Seeks (target : Nat) (pauseAtEnd mustRollback : Bool) (d : Deck M H D) :
    Except Seek.Error Unit × Deck M H D → Prop
  | refused (e : Seek.Error)
      (lacking : ∀ k, e = .noCheckpoint k → ∃ sample, d.checkpoints.nearest? sample = none) :
      Seeks target pauseAtEnd mustRollback d (.error e, d)
  | ahead (idle : d.seek.isSeeking = false) (free : mustRollback = false)
      (le : d.movie.currentSample ≤ target) :
      Seeks target pauseAtEnd mustRollback d
        (.ok (), { d with seek := ⟨some ⟨target, pauseAtEnd, false⟩⟩ }.checkSeek)
  | back (idle : d.seek.isSeeking = false) (state : ByteArray) :
      Seeks target pauseAtEnd mustRollback d
        (.ok (), { d with
          queue.pending := rollbackRequest state :: d.queue.pending
          seek := ⟨some ⟨target, pauseAtEnd, true⟩⟩ })

omit [Core M] [Storage D] in
theorem seekTo_seeks (target rollbackTo : Nat) (pauseAtEnd mustRollback : Bool)
    (d : Deck M H D) : Seeks target pauseAtEnd mustRollback d
      (d.seekTo target rollbackTo pauseAtEnd mustRollback) := by
  unfold seekTo
  split
  · exact .refused _ nofun
  · next hs =>
    have hs : d.seek.isSeeking = false := by simpa using hs
    cases hrollback : (mustRollback || decide (target < d.movie.currentSample)) with
    | false =>
      obtain ⟨hfree, hle⟩ := Bool.or_eq_false_iff.1 hrollback
      have hle : d.movie.currentSample ≤ target := Nat.not_lt.1 (of_decide_eq_false hle)
      simp only [Bool.false_eq_true, ↓reduceIte, Seek.State.start, hs]
      exact .ahead hs hfree hle
    | true =>
      obtain ⟨e, hlacking, hr⟩ | ⟨state, hr⟩ := requestRollback_cases rollbackTo d
      · simp only [↓reduceIte, hr]
        exact .refused e fun k he => ⟨rollbackTo, hlacking k he⟩
      · simp only [↓reduceIte, hr, Seek.State.start, hs, Bool.false_eq_true]
        exact .back hs state

omit [Core M] [Storage D] in
theorem setLaunched_unmoved (launched : Bool) (d : Deck M H D) :
    (d.setLaunched launched).movie = d.movie ∧ (d.setLaunched launched).disk = d.disk := by
  cases launched with
  | true => exact ⟨rfl, rfl⟩
  | false =>
    have hstopped := alike_stopSeek { d with queue := d.queue.setLaunched false }
    exact ⟨hstopped.movie, hstopped.disk⟩

omit [Core M] [Storage D] in
/-- A seek that is asked for goes to a sample inside the movie. -/
theorem beginSeek_seeks (text : String) (pauseAtEnd : Bool) (d : Deck M H D) :
    ∃ target ≤ d.movie.inputs.size,
      Seeks target pauseAtEnd false d (d.beginSeek text pauseAtEnd) := by
  unfold beginSeek
  split
  · exact ⟨0, Nat.zero_le _, .refused _ nofun⟩
  · split
    · next hparse =>
      obtain ⟨shown, rfl⟩ := Seek.Target.parse_eq_error hparse
      exact ⟨0, Nat.zero_le _, .refused _ nofun⟩
    · split
      · next hresolve =>
        obtain ⟨position, rfl⟩ := Seek.Target.resolve_eq_error hresolve
        exact ⟨0, Nat.zero_le _, .refused _ nofun⟩
      · next target hresolve =>
        exact ⟨target, Seek.Target.resolve_le hresolve,
          seekTo_seeks target target pauseAtEnd false d⟩

omit [Core M] [Storage D] in
theorem beginSeek_unmoved (text : String) (pauseAtEnd : Bool) (d : Deck M H D) :
    (d.beginSeek text pauseAtEnd).2.movie = d.movie ∧
      (d.beginSeek text pauseAtEnd).2.disk = d.disk := by
  obtain ⟨target, -, hseeks⟩ := beginSeek_seeks text pauseAtEnd d
  generalize d.beginSeek text pauseAtEnd = result at hseeks ⊢
  cases hseeks with
  | refused e => exact ⟨rfl, rfl⟩
  | ahead =>
    have hchecked := alike_checkSeek ({ d with seek := ⟨some ⟨target, pauseAtEnd, false⟩⟩ })
    exact ⟨hchecked.movie, hchecked.disk⟩
  | back => exact ⟨rfl, rfl⟩

/-- What the beginning of a warp may do: it is refused, or other samples take the place of the
movie's behind the cursor, or the machine is to be replayed onto them. -/
inductive Warps (inputs : Array Sample) (d : Deck M H D) :
    Except Warp.Error Unit × Deck M H D → Prop
  | refused (e : Warp.Error) : Warps inputs d (.error e, d)
  | same (eq : inputs = d.movie.inputs)
      (planned : Warp.plan d.movie.inputs inputs d.movie.currentSample = .ok .identical) :
      Warps inputs d (.ok (), d.recordWarp .identical)
  | extended (running : d.movie.task.isRunning = true) (idle : d.seek.isSeeking = false)
      (common : Nat)
      (planned : Warp.plan d.movie.inputs inputs d.movie.currentSample = .ok (.extend common))
      (le : d.movie.currentSample ≤ inputs.size) :
      Warps inputs d
        (.ok (), { d with movie := d.movie.replaceInputs inputs }.recordWarp (.extend common))
  | replayed (running : d.movie.task.isRunning = true) (still : d.warp.warping = false)
      (idle : d.seek.isSeeking = false) (rollbackTo : Nat) (state : ByteArray) {common : Nat}
      (planned : Warp.plan d.movie.inputs inputs d.movie.currentSample =
        .ok (.rollback common rollbackTo (min d.movie.currentSample inputs.size))) :
      Warps inputs d
        (.ok (), { d.withInputs inputs rollbackTo with
          queue.pending := rollbackRequest state :: d.queue.pending
          seek := ⟨some ⟨min d.movie.currentSample inputs.size, false, true⟩⟩ }.recordWarp
          (.rollback common rollbackTo (min d.movie.currentSample inputs.size)))

omit [Core M] [Storage D] in
theorem movie_withInputs (inputs : Array Sample) (rollbackTo : Nat) (d : Deck M H D) :
    (d.withInputs inputs rollbackTo).movie =
      { d.movie.replaceInputs inputs with task := .recording } :=
  congrArg Tape.movie (tape_withInputs inputs rollbackTo d)

omit [Core M] [Storage D] in
theorem disk_withInputs (inputs : Array Sample) (rollbackTo : Nat) (d : Deck M H D) :
    (d.withInputs inputs rollbackTo).disk = d.disk := by
  have hwarp : d.startWarp.disk = d.disk := by
    unfold startWarp
    split <;> rfl
  rw [withInputs, disk_dropCheckpoints]
  exact (movie_changeMovie _ d.startWarp).2.trans hwarp

omit [Core M] [Storage D] in
theorem replayOnto_cases {d : Deck M H D} (hs : d.seek.isSeeking = false) (inputs : Array Sample)
    (rollbackTo resumeAt : Nat) :
    (∃ e, d.replayOnto inputs rollbackTo resumeAt = (.error e, d)) ∨
    ∃ state, d.replayOnto inputs rollbackTo resumeAt =
      (.ok (), { d.withInputs inputs rollbackTo with
        queue.pending := rollbackRequest state :: d.queue.pending
        seek := ⟨some ⟨resumeAt, false, true⟩⟩ }) := by
  cases hn : d.checkpoints.nearest? rollbackTo with
  | none => exact .inl ⟨.seek (.noCheckpoint rollbackTo), by simp [replayOnto, hn]⟩
  | some e =>
    cases hl : d.queue.launched with
    | false => exact .inl ⟨.seek (.queue .coreNotLaunched), by simp [replayOnto, hn, hl]⟩
    | true => exact .inr ⟨e.2, replayOnto_of_nearest hs hl hn inputs resumeAt⟩

omit [Core M] [Storage D] in
theorem beginWarp_warps (inputs : Array Sample) (d : Deck M H D) :
    Warps inputs d (d.beginWarp inputs) := by
  unfold beginWarp
  split
  · exact .refused _
  · split
    · exact .refused _
    · next hrun =>
      split
      · exact .refused _
      · next hwarp =>
        split
        · exact .refused _
        · next hseek =>
          have hrun : d.movie.task.isRunning = true := by simpa using hrun
          have hwarp : d.warp.warping = false := by simpa using hwarp
          have hseek : d.seek.isSeeking = false := by simpa using hseek
          cases hplan : Warp.plan d.movie.inputs inputs d.movie.currentSample with
          | error e => exact .refused e
          | ok plan =>
            cases plan with
            | identical => exact .same (Warp.plan_identical hplan) hplan
            | extend common =>
              obtain ⟨rfl, -, hle⟩ := Warp.plan_extend hplan
              exact .extended hrun hseek _ hplan (Nat.le_trans hle (Warp.commonLength_le_right _ _))
            | rollback common rollbackTo resumeAt =>
              obtain ⟨-, -, rfl⟩ := Warp.plan_rollback hplan
              obtain ⟨e, hr⟩ | ⟨state, hr⟩ :=
                replayOnto_cases hseek inputs rollbackTo (min d.movie.currentSample inputs.size)
              · simp only [carryOut, hr]
                exact .refused e
              · simp only [carryOut, hr]
                exact .replayed hrun hwarp hseek rollbackTo state hplan

end Deck

end Rewind
