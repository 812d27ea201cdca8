import Rewind.Proofs.Deck.Beginnings
import Rewind.Proofs.Deck.Calls
import Rewind.Proofs.Deck.Cursor
import Rewind.Proofs.Deck.Nesting
import Rewind.Proofs.Deck.WarpReplay
import Rewind.Proofs.Machine.Programs

/-!
The checkpoint at sample 0. Every start of a movie asks for it, no load and no warp drops it, and
from it every seek finds a way back. Main statement: a movie that runs with nothing pending has it,
as long as nothing that is carried out before it is made takes the movie away from its start
(`contains_zero_of_isRunning`).
-/

namespace Rewind

open Savestate

namespace Deck

variable {M H D : Type} {d d' : Deck M H D} {rest : List Request}

/-! ## The invariant -/

/-- A movie without a checkpoint at sample 0 is at its start, and if it is under way, the capture is
yet to be carried out. `rest` is what a batch still holds. -/
structure Anchored (rest : List Request) (d : Deck M H D) : Prop where
  launched : d.queue.launched = true
  atStart : d.movie.isActive = true → d.checkpoints.contains 0 = false →
    d.movie.currentSample = 0
  coming : d.movie.task.isUnderway = true → d.checkpoints.contains 0 = false →
    .capture .checkpoint ∈ rest ++ d.queue.pending

theorem anchored_of_inactive (hl : d.queue.launched = true) (ha : d.movie.isActive = false)
    (rest : List Request) : Anchored rest d where
  launched := hl
  atStart ha' := absurd (ha.symm.trans ha') Bool.false_ne_true
  coming hu := absurd (ha.symm.trans (Movie.Log.isActive_of_isUnderway hu)) Bool.false_ne_true

theorem anchored_of_contains (hl : d.queue.launched = true) (h : d.checkpoints.contains 0 = true)
    (rest : List Request) : Anchored rest d where
  launched := hl
  atStart _ h0 := absurd (h.symm.trans h0) nofun
  coming _ h0 := absurd (h.symm.trans h0) nofun

namespace Anchored

theorem tape (h : Anchored rest d) (ht : d'.tape = d.tape) : Anchored rest d' := by
  have hq : d'.queue = d.queue := congrArg Tape.queue ht
  have hm : d'.movie = d.movie := congrArg Tape.movie ht
  have hc : d'.checkpoints = d.checkpoints := congrArg Tape.checkpoints ht
  refine ⟨?_, ?_, ?_⟩
  · rw [hq]
    exact h.launched
  · rw [hm, hc]
    exact h.atStart
  · rw [hm, hc, hq]
    exact h.coming

theorem asked (h : Anchored rest d) {r : Request} (ht : d'.tape = d.tape.ask r) :
    Anchored rest d' := by
  have hq : d'.queue = { d.queue with pending := r :: d.queue.pending } := congrArg Tape.queue ht
  have hm : d'.movie = d.movie := congrArg Tape.movie ht
  have hc : d'.checkpoints = d.checkpoints := congrArg Tape.checkpoints ht
  refine ⟨?_, ?_, fun hu h0 => ?_⟩
  · rw [hq]
    exact h.launched
  · rw [hm, hc]
    exact h.atStart
  · rw [hq]
    exact List.perm_middle.mem_iff.2 (.tail _ (h.coming (hm ▸ hu) (hc ▸ h0)))

/-- The movie may change where it is not about to run, and stays where it is. -/
theorem withMovie (h : Anchored rest d) {log : Movie.Log} (ht : d'.tape = d.tape.withMovie log)
    (ha : log.isActive = true → d.movie.isActive = true)
    (hu : log.task.isUnderway = true → d.movie.task.isUnderway = true)
    (hc : log.currentSample = d.movie.currentSample) : Anchored rest d' := by
  have hq : d'.queue = d.queue := congrArg Tape.queue ht
  have hm : d'.movie = log := congrArg Tape.movie ht
  have hs : d'.checkpoints = d.checkpoints := congrArg Tape.checkpoints ht
  refine ⟨?_, fun ha' h0 => ?_, fun hu' h0 => ?_⟩
  · rw [hq]
    exact h.launched
  · rw [hm, hc]
    exact h.atStart (ha (hm ▸ ha')) (hs ▸ h0)
  · rw [hq]
    exact h.coming (hu (hm ▸ hu')) (hs ▸ h0)

end Anchored

/-! ## Requests -/

/-- A request that is carried out on a movie without a checkpoint at sample 0 leaves the movie at
its start, does not take the start's place, and captures the machine if that is what it is for. -/
structure LeavesAtStart (r : Request) [Core M] [Frontend H] [Storage D] (d : Deck M H D) :
    Prop where
  cursor : (d.execute r).2.movie.currentSample = 0
  waits : taskAfterStart? d.movie.task ≠ none → (d.execute r).2.movie.task = d.movie.task
  captures : r = .capture .checkpoint → (d.execute r).1.result.isOk = true

section
variable [Frontend H]

theorem contains_zero_restorePosition [Storage D] (freeze : Movie.Freeze)
    (mode : Movie.RestoreMode) (d : Deck M H D) :
    (d.restorePosition freeze mode).checkpoints.contains 0 = d.checkpoints.contains 0 := by
  have hnotified (before : Movie.Task) (d : Deck M H D) :
      (d.notifyTask before).checkpoints = d.checkpoints := (alike_notifyTask before d).checkpoints
  have hfinished (n : Nat) (d : Deck M H D) :
      (d.finishRerecord n).checkpoints = d.checkpoints.dropAfter (min n d.movie.currentSample) :=
    congrArg Tape.checkpoints (tape_dropCheckpoints (min n d.movie.currentSample) d)
  unfold restorePosition
  simp only
  split
  · rw [hnotified]
  · rw [hnotified]
    split
    · rw [hfinished, Checkpoints.contains_zero_dropAfter]
    · rfl

variable [Core M] [Storage D]

theorem contains_zero_applyState (decoded : Decoded)
    (position : Option (Movie.Freeze × Movie.RestoreMode)) (d : Deck M H D) :
    (d.applyState decoded position).checkpoints.contains 0 = d.checkpoints.contains 0 := by
  have hshown (d : Deck M H D) :
      ((d.restoreScreen decoded.snapshot.screenshot).notify .stateLoaded).checkpoints =
        d.checkpoints := (alike_restoreScreen _ d).checkpoints
  cases position with
  | none => exact congrArg (·.contains 0) (hshown _)
  | some position =>
    exact (congrArg (·.contains 0) (hshown _)).trans
      (contains_zero_restorePosition position.1 position.2 _)

/-- Neither a save nor a load makes or drops the checkpoint at sample 0. -/
theorem contains_zero_execute (r : Request) (d : Deck M H D) :
    (d.execute r).2.checkpoints.contains 0 = d.checkpoints.contains 0 := by
  unfold execute
  cases r.job with
  | save =>
    obtain ⟨machine, ht⟩ := tape_saveState r.medium d
    exact congrArg (·.checkpoints.contains 0) ht
  | load =>
    obtain ⟨messages, hd | hd | ⟨decoded, position, -, hd⟩⟩ :=
      loadState_cases r.medium r.ignoreWarnings (restoreMode r.tag d.config) d
    · exact congrArg (·.checkpoints.contains 0) hd
    · exact congrArg (·.checkpoints.contains 0) hd
    · exact (congrArg (·.checkpoints.contains 0) hd).trans
        (contains_zero_applyState decoded position (d.questioned messages))

theorem Anchored.execute {r : Request} (h : Anchored rest d)
    (hr : d.movie.isActive = true → d.checkpoints.contains 0 = false → d.LeavesAtStart r) :
    Anchored rest (d.execute r).2 := by
  have hc := contains_zero_execute r d
  refine ⟨?_, fun ha h0 => ?_, fun hu h0 => ?_⟩
  · rw [queue_execute]
    exact h.launched
  · exact (hr (isActive_of_execute ha) (hc ▸ h0)).cursor
  · rw [queue_execute]
    have ha := isActive_of_execute (Movie.Log.isActive_of_isUnderway hu)
    refine h.coming ?_ (hc ▸ h0)
    cases hw : taskAfterStart? d.movie.task with
    | none => exact isUnderway_of_active hw (isActive_iff.1 ha)
    | some next => rwa [(hr ha (hc ▸ h0)).waits (by rw [hw]; nofun)] at hu

end

section
variable [Frontend H]

theorem contains_zero_keepCheckpoint (state : ByteArray) (d : Deck M H D) :
    (d.keepCheckpoint state).checkpoints.contains 0 = true ↔
      d.checkpoints.contains 0 = true ∨
        d.movie.isActive = true ∧ d.movie.currentSample = 0 := by
  unfold keepCheckpoint
  split
  · next ha =>
    refine (Checkpoints.contains_zero_insert _ _ _).trans ?_
    rw [ha, or_comm]
    simp
  · next ha => simp [ha]

theorem Anchored.keepCheckpoint (h : Anchored rest d) (state : ByteArray) :
    Anchored rest (d.keepCheckpoint state) := by
  have hkept (h0 : (d.keepCheckpoint state).checkpoints.contains 0 = false) :
      d.checkpoints.contains 0 = false := by
    by_contra hne
    have h1 := (contains_zero_keepCheckpoint state d).2 (.inl (by simpa using hne))
    exact absurd (h0.symm.trans h1) Bool.false_ne_true
  have hm := movie_keepCheckpoint state d
  refine ⟨?_, fun ha h0 => ?_, fun hu h0 => ?_⟩
  · rw [queue_keepCheckpoint]
    exact h.launched
  · rw [hm] at ha ⊢
    exact h.atStart ha (hkept h0)
  · rw [hm] at hu
    rw [queue_keepCheckpoint]
    exact h.coming hu (hkept h0)

theorem Anchored.settleStart (h : Anchored rest d) (succeeded : Bool) :
    Anchored rest (d.settleStart succeeded) := by
  cases hw : taskAfterStart? d.movie.task with
  | none => rwa [settleStart_of_noStart hw]
  | some next =>
    have ha : d.movie.isActive = true := by
      cases ht : d.movie.task <;> simp_all [taskAfterStart?, Movie.Log.isActive]
    cases succeeded with
    | false =>
      have hd : d.settleStart false = d.dropMovie := by
        rw [Deck.settleStart, hw]
        rfl
      rw [hd]
      exact anchored_of_inactive (d := d.dropMovie) h.launched rfl rest
    | true =>
      obtain ⟨ht, -⟩ := settleStart_true h.launched hw
      have hm : (d.settleStart true).movie = { d.movie with task := next } :=
        congrArg Tape.movie ht
      have hs : (d.settleStart true).checkpoints = d.checkpoints := congrArg Tape.checkpoints ht
      have hq : (d.settleStart true).queue =
          { d.queue with pending := .capture .checkpoint :: d.queue.pending } :=
        congrArg Tape.queue ht
      refine ⟨?_, fun _ h0 => ?_, fun _ _ => ?_⟩
      · rw [hq]
        exact h.launched
      · rw [hm]
        exact h.atStart ha (hs ▸ h0)
      · rw [hq]
        exact List.mem_append_right _ (.head _)

variable [Core M] [Storage D]

/-- The capture itself puts the checkpoint in place, where the movie is at its start. -/
theorem Anchored.perform_capture (h : Anchored (.capture .checkpoint :: rest) d)
    (hr : d.movie.isActive = true → d.checkpoints.contains 0 = false →
      d.LeavesAtStart (.capture .checkpoint)) :
    Anchored rest (d.perform (.capture .checkpoint)).2 := by
  have hexecuted := h.execute hr
  have hp : d.perform (.capture .checkpoint) = (d.execute (.capture .checkpoint)).2.deliver
    (d.execute (.capture .checkpoint)).1 := rfl
  have htag : (d.execute (.capture .checkpoint)).1.tag = some .checkpoint := rfl
  have hl := hexecuted.launched
  rw [hp, deliver, htag]
  cases ha : (d.execute (.capture .checkpoint)).2.movie.isActive with
  | false =>
    have haside := anchored_of_inactive hl ha rest
    cases (d.execute (.capture .checkpoint)).1.result with
    | error e => exact haside
    | ok state => exact haside.keepCheckpoint state
  | true =>
    cases h0 : (d.execute (.capture .checkpoint)).2.checkpoints.contains 0 with
    | true =>
      have hheld := anchored_of_contains hl h0 rest
      cases (d.execute (.capture .checkpoint)).1.result with
      | error e => exact hheld
      | ok state => exact hheld.keepCheckpoint state
    | false =>
      have hleaves := hr (isActive_of_execute ha) ((contains_zero_execute _ d).symm.trans h0)
      cases hresult : (d.execute (.capture .checkpoint)).1.result with
      | error e =>
        have hok := hleaves.captures rfl
        rw [hresult] at hok
        cases hok
      | ok state =>
        refine anchored_of_contains ?_
          ((contains_zero_keepCheckpoint state _).2 (.inr ⟨ha, hleaves.cursor⟩)) rest
        rw [queue_keepCheckpoint]
        exact hl

theorem Anchored.perform {r : Request} (h : Anchored (r :: rest) d)
    (hr : d.movie.isActive = true → d.checkpoints.contains 0 = false → d.LeavesAtStart r) :
    Anchored rest (d.perform r).2 := by
  by_cases hcapture : r = .capture .checkpoint
  · subst hcapture
    exact h.perform_capture hr
  · have hexecuted : Anchored rest (d.execute r).2 := by
      have h := h.execute hr
      refine ⟨h.launched, h.atStart, fun hu h0 => ?_⟩
      obtain hr | hr := List.mem_cons.1 (h.coming hu h0)
      · exact absurd hr.symm hcapture
      · exact hr
    refine deliver_cases (Anchored rest) (d.execute r).1 (d.execute r).2 (fun _ => hexecuted)
      (fun _ _ => hexecuted.tape rfl) (fun _ state => hexecuted.keepCheckpoint state)
      (fun _ succeeded => hexecuted.settleStart succeeded) (fun _ => ?_) (fun _ => ?_)
    · exact hexecuted.tape (tape_finishRollback _)
    · exact hexecuted.tape (tape_failRollback _)

/-- The start of a movie is not lost wherever a drain passes, if each request leaves it alone. -/
theorem Anchored.passes {e : Deck M H D} (h : Anchored [] d)
    (hr : ∀ r rest e, d.Passes (r :: rest) e → e.movie.isActive = true →
      e.checkpoints.contains 0 = false → e.LeavesAtStart r)
    (he : d.Passes rest e) : Anchored rest e := by
  have hboth := he.keeps (fun rest e => d.Passes rest e ∧ Anchored rest e)
    (fun e ⟨hpass, h⟩ => ⟨hpass.batch, h.launched, h.atStart, fun hu h0 => ?_⟩)
    (fun r rest e ⟨hpass, h⟩ => ⟨hpass.request, h.perform (hr r rest e hpass)⟩) ⟨.start, h⟩
  · exact hboth.2
  · exact List.mem_append_left _
      (mem_prepare_of_savedSlot? rfl _ (by simpa using h.coming hu h0))

end

/-! ## Starts and stops -/

section
variable [Core M] [Frontend H]

/-- A movie that begins waits for its start, or asks for its first checkpoint at once. -/
theorem anchored_withStart (hl : d.queue.launched = true) {log : Movie.Log}
    {start : Option Request} (hbegun : log.currentSample = 0)
    (hstart : start.isSome = true → log.task.isUnderway = false) :
    Anchored [] (d.withStart log start) := by
  have ht := tape_withStart log start d
  rw [enqueue_of_launched hl] at ht
  have hm : (d.withStart log start).movie = log := congrArg Tape.movie ht
  have hq : (d.withStart log start).queue.pending = startRequest start :: d.queue.pending :=
    congrArg (·.queue.pending) ht
  refine ⟨(congrArg (·.queue.launched) ht).trans hl, fun _ _ => ?_, fun hu _ => ?_⟩
  · rw [hm, hbegun]
  · rw [hm] at hu
    rw [hq]
    cases start with
    | none => exact .head _
    | some request => exact absurd ((hstart rfl).symm.trans hu) Bool.false_ne_true

omit [Core M] [Frontend H] in
theorem anchored_saveMovie [Storage D] (h : Anchored rest d) : Anchored rest d.saveMovie.2 := by
  obtain ht | ht := tape_saveMovie d
  · exact h.tape ht
  · exact h.withMovie ht id id rfl

theorem anchored_startRecording [Storage D] (h : Anchored [] d) (now : UInt32)
    (path : Storage.Pathname) (flags : UInt16) (author description : String) :
    Anchored [] (d.startRecording now path flags author description).2 := by
  have hrecords := startRecording_records now path flags author description d
  generalize d.startRecording now path flags author description = result at hrecords ⊢
  have hsaved {d' : Deck M H D} (htaken : d.takeUpMovie path
      ⟨newHeader d.machine now flags author description, #[]⟩
      (recordingStart flags (path.withExtension "st")).1
      (recordingStart flags (path.withExtension "st")).2 = (.ok (), d')) :
      Anchored [] d'.saveMovie.2 := by
    obtain ⟨-, rfl⟩ := takeUpMovie_eq_ok htaken
    refine anchored_saveMovie (anchored_withStart h.launched rfl ?_)
    unfold recordingStart
    split
    · exact fun _ => rfl
    · split
      · exact fun _ => rfl
      · exact fun hsome => by cases hsome
  cases hrecords with
  | refused e => exact h
  | @dropped d' fault htaken =>
    exact anchored_of_inactive (d := d'.saveMovie.2.dropMovie) (hsaved htaken).launched rfl []
  | recorded htaken => exact hsaved htaken

theorem anchored_startPlayback [Storage D] (h : Anchored [] d) (path : Storage.Pathname) :
    Anchored [] (d.startPlayback path).2 := by
  have hplays := startPlayback_plays path d
  generalize d.startPlayback path = result at hplays ⊢
  cases hplays with
  | refused e => exact h
  | declined e _ hasked => exact h.tape hasked.tape
  | @played movie d' _ _ hasked htaken =>
    have hl : d'.queue.launched = true := by
      rw [show d'.queue = d.queue from congrArg Tape.queue hasked.tape, h.launched]
    obtain ⟨-, rfl⟩ := takeUpMovie_eq_ok htaken
    refine anchored_withStart hl rfl ?_
    unfold playbackStart
    simp only
    split
    · exact fun _ => rfl
    · exact fun hsome => by cases hsome

end

/-! ## Frames, seeks and warps -/

/-- A movie without a checkpoint at sample 0 is polled only when nothing is pending, and nothing
that is carried out takes it away from its start, on a machine that stays launched. -/
def StartsInPeace [Core M] [Frontend H] [Storage D] (d : Deck M H D) : Happening M H D → Prop
  | .call (.setLaunched launched) => launched = true
  | .call (.poll _ _) => d.movie.isActive = true → d.checkpoints.contains 0 = false →
    d.queue.pending = []
  | .call .drain => ∀ r rest e, d.Passes (r :: rest) e → e.movie.isActive = true →
    e.checkpoints.contains 0 = false → e.LeavesAtStart r
  | _ => True

section
variable [Frontend H]

theorem isUnderway_of_arrive {log : Movie.Log} (h : log.arrive.task.isUnderway = true) :
    log.task.isUnderway = true := by
  unfold Movie.Log.arrive at h
  cases ht : log.task <;> simp_all [Movie.Task.isUnderway]

theorem isUnderway_of_isRunning {task : Movie.Task} (h : task.isRunning = true) :
    task.isUnderway = true := by
  cases task <;> simp_all [Movie.Task.isRunning, Movie.Task.isUnderway]

theorem anchored_poll [Storage D] (h : Anchored [] d)
    (hp : d.movie.isActive = true → d.checkpoints.contains 0 = false → d.queue.pending = [])
    (index : Nat) (live : Sample) : Anchored [] (d.poll index live).2 := by
  have hpolls := poll_polls index live d
  generalize d.poll index live = result at hpolls ⊢
  cases hpolls with
  | passed =>
    refine h.withMovie (tape_changeMovie _ d) (fun ha => ?_) isUnderway_of_arrive ?_
    · exact Movie.Log.isActive_of_arrive (isActive_iff.1 ha)
    · rw [Movie.Log.arrive_eq]
  | @handed outcome seen log polled handed =>
    have hu : d.movie.task.isUnderway = true := by
      cases polled with
      | played running => exact isUnderway_of_arrive (isUnderway_of_isRunning running)
      | recorded recording => exact isUnderway_of_arrive (by rw [recording]; rfl)
      | passed => cases handed <;> contradiction
      | ended => cases handed <;> contradiction
    -- Nothing is pending any more, so the capture that was to come has been carried out.
    have hheld : d.checkpoints.contains 0 = true := by
      by_contra h0
      have h0 : d.checkpoints.contains 0 = false := by simpa using h0
      have hcoming := h.coming hu h0
      rw [hp (Movie.Log.isActive_of_isUnderway hu) h0] at hcoming
      cases hcoming
    have hchanged : Anchored [] (d.changeMovie log) := by
      have ht := tape_changeMovie log d
      have hq : (d.changeMovie log).queue = d.queue := congrArg Tape.queue ht
      have hc : (d.changeMovie log).checkpoints = d.checkpoints := congrArg Tape.checkpoints ht
      exact anchored_of_contains (hq ▸ h.launched) (hc ▸ hheld) []
    exact ((tape_offerCheckpoint _).elim hchanged.tape hchanged.asked).tape (tape_checkSeek _)
  | @ended d' paused =>
    have hq : d'.queue = d.queue := by
      obtain rfl | rfl := paused
      · exact congrArg Tape.queue (tape_changeMovie _ d)
      · exact congrArg Tape.queue (tape_changeMovie _ d)
    exact anchored_of_inactive (by rw [queue_stopMovie, hq, h.launched]) (movie_stopMovie d') []

theorem anchored_beginSeek (h : Anchored rest d) (text : String) (pauseAtEnd : Bool) :
    Anchored rest (d.beginSeek text pauseAtEnd).2 := by
  obtain ht | ⟨e, -, ht⟩ := beginSeek_tape text pauseAtEnd d
  · exact h.tape ht
  · exact h.asked ht

theorem anchored_beginWarp (h : Anchored rest d) (inputs : Array Sample) :
    Anchored rest (d.beginWarp inputs).2 := by
  have hwarps := beginWarp_warps inputs d
  generalize d.beginWarp inputs = result at hwarps ⊢
  cases hwarps with
  | refused e => exact h
  | same => exact h.tape rfl
  | extended => exact h.withMovie rfl id id rfl
  | replayed running still idle rollbackTo state =>
    have ht := tape_withInputs inputs rollbackTo d
    have hu := isUnderway_of_isRunning running
    have hm : (d.withInputs inputs rollbackTo).movie =
        { d.movie.replaceInputs inputs with task := .recording } := congrArg Tape.movie ht
    have hc : (d.withInputs inputs rollbackTo).checkpoints.contains 0 =
        d.checkpoints.contains 0 := by
      rw [show (d.withInputs inputs rollbackTo).checkpoints = d.checkpoints.dropAfter rollbackTo
        from congrArg Tape.checkpoints ht, Checkpoints.contains_zero_dropAfter]
    have hreplayed : Anchored rest (d.withInputs inputs rollbackTo) := by
      have hq : (d.withInputs inputs rollbackTo).queue = d.queue := congrArg Tape.queue ht
      refine ⟨hq ▸ h.launched, fun _ h0 => ?_, fun _ h0 => ?_⟩
      · rw [hm]
        exact h.atStart (Movie.Log.isActive_of_isRunning running) (hc ▸ h0)
      · rw [hq]
        exact h.coming hu (hc ▸ h0)
    refine hreplayed.asked (r := rollbackRequest state) ?_
    have hq : (d.withInputs inputs rollbackTo).queue = d.queue := congrArg Tape.queue ht
    change ({ (d.withInputs inputs rollbackTo).tape with
      queue.pending := rollbackRequest state :: d.queue.pending } : Tape M) = _
    rw [← hq]
    rfl

end

/-! ## Runs -/

variable [Core M] [Frontend H] [Storage D]

theorem anchored_aside (h : Anchored [] d) {c : Call} (hc : c.isAside = true) :
    Anchored [] (d.call c) := by
  obtain ⟨readOnly, ht⟩ | ⟨r, ht⟩ := (call_asks hc d).tape
  · have hset : Anchored [] { d with config.readOnly := readOnly } :=
      ⟨h.launched, h.atStart, h.coming⟩
    exact hset.tape ht
  · exact h.asked ht

theorem anchored_undergo (h : Anchored [] d) {happening : Happening M H D}
    (hrule : d.StartsInPeace happening) : Anchored [] (d.undergo happening) := by
  cases happening with
  | outside machine frontend disk => exact ⟨h.launched, h.atStart, h.coming⟩
  | call c =>
    have haside (hc : c.isAside = true) : Anchored [] (d.call c) := anchored_aside h hc
    cases c with
    | setLaunched launched =>
      obtain rfl : launched = true := hrule
      exact ⟨rfl, h.atStart, h.coming⟩
    | drain => exact h.passes hrule (passes_drain d)
    | startRecording now path flags author description =>
      exact anchored_startRecording h now path flags author description
    | startPlayback path => exact anchored_startPlayback h path
    | stopMovie =>
      have hq := queue_stopMovie d
      exact anchored_of_inactive (hq.symm ▸ h.launched) (movie_stopMovie d) []
    | setAuthor path author description =>
      change Anchored [] (d.setAuthor path author description).2
      obtain ⟨disk, hd | hd⟩ := setAuthor_cases path author description d
      · rw [hd]
        exact h.tape rfl
      · rw [hd]
        exact h.withMovie rfl id id rfl
    | poll index live => exact anchored_poll h hrule index live
    | vi =>
      obtain ⟨currentVi, lengthVis, hvi⟩ := d.movie.vi_eq
      have ht : d.vi.tape = d.tape.withMovie d.movie.vi := rfl
      exact h.withMovie ht (by rw [hvi]; exact id) (by rw [hvi]; exact id) (by rw [hvi])
    | beginSeek text pauseAtEnd => exact anchored_beginSeek h text pauseAtEnd
    | stopSeek => exact h.tape (tape_stopSeek d)
    | beginWarp inputs => exact anchored_beginWarp h inputs
    | _ => exact haside rfl

omit [Core M] [Storage D] in
/-- With a checkpoint at sample 0, no seek lacks one to go back to. -/
theorem beginSeek_ne_noCheckpoint (h : d.checkpoints.contains 0 = true) (text : String)
    (pauseAtEnd : Bool) (k : Nat) :
    (d.beginSeek text pauseAtEnd).1 ≠ .error (.noCheckpoint k) := by
  intro he
  obtain ⟨target, -, hseeks⟩ := beginSeek_seeks text pauseAtEnd d
  generalize d.beginSeek text pauseAtEnd = result at he hseeks
  cases hseeks with
  | refused e hlacking =>
    obtain ⟨sample, hnone⟩ := hlacking k (Except.error.inj he)
    obtain ⟨_, _, hn, -⟩ := Checkpoints.exists_nearest? h sample
    rw [hn] at hnone
    cases hnone
  | ahead => cases he
  | back => cases he

omit [Core M] [Frontend H] [Storage D] in
theorem checkpoints_queueCheckpoint (d : Deck M H D) :
    d.queueCheckpoint.checkpoints = d.checkpoints := by
  obtain ht | ht := tape_queueCheckpoint d <;> exact congrArg Tape.checkpoints ht

omit [Core M] [Storage D] in
theorem contains_zero_settleStart (succeeded : Bool) (h0 : d.checkpoints.contains 0 = false) :
    (d.settleStart succeeded).checkpoints.contains 0 = false := by
  unfold settleStart
  split
  · exact h0
  · split
    · rw [checkpoints_queueCheckpoint]
      exact h0
    · rfl

/-- A request makes the checkpoint at sample 0 if and only if it captures an active movie there. -/
theorem contains_zero_perform_iff {r : Request} (h0 : d.checkpoints.contains 0 = false) :
    (d.perform r).2.checkpoints.contains 0 = true ↔
      r.tag = some .checkpoint ∧ (d.execute r).1.result.isOk = true ∧
        (d.execute r).2.movie.isActive = true ∧ (d.execute r).2.movie.currentSample = 0 := by
  have h0 : (d.execute r).2.checkpoints.contains 0 = false :=
    (contains_zero_execute r d).trans h0
  by_cases ht : r.tag = some .checkpoint
  · have hp : d.perform r = (d.execute r).2.deliver (d.execute r).1 := rfl
    have htag : (d.execute r).1.tag = some .checkpoint := ht
    rw [hp, deliver, htag]
    cases (d.execute r).1.result with
    | error e => simp [h0, Except.isOk, Except.toBool]
    | ok state =>
      refine (contains_zero_keepCheckpoint state _).trans ?_
      simp [h0, ht, Except.isOk, Except.toBool]
  · refine iff_of_false ?_ fun h => ht h.1
    rw [Bool.not_eq_true]
    refine deliver_cases (·.checkpoints.contains 0 = false) (d.execute r).1 (d.execute r).2
      (fun _ => h0) (fun _ _ => h0) (fun htag => absurd htag ht) (fun _ succeeded => ?_)
      (fun _ => ?_) (fun _ => ?_)
    · exact contains_zero_settleStart succeeded h0
    · rw [(alike_finishRollback _).checkpoints, h0]
    · rw [(alike_failRollback _).checkpoints, h0]

/-- **A movie that runs has its checkpoint at sample 0**, if it is not polled before what its start
asked for has been carried out, and nothing that is carried out before its first checkpoint is made
takes it away from its start. So no seek fails for want of one. A request makes that checkpoint if
and only if it captures the movie at its start. -/
theorem contains_zero_of_isRunning (hl : d.queue.launched = true) (hidle : d.movie.task = .idle)
    {hs : List (Happening M H D)} (hrun : Along StartsInPeace hs d) :
    let e := d.after hs
    (e.movie.task.isRunning = true → e.queue.pending = [] →
      e.checkpoints.contains 0 = true ∧
        ∀ text pauseAtEnd k, (e.beginSeek text pauseAtEnd).1 ≠ .error (.noCheckpoint k)) ∧
    ∀ r, e.checkpoints.contains 0 = false →
      ((e.perform r).2.checkpoints.contains 0 = true ↔
        r.tag = some .checkpoint ∧ (e.execute r).1.result.isOk = true ∧
          (e.execute r).2.movie.isActive = true ∧ (e.execute r).2.movie.currentSample = 0) := by
  intro e
  have hi : d.movie.isActive = false := by rw [Movie.Log.isActive, hidle]; rfl
  have hafter : Anchored [] e :=
    after_keeps (Anchored []) (fun _ _ h => anchored_undergo h) (anchored_of_inactive hl hi []) hrun
  refine ⟨fun hr hp => ?_, fun r h0 => contains_zero_perform_iff h0⟩
  have hheld : e.checkpoints.contains 0 = true := by
    by_contra h0
    have hcoming := hafter.coming (isUnderway_of_isRunning hr) (by simpa using h0)
    rw [hp] at hcoming
    cases hcoming
  exact ⟨hheld, fun text pauseAtEnd k => beginSeek_ne_noCheckpoint hheld text pauseAtEnd k⟩

/-- Where nothing is pending but captures of a movie at its start, on a machine that can be saved as
it is, nothing takes the movie away from there. -/
theorem startsInPeace_drain (hp : d.tape.OnlyCaptures) (hscreen : d.config.stScreenshot = false)
    (hsi : (Core.capture d.machine).interrupts.has Machine.Interrupt.si = true)
    (hroom : (Core.capture d.machine).interrupts.events.length < maxEvents)
    (hstart : d.movie.currentSample = 0) (hwaits : taskAfterStart? d.movie.task = none) :
    d.StartsInPeace (.call .drain) := by
  intro r rest e he ha h0
  have hkept : (∀ r' ∈ (r :: rest) ++ e.queue.pending, r' = .capture .checkpoint) ∧
      e.movie = d.movie ∧ e.machine = d.machine ∧ e.config = d.config := by
    refine he.keeps (fun rest e => (∀ r ∈ rest ++ e.queue.pending, r = .capture .checkpoint) ∧
      e.movie = d.movie ∧ e.machine = d.machine ∧ e.config = d.config)
      (fun e ⟨hall, hsame⟩ => ⟨?_, hsame⟩) (fun r rest e ⟨hall, hm, hmachine, hc⟩ => ?_)
      ⟨hp, rfl, rfl, rfl⟩
    · have hall : ∀ r ∈ e.queue.pending, r = .capture .checkpoint := hall
      rw [prepare_of_captures hall]
      simpa [Queue.clear] using hall
    · obtain rfl := hall r (.head _)
      obtain ⟨⟨checkpoints, ht⟩, -, hsame⟩ := captured_perform e
      have hq : (e.perform (.capture .checkpoint)).2.queue = e.queue := congrArg Tape.queue ht
      refine ⟨fun r hr => hall r (.tail _ (hq ▸ hr)), ?_, ?_, ?_⟩
      · exact (congrArg Tape.movie ht).trans hm
      · exact (hsame (hmachine.symm ▸ hsi)).trans hmachine
      · exact (congrArg Tape.config ht).trans hc
  obtain ⟨hall, hm, hmachine, hc⟩ := hkept
  obtain rfl := hall r (.head _)
  obtain ⟨machine, ht⟩ := tape_saveState (.memory ByteArray.empty) e
  have hmovie : (e.execute (.capture .checkpoint)).2.movie = d.movie :=
    (congrArg Tape.movie ht).trans hm
  have hnone : e.snapshot.screenshot = none := by
    rw [snapshot, hc, hscreen]
    rfl
  obtain ⟨encoded, hencoded⟩ := encode_of_noScreen hnone
    (show (Core.capture e.machine).interrupts.events.length < maxEvents from hmachine ▸ hroom)
  refine ⟨hmovie ▸ hstart, fun hw => absurd (hm ▸ hwaits) hw, fun _ => ?_⟩
  have hsaved : (e.saveState (.memory ByteArray.empty)).1 = .ok encoded.bytes := by
    rw [saveState_eq, hencoded]
    rfl
  change (e.saveState (.memory ByteArray.empty)).1.isOk = true
  rw [hsaved]
  rfl

/-- A recording is started, and one sample is recorded. -/
def firstFrame {D : Type} : List (Happening Machine.Accumulator Journal D) :=
  [.call (.startRecording 7 ⟨"run.m64"⟩ 0 "" ""), .call .drain, .call (.poll 0 ⟨1, 0, 0⟩)]

theorem contains_zero_of_isRunning_firstFrame :
      Along StartsInPeace firstFrame running ∧
      (running.after firstFrame).movie.task = .recording ∧
      (running.after firstFrame).queue.pending = [] ∧
      (running.after firstFrame).checkpoints.contains 0 = true := by
  have hstarted : begun.tape.OnlyCaptures := fun r hr => List.mem_singleton.1 hr
  have hpeace : begun.StartsInPeace (.call .drain) :=
    startsInPeace_drain hstarted rfl (by decide) (by decide) rfl rfl
  have hrun : Along StartsInPeace firstFrame running :=
    ⟨trivial, hpeace, fun _ _ => pending_drain begun, trivial⟩
  have hdrained := tape_drain_of_captures hstarted rfl rfl
  have hinterval : begun.drain.2.checkpoints.interval = 100 := by
    rw [show begun.drain.2.checkpoints = begun.tape.drained.checkpoints from
      congrArg Tape.checkpoints hdrained]
    change begun.tape.settled.capture.checkpoints.interval = 100
    unfold Tape.capture
    cases encode begun.tape.settled.snapshot with
    | error e => rfl
    | ok encoded => rfl
  obtain ⟨machine, checkpoints, ht⟩ := begun.tape.drained_eq
  rw [ht] at hdrained
  have hm : begun.drain.2.movie = begun.movie := congrArg Tape.movie hdrained
  have hq : begun.drain.2.queue = begun.queue.clear := congrArg Tape.queue hdrained
  have hrecorded : begun.drain.2.movie.poll 0 ⟨1, 0, 0⟩ =
      (.recorded, ⟨1, 0, 0⟩, { begun.movie.replaceInputs #[⟨1, 0, 0⟩] with
        task := .recording, currentSample := 1 }) := by
    rw [hm]
    rfl
  obtain ⟨-, hpolled, -⟩ := poll_handed (by rw [hq]; rfl) hrecorded (.inl rfl)
  -- No periodic checkpoint belongs at sample 1.
  have hdue : begun.drain.2.checkpoints.isDue 1 = false := by
    rw [Checkpoints.isDue, hinterval]
    rfl
  rw [Tape.handOver, Tape.offer, if_neg (by exact ne_true_of_eq_false hdue)] at hpolled
  have htask : (running.after firstFrame).movie.task = .recording :=
    congrArg (·.movie.task) hpolled
  have hpending : (running.after firstFrame).queue.pending = [] :=
    (congrArg (·.queue.pending) hpolled).trans (congrArg Queue.pending hq)
  obtain ⟨hheld, -⟩ := (contains_zero_of_isRunning rfl rfl hrun).1 (by rw [htask]; rfl) hpending
  exact ⟨hrun, htask, hpending, hheld⟩

end Deck

end Rewind
