import Rewind.Deck.Seek
import Rewind.Deck.Drain
import Rewind.Proofs.Checkpoints.Laws

/-!
The tape: what of a deck decides how a movie is recorded and replayed. Seeks, warps, files and the
frontend are no part of it, so most of what a deck does leaves the tape alone.
-/

namespace Rewind

/-- What of a deck decides how a movie goes on. -/
structure Tape (M : Type) where
  config : Config
  queue : Savestate.Queue
  movie : Movie.Log
  checkpoints : Checkpoints
  machine : M

namespace Tape

variable {M : Type}

/-- The tape with one more request in front. -/
def ask (r : Savestate.Request) (t : Tape M) : Tape M :=
  { t with queue.pending := r :: t.queue.pending }

/-- The tape with another movie. -/
def withMovie (log : Movie.Log) (t : Tape M) : Tape M := { t with movie := log }

/-- The tape with another machine. -/
def withMachine (machine : M) (t : Tape M) : Tape M := { t with machine }

/-- The tape at the start of a movie. -/
def takeUp (log : Movie.Log) (machine : M) (t : Tape M) : Tape M :=
  { t with movie := log, checkpoints := t.checkpoints.clear, machine }

/-- The tape without a movie. -/
def dropMovie (t : Tape M) : Tape M :=
  { t with movie := t.movie.stop, checkpoints := t.checkpoints.clear }

/-- The tape without the checkpoints after a sample. -/
def dropAfter (sample : Nat) (t : Tape M) : Tape M :=
  { t with checkpoints := t.checkpoints.dropAfter sample }

end Tape

namespace Deck

open Savestate

variable {M H D : Type}

/-- The tape of a deck. -/
def tape (d : Deck M H D) : Tape M := ⟨d.config, d.queue, d.movie, d.checkpoints, d.machine⟩

section
variable [Frontend H]

@[simp] theorem tape_notify (e : Event) (d : Deck M H D) : (d.notify e).tape = d.tape := rfl

@[simp] theorem tape_notifyTask (before : Movie.Task) (d : Deck M H D) :
    (d.notifyTask before).tape = d.tape := by
  unfold notifyTask; split <;> rfl

@[simp] theorem tape_endWarp (d : Deck M H D) : d.endWarp.tape = d.tape := by
  unfold endWarp; split <;> rfl

@[simp] theorem tape_stopSeek (d : Deck M H D) : d.stopSeek.tape = d.tape := by
  unfold stopSeek; split
  · rw [tape_endWarp]; rfl
  · rfl

@[simp] theorem tape_checkSeek (d : Deck M H D) : d.checkSeek.tape = d.tape := by
  unfold checkSeek; split
  · rfl
  · simp only [tape_endWarp]; split <;> rfl

@[simp] theorem tape_finishRollback (d : Deck M H D) : d.finishRollback.tape = d.tape := by
  rw [finishRollback, tape_checkSeek]; rfl

@[simp] theorem tape_failRollback (d : Deck M H D) : d.failRollback.tape = d.tape := by
  rw [failRollback, tape_stopSeek]; split <;> rfl

@[simp] theorem tape_confirm (message : String) (d : Deck M H D) :
    (d.confirm message).2.tape = d.tape := by
  unfold confirm; split <;> rfl

@[simp] theorem tape_ask (message : String) (d : Deck M H D) :
    (d.ask message).2.tape = d.tape := by
  have h := tape_confirm message d
  unfold ask; split <;> simp_all

@[simp] theorem tape_restoreScreen (shot : Option Machine.Screenshot) (d : Deck M H D) :
    (d.restoreScreen shot).tape = d.tape := by
  unfold restoreScreen; split
  · rfl
  · split <;> rfl

@[simp] theorem tape_admitPosition (position : Option Movie.Freeze) (ignoreWarnings : Bool)
    (mode : Option Movie.RestoreMode) (d : Deck M H D) :
    (d.admitPosition position ignoreWarnings mode).2.tape = d.tape := by
  unfold admitPosition
  split
  · rfl
  · split
    · rfl
    · split <;> simp
  · split <;> simp

@[simp] theorem tape_dropCheckpoints (sample : Nat) (d : Deck M H D) :
    (d.dropCheckpoints sample).tape = d.tape.dropAfter sample := by
  unfold dropCheckpoints; simp only; split <;> rfl

end

@[simp] theorem tape_writeState [Storage D] (path : Storage.Pathname) (state : ByteArray)
    (d : Deck M H D) : (d.writeState path state).2.tape = d.tape := by
  unfold writeState; simp only; split <;> rfl

/-! ## Requests and seeks -/

theorem enqueue_of_launched {d : Deck M H D} (h : d.queue.launched = true) (r : Request) :
    d.enqueue r = (.ok (), { d with queue.pending := r :: d.queue.pending }) := by
  simp [enqueue, Queue.enqueue, h]

theorem enqueue_of_not_launched {d : Deck M H D} (h : d.queue.launched = false) (r : Request) :
    d.enqueue r = (.error .coreNotLaunched, d) := by
  simp [enqueue, Queue.enqueue, h]

/-- The tape after a request was made. -/
theorem tape_enqueue (r : Request) (d : Deck M H D) :
    (d.enqueue r).2.tape = d.tape ∨ (d.enqueue r).2.tape = d.tape.ask r := by
  cases h : d.queue.launched with
  | false => exact .inl (by rw [enqueue_of_not_launched h])
  | true => exact .inr (by rw [enqueue_of_launched h]; rfl)

/-- What a seek that goes back may do to a tape: it asks for the load of a stored checkpoint. -/
def AsksForRollback (d d' : Deck M H D) : Prop :=
  ∃ e ∈ d.checkpoints.entries, d'.tape = d.tape.ask (rollbackRequest e.2)

theorem requestRollback_tape (sample : Nat) (d : Deck M H D) :
    (d.requestRollback sample).2.tape = d.tape ∨
      AsksForRollback d (d.requestRollback sample).2 := by
  unfold requestRollback
  split
  · exact .inl rfl
  · next k state hn =>
    have hmem : (k, state) ∈ d.checkpoints.entries :=
      (List.mem_filter.1 (List.mem_of_getLast? hn)).1
    have ht := tape_enqueue (rollbackRequest state) d
    split <;> rename_i he <;> rw [he] at ht
    · exact ht.imp id fun h => ⟨_, hmem, h⟩
    · exact ht.imp id fun h => ⟨_, hmem, h⟩

variable [Frontend H]

/-- A seek that must go back waits for the load of the latest checkpoint that serves. -/
theorem seekTo_of_nearest {d : Deck M H D} (hs : d.seek.isSeeking = false)
    (hl : d.queue.launched = true) {rollbackTo k : Nat} {state : ByteArray}
    (hn : d.checkpoints.nearest? rollbackTo = some (k, state)) (target : Nat) (pauseAtEnd : Bool) :
    d.seekTo target rollbackTo pauseAtEnd true =
      (.ok (), { d with
        queue.pending := rollbackRequest state :: d.queue.pending
        seek := ⟨some ⟨target, pauseAtEnd, true⟩⟩ }) := by
  have hr : d.requestRollback rollbackTo =
      (.ok (), { d with queue.pending := rollbackRequest state :: d.queue.pending }) := by
    simp only [requestRollback, hn, enqueue_of_launched hl]
  simp [seekTo, hs, hr, Seek.State.start, checkSeek, Seek.State.arrived?, Option.filter]

theorem seekTo_of_lt {d : Deck M H D} {target : Nat} (h : target < d.movie.currentSample)
    (rollbackTo : Nat) (pauseAtEnd mustRollback : Bool) :
    d.seekTo target rollbackTo pauseAtEnd mustRollback =
      d.seekTo target rollbackTo pauseAtEnd true := by
  unfold seekTo
  rw [decide_eq_true h, Bool.or_true, Bool.true_or]

theorem beginSeek_of_resolve {d : Deck M H D} (hrun : d.movie.task.isRunning = true)
    {text : String} {target : Seek.Target} (hparse : Seek.Target.parse text = .ok target)
    {sample : Nat} (hresolve : target.resolve d.movie.currentSample d.movie.length = .ok sample)
    (pauseAtEnd : Bool) :
    d.beginSeek text pauseAtEnd = d.seekTo sample sample pauseAtEnd false := by
  unfold beginSeek
  rw [hrun, hparse]
  simp only [hresolve]
  rfl

theorem seekTo_tape (target rollbackTo : Nat) (pauseAtEnd mustRollback : Bool) (d : Deck M H D) :
    (d.seekTo target rollbackTo pauseAtEnd mustRollback).2.tape = d.tape ∨
      AsksForRollback d (d.seekTo target rollbackTo pauseAtEnd mustRollback).2 := by
  unfold seekTo
  split
  · exact .inl rfl
  · have ht : ∀ b : Bool,
        (if b then d.requestRollback rollbackTo else (.ok (), d)).2.tape = d.tape ∨
          AsksForRollback d (if b then d.requestRollback rollbackTo else (.ok (), d)).2 := by
      intro b
      cases b
      · exact .inl rfl
      · exact requestRollback_tape rollbackTo d
    have ht := ht (mustRollback || target < d.movie.currentSample)
    simp only
    generalize (if (mustRollback || decide (target < d.movie.currentSample)) = true then
      d.requestRollback rollbackTo else (.ok (), d)) = requested at ht ⊢
    obtain ⟨result, d'⟩ := requested
    cases result with
    | error e => exact ht
    | ok =>
      simp only
      split
      · exact ht
      · simp only [AsksForRollback, tape_checkSeek]
        exact ht

theorem beginSeek_tape (text : String) (pauseAtEnd : Bool) (d : Deck M H D) :
    (d.beginSeek text pauseAtEnd).2.tape = d.tape ∨
      AsksForRollback d (d.beginSeek text pauseAtEnd).2 := by
  unfold beginSeek
  split
  · exact .inl rfl
  · split
    · exact .inl rfl
    · split
      · exact .inl rfl
      · exact seekTo_tape _ _ _ _ d

/-! ## Warps -/

@[simp] theorem seek_notifyTask (before : Movie.Task) (d : Deck M H D) :
    (d.notifyTask before).seek = d.seek := by
  unfold notifyTask; split <;> rfl

@[simp] theorem seek_dropCheckpoints (sample : Nat) (d : Deck M H D) :
    (d.dropCheckpoints sample).seek = d.seek := by
  unfold dropCheckpoints; simp only; split <;> rfl

/-- The deck with a warp under way. -/
def startWarp (d : Deck M H D) : Deck M H D :=
  if d.warp.warping then d
  else { d with warp.warping := true }.notify (.warpModifyStatusChanged true)

@[simp] theorem tape_startWarp (d : Deck M H D) : d.startWarp.tape = d.tape := by
  unfold startWarp; split <;> rfl

@[simp] theorem seek_startWarp (d : Deck M H D) : d.startWarp.seek = d.seek := by
  unfold startWarp; split <;> rfl

/-- The deck with another movie, as the frontend is told. -/
def changeMovie (log : Movie.Log) (d : Deck M H D) : Deck M H D :=
  { d with movie := log }.notifyTask d.movie.task

@[simp] theorem tape_changeMovie (log : Movie.Log) (d : Deck M H D) :
    (d.changeMovie log).tape = d.tape.withMovie log := by
  rw [changeMovie, tape_notifyTask]; rfl

@[simp] theorem seek_changeMovie (log : Movie.Log) (d : Deck M H D) :
    (d.changeMovie log).seek = d.seek := by
  rw [changeMovie, seek_notifyTask]

/-- The deck on which a replay onto other samples begins to seek. -/
def withInputs (inputs : Array Sample) (rollbackTo : Nat) (d : Deck M H D) : Deck M H D :=
  (d.startWarp.changeMovie { d.startWarp.movie.replaceInputs inputs with task := .recording
    }).dropCheckpoints rollbackTo

theorem tape_withInputs (inputs : Array Sample) (rollbackTo : Nat) (d : Deck M H D) :
    (d.withInputs inputs rollbackTo).tape =
      (d.tape.withMovie { d.movie.replaceInputs inputs with task := .recording }).dropAfter
        rollbackTo := by
  have hm : d.startWarp.movie = d.movie := congrArg Tape.movie (tape_startWarp d)
  rw [withInputs, tape_dropCheckpoints, tape_changeMovie, tape_startWarp, hm]

theorem replayOnto_eq {d : Deck M H D} (hl : d.queue.launched = true) {rollbackTo : Nat}
    (hn : (d.checkpoints.nearest? rollbackTo).isNone = false) (inputs : Array Sample)
    (resumeAt : Nat) :
    d.replayOnto inputs rollbackTo resumeAt =
      match (d.withInputs inputs rollbackTo).seekTo resumeAt rollbackTo false true with
      | (.error e, d) => (.error (.seek e), d.endWarp)
      | (.ok (), d) => (.ok (), d) := by
  unfold replayOnto
  rw [hn, hl]
  rfl

/-- The seek that a replay onto other samples begins waits for the checkpoint that there was before:
what the replay drops comes after it. -/
theorem seekTo_withInputs {d : Deck M H D} (hs : d.seek.isSeeking = false)
    (hl : d.queue.launched = true) {rollbackTo k : Nat} {state : ByteArray}
    (hn : d.checkpoints.nearest? rollbackTo = some (k, state)) (inputs : Array Sample)
    (resumeAt : Nat) :
    (d.withInputs inputs rollbackTo).seekTo resumeAt rollbackTo false true =
      (.ok (), { d.withInputs inputs rollbackTo with
        queue.pending := rollbackRequest state :: d.queue.pending
        seek := ⟨some ⟨resumeAt, false, true⟩⟩ }) := by
  have ht := tape_withInputs inputs rollbackTo d
  have hq : (d.withInputs inputs rollbackTo).queue = d.queue := congrArg Tape.queue ht
  have hc : (d.withInputs inputs rollbackTo).checkpoints = d.checkpoints.dropAfter rollbackTo :=
    congrArg Tape.checkpoints ht
  have hs' : (d.withInputs inputs rollbackTo).seek.isSeeking = false := by
    rw [withInputs, seek_dropCheckpoints, seek_changeMovie, seek_startWarp, hs]
  have hn' : (d.withInputs inputs rollbackTo).checkpoints.nearest? rollbackTo =
      some (k, state) := by
    rw [hc, Checkpoints.nearest?_dropAfter, hn]
  rw [seekTo_of_nearest hs' (by rw [hq, hl]) hn' resumeAt false]
  simp only [hq]

/-- A replay onto other samples waits for the load of a checkpoint that has none of what changed. -/
theorem replayOnto_of_nearest {d : Deck M H D} (hs : d.seek.isSeeking = false)
    (hl : d.queue.launched = true) {rollbackTo k : Nat} {state : ByteArray}
    (hn : d.checkpoints.nearest? rollbackTo = some (k, state)) (inputs : Array Sample)
    (resumeAt : Nat) :
    d.replayOnto inputs rollbackTo resumeAt =
      (.ok (), { d.withInputs inputs rollbackTo with
        queue.pending := rollbackRequest state :: d.queue.pending
        seek := ⟨some ⟨resumeAt, false, true⟩⟩ }) := by
  rw [replayOnto_eq hl (by rw [hn]; rfl), seekTo_withInputs hs hl hn]

end Deck

end Rewind
