import Rewind.Proofs.Deck.Operations
import Rewind.Proofs.Deck.WarpCheckpoints

/-!
Seeks, warps and starts of movies that are refused. A seek and a warp make every check that can
refuse them before they change anything; the start of a recording writes the movie's file last, when
the machine is reset already, or a request is pending. Main statements: what is refused leaves the
deck as it was (`eq_self_of_refused`, `refusedStart_leaves`), unless it is a recording whose file
cannot be written.
-/

namespace Rewind

open Savestate

namespace Deck

variable {M H D : Type} [Frontend H]

/-! ## Seeks and warps -/

theorem Seeks.eq_of_error {target : Nat} {pauseAtEnd mustRollback : Bool} {d : Deck M H D}
    {result : Except Seek.Error Unit × Deck M H D} {e : Seek.Error}
    (h : Seeks target pauseAtEnd mustRollback d result) (he : result.1 = .error e) :
    result.2 = d := by
  cases h with
  | refused => rfl
  | ahead => cases he
  | back => cases he

theorem Warps.eq_of_error {inputs : Array Sample} {d : Deck M H D}
    {result : Except Warp.Error Unit × Deck M H D} {e : Warp.Error} (h : Warps inputs d result)
    (he : result.1 = .error e) : result.2 = d := by
  cases h with
  | refused => rfl
  | same => cases he
  | extended => cases he
  | replayed => cases he

/-- A warp that goes back begins where there is a checkpoint to go back to and the machine runs. -/
theorem beginWarp_of_nearest {inputs : Array Sample} {d : Deck M H D}
    (hr : d.movie.task.isRunning = true) (hw : d.warp.warping = false)
    (hs : d.seek.isSeeking = false) {common rollbackTo resumeAt k : Nat} {state : ByteArray}
    (hp : Warp.plan d.movie.inputs inputs d.movie.currentSample =
      .ok (.rollback common rollbackTo resumeAt))
    (hl : d.queue.launched = true)
    (hn : d.checkpoints.nearest? rollbackTo = some (k, state)) :
    (d.beginWarp inputs).1 = .ok () := by
  have hne : inputs.isEmpty = false := by
    by_contra hempty
    rw [Warp.plan, if_pos (by simpa using hempty)] at hp
    cases hp
  simp [beginWarp, hne, hr, hw, hs, hp, carryOut, replayOnto_of_nearest hs hl hn]

/-- **A seek or a warp that is refused leaves the deck as it was**, the frontend included, which
hears nothing. A warp that goes back begins to seek on a deck that is changed already, but this seek
is not refused: the checkpoint is still there, the machine runs, and no other seek is under way. -/
theorem eq_self_of_refused (d : Deck M H D) :
    (∀ text pauseAtEnd e, (d.beginSeek text pauseAtEnd).1 = .error e →
      (d.beginSeek text pauseAtEnd).2 = d) ∧
    (∀ inputs e, (d.beginWarp inputs).1 = .error e → (d.beginWarp inputs).2 = d) ∧
    ∀ inputs {common rollbackTo resumeAt : Nat},
      Warp.plan d.movie.inputs inputs d.movie.currentSample =
        .ok (.rollback common rollbackTo resumeAt) →
      d.movie.task.isRunning = true → d.warp.warping = false → d.seek.isSeeking = false →
      (d.checkpoints.nearest? rollbackTo).isSome = true → d.queue.launched = true →
      ((d.withInputs inputs rollbackTo).seekTo resumeAt rollbackTo false true).1 = .ok () ∧
        (d.beginWarp inputs).1 = .ok () := by
  refine ⟨fun text pauseAtEnd e he => ?_, fun inputs e he => ?_, ?_⟩
  · obtain ⟨target, -, h⟩ := beginSeek_seeks text pauseAtEnd d
    exact h.eq_of_error he
  · exact (beginWarp_warps inputs d).eq_of_error he
  · intro inputs common rollbackTo resumeAt hp hr hw hs hn hl
    obtain ⟨⟨k, state⟩, hn⟩ := Option.isSome_iff_exists.1 hn
    refine ⟨?_, beginWarp_of_nearest hr hw hs hp hl hn⟩
    rw [seekTo_withInputs hs hl hn]

/-- A movie of one sample that was consumed, with the only checkpoint behind that sample. -/
def consumed : Deck Unit Journal Unit := { rewound with movie.currentSample := 1 }

/-- The same, with a checkpoint at the start and the machine running. -/
def returnable : Deck Unit Journal Unit :=
  { consumed with
    checkpoints := consumed.checkpoints.insert 0 ByteArray.empty
    queue.launched := true }

theorem eq_self_of_refused_consumed :
    (consumed.beginSeek "0" false).1 = .error (.noCheckpoint 0) ∧
      (consumed.beginSeek "0" false).2 = consumed ∧
      (consumed.beginWarp #[⟨1, 0, 0⟩]).1 = .error (.seek (.noCheckpoint 0)) ∧
      (consumed.beginWarp #[⟨1, 0, 0⟩]).2 = consumed ∧
      (returnable.beginWarp #[⟨1, 0, 0⟩]).1 = .ok () := by
  obtain ⟨hseek, hwarp, -⟩ := eq_self_of_refused consumed
  obtain ⟨-, -, hbegins⟩ := eq_self_of_refused returnable
  have hs : (consumed.beginSeek "0" false).1 = .error (.noCheckpoint 0) := rfl
  have hw : (consumed.beginWarp #[⟨1, 0, 0⟩]).1 = .error (.seek (.noCheckpoint 0)) := rfl
  have hp : Warp.plan returnable.movie.inputs #[⟨1, 0, 0⟩] returnable.movie.currentSample =
      .ok (.rollback 0 0 1) := rfl
  exact ⟨hs, hseek _ _ _ hs, hw, hwarp _ _ hw, (hbegins _ hp rfl rfl rfl rfl rfl).2⟩

/-! ## Starts of movies -/

variable [Core M] [Storage D]

/-- What is left of a start whose movie was dropped again: its request, and the machine as the start
made it. -/
structure Abandoned (start : Option Request) (d d' : Deck M H D) : Prop where
  machine : d'.machine = startMachine start d.machine
  queue : d'.queue = (d.enqueue (startRequest start)).2.queue
  checkpoints : d'.checkpoints = d.checkpoints.clear
  movie : d'.movie = { header := d'.movie.header }
  config : d'.config = d.config

/-- A recording whose file cannot be written is dropped again. -/
theorem abandoned_dropMovie (log : Movie.Log) (start : Option Request) (d : Deck M H D) :
    Abandoned start d (d.withStart log start).saveMovie.2.dropMovie := by
  have ht := tape_withStart log start d
  exact ⟨congrArg Tape.machine ht, congrArg Tape.queue ht,
    (congrArg (·.checkpoints.clear) ht).trans rfl, rfl, congrArg Tape.config ht⟩

/-- A recording that is refused leaves the deck as it was, unless its file cannot be written. -/
theorem startRecording_error {d : Deck M H D} {now : UInt32} {path : Storage.Pathname}
    {flags : UInt16} {author description : String} {e : Movie.Error}
    (h : (d.startRecording now path flags author description).1 = .error e) :
    (∀ fault, e ≠ .io fault) ∧ (d.startRecording now path flags author description).2 = d ∨
      (∃ fault, e = .io fault) ∧ Abandoned (recordingStart flags (path.withExtension "st")).2 d
        (d.startRecording now path flags author description).2 := by
  have hrecords := startRecording_records now path flags author description d
  generalize d.startRecording now path flags author description = result at h hrecords ⊢
  cases hrecords with
  | refused e' hbefore =>
    cases h
    exact .inl ⟨hbefore, rfl⟩
  | dropped fault htaken =>
    cases h
    obtain ⟨-, rfl⟩ := takeUpMovie_eq_ok htaken
    exact .inr ⟨⟨fault, rfl⟩, abandoned_dropMovie _ _ d⟩
  | recorded => cases h

/-- Playback that is refused leaves the deck as it was, but for the question about a movie of
another cartridge. -/
theorem startPlayback_error {d : Deck M H D} {path : Storage.Pathname} {e : Movie.Error}
    (h : (d.startPlayback path).1 = .error e) :
    (d.startPlayback path).2 = d ∨
      ∃ movie, (Movie.readRecording (m := StateM D) path d.disk).1 = .ok movie ∧
        isRecordedOn movie.header (Core.rom d.machine) = false ∧
        (d.startPlayback path).2 =
          d.questioned [foreignMovieMessage movie.header (Core.rom d.machine)] := by
  have hplays := startPlayback_plays path d
  generalize d.startPlayback path = result at h hplays ⊢
  cases hplays with
  | refused => exact .inl rfl
  | @declined movie _ _ hread hasked => exact hasked.imp_right fun hd => ⟨movie, hread, hd⟩
  | played => cases h

omit [Core M] [Frontend H] [Storage D] in
/-- What a recording waits for is never dropped from a batch. -/
theorem savedSlot?_recordingStart (flags : UInt16) (snapshot : Storage.Pathname) :
    (startRequest (recordingStart flags snapshot).2).savedSlot? = none := by
  unfold recordingStart
  split
  · rfl
  · split <;> rfl

/-- **A start of a movie that is refused leaves no trace, unless its file cannot be written.** The
question about a movie of another cartridge apart, playback that is refused leaves the deck as it
was, so that what is pending comes to the same, as far as it does not ask again; and so does a
recording, but for one case. Where the movie's file cannot be written, the machine was reset, or the
request for the snapshot stays; what stays is carried out with what was pending. -/
theorem refusedStart_leaves (d : Deck M H D) :
    (∀ path e, (d.startPlayback path).1 = .error e →
      ∃ messages, (d.startPlayback path).2 = d.questioned messages ∧
        (d.config.stScreenshot = false → (∀ r ∈ d.queue.pending, r.Quiet d.config) →
          (d.startPlayback path).2.drain.1 = d.drain.1 ∧
            Alike d.drain.2 (d.startPlayback path).2.drain.2)) ∧
    ∀ now path flags author description e,
      let start := (recordingStart flags (path.withExtension "st")).2
      let refused := d.startRecording now path flags author description
      refused.1 = .error e →
        ((∀ fault, e ≠ .io fault) → refused.2 = d) ∧
        (∀ fault, e = .io fault → Abandoned start d refused.2) ∧
        (d.queue.launched = true → (refused.2 = d ↔ ∀ fault, e ≠ .io fault) ∧
          ∀ fault, e = .io fault →
            startRequest start ∈ prepare refused.2.queue.pending refused.2.config.undoOnLoad) := by
  constructor
  · intro path e he
    obtain hd | ⟨movie, -, -, hd⟩ := startPlayback_error he
    · refine ⟨[], hd, fun hscreen hquiet => ?_⟩
      rw [hd]
      exact (Alike.refl d).drain hscreen hquiet
    · refine ⟨_, hd, fun hscreen hquiet => ?_⟩
      rw [hd]
      exact Alike.drain (d := d) ⟨rfl, rfl⟩ hscreen hquiet
  · intro now path flags author description e start refused he
    obtain ⟨hne, hd⟩ | ⟨⟨fault, rfl⟩, habandoned⟩ := startRecording_error he
    · exact ⟨fun _ => hd, fun fault h => absurd h (hne fault),
        fun _ => ⟨⟨fun _ => hne, fun _ => hd⟩, fun fault h => absurd h (hne fault)⟩⟩
    · refine ⟨fun h => absurd rfl (h fault), fun _ _ => habandoned, fun hl => ?_⟩
      have hpending : refused.2.queue.pending = startRequest start :: d.queue.pending := by
        rw [habandoned.queue, enqueue_of_launched hl]
      refine ⟨⟨fun hd => ?_, fun h => absurd rfl (h fault)⟩, fun _ _ => ?_⟩
      · rw [hd] at hpending
        exact absurd hpending.symm (List.cons_ne_self _ _)
      · rw [hpending]
        exact mem_prepare_of_savedSlot? (savedSlot?_recordingStart _ _) _ (.head _)

/-- A machine that runs, where a directory is in the way of the movie's file. -/
def obstructed : Deck Machine.Accumulator Journal Storage.Tree :=
  { cutOff with
    movie := {}
    queue.launched := true
    disk := ⟨[(["run.m64"], .directory)]⟩ }

theorem refusedStart_leaves_obstructed :
    let refused := obstructed.startRecording 0 ⟨"run.m64"⟩ 0 "" ""
    refused.1 = .error (.io .isADirectory) ∧ refused.2 ≠ obstructed ∧
      refused.2.machine = Core.reset obstructed.machine ∧
      refused.2.queue.pending = [.capture .checkpoint] := by
  have herror : (obstructed.startRecording 0 ⟨"run.m64"⟩ 0 "" "").1 =
      .error (.io .isADirectory) := rfl
  intro refused
  obtain ⟨-, habandoned, hlaunched⟩ :=
    (refusedStart_leaves obstructed).2 0 ⟨"run.m64"⟩ 0 "" "" _ herror
  have hleft := habandoned _ rfl
  exact ⟨herror, fun hd => (hlaunched rfl).1.1 hd _ rfl, hleft.machine,
    congrArg Queue.pending hleft.queue⟩

end Deck

end Rewind
