import Rewind.Proofs.Deck.SeekTargets
import Rewind.Proofs.Deck.Warnings

/-!
Branches of a movie. A load that cuts the movie, and a warp, may put other samples in front of a
position that was saved before; everything else keeps the samples that are there. A position is
checked against the movie by its number and the movie's length, not by what leads up to it. Main
statement: a state is loaded onto its own history if nothing since then has changed the samples in
front of its position (`execute_standsAt_of_onBranch`).
-/

namespace Rewind

open Savestate

namespace Movie

namespace Freeze

theorem currentSample_le_size {uid currentSample currentVi : UInt32} {inputs : Array Sample}
    {other : UInt32} (h : (ofInputs uid currentSample currentVi inputs).check other = .ok ()) :
    currentSample.toNat ≤ inputs.size ∧ (ofInputs uid currentSample currentVi inputs).samples =
      inputs := by
  have hle := currentSample_le_of_check h
  unfold check at h
  split at h
  · cases h
  · split at h
    · cases h
    · split at h
      · cases h
      · split at h
        · cases h
        · next hsize =>
          have hsize : (inputs.push Sample.neutral).size =
              (UInt32.ofNat inputs.size).toNat + 1 := by
            by_contra hne
            exact hsize (.inr hne)
          have hsamples : (ofInputs uid currentSample currentVi inputs).samples = inputs := by
            have hcount : (UInt32.ofNat inputs.size).toNat = inputs.size := by
              simpa using hsize.symm
            change (inputs.push Sample.neutral).take (UInt32.ofNat inputs.size).toNat = inputs
            rw [hcount, ← Array.toList_inj]
            simp
          exact ⟨hsamples ▸ hle, hsamples⟩

end Freeze

namespace Log

/-- The same movie, with its first `n` samples as they were. -/
structure KeepsFirst (n : Nat) (log log' : Log) : Prop where
  uid : log'.header.uid = log.header.uid
  le : n ≤ Warp.commonLength log.inputs log'.inputs

variable {n : Nat} {a b c : Log}

theorem keepsFirst_self (h : n ≤ a.inputs.size) : KeepsFirst n a a :=
  ⟨rfl, Warp.le_commonLength_iff.2 ⟨h, h, rfl⟩⟩

namespace KeepsFirst

theorem le_size (h : KeepsFirst n a b) : n ≤ b.inputs.size := (Warp.le_commonLength_iff.1 h.le).2.1

theorem trans (h : KeepsFirst n a b) (h' : KeepsFirst n b c) : KeepsFirst n a c := by
  obtain ⟨ha, -, hab⟩ := Warp.le_commonLength_iff.1 h.le
  obtain ⟨-, hc, hbc⟩ := Warp.le_commonLength_iff.1 h'.le
  exact ⟨h'.uid.trans h.uid, Warp.le_commonLength_iff.2 ⟨ha, hc, hab.trans hbc⟩⟩

theorem congr (h : KeepsFirst n a b) (hu : c.header.uid = b.header.uid)
    (hi : c.inputs = b.inputs) : KeepsFirst n a c := ⟨hu.trans h.uid, hi ▸ h.le⟩

end KeepsFirst

end Log

end Movie

/-- A state that brings a machine to the end of some samples does so as long as they stay. -/
theorem Replayable.Checkpoint.keepsFirst {M V : Type} [Core M] {R : Replayable M V} {origin : M}
    {log log' : Movie.Log} {k : Nat} {state : ByteArray} (h : R.Checkpoint origin log k state)
    (hk : log.KeepsFirst k log') : R.Checkpoint origin log' k state := by
  obtain ⟨-, hle, ht⟩ := Warp.le_commonLength_iff.1 hk.le
  refine ⟨hle, ?_⟩
  rw [hk.uid, ← ht]
  exact h.restores

namespace Deck

variable {M H D : Type} [Core M] [Frontend H] [Storage D]

/-- Later in the same movie, where the first `n` samples are not changed. `rest` is what a batch
still holds; a drain is taken apart into its batches and requests. Of these, a load that cuts the
movie must keep the samples, and of what happens between drains, a warp. -/
inductive OnBranch (n : Nat) (first : List Request) (d : Deck M H D) :
    List Request → Deck M H D → Prop
  | here : OnBranch n first d first d
  | batch {e : Deck M H D} : OnBranch n first d [] e → OnBranch n first d
    (prepare e.queue.pending e.config.undoOnLoad) { e with queue := e.queue.clear }
  | request {r : Request} {rest : List Request} {e : Deck M H D} :
    OnBranch n first d (r :: rest) e →
    (restoreMode r.tag e.config = some .rerecord →
      n ≤ Warp.commonLength e.movie.inputs (e.execute r).2.movie.inputs) →
    OnBranch n first d rest (e.perform r).2
  | happening {happening : Happening M H D} {e : Deck M H D} : OnBranch n first d [] e →
    e.movie.isActive = true → happening ≠ .call .drain →
    (∀ inputs, happening = .call (.beginWarp inputs) → (e.beginWarp inputs).1 = .ok () →
      n ≤ Warp.commonLength e.movie.inputs inputs) →
    OnBranch n first d [] (e.undergo happening)

variable {n : Nat} {d e : Deck M H D} {first rest : List Request} {log : Movie.Log}

/-! ## What keeps the samples -/

theorem keepsFirst_execute {r : Request} (h : log.KeepsFirst n d.movie)
    (hr : restoreMode r.tag d.config = some .rerecord →
      n ≤ Warp.commonLength d.movie.inputs (d.execute r).2.movie.inputs) :
    log.KeepsFirst n (d.execute r).2.movie := by
  obtain ⟨-, ⟨-, -, hm⟩ | ⟨-, ⟨hm, -⟩ | ⟨hmode, -, hm, -⟩⟩⟩ := execute_cases r d
  · exact hm ▸ h
  · exact hm ▸ h
  · next freeze m =>
    by_cases hcut : m = .rerecord
    · subst hcut
      have hu : (d.execute r).2.movie.header.uid = d.movie.header.uid := by
        rw [hm]
        rfl
      exact h.trans ⟨hu, hr hmode⟩
    · rw [hm]
      refine h.congr ?_ (Movie.Log.inputs_restore_of_ne hcut)
      cases m <;> rfl

theorem keepsFirst_perform {r : Request} (h : log.KeepsFirst n d.movie)
    (hr : restoreMode r.tag d.config = some .rerecord →
      n ≤ Warp.commonLength d.movie.inputs (d.execute r).2.movie.inputs)
    (ha : (d.perform r).2.movie.isActive = true) : log.KeepsFirst n (d.perform r).2.movie := by
  have hexecuted := keepsFirst_execute h hr
  have hp : (d.perform r).2 = ((d.execute r).2.deliver (d.execute r).1).2 := rfl
  obtain ⟨hm, -⟩ | ⟨-, hm, -⟩ | ⟨hm, -⟩ := deliver_settles (d.execute r).1 (d.execute r).2
  · rw [hp, hm]
    exact hexecuted
  · rw [hp, hm]
    exact hexecuted.congr rfl rfl
  · rw [hp, hm] at ha
    cases ha

theorem isActive_of_perform {r : Request} (h : (d.perform r).2.movie.isActive = true) :
    d.movie.isActive = true := by
  have hp : (d.perform r).2 = ((d.execute r).2.deliver (d.execute r).1).2 := rfl
  refine isActive_of_execute (r := r) ?_
  obtain ⟨hm, -⟩ | ⟨waits, -⟩ | ⟨hm, -⟩ := deliver_settles (d.execute r).1 (d.execute r).2
  · rwa [hp, hm] at h
  · cases ht : (d.execute r).2.movie.task <;> simp_all [taskAfterStart?, Movie.Log.isActive]
  · rw [hp, hm] at h
    cases h

omit [Core M] in
theorem keepsFirst_poll (h : log.KeepsFirst n d.movie) (index : Nat) (live : Sample)
    (ha : (d.poll index live).2.movie.isActive = true) :
    log.KeepsFirst n (d.poll index live).2.movie := by
  have harrived : log.KeepsFirst n d.movie.arrive := by
    rw [Movie.Log.arrive_eq]
    exact h.congr rfl rfl
  have hpolls := poll_polls index live d
  generalize d.poll index live = result at hpolls ha ⊢
  cases hpolls with
  | passed => exact (movie_changeMovie _ d).1 ▸ harrived
  | handed polled =>
    rw [(movie_handed _ d).1]
    cases polled with
    | passed => exact harrived
    | played => exact h.congr rfl rfl
    | ended => exact harrived
    | recorded =>
      refine h.trans ⟨rfl, Warp.le_commonLength_iff.2 ⟨h.le_size, ?_, ?_⟩⟩
      · exact Nat.le_trans h.le_size (by simp [Movie.Log.replaceInputs])
      · have hle := h.le_size
        rw [← Array.toList_inj]
        simp [Movie.Log.replaceInputs, hle]
  | @ended d' => rw [movie_stopMovie d'] at ha; cases ha

omit [Core M] [Storage D] in
theorem keepsFirst_beginWarp (h : log.KeepsFirst n d.movie) {inputs : Array Sample}
    (hkeeps : (d.beginWarp inputs).1 = .ok () → n ≤ Warp.commonLength d.movie.inputs inputs) :
    log.KeepsFirst n (d.beginWarp inputs).2.movie := by
  have hwarps := beginWarp_warps inputs d
  generalize d.beginWarp inputs = result at hwarps hkeeps ⊢
  cases hwarps with
  | refused e => exact h
  | same => exact h
  | extended => exact h.trans ⟨rfl, hkeeps rfl⟩
  | replayed running still idle rollbackTo =>
    have hm := movie_withInputs inputs rollbackTo d
    refine h.trans ⟨?_, ?_⟩
    · exact congrArg (·.header.uid) hm
    · change n ≤ Warp.commonLength d.movie.inputs (d.withInputs inputs rollbackTo).movie.inputs
      rw [hm]
      exact hkeeps rfl

theorem keepsFirst_undergo (h : log.KeepsFirst n d.movie) (ha : d.movie.isActive = true)
    {happening : Happening M H D} (hdrain : happening ≠ .call .drain)
    (hwarp : ∀ inputs, happening = .call (.beginWarp inputs) → (d.beginWarp inputs).1 = .ok () →
      n ≤ Warp.commonLength d.movie.inputs inputs)
    (ha' : (d.undergo happening).movie.isActive = true) :
    log.KeepsFirst n (d.undergo happening).movie := by
  cases happening with
  | outside machine frontend disk => exact h
  | call c =>
    have haside (hc : c.isAside = true) : log.KeepsFirst n (d.call c).movie :=
      (call_aside Frontend.follows_unheard hc d).movie ▸ h
    cases c with
    | setLaunched launched => exact (setLaunched_unmoved launched d).1 ▸ h
    | drain => exact absurd rfl hdrain
    | startRecording now path flags author description =>
      exact (congrArg (log.KeepsFirst n ·.2.movie)
        (startRecording_of_isActive ha now path flags author description)).mpr h
    | startPlayback path =>
      exact (congrArg (log.KeepsFirst n ·.2.movie) (startPlayback_of_isActive ha path)).mpr h
    | stopMovie => exact absurd ((movie_stopMovie d).symm.trans ha') Bool.false_ne_true
    | setAuthor path author description =>
      change log.KeepsFirst n (d.setAuthor path author description).2.movie
      obtain ⟨disk, hd | hd⟩ := setAuthor_cases path author description d
      · exact hd ▸ h
      · rw [hd]
        exact h.congr rfl rfl
    | poll index live => exact keepsFirst_poll h index live ha'
    | vi =>
      obtain ⟨currentVi, lengthVis, hvi⟩ := d.movie.vi_eq
      change log.KeepsFirst n d.movie.vi
      rw [hvi]
      exact h.congr rfl rfl
    | beginSeek text pauseAtEnd => exact (beginSeek_unmoved text pauseAtEnd d).1 ▸ h
    | stopSeek => exact (alike_stopSeek d).movie ▸ h
    | beginWarp inputs => exact keepsFirst_beginWarp h (hwarp inputs rfl)
    | _ => exact haside rfl

/-- On a branch, the samples stay as they were while the movie is active. -/
theorem OnBranch.keepsFirst (h : OnBranch n first d rest e) (hn : n ≤ d.movie.inputs.size)
    (ha : e.movie.isActive = true) : d.movie.KeepsFirst n e.movie := by
  induction h with
  | here => exact Movie.Log.keepsFirst_self hn
  | batch _ ih => exact ih ha
  | request _ hr ih => exact keepsFirst_perform (ih (isActive_of_perform ha)) hr ha
  | happening _ hactive hdrain hwarp ih =>
    exact keepsFirst_undergo (ih hactive) hactive hdrain hwarp ha

/-! ## Loads without questions -/

/-- A position that nobody needs to be asked about fits the movie, in its number and length. -/
theorem checkFreeze_of_positionQuestions {freeze : Movie.Freeze} {mode : Movie.RestoreMode}
    (ha : log.isActive = true) (h : log.positionQuestions (some freeze) mode = []) :
    log.checkFreeze freeze mode = .ok () := by
  cases hc : log.checkFreeze freeze mode with
  | ok => rfl
  | error cause =>
    rw [Movie.Log.positionQuestions_of_error hc, ha] at h
    cases h

/-- A caller's load about which nobody is asked moves the movie to the position, and the machine
takes the state over. -/
theorem execute_of_no_questions {r : Request} (hr : r.IsCallersLoad)
    (hheard : d.config.silent = false) (ha : d.movie.isActive = true) {data : ByteArray}
    {hash : Wire.Block Machine.romHashSize} (hfetch : d.fetchState r.medium = .ok (data, hash))
    {decoded : Decoded} (hdecode : decode data = .ok decoded) {freeze : Movie.Freeze}
    (hposition : decoded.snapshot.movie = some freeze) {mode : Movie.RestoreMode}
    (hmode : d.config.restoreMode = mode)
    (hquiet : d.romQuestions hash ++ d.movie.positionQuestions (some freeze) mode = []) :
    (d.execute r).1.result = .ok data ∧ d.movie.checkFreeze freeze mode = .ok () ∧
      (d.execute r).2.movie = d.movie.restore freeze mode ∧
      ∃ legacy, (d.execute r).2.machine = Core.noteEntry legacy (decoded.resume d.machine) := by
  have hc := checkFreeze_of_positionQuestions ha (List.append_eq_nil_iff.1 hquiet).2
  have hloaded := loadState_of_heard hheard hfetch hdecode mode
  rw [hposition, hquiet, Movie.Log.admitted_of_ok hc] at hloaded
  obtain ⟨hresult, hleft⟩ := execute_of_isCallersLoad hr d
  rw [hmode] at hresult hleft
  rw [hresult, hleft, hloaded]
  refine ⟨rfl, hc, ?_, _, congrArg (Core.noteEntry _)
    (machine_applyState decoded (some (freeze, mode)) (d.questioned []))⟩
  let d₁ : Deck M H D := { d.questioned [] with machine := decoded.resume d.machine }
  have hshown := alike_restoreScreen decoded.snapshot.screenshot (d₁.restorePosition freeze mode)
  exact hshown.movie.trans (movie_restorePosition (d := d₁) hc)

/-- A drain carries out a caller's load that is pending in front of checkpoints, and then these. -/
theorem captured_drain_of_load {r : Request} (hr : r.IsCallersLoad) {rs : List Request}
    (hp : d.queue.pending = r :: rs) (h : ∀ r ∈ rs, r = .capture .checkpoint)
    (hundo : d.config.undoOnLoad = false) :
    Captured ({ d with queue := d.queue.clear }.execute r).2 d.drain.2 := by
  let cleared : Deck M H D := { d with queue := d.queue.clear }
  have hload : r.isLoad = true := by rw [Request.isLoad, hr.job]; rfl
  have hdelivered : (cleared.perform r).2 = (cleared.execute r).2 := by
    change ((cleared.execute r).2.deliver ⟨r.job, r.tag, r.medium.label, _⟩).2 = _
    obtain ht | ⟨id, ht⟩ := hr.tag <;> rw [ht] <;> rfl
  have hbatch : d.runBatch.2 = ((cleared.execute r).2.performAll rs).2 := by
    rw [runBatch, hp, hundo, prepare_load_of_captures hload h, ← hdelivered]
    rfl
  have hcaptured : Captured (cleared.execute r).2 d.runBatch.2 := hbatch ▸ captured_performAll _ h
  obtain ⟨checkpoints, ht⟩ := hcaptured.tape
  have hq : d.runBatch.2.queue = (cleared.execute r).2.queue := congrArg Tape.queue ht
  have hq : d.runBatch.2.queue.pending = [] := by
    rw [hq, queue_execute]
    rfl
  rwa [drain_eq_runBatch (by rw [hp]; exact List.cons_ne_nil _ _) hq]

omit [Core M] [Frontend H] [Storage D] in
/-- The samples of a well-formed position are those of the movie that it was taken from. -/
theorem samples_of_freeze {freeze : Movie.Freeze} {uid : UInt32} (hf : log.freeze = some freeze)
    (hcheck : freeze.check uid = .ok ()) :
    freeze.currentSample.toNat ≤ log.inputs.size ∧ freeze.samples = log.inputs := by
  unfold Movie.Log.freeze at hf
  split at hf
  · cases hf
    exact Movie.Freeze.currentSample_le_size hcheck
  · cases hf

/-- **A state that is loaded without a question is loaded onto its own history, as long as nothing
has changed the samples in front of its position.** On a deck that only reads, the load keeps the
samples and leaves the movie as playback at the position. The samples in front of it are those of
the state if and only if they were before, which is certain later in the same movie where neither a
load nor a warp has changed them; and then the machine is where they lead. -/
theorem execute_standsAt_of_onBranch {freeze : Movie.Freeze}
    (hfreeze : d.movie.freeze = some freeze) {r : Request} (hr : r.IsCallersLoad)
    (hread : e.config.readOnly = true) (hheard : e.config.silent = false)
    (ha : e.movie.isActive = true) {data : ByteArray} {hash : Wire.Block Machine.romHashSize}
    (hfetch : e.fetchState r.medium = .ok (data, hash))
    {decoded : Decoded} (hdecode : decode data = .ok decoded)
    (hposition : decoded.snapshot.movie = some freeze)
    (hquiet : e.romQuestions hash ++ e.movie.positionQuestions (some freeze) .readOnly = []) :
    let position := freeze.currentSample.toNat
    let loaded := (e.execute r).2
    (e.execute r).1.result = .ok data ∧ loaded.movie.task = .playback ∧
      loaded.movie.inputs = e.movie.inputs ∧
      (loaded.movie.StandsAt freeze ↔ e.movie.LeadsTo freeze) ∧
      ∀ first rest, OnBranch position first d (r :: rest) e → loaded.movie.StandsAt freeze ∧
        ∀ {V : Type} (R : Replayable M V) (origin : M),
          R.Checkpoint origin d.movie position data → R.Ready e.machine →
          R.view loaded.machine = R.view (R.replay origin (loaded.movie.inputs.take position)) := by
  intro position loaded
  have hmode : e.config.restoreMode = .readOnly := by rw [Config.restoreMode, hread]; rfl
  obtain ⟨hok, hc, hm, legacy, hmachine⟩ :=
    execute_of_no_questions hr hheard ha hfetch hdecode hposition hmode hquiet
  have hloaded : loaded.movie = e.movie.restore freeze .readOnly := hm
  have hstands : loaded.movie.StandsAt freeze ↔ e.movie.LeadsTo freeze := by
    rw [hloaded]
    exact ⟨And.right, fun h => ⟨rfl, h⟩⟩
  refine ⟨hok, by rw [hloaded]; rfl, by rw [hloaded]; rfl, hstands, fun first rest hbranch => ?_⟩
  obtain ⟨hle, hsamples⟩ := samples_of_freeze hfreeze (Movie.Log.checkFreeze_eq_ok hc).2.1
  have hkept := hbranch.keepsFirst hle ha
  obtain ⟨-, hsize, ht⟩ := Warp.le_commonLength_iff.1 hkept.le
  refine ⟨hstands.2 ⟨hsize, hsamples ▸ hle, hsamples ▸ ht.symm⟩,
    fun R origin hcheckpoint hready => ?_⟩
  obtain ⟨decoded', -, hdecode', -, -, -, -, hrestores⟩ := (hcheckpoint.keepsFirst hkept).restores
  cases hdecode.symm.trans hdecode'
  rw [show loaded.machine = _ from hmachine, R.view_noteEntry, (hrestores _ hready).2, hloaded]
  rfl

/-- A recording at its start, on a deck that captures nothing for undo. -/
def freshReel : Deck Machine.Accumulator Journal Storage.Sink :=
  ({ running with config.undoOnLoad := false } :
    Deck Machine.Accumulator Journal Storage.Sink).after
    [.call (.startRecording 7 ⟨"run.m64"⟩ 0 "" "")]

/-- The same after its first sample. -/
def oneSample : Deck Machine.Accumulator Journal Storage.Sink :=
  freshReel.after [.call (.poll 0 ⟨1, 0, 0⟩),
    .outside (freshReel.machine.step ⟨1, 0, 0⟩) id freshReel.disk]

/-- The positions in front of the sample and behind it, and the machine there. -/
def startPosition : Movie.Freeze := .ofInputs 7 0 0 #[]

def firstPosition : Movie.Freeze := .ofInputs 7 1 0 #[⟨1, 0, 0⟩]

def startState : Machine.Snapshot := Core.captureAt startPosition freshReel.machine

def firstState : Machine.Snapshot := Core.captureAt firstPosition oneSample.machine

theorem sound_freshReel : Machine.Accumulator.Sound freshReel.machine := .of_reset (by decide)

/-- A machine that is saved as it is can be read again. -/
theorem saveState_memory {s : Machine.Snapshot} (h : s.Savable) (hs : d.snapshot = s) :
    ∃ state, (d.saveState (.memory .empty)).1 = .ok state ∧ decode state = .ok ⟨s, false⟩ := by
  refine ⟨_, ?_, h.decode_eq⟩
  rw [saveState_eq, hs, h.encode_eq]
  rfl

theorem savable_startState : startState.Savable :=
  sound_freshReel.savable_captureAt rfl

theorem savable_firstState : firstState.Savable :=
  (sound_freshReel.step ⟨1, 0, 0⟩).savable_captureAt rfl

/-- The load of a state that a caller has. -/
def loadOf (state : ByteArray) (id : UInt64) : Request :=
  { job := .load, medium := .memory state, tag := some (.caller id) }

theorem isCallersLoad_loadOf (state : ByteArray) (id : UInt64) : (loadOf state id).IsCallersLoad :=
  ⟨rfl, rfl, .inr ⟨id, rfl⟩⟩

/-- The first state is loaded where it was made, on a deck that only reads. -/
theorem execute_standsAt_firstState :
    ∃ state, (oneSample.saveState (.memory .empty)).1 = .ok state ∧
      let asked := oneSample.after [.call (.setReadOnly true), .call (.loadMemory state 2)]
      let loaded := ({ asked with queue := asked.queue.clear }.execute (loadOf state 2)).2
      loaded.movie.task = .playback ∧ loaded.movie.StandsAt firstPosition ∧
        Machine.Accumulator.replayable.view loaded.machine =
          Machine.Accumulator.replayable.view oneSample.machine := by
  obtain ⟨state, hsaved, hdecode⟩ := saveState_memory (d := oneSample) savable_firstState rfl
  refine ⟨state, hsaved, ?_⟩
  intro asked loaded
  let e : Deck Machine.Accumulator Journal Storage.Sink :=
    { asked with queue := asked.queue.clear }
  have hbranch : OnBranch 1 [] oneSample [loadOf state 2, .capture .checkpoint] e := by
    have hreads : OnBranch 1 [] oneSample []
        (oneSample.undergo (.call (.setReadOnly true))) :=
      OnBranch.here.happening rfl nofun nofun
    have hasked : OnBranch 1 [] oneSample []
        ((oneSample.undergo (.call (.setReadOnly true))).undergo (.call (.loadMemory state 2))) :=
      hreads.happening rfl nofun nofun
    have hbatch : OnBranch 1 [] oneSample (prepare asked.queue.pending asked.config.undoOnLoad) e :=
      hasked.batch
    have hq : asked.queue.pending = [loadOf state 2, .capture .checkpoint] := rfl
    have hundo : asked.config.undoOnLoad = false := rfl
    rwa [hq, hundo, prepare_load_of_captures rfl (by simp)] at hbatch
  have hrom : e.romQuestions firstState.romHash = [] := romQuestions_of_eq rfl
  have hquiet : e.romQuestions firstState.romHash ++
      e.movie.positionQuestions (some firstPosition) .readOnly = [] := by
    rw [hrom]
    rfl
  obtain ⟨-, htask, hinputs, -, hdone⟩ := execute_standsAt_of_onBranch (d := oneSample) rfl
    (isCallersLoad_loadOf state 2) rfl rfl rfl
    (fetchState_memory hdecode sound_freshReel.isAscii e) hdecode rfl hquiet
  obtain ⟨hstands, hview⟩ := hdone [] [.capture .checkpoint] hbranch
  have hsound := sound_freshReel.step ⟨1, 0, 0⟩
  have hcheckpoint : Machine.Accumulator.replayable.Checkpoint freshReel.machine oneSample.movie 1
      state :=
    ⟨Nat.le_refl 1, ⟨firstState, false⟩, firstPosition, hdecode, sound_freshReel.isAscii,
      rfl, rfl, rfl, fun m hm => Machine.Accumulator.replayable.restores hsound hm firstPosition⟩
  have hloaded := hview Machine.Accumulator.replayable freshReel.machine hcheckpoint
    (Machine.Accumulator.replayable.ready_of_sound hsound)
  rw [hinputs] at hloaded
  exact ⟨htask, hstands, hloaded⟩

/-- At some point of a drain, a deck that only reads is to load a state with a position in its
movie. Nobody is asked, and the state is loaded; but the samples that are now in front of the cursor
are not the state's. -/
def LandsElsewhere (r : Request) (hash : Wire.Block Machine.romHashSize)
    (position : Movie.Freeze) (d : Deck M H D) : Prop :=
  ∃ e rest, Passes d (r :: rest) e ∧ e.config.readOnly = true ∧ e.config.silent = false ∧
    e.movie.isActive = true ∧ e.movie.header.uid = position.uid ∧
    e.romQuestions hash ++ e.movie.positionQuestions (some position) .readOnly = [] ∧
    let k := position.currentSample.toNat
    (e.execute r).1.result.isOk = true ∧ (e.execute r).2.movie.currentSample = k ∧
      (e.execute r).2.movie.inputs.take k ≠ position.samples.take k

/-- The first sample is recorded once more. -/
def secondTake : Movie.Log :=
  ((oneSample.movie.restore startPosition .rerecord).poll 0 ⟨2, 0, 0⟩).2.2

theorem tape_rewound {d : Deck Machine.Accumulator Journal Storage.Sink} {state : ByteArray}
    (hdecode : decode state = .ok ⟨startState, false⟩)
    (hqueue : d.queue = ⟨true, [loadOf state 1, .capture .checkpoint]⟩)
    (hmovie : d.movie = oneSample.movie) (hconfig : d.config = oneSample.config)
    (hrom : d.machine.rom = oneSample.machine.rom) :
    ∃ checkpoints machine, machine.rom = oneSample.machine.rom ∧ d.drain.2.tape =
      ⟨oneSample.config, ⟨true, []⟩, oneSample.movie.restore startPosition .rerecord, checkpoints,
        machine⟩ := by
  let cleared : Deck Machine.Accumulator Journal Storage.Sink :=
    { d with queue := d.queue.clear }
  have hr := isCallersLoad_loadOf state 1
  have hc : cleared.config = oneSample.config := hconfig
  have hm : cleared.movie = oneSample.movie := hmovie
  have hcheck : cleared.movie.checkFreeze startPosition .rerecord = .ok () := by rw [hm]; rfl
  have hquiet : cleared.romQuestions startState.romHash ++
      cleared.movie.positionQuestions (some startPosition) .rerecord = [] := by
    rw [romQuestions_of_eq (congrArg (·.md5) hrom.symm)]
    exact Movie.Log.positionQuestions_of_ok hcheck
  obtain ⟨-, -, hmovie', legacy, hmachine⟩ := execute_of_no_questions hr (by rw [hc]; rfl)
    (by rw [hm]; rfl) (fetchState_memory hdecode sound_freshReel.isAscii cleared) hdecode rfl
    (by rw [hc]; rfl) hquiet
  have hcaptured : Captured (cleared.execute (loadOf state 1)).2 d.drain.2 :=
    captured_drain_of_load hr (congrArg (·.pending) hqueue) (by simp) (by rw [hconfig]; rfl)
  obtain ⟨checkpoints, ht⟩ := hcaptured.tape
  refine ⟨checkpoints, d.drain.2.machine, ?_, ht.trans ?_⟩
  · have hsi : (Core.noteEntry legacy ((⟨startState, false⟩ : Decoded).resume cleared.machine) :
        Machine.Accumulator).state.interrupts.has Machine.Interrupt.si = true := by
      rw [Machine.Accumulator.state_noteEntry, Machine.Accumulator.state_resume]
      exact savable_startState.has_si
    rw [hcaptured.machine (by rw [hmachine]; exact hsi), hmachine,
      Machine.Accumulator.rom_noteEntry, Machine.Accumulator.rom_resume]
    exact hrom
  · have hqueue' : (cleared.execute (loadOf state 1)).2.queue = ⟨true, []⟩ := by
      rw [queue_execute]
      exact congrArg Queue.clear hqueue
    rw [tape, hqueue', (execute_cases _ cleared).1, hc, hmovie', hm]

theorem tape_secondTake {d : Deck Machine.Accumulator Journal Storage.Sink}
    {checkpoints : Checkpoints} {machine : Machine.Accumulator}
    (ht : d.tape = ⟨oneSample.config, ⟨true, []⟩, oneSample.movie.restore startPosition .rerecord,
      checkpoints, machine⟩) (state : ByteArray) :
    ∃ rs, (∀ r ∈ rs, r = .capture .checkpoint) ∧
      (d.after [.call (.poll 0 ⟨2, 0, 0⟩), .call (.setReadOnly true),
        .call (.loadMemory state 2)]).tape =
      ⟨{ oneSample.config with readOnly := true }, ⟨true, loadOf state 2 :: rs⟩, secondTake,
        checkpoints, machine⟩ := by
  have hm : d.movie = oneSample.movie.restore startPosition .rerecord := congrArg Tape.movie ht
  have hp : d.movie.poll 0 ⟨2, 0, 0⟩ = (.recorded, ⟨2, 0, 0⟩, secondTake) := by rw [hm]; rfl
  have hloaded {e : Deck Machine.Accumulator Journal Storage.Sink} {rs : List Request}
      (he : e.tape = ⟨oneSample.config, ⟨true, rs⟩, secondTake, checkpoints, machine⟩) :
      (e.after [.call (.setReadOnly true), .call (.loadMemory state 2)]).tape =
        ⟨{ oneSample.config with readOnly := true }, ⟨true, loadOf state 2 :: rs⟩, secondTake,
          checkpoints, machine⟩ := by
    obtain ⟨⟨config, queue, movie, store, seek, warp, undo, slot⟩, m, frontend, disk⟩ := e
    cases he
    rfl
  obtain hpolled | hpolled := tape_poll_of_handed hp (.inl rfl)
  · exact ⟨[], nofun, hloaded (hpolled.trans (by rw [ht]; rfl))⟩
  · exact ⟨[.capture .checkpoint], by simp, hloaded (hpolled.trans (by rw [ht]; rfl))⟩

/-- The load of the state behind the first sample, in the second take. -/
theorem landsElsewhere_secondTake {d : Deck Machine.Accumulator Journal Storage.Sink}
    {state : ByteArray} (hdecode : decode state = .ok ⟨firstState, false⟩) {rs : List Request}
    (hrs : ∀ r ∈ rs, r = .capture .checkpoint) {checkpoints : Checkpoints}
    {machine : Machine.Accumulator} (hrom : machine.rom = oneSample.machine.rom)
    (ht : d.tape = ⟨{ oneSample.config with readOnly := true }, ⟨true, loadOf state 2 :: rs⟩,
      secondTake, checkpoints, machine⟩) :
    d.LandsElsewhere (loadOf state 2) firstState.romHash firstPosition := by
  let e : Deck Machine.Accumulator Journal Storage.Sink := { d with queue := d.queue.clear }
  have hpasses : Passes d (loadOf state 2 :: rs) e := by
    have hq : d.queue.pending = loadOf state 2 :: rs := congrArg (·.queue.pending) ht
    have hundo : d.config.undoOnLoad = false := congrArg (·.config.undoOnLoad) ht
    have hbatch := Passes.batch (.start (d := d))
    rwa [hq, hundo, prepare_load_of_captures rfl hrs] at hbatch
  have hm : e.movie = secondTake := congrArg Tape.movie ht
  have hc : e.config = { oneSample.config with readOnly := true } := congrArg Tape.config ht
  have he : e.machine.rom = oneSample.machine.rom := (congrArg (·.machine.rom) ht).trans hrom
  have hquiet : e.romQuestions firstState.romHash ++
      e.movie.positionQuestions (some firstPosition) .readOnly = [] := by
    rw [romQuestions_of_eq (congrArg (·.md5) he.symm), hm]
    rfl
  obtain ⟨hok, -, hmovie, -⟩ := execute_of_no_questions (isCallersLoad_loadOf state 2)
    (by rw [hc]; rfl) (by rw [hm]; rfl)
    (fetchState_memory hdecode sound_freshReel.isAscii e) hdecode rfl (by rw [hc]; rfl) hquiet
  refine ⟨e, rs, hpasses, by rw [hc], by rw [hc]; rfl, by rw [hm]; rfl, by rw [hm]; rfl, hquiet,
    by rw [hok]; rfl, ?_, ?_⟩
  · rw [hmovie]
    rfl
  · rw [hmovie, hm]
    decide

/-- **Another branch's history can be loaded without a question.** A state is made behind the first
sample of a recording. The recording is then cut to nothing, and goes on with another sample. When
the state is loaded again, on a deck that only reads, nobody is asked, and the cursor is behind a
sample that did not lead to the state. -/
theorem landsElsewhere_of_rerecord :
    ∃ start first, (freshReel.saveState (.memory .empty)).1 = .ok start ∧
      oneSample.movie.freeze = some firstPosition ∧
      (oneSample.saveState (.memory .empty)).1 = .ok first ∧
      let rewound := (oneSample.call (.loadMemory start 1)).drain.2
      let again := rewound.after [.call (.poll 0 ⟨2, 0, 0⟩), .call (.setReadOnly true),
        .call (.loadMemory first 2)]
      again.LandsElsewhere (loadOf first 2) firstState.romHash firstPosition := by
  obtain ⟨start, hstart, hdecode⟩ := saveState_memory (d := freshReel) savable_startState rfl
  obtain ⟨first, hfirst, hdecode'⟩ := saveState_memory (d := oneSample) savable_firstState rfl
  refine ⟨start, first, hstart, rfl, hfirst, ?_⟩
  intro rewound again
  obtain ⟨checkpoints, machine, hrom, hrewound⟩ :=
    tape_rewound (d := oneSample.call (.loadMemory start 1)) hdecode rfl rfl rfl rfl
  obtain ⟨rs, hrs, ht⟩ := tape_secondTake hrewound first
  exact landsElsewhere_secondTake hdecode' hrs hrom ht

end Deck

end Rewind
