import Rewind.Proofs.Deck.Requests
import Rewind.Proofs.Movie.Polling
import Rewind.Proofs.Savestate.Batches

/-!
Machines in step with a movie. A tape is in step if its machine is the one from power-on that has
consumed the samples in front of the cursor, every checkpoint brings back such a machine, and
nothing is pending but saves and loads of checkpoints (`Tape.InStep`). Main statement: carrying out
what is pending keeps a tape in step, and leaves the movie's samples alone (`drain_inStep`).
-/

namespace Rewind

open Savestate

namespace Movie.Log

theorem sameReel_restore (log : Log) (freeze : Freeze) :
    log.SameReel (log.restore freeze .reposition) := ⟨rfl, rfl, rfl⟩

theorem Repositioned.sameReel {log log' : Log} (h : log.Repositioned log') :
    log.SameReel log' := by
  obtain rfl | ⟨freeze, -, rfl⟩ := h
  · exact .of_eq rfl
  · exact log.sameReel_restore freeze

theorem Repositioned.currentSample_le {log log' : Log} (h : log.Repositioned log')
    (hc : log.currentSample ≤ log.inputs.size) : log'.currentSample ≤ log'.inputs.size := by
  obtain rfl | ⟨freeze, hle, rfl⟩ := h
  · exact hc
  · exact hle

end Movie.Log

/-! ## The invariant -/

namespace Replayable

variable {M V : Type} [Core M] (R : Replayable M V)

/-- A savestate that brings a machine to sample `k` of a movie. -/
structure Checkpoint (origin : M) (log : Movie.Log) (k : Nat) (state : ByteArray) : Prop where
  le_size : k ≤ log.inputs.size
  restores : ∃ decoded freeze, decode state = .ok decoded ∧ decoded.snapshot.romHash.IsAscii ∧
    decoded.snapshot.movie = some freeze ∧ freeze.check log.header.uid = .ok () ∧
    freeze.currentSample.toNat = k ∧
    ∀ m, R.Ready m → R.Sound (decoded.resume m) ∧
      R.view (decoded.resume m) = R.view (R.replay origin (log.inputs.take k))

/-- The requests that leave a movie's samples alone: saves, and loads of checkpoints. -/
def Allows (origin : M) (log : Movie.Log) (r : Request) : Prop :=
  r.job = .save ∨ ∃ state, r = Deck.rollbackRequest state ∧
    (log.isActive = true → log.inputs.size < UInt32.size → ∃ k, R.Checkpoint origin log k state)

variable {R} {origin : M} {log log' : Movie.Log}

theorem Checkpoint.grow {k : Nat} {state : ByteArray} (h : R.Checkpoint origin log k state)
    (hg : log.GrowsTo log') : R.Checkpoint origin log' k state := by
  obtain ⟨more, hi⟩ := hg.inputs
  have ht : log'.inputs.take k = log.inputs.take k := by
    rw [hi, ← Array.toList_inj]
    simp [Nat.sub_eq_zero_of_le h.le_size]
  refine ⟨by rw [hi, Array.size_append]; exact Nat.le_add_right_of_le h.le_size, ?_⟩
  rw [hg.uid, ht]
  exact h.restores

theorem Allows.grow {r : Request} (h : R.Allows origin log r) (hg : log.GrowsTo log')
    (ha : log'.isActive = true → log.isActive = true) : R.Allows origin log' r := by
  obtain h | ⟨state, hr, hc⟩ := h
  · exact .inl h
  · refine .inr ⟨state, hr, fun ha' hb => ?_⟩
    obtain ⟨k, hk⟩ := hc (ha ha') (Nat.lt_of_le_of_lt hg.size_le hb)
    exact ⟨k, hk.grow hg⟩

theorem Allows.of_inactive {r : Request} (h : R.Allows origin log r)
    (ha : log'.isActive = false) : R.Allows origin log' r :=
  h.imp id fun ⟨state, hr, _⟩ =>
    ⟨state, hr, fun ha' => absurd (ha.symm.trans ha') Bool.false_ne_true⟩

theorem Allows.sameReel {r : Request} (h : R.Allows origin log r) (hs : log.SameReel log') :
    R.Allows origin log' r :=
  h.grow hs.growsTo fun ha => hs.isActive ▸ ha

end Replayable

namespace Tape

variable {M V : Type} [Core M] (R : Replayable M V) (origin : M)

/-- The machine and every checkpoint are where the movie is. -/
structure Synced (t : Tape M) : Prop where
  sound : R.Sound t.machine
  view_eq : R.view t.machine =
    R.view (R.replay origin (t.movie.inputs.take t.movie.currentSample))
  checkpoints : ∀ e ∈ t.checkpoints.entries, R.Checkpoint origin t.movie e.1 e.2

/-- Nothing pending can bring the machine out of step with the movie, and it is in step while the
movie is active, as far as savestates can count its samples. -/
structure InStep (t : Tape M) : Prop where
  noStart : Deck.taskAfterStart? t.movie.task = none
  present : t.movie.header.controllerPresent 0 = true
  noScreen : t.config.stScreenshot = false
  cursor_le : t.movie.currentSample ≤ t.movie.inputs.size
  requests : ∀ r ∈ t.queue.pending, R.Allows origin t.movie r
  synced : t.movie.isActive = true → t.movie.inputs.size < UInt32.size → t.Synced R origin

variable {R origin} {t : Tape M}

theorem InStep.ask (h : t.InStep R origin) {r : Request} (hr : R.Allows origin t.movie r) :
    (t.ask r).InStep R origin := by
  refine { h with requests := ?_, synced := ?_ }
  · intro r' hr'
    obtain rfl | hr' := List.mem_cons.1 hr'
    · exact hr
    · exact h.requests r' hr'
  · intro ha hb
    have hs := h.synced ha hb
    exact ⟨hs.sound, hs.view_eq, hs.checkpoints⟩

/-- Another machine takes the place of one that was not in step. -/
theorem InStep.withMachine (h : t.InStep R origin) {machine : M}
    (hm : t.movie.isActive = true → t.movie.inputs.size < UInt32.size → machine = t.machine) :
    (t.withMachine machine).InStep R origin := by
  refine { h with synced := fun ha hb => ?_ }
  have hs := h.synced ha hb
  cases hm ha hb
  exact ⟨hs.sound, hs.view_eq, hs.checkpoints⟩

/-- The movie goes on, and the machine with it. -/
theorem InStep.advance (h : t.InStep R origin) {log : Movie.Log} {machine : M}
    (hg : t.movie.GrowsTo log) (ha : log.isActive = true → t.movie.isActive = true)
    (hs : Deck.taskAfterStart? log.task = none) (hp : log.header.controllerPresent 0 = true)
    (hc : log.currentSample ≤ log.inputs.size)
    (hm : t.Synced R origin → R.Sound machine ∧ R.view machine =
      R.view (R.replay origin (log.inputs.take log.currentSample))) :
    ((t.withMovie log).withMachine machine).InStep R origin := by
  refine ⟨hs, hp, h.noScreen, hc, fun r hr => (h.requests r hr).grow hg ha, fun ha' hb => ?_⟩
  have hsync := h.synced (ha ha') (Nat.lt_of_le_of_lt hg.size_le hb)
  obtain ⟨hsound, hview⟩ := hm hsync
  exact ⟨hsound, hview, fun e he => (hsync.checkpoints e he).grow hg⟩

/-- Without a movie, any machine is in step. -/
theorem InStep.dropMovie (h : t.InStep R origin) (machine : M) :
    (t.dropMovie.withMachine machine).InStep R origin :=
  ⟨rfl, h.present, h.noScreen, Nat.le_refl _, fun r hr => (h.requests r hr).of_inactive rfl,
    fun ha => absurd ha Bool.false_ne_true⟩

end Tape

namespace Deck

variable {M V H D : Type} [Core M] [Frontend H] {R : Replayable M V} {origin : M}

theorem keepCheckpoint_inStep {d : Deck M H D} (h : d.tape.InStep R origin) {state : ByteArray}
    (hc : d.movie.isActive = true → d.movie.inputs.size < UInt32.size →
      R.Checkpoint origin d.movie d.movie.currentSample state) :
    (d.keepCheckpoint state).tape.InStep R origin := by
  unfold keepCheckpoint
  split
  · next ha =>
    refine { h with synced := fun _ hb => ?_ }
    have hs := h.synced ha hb
    refine ⟨hs.sound, hs.view_eq, fun e he => ?_⟩
    obtain rfl | ⟨he, -⟩ := Checkpoints.mem_insert he
    · exact hc ha hb
    · exact hs.checkpoints e he
  · exact h

omit [Core M] in
theorem movie_keepCheckpoint (state : ByteArray) (d : Deck M H D) :
    (d.keepCheckpoint state).movie = d.movie := by
  unfold keepCheckpoint; split <;> rfl

variable [Storage D]

/-- What is saved in step is a checkpoint. -/
theorem saveState_checkpoint {d : Deck M H D} (h : d.tape.InStep R origin)
    (ha : d.movie.isActive = true) (hb : d.movie.inputs.size < UInt32.size) {medium : Medium}
    {state : ByteArray} (hok : (d.saveState medium).1 = .ok state) :
    R.Checkpoint origin d.movie d.movie.currentSample state := by
  have hs := h.synced ha hb
  let freeze := Movie.Freeze.ofInputs d.movie.header.uid (UInt32.ofNat d.movie.currentSample)
    (UInt32.ofNat d.movie.currentVi) d.movie.inputs
  have hf : d.movie.freeze = some freeze := if_pos ha
  have hsnap : d.snapshot = Core.captureAt freeze d.machine := by
    rw [snapshot, hf, if_neg (by rw [show d.config.stScreenshot = false from h.noScreen]; simp)]
    rfl
  have hsize : freeze.inputs.size = freeze.lengthSamples.toNat + 1 :=
    Movie.Freeze.size_inputs_ofInputs hb
  obtain ⟨encoded, he, rfl⟩ := saveState_eq_ok hok
  obtain ⟨bytes, he', hd⟩ := R.survives hs.sound freeze hsize
  rw [hsnap] at he
  cases he.symm.trans he'
  refine ⟨h.cursor_le, _, freeze, hd, R.isAscii hs.sound, rfl,
    Movie.Freeze.check_ofInputs hb h.cursor_le,
    UInt32.toNat_ofNat_of_lt' (Nat.lt_of_le_of_lt h.cursor_le hb), fun m hm => ?_⟩
  obtain ⟨hsound, hview⟩ := R.restores hs.sound hm freeze
  exact ⟨hsound, hview.trans hs.view_eq⟩

theorem perform_save_inStep {d : Deck M H D} (h : d.tape.InStep R origin) {r : Request}
    (hr : r.job = .save) :
    (d.perform r).2.tape.InStep R origin ∧ d.movie.SameReel (d.perform r).2.movie := by
  have hsaved : (d.saveState r.medium).2.tape.InStep R origin := by
    obtain ⟨machine, ht⟩ := tape_saveState r.medium d
    rw [ht]
    refine h.withMachine fun ha hb => ?_
    have hsi := R.has_si (R.ready_of_sound (h.synced ha hb).sound)
    exact congrArg Tape.machine (ht.symm.trans (tape_saveState_of_si hsi r.medium))
  have hmovie : (d.saveState r.medium).2.movie = d.movie := by
    obtain ⟨machine, ht⟩ := tape_saveState r.medium d
    exact congrArg Tape.movie ht
  rw [perform_save_eq hr]
  obtain ht | ⟨-, state, hok, ht⟩ := tape_deliver (d := (d.saveState r.medium).2) hsaved.noStart
    ⟨.save, r.tag, r.medium.label, (d.saveState r.medium).1⟩
  · exact ⟨ht ▸ hsaved, .of_eq ((congrArg Tape.movie ht).trans hmovie)⟩
  · have hkeep : ((d.saveState r.medium).2.keepCheckpoint state).tape.InStep R origin :=
      keepCheckpoint_inStep hsaved fun ha hb => by
        rw [hmovie] at ha hb ⊢
        exact saveState_checkpoint h ha hb hok
    have hkept := (movie_keepCheckpoint state (d.saveState r.medium).2).trans hmovie
    exact ⟨ht ▸ hkeep, .of_eq ((congrArg Tape.movie ht).trans hkept)⟩

/-- The return to a checkpoint brings the machine to where the checkpoint was made. -/
theorem perform_checkpoint {d : Deck M H D} {k : Nat} {state : ByteArray}
    (hc : R.Checkpoint origin d.movie k state) (ha : d.movie.isActive = true)
    (hm : R.Ready d.machine) :
    ∃ machine freeze, (d.perform (rollbackRequest state)).2.tape =
        (d.tape.withMachine machine).withMovie (d.movie.restore freeze .reposition) ∧
      freeze.currentSample.toNat = k ∧ R.Sound machine ∧
      R.view machine = R.view (R.replay origin (d.movie.inputs.take k)) := by
  obtain ⟨hle, decoded, freeze, hd, hascii, hmovie, hcheck, rfl, hres⟩ := hc
  have hf := Movie.Log.checkFreeze_reposition_iff.2 ⟨ha, hcheck, hle⟩
  have ht := tape_applyState_reposition decoded hf
  obtain ⟨hsound, hview⟩ := hres _ hm
  have hmachine : (d.applyState decoded (some (freeze, .reposition))).machine =
      decoded.resume d.machine := congrArg Tape.machine ht
  let legacy := Core.programCounter (decoded.resume d.machine) == legacyEntry
  refine ⟨Core.noteEntry legacy (decoded.resume d.machine), freeze, ?_, rfl,
    R.sound_noteEntry legacy hsound, (R.view_noteEntry legacy _).trans hview⟩
  rw [perform_rollback_eq hd hascii hmovie hf, tape_finishRollback, tape_settleEntry, ht, hmachine]
  rfl

theorem perform_rollback_inStep {d : Deck M H D} (h : d.tape.InStep R origin) {state : ByteArray}
    (hc : d.movie.isActive = true → d.movie.inputs.size < UInt32.size →
      ∃ k, R.Checkpoint origin d.movie k state) :
    (d.perform (rollbackRequest state)).2.tape.InStep R origin ∧
      d.movie.SameReel (d.perform (rollbackRequest state)).2.movie := by
  obtain ⟨machine, log, ht, hlog⟩ := tape_perform_rollback state d
  have hreel : d.movie.SameReel log := hlog.sameReel
  have hmovie : (d.perform (rollbackRequest state)).2.movie = log := congrArg Tape.movie ht
  rw [hmovie, ht]
  refine ⟨?_, hreel⟩
  refine ⟨hreel.task ▸ h.noStart, hreel.header ▸ h.present, h.noScreen,
    hlog.currentSample_le h.cursor_le, fun r hr => (h.requests r hr).sameReel hreel,
    fun ha hb => ?_⟩
  have ha : d.movie.isActive = true := hreel.isActive ▸ ha
  have hb : d.movie.inputs.size < UInt32.size := hreel.inputs ▸ hb
  have hs := h.synced ha hb
  obtain ⟨k, hk⟩ := hc ha hb
  obtain ⟨machine', freeze, ht', rfl, hsound, hview⟩ :=
    perform_checkpoint hk ha (R.ready_of_sound hs.sound)
  rw [← ht, ht']
  exact ⟨hsound, hview, fun e he =>
    (hs.checkpoints e he).grow (d.movie.sameReel_restore freeze).growsTo⟩

theorem perform_inStep {d : Deck M H D} (h : d.tape.InStep R origin) {r : Request}
    (hr : R.Allows origin d.movie r) :
    (d.perform r).2.tape.InStep R origin ∧ d.movie.SameReel (d.perform r).2.movie := by
  obtain hr | ⟨state, rfl, hc⟩ := hr
  · exact perform_save_inStep h hr
  · exact perform_rollback_inStep h hc

theorem performAll_inStep {d : Deck M H D} (h : d.tape.InStep R origin) {rs : List Request}
    (hrs : ∀ r ∈ rs, R.Allows origin d.movie r) :
    (d.performAll rs).2.tape.InStep R origin ∧ d.movie.SameReel (d.performAll rs).2.movie := by
  induction rs generalizing d with
  | nil => exact ⟨h, .of_eq rfl⟩
  | cons r rs ih =>
    obtain ⟨h', hs⟩ := perform_inStep h (hrs r (.head _))
    obtain ⟨h'', hs'⟩ := ih h' fun r hr => (hrs r (.tail _ hr)).sameReel hs
    exact ⟨h'', hs.trans hs'⟩

theorem runBatch_inStep {d : Deck M H D} (h : d.tape.InStep R origin) :
    d.runBatch.2.tape.InStep R origin ∧ d.movie.SameReel d.runBatch.2.movie := by
  have hclear : Tape.InStep R origin ({ d with queue := d.queue.clear } : Deck M H D).tape :=
    { h with requests := by rintro _ ⟨⟩, synced := fun ha hb => { h.synced ha hb with } }
  refine performAll_inStep hclear fun r hr => ?_
  obtain hr | rfl := mem_prepare hr
  · exact h.requests r hr
  · exact .inl rfl

/-- Carrying out everything pending keeps the machine in step with the movie. -/
theorem drain_inStep {d : Deck M H D} (h : d.tape.InStep R origin) :
    d.drain.2.tape.InStep R origin ∧ d.movie.SameReel d.drain.2.movie := by
  induction d using drain.induct with
  | case1 d hp => rw [drain, if_pos hp]; exact ⟨h, .of_eq rfl⟩
  | case2 d hp _ _ _ ih =>
    obtain ⟨h', hs⟩ := runBatch_inStep h
    obtain ⟨h'', hs'⟩ := ih h'
    rw [drain, if_neg hp]
    exact ⟨h'', hs.trans hs'⟩

end Deck

end Rewind
