import Rewind.Proofs.Deck.Loads
import Rewind.Proofs.Deck.Operations
import Rewind.Proofs.Deck.WarpCheckpoints

/-!
Which checkpoints a rerecord leaves behind. The movie is cut at the position that is restored; the
checkpoints behind the cut go, and so do those behind the first sample that is not the same any
more. Main statement: where all checkpoints were valid, a rerecord keeps exactly the ones that are
valid for the movie as it is restored (`mem_checkpoints_perform_iff`).
-/

namespace Rewind

open Savestate

/-- What was valid stays valid for a movie that is cut at a position if it lies in front of the cut
and in front of all differences. -/
theorem Movie.Log.ValidAt.restore_rerecord_iff {log : Log} {k : Nat} {state : ByteArray}
    (h : log.ValidAt k state) (freeze : Freeze) :
    (log.restore freeze .rerecord).ValidAt k state ↔
      k ≤ min (Warp.commonLength log.inputs freeze.samples) freeze.currentSample.toNat := by
  rw [Nat.le_min, ← Warp.le_commonLength_take_iff]
  exact h.replaceInputs_iff (freeze.samples.take freeze.currentSample.toNat)

namespace Deck

variable {M H D : Type} [Frontend H]

/-- Only what the deck asks for on a movie's behalf changes the tape when it is answered, and none
of that is loaded for a rerecord. -/
theorem tape_deliver_of_rerecord {o : Outcome} {config : Config}
    (h : restoreMode o.tag config = some .rerecord) (d : Deck M H D) :
    (d.deliver o).2.tape = d.tape := by
  obtain ⟨job, tag, label, result⟩ := o
  cases tag with
  | none => cases result <;> rfl
  | some tag =>
    cases tag with
    | undo => cases result <;> rfl
    | caller id => cases result <;> rfl
    | checkpoint => cases h
    | movieStart => cases h
    | seekRollback => cases h

variable [Core M] [Storage D]

theorem tape_applyState_rerecord (decoded : Decoded) {d : Deck M H D} {freeze : Movie.Freeze}
    (h : d.movie.checkFreeze freeze .rerecord = .ok ()) :
    (d.applyState decoded (some (freeze, .rerecord))).tape =
      ((d.tape.withMachine (decoded.resume d.machine)).withMovie
        (d.movie.restore freeze .rerecord)).dropAfter
          (min (Warp.commonLength d.movie.inputs freeze.samples) freeze.currentSample.toNat) := by
  rw [applyState, tape_notify, tape_restoreScreen]
  exact tape_restorePosition_rerecord (d := { d with machine := decoded.resume d.machine }) h

/-- A load for a rerecord that nobody declines goes through, and cuts the movie. -/
theorem perform_rerecord {r : Request} (hr : r.job = .load) {d : Deck M H D}
    (hmode : restoreMode r.tag d.config = some .rerecord) {data : ByteArray}
    {hash : Wire.Block Machine.romHashSize} (hfetch : d.fetchState r.medium = .ok (data, hash))
    {decoded : Decoded} (hdecode : decode data = .ok decoded) {freeze : Movie.Freeze}
    (hfreeze : decoded.snapshot.movie = some freeze)
    (hcheck : d.movie.checkFreeze freeze .rerecord = .ok ())
    (hagreed : (d.execute r).1.result ≠ .error .cancelled) :
    (d.execute r).1.result = .ok data ∧ ∃ machine, (d.perform r).2.tape =
      ((d.tape.withMachine machine).withMovie (d.movie.restore freeze .rerecord)).dropAfter
        (min (Warp.commonLength d.movie.inputs freeze.samples) freeze.currentSample.toNat) := by
  rw [execute_load_eq hr, hmode] at hagreed ⊢
  obtain hdeclined | ⟨messages, hloaded⟩ :=
    loadState_of_decode hfetch hdecode r.ignoreWarnings (some .rerecord)
  · exact absurd hdeclined hagreed
  rw [hfreeze, Movie.Log.admitted_of_ok hcheck] at hloaded
  let loaded := (d.questioned messages).applyState decoded (some (freeze, .rerecord))
  have hloadedTape : loaded.tape = _ :=
    tape_applyState_rerecord decoded (d := d.questioned messages) hcheck
  refine ⟨congrArg Prod.fst hloaded, loaded.settleEntry.machine, ?_⟩
  rw [perform_load_eq hr, tape_deliver_of_rerecord hmode, hmode, hloaded]
  change loaded.settleEntry.tape = _
  rw [tape_settleEntry, hloadedTape]
  rfl

/-- **A rerecord keeps exactly the checkpoints that are still true.** Where all checkpoints were
valid for the movie, a load that goes on recording from a position leaves the samples in front of
the position, and those checkpoints that are valid for what is left. -/
theorem mem_checkpoints_perform_iff {r : Request} (hr : r.job = .load) {d : Deck M H D}
    (hmode : restoreMode r.tag d.config = some .rerecord) {data : ByteArray}
    {hash : Wire.Block Machine.romHashSize} (hfetch : d.fetchState r.medium = .ok (data, hash))
    {decoded : Decoded} (hdecode : decode data = .ok decoded) {freeze : Movie.Freeze}
    (hfreeze : decoded.snapshot.movie = some freeze)
    (hcheck : d.movie.checkFreeze freeze .rerecord = .ok ())
    (hagreed : (d.execute r).1.result ≠ .error .cancelled) (hvalid : d.CheckpointsValid) :
    let after := (d.perform r).2
    (d.execute r).1.result = .ok data ∧ after.movie.header.uid = d.movie.header.uid ∧
      after.movie.inputs = freeze.samples.take freeze.currentSample.toNat ∧
      after.movie.inputs.size = freeze.currentSample.toNat ∧
      ∀ e, e ∈ after.checkpoints.entries ↔
        e ∈ d.checkpoints.entries ∧ after.movie.ValidAt e.1 e.2 := by
  intro after
  obtain ⟨hresult, machine, htape⟩ :=
    perform_rerecord hr hmode hfetch hdecode hfreeze hcheck hagreed
  have hmovie : after.movie = d.movie.restore freeze .rerecord := congrArg Tape.movie htape
  have hcheckpoints : after.checkpoints = d.checkpoints.dropAfter
      (min (Warp.commonLength d.movie.inputs freeze.samples) freeze.currentSample.toNat) :=
    congrArg Tape.checkpoints htape
  rw [hmovie, hcheckpoints]
  refine ⟨hresult, rfl, rfl, Movie.Log.size_restore_rerecord hcheck, fun e => ?_⟩
  rw [Checkpoints.dropAfter, List.mem_filter, decide_eq_true_iff]
  exact and_congr_right fun he => ((hvalid e he).restore_rerecord_iff freeze).symm

/-! ## A branch -/

/-- A position behind the given samples of one movie. -/
def positionAfter (samples : Array Sample) : Movie.Freeze :=
  .ofInputs 7 (UInt32.ofNat samples.size) 0 samples

/-- A savestate at a position. -/
def stateAfter (samples : Array Sample) : Machine.Snapshot :=
  Core.captureAt (positionAfter samples) (Core.reset cutOff.machine)

theorem savable_stateAfter {samples : Array Sample}
    (h : (positionAfter samples).inputs.size = (positionAfter samples).lengthSamples.toNat + 1) :
    (stateAfter samples).Savable :=
  (Machine.Accumulator.Sound.of_reset isAscii_cutOff).savable_captureAt h

theorem decode_stateAfter {samples : Array Sample}
    (h : (positionAfter samples).inputs.size = (positionAfter samples).lengthSamples.toNat + 1) :
    decode (stateBytes (stateAfter samples) false) = .ok ⟨stateAfter samples, false⟩ :=
  (savable_stateAfter h).decode_eq

/-- A recording of two samples, with a checkpoint behind each. -/
def branching : Deck Machine.Accumulator Journal Storage.Tree :=
  { cutOff with
    movie := { task := .recording, header.uid := 7, inputs := #[⟨1, 0, 0⟩, ⟨2, 0, 0⟩] }
    checkpoints := ⟨100, 32,
      [(1, stateBytes (stateAfter #[⟨1, 0, 0⟩]) false),
        (2, stateBytes (stateAfter #[⟨1, 0, 0⟩, ⟨2, 0, 0⟩]) false)], by simp⟩ }

theorem branching_checkpointsValid : branching.CheckpointsValid := by
  intro e he
  obtain rfl | rfl : e = _ ∨ e = _ := by simpa [branching] using he
  · exact ⟨_, _, decode_stateAfter rfl, rfl, rfl, rfl, by decide, by decide, rfl⟩
  · exact ⟨_, _, decode_stateAfter rfl, rfl, rfl, rfl, by decide, by decide, rfl⟩

/-- The same first sample, and another second one. -/
def otherBranch : Array Sample := #[⟨1, 0, 0⟩, ⟨3, 0, 0⟩]

/-- The load of the position behind the other branch. -/
def rebranch : Request :=
  { job := .load, ignoreWarnings := true,
    medium := .memory (stateBytes (stateAfter otherBranch) false) }

theorem mem_checkpoints_perform_rebranch :
    let after := (branching.perform rebranch).2
    branching.CheckpointsValid ∧ after.movie.inputs = otherBranch ∧
      (∃ state, (1, state) ∈ after.checkpoints.entries) ∧
      ∀ state, (2, state) ∉ after.checkpoints.entries := by
  have hdecode : decode (stateBytes (stateAfter otherBranch) false) =
      .ok ⟨stateAfter otherBranch, false⟩ := decode_stateAfter rfl
  have hfetch := fetchState_memory hdecode isAscii_cutOff branching
  have hcheck : branching.movie.checkFreeze (positionAfter otherBranch) .rerecord = .ok () := by
    decide
  have hresult : (branching.execute rebranch).1.result = _ :=
    execute_eq_ok_of_quiet rfl (.inl rfl) hfetch hdecode
  have hagreed : (branching.execute rebranch).1.result ≠ .error .cancelled := by
    rw [hresult]
    nofun
  obtain ⟨-, huid, hinputs, -, hkept⟩ := mem_checkpoints_perform_iff (r := rebranch) rfl rfl hfetch
    hdecode rfl hcheck hagreed branching_checkpointsValid
  simp only
  generalize (branching.perform rebranch).2 = after at huid hinputs hkept ⊢
  have hinputs : after.movie.inputs = otherBranch := hinputs.trans (by decide)
  refine ⟨branching_checkpointsValid, hinputs,
    ⟨_, (hkept _).2 ⟨.head _, _, _, decode_stateAfter rfl, rfl, huid.symm, rfl, by decide, ?_⟩⟩,
    fun state h => ?_⟩
  · rw [hinputs]
    decide
  · obtain ⟨hmem, decoded, freeze, hd, hf, -, -, -, -, ht⟩ := (hkept _).1 h
    obtain rfl : state = stateBytes (stateAfter #[⟨1, 0, 0⟩, ⟨2, 0, 0⟩]) false := by
      simpa [branching] using hmem
    cases (decode_stateAfter rfl).symm.trans hd
    cases hf
    rw [hinputs] at ht
    revert ht
    decide

end Deck

end Rewind
