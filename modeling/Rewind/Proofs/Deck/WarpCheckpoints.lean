import Rewind.Proofs.Deck.Tape
import Rewind.Proofs.Savestate.RoundTrip
import Rewind.Proofs.Warp

/-!
Which checkpoints a warp leaves behind. A checkpoint is valid for a movie if the samples it was
made after are the ones that the movie begins with. Main statement: a warp leaves only valid
checkpoints if and only if it does not extend the movie in front of a stored one
(`beginWarp_valid_iff`).
-/

namespace Rewind

open Savestate (decode)

/-- A savestate is valid at sample `k` of a movie if its position there belongs to the movie, and
the samples up to it are the movie's. -/
def Movie.Log.ValidAt (log : Log) (k : Nat) (state : ByteArray) : Prop :=
  ∃ decoded freeze, decode state = .ok decoded ∧ decoded.snapshot.movie = some freeze ∧
    freeze.uid = log.header.uid ∧ freeze.currentSample.toNat = k ∧
    k ≤ freeze.lengthSamples.toNat ∧ k ≤ log.inputs.size ∧
    freeze.samples.take k = log.inputs.take k

/-- A movie with other samples keeps what is valid before the first difference, and nothing else. -/
theorem Movie.Log.ValidAt.replaceInputs_iff {log : Log} {k : Nat} {state : ByteArray}
    (h : log.ValidAt k state) (inputs : Array Sample) :
    (log.replaceInputs inputs).ValidAt k state ↔ k ≤ Warp.commonLength log.inputs inputs := by
  obtain ⟨decoded, freeze, hd, hf, hu, hk, hl, hs, ht⟩ := h
  rw [Warp.le_commonLength_iff]
  constructor
  · rintro ⟨decoded', freeze', hd', hf', -, -, -, hs', ht'⟩
    cases hd.symm.trans hd'
    cases hf.symm.trans hf'
    exact ⟨hs, hs', ht.symm.trans ht'⟩
  · rintro ⟨-, hs', he⟩
    exact ⟨decoded, freeze, hd, hf, hu, hk, hl, hs', ht.trans he⟩

namespace Deck

variable {M H D : Type}

/-- Every stored checkpoint is valid for the movie. -/
def CheckpointsValid (d : Deck M H D) : Prop :=
  ∀ e ∈ d.checkpoints.entries, d.movie.ValidAt e.1 e.2

variable [Frontend H]

/-- A warp that begins was planned, and does what was planned. -/
theorem beginWarp_eq_ok {inputs : Array Sample} {d : Deck M H D}
    (h : (d.beginWarp inputs).1 = .ok ()) :
    ∃ plan, Warp.plan d.movie.inputs inputs d.movie.currentSample = .ok plan ∧
      d.seek.isSeeking = false ∧ (d.carryOut plan inputs).1 = .ok () ∧
      (d.beginWarp inputs).2 = (d.carryOut plan inputs).2.recordWarp plan := by
  unfold beginWarp at h ⊢
  split at h
  · cases h
  · split at h
    · cases h
    · split at h
      · cases h
      · split at h
        · cases h
        · next hs =>
          split at h
          · cases h
          · next plan hp =>
            refine ⟨plan, hp, Bool.not_eq_true _ ▸ hs, ?_⟩
            split at h
            · cases h
            · next hc => simp_all

/-- A replay onto other samples that begins has a checkpoint to go back to. -/
theorem replayOnto_eq_ok {inputs : Array Sample} {rollbackTo resumeAt : Nat} {d : Deck M H D}
    (h : (d.replayOnto inputs rollbackTo resumeAt).1 = .ok ()) :
    d.queue.launched = true ∧ ∃ k state, d.checkpoints.nearest? rollbackTo = some (k, state) := by
  unfold replayOnto at h
  split at h
  · cases h
  · next hn =>
    split at h
    · cases h
    · next hl =>
      refine ⟨by simpa using hl, ?_⟩
      cases hc : d.checkpoints.nearest? rollbackTo with
      | none => exact absurd (by rw [hc]; rfl) hn
      | some e => exact ⟨e.1, e.2, rfl⟩

/-- A replay onto other samples keeps the checkpoints at or before the point it returns to. -/
theorem replayOnto_valid {inputs : Array Sample} {rollbackTo resumeAt : Nat} {d : Deck M H D}
    (hv : d.CheckpointsValid) (hs : d.seek.isSeeking = false)
    (hr : rollbackTo ≤ Warp.commonLength d.movie.inputs inputs)
    (hok : (d.replayOnto inputs rollbackTo resumeAt).1 = .ok ()) :
    (d.replayOnto inputs rollbackTo resumeAt).2.CheckpointsValid := by
  obtain ⟨hl, k, state, hn⟩ := replayOnto_eq_ok hok
  have ht := tape_withInputs inputs rollbackTo d
  have hm : (d.withInputs inputs rollbackTo).movie =
      { d.movie.replaceInputs inputs with task := .recording } := congrArg Tape.movie ht
  have hc : (d.withInputs inputs rollbackTo).checkpoints = d.checkpoints.dropAfter rollbackTo :=
    congrArg Tape.checkpoints ht
  rw [replayOnto_of_nearest hs hl hn]
  simp only [CheckpointsValid, hm, hc]
  intro e he
  obtain ⟨he, hle⟩ := List.mem_filter.1 he
  have hle : e.1 ≤ rollbackTo := of_decide_eq_true hle
  exact ((hv e he).replaceInputs_iff inputs).2 (Nat.le_trans hle hr)

/-- **No stale checkpoint survives a warp, unless the warp extends the movie in front of one.** -/
theorem beginWarp_valid_iff {inputs : Array Sample} {d : Deck M H D} (hv : d.CheckpointsValid)
    (hok : (d.beginWarp inputs).1 = .ok ()) :
    (d.beginWarp inputs).2.CheckpointsValid ↔
      ∀ common, Warp.plan d.movie.inputs inputs d.movie.currentSample = .ok (.extend common) →
        ∀ k ∈ d.checkpoints.samples, k ≤ common := by
  obtain ⟨plan, hp, hs, hc, hd⟩ := beginWarp_eq_ok hok
  rw [hd, hp]
  cases plan with
  | identical => exact ⟨fun _ _ h => (nomatch h), fun _ => hv⟩
  | extend common =>
    obtain ⟨rfl, -, -⟩ := Warp.plan_extend hp
    constructor
    · rintro hv' _ ⟨⟩ k hk
      obtain ⟨e, he, rfl⟩ := List.mem_map.1 hk
      exact ((hv e he).replaceInputs_iff inputs).1 (hv' e he)
    · intro h e he
      exact ((hv e he).replaceInputs_iff inputs).2 (h _ rfl _ (List.mem_map_of_mem he))
  | rollback common rollbackTo resumeAt =>
    obtain ⟨rfl, rfl, -⟩ := Warp.plan_rollback hp
    exact ⟨fun _ _ h => (nomatch h), fun _ => replayOnto_valid hv hs (Nat.min_le_left _ _) hc⟩

/-- A movie of one sample, played back from the start, with a checkpoint behind that sample. -/
def rewound : Deck Unit Journal Unit :=
  { Session.new {} with
    movie := { task := .playback, header.uid := 7, inputs := #[.neutral] }
    checkpoints := ⟨100, 32, [(1, Savestate.stateBytes Savestate.waiting false)], by simp⟩
    machine := ()
    frontend := {}
    disk := () }

theorem rewound_checkpointsValid : rewound.CheckpointsValid := by
  intro e he
  obtain rfl := List.mem_singleton.1 he
  exact ⟨_, _, Savestate.decode_stateBytes Savestate.waiting_wellFormed (by decide) false, rfl, rfl,
    rfl, Nat.le_refl _, Nat.le_refl _, rfl⟩

theorem not_valid_after_warp :
    rewound.CheckpointsValid ∧ (rewound.beginWarp #[⟨1, 0, 0⟩, ⟨1, 0, 0⟩]).1 = .ok () ∧
      ¬ (rewound.beginWarp #[⟨1, 0, 0⟩, ⟨1, 0, 0⟩]).2.CheckpointsValid := by
  have hok : (rewound.beginWarp #[⟨1, 0, 0⟩, ⟨1, 0, 0⟩]).1 = .ok () := rfl
  refine ⟨rewound_checkpointsValid, hok, fun hv => ?_⟩
  have h := (beginWarp_valid_iff rewound_checkpointsValid hok).1 hv 0 rfl 1 (.head _)
  omega

end Deck

end Rewind
