import Rewind.Proofs.Deck.Course

/-!
Pending checkpoints. When nothing else is pending, what is carried out is known exactly: each
checkpoint is kept where the cursor is, and the machine changes only if a transfer had to be ended
for it (`tape_drain_of_captures`). Which samples are due depends on how far apart checkpoints are,
and not on what they hold (`SamePace`).
-/

namespace Rewind

open Savestate

namespace Tape

variable {M : Type}

/-- Nothing is pending but checkpoints. -/
def OnlyCaptures (t : Tape M) : Prop := ∀ r ∈ t.queue.pending, r = .capture .checkpoint

/-- The tape with nothing pending. -/
def settled (t : Tape M) : Tape M := { t with queue := t.queue.clear }

variable [Core M]

/-- The machine as it is saved without a screen. -/
def snapshot (t : Tape M) : Machine.Snapshot :=
  { Core.capture t.machine with movie := t.movie.freeze, screenshot := none }

/-- The tape after a checkpoint was made, if the machine can be saved. -/
def capture (t : Tape M) : Tape M :=
  match encode t.snapshot with
  | .error _ => t
  | .ok encoded =>
    { t with
      machine :=
        if encoded.transferEnded then Core.skipTransfer (Core.apply encoded.snapshot t.machine)
        else t.machine
      checkpoints := t.checkpoints.insert t.movie.currentSample encoded.bytes }

/-- The tape after checkpoints were made one after the other. -/
def captures : Nat → Tape M → Tape M
  | 0, t => t
  | n + 1, t => captures n t.capture

/-- The tape after the checkpoints that are pending. -/
def drained (t : Tape M) : Tape M := t.settled.captures t.queue.pending.length

theorem capture_eq (t : Tape M) : ∃ machine checkpoints,
    t.capture = { t with machine, checkpoints } := by
  unfold capture
  cases encode t.snapshot with
  | error e => exact ⟨t.machine, t.checkpoints, rfl⟩
  | ok encoded => exact ⟨_, _, rfl⟩

theorem captures_eq (n : Nat) (t : Tape M) : ∃ machine checkpoints,
    t.captures n = { t with machine, checkpoints } := by
  induction n generalizing t with
  | zero => exact ⟨t.machine, t.checkpoints, rfl⟩
  | succ n ih =>
    obtain ⟨machine, checkpoints, hn⟩ := ih t.capture
    obtain ⟨machine', checkpoints', h⟩ := t.capture_eq
    refine ⟨machine, checkpoints, ?_⟩
    rw [captures, hn, h]

theorem drained_eq (t : Tape M) : ∃ machine checkpoints,
    t.drained = { t.settled with machine, checkpoints } := captures_eq _ _

end Tape

/-! ## Which samples are kept -/

namespace Checkpoints

/-- Two stores with checkpoints at the same distance, none of them after a sample. -/
structure SamePace (sample : Nat) (s s' : Checkpoints) : Prop where
  interval : s'.interval = s.interval
  behind : ∀ k ∈ s.samples, k ≤ sample
  behind' : ∀ k ∈ s'.samples, k ≤ sample

namespace SamePace

variable {s s' : Checkpoints} {sample later : Nat}

/-- After that sample, the same are due. -/
theorem isDue (h : SamePace sample s s') (hl : sample < later) :
    s'.isDue later = s.isDue later := by
  have hnone {s : Checkpoints} (hs : ∀ k ∈ s.samples, k ≤ sample) :
      s.samples.any (· == later) = false := by
    refine List.any_eq_false.2 fun k hk heq => ?_
    have hle := hs k hk
    rw [beq_iff_eq.1 heq] at hle
    omega
  rw [isDue_eq, isDue_eq, h.interval, hnone h.behind, hnone h.behind']

theorem insert (h : SamePace sample s s') (state state' : ByteArray) :
    SamePace sample (s.insert sample state) (s'.insert sample state') := by
  have hinsert {s : Checkpoints} (hs : ∀ k ∈ s.samples, k ≤ sample) (state : ByteArray) :
      ∀ k ∈ (s.insert sample state).samples, k ≤ sample := by
    intro k hk
    obtain ⟨e, he, rfl⟩ := List.mem_map.1 hk
    obtain rfl | ⟨he, -⟩ := mem_insert he
    · exact Nat.le_refl _
    · exact hs _ (List.mem_map_of_mem he)
  exact ⟨h.interval, hinsert h.behind state, hinsert h.behind' state'⟩

theorem mono (h : SamePace sample s s') (hl : sample ≤ later) : SamePace later s s' :=
  ⟨h.interval, fun k hk => Nat.le_trans (h.behind k hk) hl,
    fun k hk => Nat.le_trans (h.behind' k hk) hl⟩

theorem clear (hi : s'.interval = s.interval) : SamePace sample s.clear s'.clear :=
  ⟨hi, nofun, nofun⟩

end SamePace

end Checkpoints

namespace Deck

variable {M H D : Type} [Core M] [Frontend H] [Storage D]

/-- Between two decks, checkpoints were made at most. -/
structure Captured (d d' : Deck M H D) : Prop where
  tape : ∃ checkpoints, d'.tape = { d.tape with machine := d'.machine, checkpoints }
  disk : d'.disk = d.disk
  machine : (Core.capture d.machine).interrupts.has Machine.Interrupt.si = true →
    d'.machine = d.machine

omit [Frontend H] [Storage D] in
theorem Captured.refl (d : Deck M H D) : Captured d d := ⟨⟨d.checkpoints, rfl⟩, rfl, fun _ => rfl⟩

omit [Frontend H] [Storage D] in
theorem Captured.trans {a b c : Deck M H D} (h : Captured a b) (h' : Captured b c) :
    Captured a c := by
  obtain ⟨checkpoints, hb⟩ := h.tape
  obtain ⟨checkpoints', hc⟩ := h'.tape
  refine ⟨⟨checkpoints', ?_⟩, h'.disk.trans h.disk, fun hsi => ?_⟩
  · rw [hc, hb]
  · have hm := h.machine hsi
    exact (h'.machine (hm.symm ▸ hsi)).trans hm

theorem perform_capture_checkpoint (d : Deck M H D) :
    (d.perform (.capture .checkpoint)).2 = match encode d.snapshot with
      | .error _ => d
      | .ok encoded =>
        (({ d with machine :=
            if encoded.transferEnded then Core.skipTransfer (Core.apply encoded.snapshot d.machine)
            else d.machine } : Deck M H D).notify .stateSaved).keepCheckpoint encoded.bytes := by
  rw [perform_save_eq rfl, saveState_eq]
  cases encode d.snapshot with
  | error e => rfl
  | ok encoded =>
    simp only
    cases encoded.transferEnded with
    | false => rfl
    | true => rfl

omit [Core M] [Storage D] in
theorem tape_keepCheckpoint (state : ByteArray) (d : Deck M H D) :
    ∃ checkpoints, (d.keepCheckpoint state).tape = { d.tape with checkpoints } ∧
      (d.keepCheckpoint state).disk = d.disk := by
  unfold keepCheckpoint
  split
  · exact ⟨_, rfl, rfl⟩
  · exact ⟨d.checkpoints, rfl, rfl⟩

theorem captured_perform (d : Deck M H D) :
    Captured d (d.perform (.capture .checkpoint)).2 := by
  rw [perform_capture_checkpoint]
  cases he : encode d.snapshot with
  | error e => exact .refl d
  | ok encoded =>
    simp only
    generalize hm : (if encoded.transferEnded then
      Core.skipTransfer (Core.apply encoded.snapshot d.machine) else d.machine) = machine
    obtain ⟨checkpoints, ht, hdisk⟩ := tape_keepCheckpoint encoded.bytes
      (({ d with machine } : Deck M H D).notify .stateSaved)
    have hmachine := congrArg Tape.machine ht
    refine ⟨⟨checkpoints, ht.trans ?_⟩, hdisk, fun hsi => hmachine.trans ?_⟩
    · exact congrArg (fun machine => { d.tape with machine, checkpoints }) hmachine.symm
    · -- No transfer is ended whose interrupt is queued.
      have hended : encoded.transferEnded = false :=
        Bool.eq_false_iff.2 fun hended => (transferEnded_of_encode he).1 hended hsi
      rw [hended] at hm
      exact hm.symm

omit [Core M] [Frontend H] [Storage D] in
theorem clear_of_pending_eq_nil {d : Deck M H D} (h : d.queue.pending = []) :
    { d with queue := d.queue.clear } = d := by
  have hq : d.queue.clear = d.queue := by rw [Queue.clear, ← h]
  exact congrArg (fun queue => { d with queue }) hq

/-- What a batch leaves pending are checkpoints. -/
theorem onlyCaptures_runBatch (d : Deck M H D) : d.runBatch.2.tape.OnlyCaptures := by
  obtain ⟨k, -, hpending⟩ := d.pending_runBatch
  intro r hr
  rw [show d.runBatch.2.tape.queue.pending = _ from hpending] at hr
  exact List.eq_of_mem_replicate hr

theorem runBatch_of_captures {d : Deck M H D} (h : d.tape.OnlyCaptures) :
    d.runBatch = { d with queue := d.queue.clear }.performAll d.queue.pending := by
  have h : ∀ r ∈ d.queue.pending, r = .capture .checkpoint := h
  rw [runBatch, prepare_of_captures h]

theorem captured_performAll (d : Deck M H D) {rs : List Request}
    (h : ∀ r ∈ rs, r = .capture .checkpoint) : Captured d (d.performAll rs).2 := by
  induction rs generalizing d with
  | nil => exact .refl d
  | cons r rs ih =>
    cases h r (.head _)
    exact (captured_perform d).trans (ih _ fun r hr => h r (.tail _ hr))

/-- Where nothing is pending but checkpoints, these are all that is carried out. -/
theorem drain_of_captures {d : Deck M H D} (h : d.tape.OnlyCaptures) :
    d.drain.2 = ({ d with queue := d.queue.clear }.performAll d.queue.pending).2 := by
  by_cases hp : d.queue.pending = []
  · rw [drain_of_pending_eq_nil hp, clear_of_pending_eq_nil hp, hp]
    rfl
  · have hcaptured : Captured { d with queue := d.queue.clear } d.runBatch.2 := by
      rw [runBatch_of_captures h]
      exact captured_performAll _ h
    obtain ⟨checkpoints, ht⟩ := hcaptured.tape
    rw [drain_eq_runBatch hp (congrArg (·.queue.pending) ht), runBatch_of_captures h]

/-- Where nothing is pending but checkpoints, nothing else happens. -/
theorem captured_drain {d : Deck M H D} (h : d.tape.OnlyCaptures) :
    Captured { d with queue := d.queue.clear } d.drain.2 := by
  rw [drain_of_captures h]
  exact captured_performAll _ h

/-! ## Without the screen -/

theorem tape_perform_checkpoint {d : Deck M H D} (hscreen : d.config.stScreenshot = false)
    (ha : d.movie.isActive = true) :
    (d.perform (.capture .checkpoint)).2.tape = d.tape.capture := by
  have hsnap : d.snapshot = d.tape.snapshot := by
    rw [snapshot, hscreen]
    rfl
  rw [perform_capture_checkpoint, hsnap, Tape.capture]
  cases encode d.tape.snapshot with
  | error e => rfl
  | ok encoded =>
    have hkept (machine : M) :
        ((({ d with machine } : Deck M H D).notify .stateSaved).keepCheckpoint
          encoded.bytes).tape = { d.tape with
            machine
            checkpoints := d.checkpoints.insert d.movie.currentSample encoded.bytes } :=
      congrArg tape (if_pos ha)
    exact hkept _

theorem tape_performAll_checkpoints {d : Deck M H D} (hscreen : d.config.stScreenshot = false)
    (ha : d.movie.isActive = true) {rs : List Request} (h : ∀ r ∈ rs, r = .capture .checkpoint) :
    (d.performAll rs).2.tape = d.tape.captures rs.length := by
  induction rs generalizing d with
  | nil => rfl
  | cons r rs ih =>
    cases h r (.head _)
    have ht := tape_perform_checkpoint hscreen ha
    obtain ⟨checkpoints, hc⟩ := (captured_perform d).tape
    have hconfig : (d.perform (.capture .checkpoint)).2.config = d.config :=
      congrArg Tape.config hc
    have hmovie : (d.perform (.capture .checkpoint)).2.movie = d.movie := congrArg Tape.movie hc
    have hts := ih (hconfig ▸ hscreen) (hmovie ▸ ha) fun r hr => h r (.tail _ hr)
    change ((d.perform (.capture .checkpoint)).2.performAll rs).2.tape = _
    rw [hts, ht]
    rfl

/-- Where nothing is pending but checkpoints, they are made. -/
theorem tape_drain_of_captures {d : Deck M H D} (h : d.tape.OnlyCaptures)
    (hscreen : d.config.stScreenshot = false) (ha : d.movie.isActive = true) :
    d.drain.2.tape = d.tape.drained := by
  rw [drain_of_captures h]
  exact tape_performAll_checkpoints (d := { d with queue := d.queue.clear }) hscreen ha h

end Deck

end Rewind
