import Rewind.Proofs.Deck.Requests
import Rewind.Storage.Tree

/-!
Loads about which nobody is asked: those that ignore warnings, and all loads of a silent deck. Such
a load always goes through once its state is read (`loadState_of_quiet`): the machine takes the
state over, and a movie position that cannot be restored is passed over. Main statement: the return
of a seek brings the machine to its checkpoint in any case, but the movie only if the position is
still admitted, or the cursor is there already (`perform_rollback_standsAt_iff`).
-/

namespace Rewind

open Savestate

namespace Movie.Log

/-- What is restored of a position when nobody is asked. -/
def admitted (log : Log) (position : Option Freeze) (mode : Option RestoreMode) :
    Option (Freeze × RestoreMode) :=
  match mode, position with
  | some mode, some freeze =>
    match log.checkFreeze freeze mode with
    | .ok () => some (freeze, mode)
    | .error _ => none
  | _, _ => none

theorem admitted_of_ok {log : Log} {freeze : Freeze} {mode : RestoreMode}
    (h : log.checkFreeze freeze mode = .ok ()) :
    log.admitted (some freeze) (some mode) = some (freeze, mode) := by
  rw [admitted]
  simp only [h]

theorem admitted_of_error {log : Log} {freeze : Freeze} {mode : RestoreMode} {e : Error}
    (h : log.checkFreeze freeze mode = .error e) :
    log.admitted (some freeze) (some mode) = none := by
  rw [admitted]
  simp only [h]

theorem admitted_none (log : Log) (position : Option Freeze) :
    log.admitted position none = none := by
  cases position <;> rfl

/-- The samples in front of a position are the position's own. -/
def LeadsTo (log : Log) (freeze : Freeze) : Prop :=
  let k := freeze.currentSample.toNat
  k ≤ log.inputs.size ∧ k ≤ freeze.samples.size ∧ log.inputs.take k = freeze.samples.take k

/-- The cursor is at a position, and the samples in front of it are the position's own. -/
def StandsAt (log : Log) (freeze : Freeze) : Prop :=
  log.currentSample = freeze.currentSample.toNat ∧ log.LeadsTo freeze

/-- A movie that is brought to a position stands there if its samples lead there. -/
theorem standsAt_restore_iff {log : Log} {freeze : Freeze} :
    (log.restore freeze .reposition).StandsAt freeze ↔ log.LeadsTo freeze :=
  ⟨And.right, fun h => ⟨rfl, h⟩⟩

end Movie.Log

/-- A request that does not ask anything of the user of a deck with the given settings. -/
def Savestate.Request.Quiet (config : Config) (r : Request) : Prop :=
  r.job = .save ∨ r.ignoreWarnings = true ∨ config.silent = true

/-- The tape after a load, which may change the movie and drop checkpoints. -/
def Tape.loaded {M : Type} (log : Movie.Log) (checkpoints : Checkpoints) (machine : M)
    (t : Tape M) : Tape M := { t with movie := log, checkpoints, machine }

namespace Deck

variable {M H D : Type} [Frontend H]

theorem ask_of_silent {d : Deck M H D} (h : d.config.silent = true) (message : String) :
    d.ask message = (.ok (), d) := by
  rw [ask, confirm, if_pos h]

/-- Where nobody is asked, a position that is lost is let go. -/
theorem letGo_of_quiet {d : Deck M H D} {ignoreWarnings : Bool}
    (h : ignoreWarnings = true ∨ d.config.silent = true) (b : Bool) (message : String) :
    (if (!ignoreWarnings && b) = true then
      let (go, d) := d.ask message
      (go.map fun _ => (none : Option (Movie.Freeze × Movie.RestoreMode)), d)
    else (.ok none, d)) = (.ok none, d) := by
  obtain rfl | h := h
  · rfl
  · rw [ask_of_silent h]
    exact ite_self _

theorem admitPosition_of_quiet {d : Deck M H D} {ignoreWarnings : Bool}
    (h : ignoreWarnings = true ∨ d.config.silent = true) (position : Option Movie.Freeze)
    (mode : Option Movie.RestoreMode) :
    d.admitPosition position ignoreWarnings mode = (.ok (d.movie.admitted position mode), d) := by
  have hask := letGo_of_quiet h
  cases mode with
  | none => cases position <;> rfl
  | some mode =>
    cases position with
    | none => exact hask _ _
    | some freeze =>
      unfold admitPosition Movie.Log.admitted
      cases hc : d.movie.checkFreeze freeze mode with
      | ok => simp only [hc]
      | error e =>
        simp only [hc]
        exact hask _ _

variable [Core M] [Storage D]

/-- A load that asks nothing fails only over the data that it reads. -/
theorem loadState_of_quiet {d : Deck M H D} {ignoreWarnings : Bool}
    (h : ignoreWarnings = true ∨ d.config.silent = true) (medium : Medium)
    (mode : Option Movie.RestoreMode) :
    d.loadState medium ignoreWarnings mode =
      match d.fetchState medium with
      | .error e => (.error e, d)
      | .ok (data, _) =>
        match decode data with
        | .error e => (.error e, d.settleEntry)
        | .ok decoded => (.ok data, (d.applyState decoded
            (d.movie.admitted decoded.snapshot.movie mode)).settleEntry) := by
  unfold loadState
  cases hfetch : d.fetchState medium with
  | error e => rfl
  | ok fetched =>
    obtain ⟨data, hash⟩ := fetched
    have hask (b : Bool) (message : String) :
        (if (!ignoreWarnings && b) = true then d.ask message else (.ok (), d)) = (.ok (), d) := by
      obtain rfl | h := h
      · rfl
      · rw [ask_of_silent h]
        exact ite_self _
    simp only
    rw [hask]
    unfold loadDecoded
    cases decode data with
    | error e => rfl
    | ok decoded =>
      simp only
      rw [admitPosition_of_quiet h]

/-- A load that asks nothing and succeeds has read a state, and has put the deck into it. -/
theorem loadState_eq_ok {d : Deck M H D} {ignoreWarnings : Bool}
    (h : ignoreWarnings = true ∨ d.config.silent = true) {medium : Medium}
    {mode : Option Movie.RestoreMode} {data : ByteArray}
    (hok : (d.loadState medium ignoreWarnings mode).1 = .ok data) :
    ∃ decoded, decode data = .ok decoded ∧ (d.loadState medium ignoreWarnings mode).2 =
      (d.applyState decoded (d.movie.admitted decoded.snapshot.movie mode)).settleEntry := by
  rw [loadState_of_quiet h] at hok ⊢
  cases hfetch : d.fetchState medium with
  | error e => rw [hfetch] at hok; cases hok
  | ok fetched =>
    obtain ⟨data', hash⟩ := fetched
    rw [hfetch] at hok
    simp only at hok ⊢
    cases hdecode : decode data' with
    | error e => rw [hdecode] at hok; cases hok
    | ok decoded =>
      rw [hdecode] at hok
      cases hok
      exact ⟨decoded, hdecode, rfl⟩

/-! ## The tape -/

omit [Core M] in
theorem tape_restorePosition (freeze : Movie.Freeze) (mode : Movie.RestoreMode)
    (d : Deck M H D) : ∃ log checkpoints,
      (d.restorePosition freeze mode).tape = d.tape.loaded log checkpoints d.machine := by
  have hrerecord (n : Nat) (d : Deck M H D) : ∃ log,
      (d.finishRerecord n).tape =
        (d.tape.dropAfter (min n d.movie.currentSample)).withMovie log := by
    have hd := tape_dropCheckpoints (min n d.movie.currentSample) d
    refine ⟨(d.finishRerecord n).movie, ?_⟩
    rw [← hd]
    rfl
  unfold restorePosition
  simp only
  split
  · exact ⟨_, _, tape_notifyTask _ d⟩
  · next log _ =>
    rw [tape_notifyTask]
    split
    · obtain ⟨log', h⟩ := hrerecord (Warp.commonLength d.movie.inputs freeze.samples)
        { d with movie := log }
      exact ⟨log', _, h⟩
    · exact ⟨log, _, rfl⟩

theorem tape_applyState (decoded : Decoded)
    (position : Option (Movie.Freeze × Movie.RestoreMode)) (d : Deck M H D) :
    ∃ log checkpoints, (d.applyState decoded position).tape =
      d.tape.loaded log checkpoints (decoded.resume d.machine) := by
  have hscreen (d : Deck M H D) :
      ((d.restoreScreen decoded.snapshot.screenshot).notify .stateLoaded).tape = d.tape :=
    tape_restoreScreen _ d
  cases position with
  | none => exact ⟨d.movie, d.checkpoints, hscreen _⟩
  | some position =>
    obtain ⟨log, checkpoints, h⟩ := tape_restorePosition position.1 position.2
      { d with machine := decoded.resume d.machine }
    exact ⟨log, checkpoints, (hscreen _).trans h⟩

theorem machine_applyState (decoded : Decoded)
    (position : Option (Movie.Freeze × Movie.RestoreMode)) (d : Deck M H D) :
    (d.applyState decoded position).machine = decoded.resume d.machine := by
  obtain ⟨log, checkpoints, h⟩ := tape_applyState decoded position d
  exact congrArg Tape.machine h

theorem config_loadState {d : Deck M H D} {ignoreWarnings : Bool}
    (h : ignoreWarnings = true ∨ d.config.silent = true) (medium : Medium)
    (mode : Option Movie.RestoreMode) :
    (d.loadState medium ignoreWarnings mode).2.config = d.config := by
  rw [loadState_of_quiet h]
  cases d.fetchState medium with
  | error e => rfl
  | ok fetched =>
    simp only
    cases decode fetched.1 with
    | error e => rfl
    | ok decoded =>
      obtain ⟨log, checkpoints, ht⟩ := tape_applyState decoded
        (d.movie.admitted decoded.snapshot.movie mode) d
      exact congrArg Tape.config ht

/-! ## Returns to a checkpoint -/

theorem movie_applyState_reposition (decoded : Decoded) (position : Option Movie.Freeze)
    (d : Deck M H D) :
    (d.applyState decoded (d.movie.admitted position (some .reposition))).movie =
      match d.movie.admitted position (some .reposition) with
      | some (freeze, _) => d.movie.restore freeze .reposition
      | none => d.movie := by
  have hnone : (d.applyState decoded none).movie = d.movie :=
    congrArg Tape.movie (tape_applyState_none decoded d)
  cases position with
  | none => exact hnone
  | some freeze =>
    cases hc : d.movie.checkFreeze freeze .reposition with
    | error e =>
      rw [Movie.Log.admitted_of_error hc]
      exact hnone
    | ok =>
      rw [Movie.Log.admitted_of_ok hc]
      exact congrArg Tape.movie (tape_applyState_reposition decoded hc)

/-- A load that asks nothing succeeds if its state can be read. -/
theorem execute_eq_ok_of_quiet {r : Request} (hr : r.job = .load) {d : Deck M H D}
    (h : r.ignoreWarnings = true ∨ d.config.silent = true) {data : ByteArray}
    {hash : Wire.Block Machine.romHashSize} (hfetch : d.fetchState r.medium = .ok (data, hash))
    {decoded : Decoded} (hdecode : decode data = .ok decoded) :
    (d.execute r).1.result = .ok data := by
  rw [execute_load_eq hr, loadState_of_quiet h, hfetch]
  simp only [hdecode]

/-- The load of a checkpoint that can be read succeeds, whatever the movie is. -/
theorem execute_rollback_eq_ok {state : ByteArray} {decoded : Decoded}
    (h : decode state = .ok decoded) (ha : decoded.snapshot.romHash.IsAscii) (d : Deck M H D) :
    (d.execute (rollbackRequest state)).1.result = .ok state :=
  execute_eq_ok_of_quiet rfl (.inl rfl) (fetchState_memory h ha d) h

/-- **A rollback moves the machine, and the movie only if it can.** When the return of a seek
succeeds, the machine has taken its checkpoint over. The movie stands at the checkpoint's position
if and only if its samples lead there, and the position was admitted or the cursor was there before:
where the movie has been cut off in the meantime, the machine goes back alone. -/
theorem perform_rollback_standsAt_iff {state data : ByteArray} {d : Deck M H D}
    (h : (d.execute (rollbackRequest state)).1.result = .ok data) :
    let after := (d.perform (rollbackRequest state)).2
    ∃ decoded, decode data = .ok decoded ∧
      after.machine = Core.noteEntry
        (Core.programCounter (decoded.resume d.machine) == legacyEntry)
        (decoded.resume d.machine) ∧
      ∀ freeze, decoded.snapshot.movie = some freeze →
        (after.movie.StandsAt freeze ↔ d.movie.LeadsTo freeze ∧
          (d.movie.checkFreeze freeze .reposition = .ok () ∨
            d.movie.currentSample = freeze.currentSample.toNat)) := by
  intro after
  have hok : (d.loadState (.memory state) true (some .reposition)).1 = .ok data := h
  obtain ⟨decoded, hdecode, hloaded⟩ := loadState_eq_ok (.inl rfl) hok
  have htape : after.tape = (d.applyState decoded
      (d.movie.admitted decoded.snapshot.movie (some .reposition))).settleEntry.tape := by
    have hd : after = (d.loadState (.memory state) true (some .reposition)).2.finishRollback := by
      change (d.perform (rollbackRequest state)).2 = _
      rw [perform_rollback, hok]
      rfl
    rw [hd, tape_finishRollback, hloaded]
  have hmachine := congrArg Tape.machine htape
  rw [tape_settleEntry] at hmachine
  refine ⟨decoded, hdecode, ?_, fun freeze hfreeze => ?_⟩
  · rw [← machine_applyState decoded
      (d.movie.admitted decoded.snapshot.movie (some .reposition)) d]
    exact hmachine
  · have hmovie : after.movie = _ :=
      (congrArg Tape.movie htape).trans (movie_applyState_reposition decoded _ d)
    rw [hfreeze] at hmovie
    cases hc : d.movie.checkFreeze freeze .reposition with
    | ok =>
      rw [Movie.Log.admitted_of_ok hc] at hmovie
      rw [hmovie, Movie.Log.standsAt_restore_iff]
      exact ⟨fun h => ⟨h, .inl rfl⟩, And.left⟩
    | error e =>
      -- A refused position leaves the movie alone, which stands there only if it did before.
      rw [Movie.Log.admitted_of_error hc] at hmovie
      rw [hmovie]
      exact ⟨fun h => ⟨h.2, .inr h.1⟩, fun h => ⟨h.2.resolve_left (by nofun), h.1⟩⟩

/-- A recording of which nothing is left. -/
def cutOff : Deck Machine.Accumulator Journal Storage.Tree :=
  { Session.new {} with
    movie := { task := .recording, header.uid := 7 }
    machine :=
      { rom := ⟨"ACCUMULATOR", 0, 0, .ofBytes _ "0123456789abcdef0123456789abcdef".toUTF8⟩
        state := Machine.Accumulator.powerOn }
    frontend := {}
    disk := {} }

/-- The position after the only sample of the same movie. -/
def onward : Movie.Freeze := .ofInputs 7 1 1 #[⟨1, 0, 0⟩]

/-- The machine at that position. -/
def ahead : Machine.Snapshot :=
  Core.captureAt onward (Machine.Accumulator.step (Core.reset cutOff.machine) ⟨1, 0, 0⟩)

theorem isAscii_cutOff : cutOff.machine.rom.md5.IsAscii := by decide

theorem savable_ahead : ahead.Savable := by
  have hf : onward.inputs.size = onward.lengthSamples.toNat + 1 := rfl
  exact ((Machine.Accumulator.Sound.of_reset isAscii_cutOff).step ⟨1, 0, 0⟩).savable_captureAt hf

theorem decode_ahead : decode (stateBytes ahead false) = .ok ⟨ahead, false⟩ :=
  savable_ahead.decode_eq

theorem not_standsAt_cutOff :
    (cutOff.execute (rollbackRequest (stateBytes ahead false))).1.result =
        .ok (stateBytes ahead false) ∧
      let after := (cutOff.perform (rollbackRequest (stateBytes ahead false))).2
      after.machine.frame = 1 ∧ ¬after.movie.StandsAt onward := by
  have hok := execute_rollback_eq_ok decode_ahead isAscii_cutOff cutOff
  obtain ⟨decoded, hdecoded, hmachine, hstands⟩ := perform_rollback_standsAt_iff hok
  cases decode_ahead.symm.trans hdecoded
  refine ⟨hok, ?_, fun h => ?_⟩
  · rw [hmachine, Machine.Accumulator.frame, Machine.Accumulator.state_noteEntry]
    rfl
  obtain ⟨⟨hle, -⟩, -⟩ := (hstands onward rfl).1 h
  exact absurd hle (by decide)

end Deck

end Rewind
