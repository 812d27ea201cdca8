import Rewind.Proofs.Deck.FailedLoads
import Rewind.Proofs.Deck.QuietLoads

/-!
What a caller's load asks the user. It asks about a state of another cartridge, and then about a
movie position that it will not restore; the machine takes the state over only if every answer is
yes (`loadState_of_heard`). Main statement: the position is asked about unless it is missing while
the movie waits for its start (`execute_of_lost_position`).
-/

namespace Rewind

open Savestate

/-- Whether the user says yes to all of some questions, put one after the other. -/
def Frontend.agrees {H : Type} [Frontend H] : List String → H → Bool
  | [], _ => true
  | message :: messages, h =>
    (Frontend.confirm message h).1 && agrees messages (Frontend.confirm message h).2

theorem Frontend.agrees_append {H : Type} [Frontend H] (messages more : List String) (h : H) :
    agrees (messages ++ more) h = (agrees messages h && agrees more (questioned messages h)) := by
  induction messages generalizing h with
  | nil => rfl
  | cons message messages ih =>
    have hq : questioned (message :: messages) h =
        questioned messages (Frontend.confirm message h).2 := rfl
    rw [List.cons_append, agrees, agrees, ih, hq, Bool.and_assoc]

/-- A load that a caller asked for, without having warnings ignored. -/
structure Savestate.Request.IsCallersLoad (r : Request) : Prop where
  job : r.job = .load
  heeds : r.ignoreWarnings = false
  tag : r.tag = none ∨ ∃ id, r.tag = some (.caller id)

/-- The mode in which callers' loads restore the movie. -/
def Config.restoreMode (config : Config) : Movie.RestoreMode :=
  if config.readOnly then .readOnly else .rerecord

/-- What is asked about a movie position that would not be restored. -/
def Movie.Log.positionQuestions (log : Log) (position : Option Freeze) (mode : RestoreMode) :
    List String :=
  match position with
  | some freeze =>
    match log.checkFreeze freeze mode with
    | .ok () => []
    | .error cause => if log.isActive then [Deck.lostPositionMessage cause] else []
  | none => if log.task.isRunning then [Deck.noPositionMessage] else []

namespace Movie.Log

variable {log : Log} {freeze : Freeze} {mode : RestoreMode}

theorem positionQuestions_of_ok (h : log.checkFreeze freeze mode = .ok ()) :
    log.positionQuestions (some freeze) mode = [] := by
  simp only [positionQuestions, h]

theorem positionQuestions_of_error {cause : Error}
    (h : log.checkFreeze freeze mode = .error cause) :
    log.positionQuestions (some freeze) mode =
      if log.isActive then [Deck.lostPositionMessage cause] else [] := by
  simp only [positionQuestions, h]

end Movie.Log

namespace Deck

variable {M H D : Type} [Core M] [Frontend H] {d : Deck M H D}

/-- What is asked about the cartridge that a state was made on. -/
def romQuestions (hash : Wire.Block Machine.romHashSize) (d : Deck M H D) : List String :=
  if hash != (Core.rom d.machine).md5 then [foreignRomMessage hash] else []

omit [Frontend H] in
theorem romQuestions_of_eq {hash : Wire.Block Machine.romHashSize}
    (h : hash = (Core.rom d.machine).md5) : d.romQuestions hash = [] := by
  rw [romQuestions, h]
  exact if_neg (ne_true_of_eq_false (bne_self_eq_false _))

omit [Core M] [Frontend H] in
theorem restoreMode_of_isCallersLoad {r : Request} (hr : r.IsCallersLoad) (config : Config) :
    restoreMode r.tag config = some config.restoreMode := by
  obtain ht | ⟨id, ht⟩ := hr.tag <;> rw [ht] <;> rfl

/-! ## Questions and answers -/

omit [Core M] in
theorem ask_of_heard (h : d.config.silent = false) (message : String) :
    d.ask message = (if Frontend.agrees [message] d.frontend then .ok () else .error .cancelled,
      d.questioned [message]) := by
  have hc : d.confirm message =
      ((Frontend.confirm message d.frontend).1, d.questioned [message]) := by
    rw [confirm, h]
    rfl
  rw [ask, hc, Frontend.agrees, Frontend.agrees, Bool.and_true]
  cases (Frontend.confirm message d.frontend).1 <;> rfl

omit [Core M] in
/-- A position that is lost is let go if the user agrees. -/
theorem letGo_of_heard (h : d.config.silent = false) (b : Bool) (message : String) :
    (if (!false && b) = true then
      let (go, d) := d.ask message
      (go.map fun _ => (none : Option (Movie.Freeze × Movie.RestoreMode)), d)
    else (.ok none, d)) =
    (if Frontend.agrees (if b then [message] else []) d.frontend then .ok none
      else .error .cancelled, d.questioned (if b then [message] else [])) := by
  cases b with
  | false => rfl
  | true =>
    rw [ask_of_heard h]
    simp only [Bool.not_false, Bool.and_self, ↓reduceIte]
    cases Frontend.agrees [message] d.frontend <;> rfl

omit [Core M] in
theorem admitPosition_of_heard (h : d.config.silent = false) (position : Option Movie.Freeze)
    (mode : Movie.RestoreMode) :
    let messages := d.movie.positionQuestions position mode
    d.admitPosition position false (some mode) =
      (if Frontend.agrees messages d.frontend then .ok (d.movie.admitted position (some mode))
        else .error .cancelled, d.questioned messages) := by
  have hasked := letGo_of_heard h
  cases position with
  | none => exact hasked _ _
  | some freeze =>
    have hcases : d.movie.checkFreeze freeze mode = .ok () ∨
        ∃ cause, d.movie.checkFreeze freeze mode = .error cause := by
      cases d.movie.checkFreeze freeze mode with
      | ok => exact .inl rfl
      | error cause => exact .inr ⟨cause, rfl⟩
    obtain hc | ⟨cause, hc⟩ := hcases
    · rw [Movie.Log.positionQuestions_of_ok hc, Movie.Log.admitted_of_ok hc]
      simp only [admitPosition, hc]
      rfl
    · rw [Movie.Log.positionQuestions_of_error hc, Movie.Log.admitted_of_error hc]
      simp only [admitPosition, hc]
      exact hasked _ _

variable [Storage D]

/-- A caller's load heeds warnings, and restores positions as the deck is set to. -/
theorem execute_of_isCallersLoad {r : Request} (hr : r.IsCallersLoad) (d : Deck M H D) :
    let loaded := d.loadState r.medium false (some d.config.restoreMode)
    (d.execute r).1.result = loaded.1 ∧ (d.execute r).2 = loaded.2 := by
  intro loaded
  rw [execute_load_eq hr.job, hr.heeds, restoreMode_of_isCallersLoad hr]
  exact ⟨rfl, rfl⟩

/-- A load that heeds warnings asks about the cartridge and the position, and the machine takes the
state over if and only if the user says yes to everything. -/
theorem loadState_of_heard (h : d.config.silent = false) {medium : Medium} {data : ByteArray}
    {hash : Wire.Block Machine.romHashSize} (hfetch : d.fetchState medium = .ok (data, hash))
    {decoded : Decoded} (hdecode : decode data = .ok decoded) (mode : Movie.RestoreMode) :
    let asked := d.romQuestions hash ++ d.movie.positionQuestions decoded.snapshot.movie mode
    d.loadState medium false (some mode) =
      if Frontend.agrees asked d.frontend then
        (.ok data, ((d.questioned asked).applyState decoded
          (d.movie.admitted decoded.snapshot.movie (some mode))).settleEntry)
      else if Frontend.agrees (d.romQuestions hash) d.frontend then
        (.error .cancelled, (d.questioned asked).settleEntry)
      else (.error .cancelled, d.questioned (d.romQuestions hash)) := by
  intro asked
  have hrom (foreign : Bool) : (if foreign then d.ask (foreignRomMessage hash) else (.ok (), d)) =
      (if Frontend.agrees (if foreign then [foreignRomMessage hash] else []) d.frontend then .ok ()
        else .error .cancelled,
        d.questioned (if foreign then [foreignRomMessage hash] else [])) := by
    cases foreign with
    | false => rfl
    | true => exact ask_of_heard h _
  have hrom : (if (!false && hash != (Core.rom d.machine).md5) = true then
      d.ask (foreignRomMessage hash) else (.ok (), d)) =
      (if Frontend.agrees (d.romQuestions hash) d.frontend then .ok () else .error .cancelled,
        d.questioned (d.romQuestions hash)) := hrom (hash != (Core.rom d.machine).md5)
  have hposition : (d.questioned (d.romQuestions hash)).admitPosition decoded.snapshot.movie false
      (some mode) =
        (if Frontend.agrees (d.movie.positionQuestions decoded.snapshot.movie mode)
          (Frontend.questioned (d.romQuestions hash) d.frontend) then
          .ok (d.movie.admitted decoded.snapshot.movie (some mode)) else .error .cancelled,
        d.questioned asked) := by
    rw [← questioned_questioned]
    exact admitPosition_of_heard (d := d.questioned (d.romQuestions hash)) h _ mode
  rw [Frontend.agrees_append, loadState, hfetch]
  simp only
  rw [hrom]
  cases hyes : Frontend.agrees (d.romQuestions hash) d.frontend with
  | false => rfl
  | true =>
    simp only [↓reduceIte, loadDecoded, hdecode, Bool.true_and]
    rw [hposition]
    cases Frontend.agrees (d.movie.positionQuestions decoded.snapshot.movie mode)
      (Frontend.questioned (d.romQuestions hash) d.frontend) with
    | false => rfl
    | true => rfl

/-! ## Positions that are not restored -/

omit [Core M] [Frontend H] [Storage D] in
theorem positionQuestions_ne_nil_iff (hactive : d.movie.isActive = true)
    {position : Option Movie.Freeze} {mode : Movie.RestoreMode}
    (hlost : d.movie.admitted position (some mode) = none) :
    d.movie.positionQuestions position mode ≠ [] ↔
      position ≠ none ∨ d.movie.task.isRunning = true := by
  cases position with
  | none => simp [Movie.Log.positionQuestions]
  | some freeze =>
    cases hc : d.movie.checkFreeze freeze mode with
    | ok =>
      rw [Movie.Log.admitted_of_ok hc] at hlost
      cases hlost
    | error cause => simp [Movie.Log.positionQuestions_of_error hc, hactive]

/-- **A load that leaves a movie's position behind asks first, unless the movie waits for its start
and the state has no position.** The machine takes the state over only if the answer to that
question, and to the one about another cartridge, is yes; otherwise the load is cancelled, and the
deck is as it was but for what the frontend was asked. -/
theorem execute_of_lost_position (hheard : d.config.silent = false)
    (hactive : d.movie.isActive = true) {r : Request} (hr : r.IsCallersLoad) {data : ByteArray}
    {hash : Wire.Block Machine.romHashSize} (hfetch : d.fetchState r.medium = .ok (data, hash))
    {decoded : Decoded} (hdecode : decode data = .ok decoded)
    (hlost : d.movie.admitted decoded.snapshot.movie (some d.config.restoreMode) = none) :
    let questions := d.movie.positionQuestions decoded.snapshot.movie d.config.restoreMode
    let asked := d.romQuestions hash ++ questions
    (questions ≠ [] ↔ decoded.snapshot.movie ≠ none ∨ d.movie.task.isRunning = true) ∧
    (Frontend.agrees asked d.frontend = true ∧ (d.execute r).1.result = .ok data ∧
        (d.execute r).2 = ((d.questioned asked).applyState decoded none).settleEntry ∨
      Frontend.agrees asked d.frontend = false ∧ (d.execute r).1.result = .error .cancelled ∧
        ∃ messages, messages <+: asked ∧ ((d.execute r).2 = d.questioned messages ∨
          (d.execute r).2 = (d.questioned messages).settleEntry)) := by
  intro questions asked
  refine ⟨positionQuestions_ne_nil_iff hactive hlost, ?_⟩
  have hloaded := loadState_of_heard hheard hfetch hdecode d.config.restoreMode
  rw [hlost] at hloaded
  obtain ⟨hresult, hleft⟩ := execute_of_isCallersLoad hr d
  rw [hresult, hleft, hloaded]
  cases hyes : Frontend.agrees asked d.frontend with
  | true => exact .inl ⟨rfl, rfl, rfl⟩
  | false =>
    refine .inr ⟨rfl, ?_⟩
    simp only [Bool.false_eq_true, ↓reduceIte]
    split
    · exact ⟨rfl, asked, List.prefix_refl _, .inr rfl⟩
    · exact ⟨rfl, d.romQuestions hash, List.prefix_append _ _, .inl rfl⟩

/-- The recording of which nothing is left is not to be changed, and its user says no. -/
def unwilling : Deck Machine.Accumulator Journal Storage.Tree :=
  { cutOff with config.readOnly := true, frontend := { accept := false } }

/-- The load of a state from behind its end. -/
def outside : Request :=
  { job := .load, medium := .memory (stateBytes ahead false), tag := some (.caller 1) }

theorem execute_of_lost_position_unwilling :
    unwilling.movie.checkFreeze onward .readOnly = .error .invalidFrame ∧
      (unwilling.execute outside).1.result = .error .cancelled ∧
      ∃ messages, messages <+: [lostPositionMessage .invalidFrame] ∧
        ((unwilling.execute outside).2 = unwilling.questioned messages ∨
          (unwilling.execute outside).2 = (unwilling.questioned messages).settleEntry) := by
  have hfetch := fetchState_memory decode_ahead isAscii_cutOff unwilling
  have hr : outside.IsCallersLoad := ⟨rfl, rfl, .inr ⟨1, rfl⟩⟩
  obtain ⟨-, hdone⟩ := execute_of_lost_position rfl rfl hr hfetch decode_ahead rfl
  have hsame : ahead.romHash = (Core.rom unwilling.machine).md5 := rfl
  have hrom : unwilling.romQuestions ahead.romHash = [] := romQuestions_of_eq hsame
  have hasked : unwilling.romQuestions ahead.romHash ++
      unwilling.movie.positionQuestions ahead.movie unwilling.config.restoreMode =
        [lostPositionMessage .invalidFrame] := by
    rw [hrom]
    rfl
  simp only [hasked] at hdone
  obtain ⟨hyes, -⟩ | ⟨-, hcancelled, hquestioned⟩ := hdone
  · cases hyes
  · exact ⟨rfl, hcancelled, hquestioned⟩

end Deck

end Rewind
