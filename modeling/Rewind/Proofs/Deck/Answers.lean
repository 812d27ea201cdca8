import Rewind.Proofs.Deck.Captures
import Rewind.Proofs.Deck.Undo

/-!
What a drain answers. Of what becomes of the requests of a batch, callers are told what concerns
theirs, and the deck uses up the rest (`performAll_fst`). What the first batch leaves pending are
checkpoints, which leave nothing pending, so there is at most one more
(`drain_eq_runBatch_runBatch`). Main statement: a drain answers each request of a caller once, in
order (`drain_answers`).
-/

namespace Rewind

namespace Savestate

/-- What is asked for. -/
structure Asked where
  job : Job
  tag : Option Tag
  /-- The target in words. -/
  label : String
deriving DecidableEq

/-- Whether a capture for undo is asked for. -/
def Asked.isUndoCapture (a : Asked) : Bool := a.job == .save && a.tag == some .undo

def Request.asked (r : Request) : Asked := ⟨r.job, r.tag, r.medium.label⟩

/-- What was asked for, as it is said with what became of it. -/
def Outcome.asked (o : Outcome) : Asked := ⟨o.job, o.tag, o.label⟩

end Savestate

open Savestate

namespace Deck

variable {M H D : Type} [Core M] [Frontend H] [Storage D]

/-! ## Outcomes -/

/-- What becomes of requests that are carried out in order, whoever is told. -/
def outcomes : List Request → Deck M H D → List Outcome
  | [], _ => []
  | r :: rs, d => (d.execute r).1 :: outcomes rs (d.perform r).2

/-- Each request has one outcome, which says what was asked. -/
theorem map_outcomes (rs : List Request) (d : Deck M H D) :
    (d.outcomes rs).map Outcome.asked = rs.map Request.asked := by
  induction rs generalizing d with
  | nil => rfl
  | cons r rs ih => exact congrArg (r.asked :: ·) (ih (d.perform r).2)

omit [Core M] [Storage D] in
theorem deliver_fst (o : Outcome) (d : Deck M H D) :
    (d.deliver o).1 = if isCallers o.tag then some o else none := by
  obtain ⟨job, tag, label, result⟩ := o
  cases tag with
  | none => cases result <;> rfl
  | some tag => cases tag <;> cases result <;> rfl

/-- Callers are told what becomes of their requests, and nothing else. -/
theorem performAll_fst (rs : List Request) (d : Deck M H D) :
    (d.performAll rs).1 = (d.outcomes rs).filter fun o => isCallers o.tag := by
  induction rs generalizing d with
  | nil => rfl
  | cons r rs ih =>
    have hfirst : (d.perform r).1 = if isCallers r.tag then some (d.execute r).1 else none :=
      deliver_fst _ _
    change (d.perform r).1.toList ++ ((d.perform r).2.performAll rs).1 = _
    rw [ih, hfirst, outcomes, List.filter_cons, tag_execute]
    cases isCallers r.tag <;> rfl

/-! ## Batches -/

/-- Checkpoints are nobody's but the deck's. -/
theorem runBatch_fst_of_captures {d : Deck M H D} (h : d.tape.OnlyCaptures) :
    d.runBatch.1 = [] := by
  rw [runBatch_of_captures h, performAll_fst, List.filter_eq_nil_iff]
  intro o ho
  have hasked : o.asked ∈ d.queue.pending.map Request.asked :=
    map_outcomes d.queue.pending { d with queue := d.queue.clear } ▸ List.mem_map_of_mem ho
  obtain ⟨r, hr, hsaid⟩ := List.mem_map.1 hasked
  have htag : some .checkpoint = o.tag := by
    rw [h r hr] at hsaid
    exact congrArg Asked.tag hsaid
  rw [← htag]
  exact Bool.false_ne_true

/-- Checkpoints leave nothing pending. -/
theorem pending_runBatch_of_captures {d : Deck M H D} (h : d.tape.OnlyCaptures) :
    d.runBatch.2.queue.pending = [] := by
  obtain ⟨k, hk, hp⟩ := d.pending_runBatch
  have hstarts : d.queue.pending.countP isMovieStart = 0 :=
    List.countP_eq_zero.2 fun r hr => by
      rw [h r hr]
      exact Bool.false_ne_true
  obtain rfl : k = 0 := Nat.le_zero.1 (Nat.le_trans hk (Nat.le_of_eq hstarts))
  exact hp

theorem runBatch_of_pending_eq_nil {d : Deck M H D} (h : d.queue.pending = []) :
    d.runBatch = ([], d) := by
  have hcaptures : d.tape.OnlyCaptures := fun r hr => absurd (h ▸ hr) List.not_mem_nil
  rw [runBatch_of_captures hcaptures, clear_of_pending_eq_nil h, h]
  rfl

/-- Draining goes on after the first batch. -/
theorem drain_runBatch (d : Deck M H D) : d.runBatch.2.drain.2 = d.drain.2 := by
  by_cases hp : d.queue.pending = []
  · rw [runBatch_of_pending_eq_nil hp]
  · rw [drain.eq_def d, if_neg hp]

/-- A drain is one batch, and another of what that leaves pending. -/
theorem drain_eq_runBatch_runBatch (d : Deck M H D) :
    d.drain = (d.runBatch.1, d.runBatch.2.runBatch.2) := by
  by_cases hp : d.queue.pending = []
  · rw [drain, if_pos hp, runBatch_of_pending_eq_nil hp, runBatch_of_pending_eq_nil hp]
  have hcaptures := d.onlyCaptures_runBatch
  have hlast : d.runBatch.2.drain = ([], d.runBatch.2.runBatch.2) := by
    by_cases hp : d.runBatch.2.queue.pending = []
    · rw [drain, if_pos hp, runBatch_of_pending_eq_nil hp]
    · rw [drain, if_neg hp, drain, if_pos (pending_runBatch_of_captures hcaptures),
        runBatch_fst_of_captures hcaptures]
      rfl
  rw [drain, if_neg hp, hlast]
  exact congrArg (·, d.runBatch.2.runBatch.2) (List.append_nil _)

/-- A batch is what is pending, without some saves, behind at most one capture for undo. -/
theorem prepare_eq_append (rs : List Request) (undoOnLoad : Bool) : ∃ own rest,
    prepare rs undoOnLoad = own ++ rest ∧ own.Sublist [.capture .undo] ∧ rest.Sublist rs := by
  have hrest := (simplify_sublist (simplify rs)).trans (simplify_sublist rs)
  cases hload : hasLoad rs with
  | false => exact ⟨[], _, prepare_of_not_hasLoad hload _, List.nil_sublist _, hrest⟩
  | true =>
    refine ⟨_, _, prepare_of_hasLoad hload _, ?_, hrest⟩
    cases undoOnLoad with
    | false => exact List.nil_sublist _
    | true => exact .refl _

/-- A batch holds at most one more capture for undo than is pending. -/
theorem countP_isUndoCapture_prepare (rs : List Request) (undoOnLoad : Bool) :
    ((prepare rs undoOnLoad).map Request.asked).countP Asked.isUndoCapture ≤
      (rs.map Request.asked).countP Asked.isUndoCapture + 1 := by
  obtain ⟨own, rest, hbatch, hown, hrest⟩ := prepare_eq_append rs undoOnLoad
  have hown := (hown.map Request.asked).countP_le (p := Asked.isUndoCapture)
  have hrest := (hrest.map Request.asked).countP_le (p := Asked.isUndoCapture)
  rw [hbatch, List.map_append, List.countP_append, Nat.add_comm]
  exact Nat.add_le_add hrest hown

/-- A drain is the batch `batch`, with these `outcomes`, and at most one more, which makes
checkpoints. It answers what became of the requests of callers in the first one, one outcome for
each, in the order in which they were carried out. -/
structure DrainsAs (d : Deck M H D) (batch : List Request) (outcomes : List Outcome) : Prop where
  drain_eq : d.drain = (outcomes.filter fun o => isCallers o.tag, d.runBatch.2.runBatch.2)
  pending : d.drain.2.queue.pending = []
  second : ∃ k ≤ d.queue.pending.countP isMovieStart,
    prepare d.runBatch.2.queue.pending d.runBatch.2.config.undoOnLoad =
      List.replicate k (.capture .checkpoint)
  asked : outcomes.map Outcome.asked = batch.map Request.asked
  answered : d.drain.1.map Outcome.asked =
    (batch.map Request.asked).filter fun a => isCallers a.tag
  batch_eq : ∃ own rest, batch = own ++ rest ∧ own.Sublist [.capture .undo] ∧
    rest.Sublist d.queue.pending
  undoCaptures : (outcomes.map Outcome.asked).countP Asked.isUndoCapture ≤
    (d.queue.pending.map Request.asked).countP Asked.isUndoCapture + 1

/-- **A drain ends, and answers each request of a caller once.** It captures the machine for undo at
most once more than it was asked to. -/
theorem drain_answers (d : Deck M H D) :
    let batch := prepare d.queue.pending d.config.undoOnLoad
    d.DrainsAs batch ({ d with queue := d.queue.clear }.outcomes batch) := by
  intro batch
  let outcomes := { d with queue := d.queue.clear }.outcomes batch
  let second := d.runBatch.2
  have hdrain : d.drain = (outcomes.filter fun o => isCallers o.tag, second.runBatch.2) :=
    d.drain_eq_runBatch_runBatch.trans (congrArg (·, second.runBatch.2) (performAll_fst batch _))
  have hasked : outcomes.map Outcome.asked = batch.map Request.asked := map_outcomes batch _
  exact
    { drain_eq := hdrain
      pending := pending_drain d
      second := by
        obtain ⟨k, hk, hp⟩ := d.pending_runBatch
        exact ⟨k, hk, (prepare_of_captures d.onlyCaptures_runBatch _).trans hp⟩
      asked := hasked
      answered := by
        rw [hdrain, ← hasked, List.filter_map]
        rfl
      batch_eq := prepare_eq_append _ _
      undoCaptures := by
        rw [hasked]
        exact countP_isUndoCapture_prepare _ _ }

/-- Captures for undo that were asked for are made as well. -/
theorem two_undoCaptures_of_tagged :
    let d := silenced [.capture .undo, .capture .undo]
    let outcomes := { d with queue := d.queue.clear }.outcomes
      (prepare d.queue.pending d.config.undoOnLoad)
    d.queue.launched = true ∧ (outcomes.map Outcome.asked).countP Asked.isUndoCapture = 2 := by
  intro d outcomes
  have hslots : ∀ r ∈ d.queue.pending, r.savedSlot? = none := by
    intro r hr
    obtain rfl := List.eq_of_mem_replicate (n := 2) hr
    rfl
  refine ⟨rfl, ?_⟩
  rw [map_outcomes, prepare_of_not_hasLoad rfl, simplify_eq_self hslots, simplify_eq_self hslots]
  rfl

end Deck

end Rewind
