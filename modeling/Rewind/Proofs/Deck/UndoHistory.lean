import Rewind.Proofs.Deck.Answers
import Rewind.Proofs.Deck.Refusals

/-!
The undo state over a run. Of all calls, only a drain that loads replaces it, and only if the
machine can be saved (`undo_after`). Main statement: after a drain that loads, it belongs to that
drain unless the machine could not be saved, when what an earlier drain captured stays in its place
(`undo_drain_after`).
-/

namespace Rewind

open Savestate

namespace Deck

variable {M H D : Type}

/-- Between two decks nothing was captured for undo, and no capture for it was asked for. -/
structure KeepsUndo (d d' : Deck M H D) : Prop where
  undo : d'.undo = d.undo
  undoOnLoad : d'.config.undoOnLoad = d.config.undoOnLoad
  asked : ∀ r ∈ d'.queue.pending, r ∈ d.queue.pending ∨ r.tag ≠ some .undo

namespace KeepsUndo

theorem refl (d : Deck M H D) : KeepsUndo d d := ⟨rfl, rfl, fun _ => .inl⟩

theorem trans {a b c : Deck M H D} (h : KeepsUndo a b) (h' : KeepsUndo b c) : KeepsUndo a c where
  undo := h'.undo.trans h.undo
  undoOnLoad := h'.undoOnLoad.trans h.undoOnLoad
  asked r hr := (h'.asked r hr).elim (h.asked r) .inr

/-- Where nothing was asked for, it is enough to look at the undo state. -/
theorem of_queue {d d' : Deck M H D} (hundo : d'.undo = d.undo) (hconfig : d'.config = d.config)
    (hqueue : d'.queue = d.queue) : KeepsUndo d d' :=
  ⟨hundo, congrArg (·.undoOnLoad) hconfig, fun _ hr => .inl (hqueue ▸ hr)⟩

theorem of_tape {d d' : Deck M H D} (hundo : d'.undo = d.undo) (ht : d'.tape = d.tape) :
    KeepsUndo d d' :=
  of_queue hundo (congrArg Tape.config ht) (congrArg Tape.queue ht)

/-- One more request may be pending, if it is not for a capture for undo. -/
theorem ask {d d' : Deck M H D} (h : KeepsUndo d d') {r : Request} (hr : r.tag ≠ some .undo)
    (seek : Seek.State) :
    KeepsUndo d { d' with queue.pending := r :: d.queue.pending, seek } := by
  refine ⟨h.undo, h.undoOnLoad, fun r' hr' => ?_⟩
  obtain rfl | hr' := List.mem_cons.1 hr'
  · exact .inr hr
  · exact .inl hr'

end KeepsUndo

theorem keepsUndo_enqueue {r : Request} (h : r.tag ≠ some .undo) (d : Deck M H D) :
    KeepsUndo d (d.enqueue r).2 := by
  cases hl : d.queue.launched with
  | false => rw [enqueue_of_not_launched hl]; exact .refl d
  | true => rw [enqueue_of_launched hl]; exact (KeepsUndo.refl d).ask h d.seek

theorem keepsUndo_offerCheckpoint (d : Deck M H D) : KeepsUndo d d.offerCheckpoint := by
  unfold offerCheckpoint
  split
  · exact keepsUndo_enqueue (r := .capture .checkpoint) nofun d
  · exact .refl d

/-! ## Calls -/

section
variable [Frontend H]

theorem keepsUndo_stopSeek (d : Deck M H D) : KeepsUndo d d.stopSeek :=
  .of_tape (undo_stopSeek d) (tape_stopSeek d)

theorem keepsUndo_checkSeek (d : Deck M H D) : KeepsUndo d d.checkSeek :=
  .of_tape (undo_checkSeek d) (tape_checkSeek d)

theorem keepsUndo_changeMovie (log : Movie.Log) (d : Deck M H D) :
    KeepsUndo d (d.changeMovie log) := by
  have ht := tape_changeMovie log d
  exact .of_queue (undo_notifyTask _ _) (congrArg Tape.config ht) (congrArg Tape.queue ht)

theorem keepsUndo_withInputs (inputs : Array Sample) (rollbackTo : Nat) (d : Deck M H D) :
    KeepsUndo d (d.withInputs inputs rollbackTo) := by
  have hstarted : d.startWarp.undo = d.undo := by unfold startWarp; split <;> rfl
  have hundo : (d.withInputs inputs rollbackTo).undo = d.undo :=
    (undo_dropCheckpoints _ _).trans ((undo_notifyTask _ _).trans hstarted)
  have ht := tape_withInputs inputs rollbackTo d
  exact .of_queue hundo (congrArg Tape.config ht) (congrArg Tape.queue ht)

theorem keepsUndo_setLaunched (launched : Bool) (d : Deck M H D) :
    KeepsUndo d (d.setLaunched launched) := by
  cases launched with
  | true => exact ⟨rfl, rfl, fun _ => .inl⟩
  | false =>
    have hcleared : KeepsUndo d { d with queue := d.queue.setLaunched false } :=
      ⟨rfl, rfl, fun _ hr => absurd hr List.not_mem_nil⟩
    exact hcleared.trans (keepsUndo_stopSeek _)

theorem Seeks.keepsUndo {target : Nat} {pauseAtEnd mustRollback : Bool} {d : Deck M H D}
    {result : Except Seek.Error Unit × Deck M H D}
    (h : Seeks target pauseAtEnd mustRollback d result) : KeepsUndo d result.2 := by
  cases h with
  | refused => exact .refl d
  | ahead =>
    have hsought (seek : Seek.State) : KeepsUndo d { d with seek } := .of_queue rfl rfl rfl
    exact (hsought _).trans (keepsUndo_checkSeek _)
  | back _ state => exact (KeepsUndo.refl d).ask (r := rollbackRequest state) nofun _

theorem Warps.keepsUndo {inputs : Array Sample} {d : Deck M H D}
    {result : Except Warp.Error Unit × Deck M H D} (h : Warps inputs d result) :
    KeepsUndo d result.2 := by
  cases h with
  | refused => exact .refl d
  | same => exact .of_queue rfl rfl rfl
  | extended => exact .of_queue rfl rfl rfl
  | replayed _ _ _ rollbackTo state =>
    have hasked := (keepsUndo_withInputs inputs rollbackTo d).ask (r := rollbackRequest state) nofun
      ⟨some ⟨min d.movie.currentSample inputs.size, false, true⟩⟩
    exact hasked.trans (.of_queue rfl rfl rfl)

variable [Storage D]

theorem keepsUndo_stopMovie (d : Deck M H D) : KeepsUndo d d.stopMovie.2 := by
  have hstopped := keepsUndo_stopSeek d
  refine hstopped.trans ?_
  unfold stopMovie
  simp only
  split
  · exact .refl _
  · split <;> exact .of_queue rfl rfl rfl

theorem Polls.keepsUndo {live : Sample} {d : Deck M H D}
    {result : (Movie.PollOutcome × Sample) × Deck M H D} (h : Polls live d result) :
    KeepsUndo d result.2 := by
  cases h with
  | passed => exact keepsUndo_changeMovie _ d
  | handed =>
    exact (keepsUndo_changeMovie _ d).trans
      ((keepsUndo_offerCheckpoint _).trans (keepsUndo_checkSeek _))
  | ended paused =>
    have hchanged := keepsUndo_changeMovie d.movie.arrive d
    obtain rfl | rfl := paused
    · exact hchanged.trans (keepsUndo_stopMovie _)
    · have hpaused : KeepsUndo d (d.changeMovie d.movie.arrive).pause :=
        hchanged.trans (.of_queue rfl rfl rfl)
      exact hpaused.trans (keepsUndo_stopMovie _)

variable [Core M]

omit [Storage D] in
theorem keepsUndo_withStart (log : Movie.Log) (start : Option Request) (d : Deck M H D) :
    KeepsUndo d (d.withStart log start) := by
  have hset : KeepsUndo d { d with
      checkpoints := d.checkpoints.clear, warp := {}, movie := log,
      machine := startMachine start d.machine } := .of_queue rfl rfl rfl
  have htag : (startRequest start).tag ≠ some .undo := by cases start <;> nofun
  exact hset.trans ((keepsUndo_enqueue htag _).trans (.of_queue rfl rfl rfl))

theorem keepsUndo_startRecording (now : UInt32) (path : Storage.Pathname) (flags : UInt16)
    (author description : String) (d : Deck M H D) :
    KeepsUndo d (d.startRecording now path flags author description).2 := by
  have hrecords := startRecording_records now path flags author description d
  generalize d.startRecording now path flags author description = result at hrecords ⊢
  have hsaved {d' : Deck M H D} {movie : Movie.Recording} {task : Movie.Task}
      {start : Option Request} (htaken : d.takeUpMovie path movie task start = (.ok (), d')) :
      KeepsUndo d d'.saveMovie.2 := by
    obtain ⟨-, rfl⟩ := takeUpMovie_eq_ok htaken
    exact (keepsUndo_withStart _ _ d).trans (.of_queue rfl rfl rfl)
  cases hrecords with
  | refused e => exact .refl d
  | dropped fault htaken => exact (hsaved htaken).trans (.of_queue rfl rfl rfl)
  | recorded htaken => exact hsaved htaken

theorem keepsUndo_startPlayback (path : Storage.Pathname) (d : Deck M H D) :
    KeepsUndo d (d.startPlayback path).2 := by
  have hasked {movie : Movie.Recording} {d' : Deck M H D} (h : AskedAbout movie d d') :
      KeepsUndo d d' := by
    obtain rfl | ⟨-, rfl⟩ := h
    · exact .refl _
    · exact .of_queue rfl rfl rfl
  have hplays := startPlayback_plays path d
  generalize d.startPlayback path = result at hplays ⊢
  cases hplays with
  | refused => exact .refl d
  | declined _ _ h => exact hasked h
  | played _ h htaken =>
    obtain ⟨-, rfl⟩ := takeUpMovie_eq_ok htaken
    exact (hasked h).trans (keepsUndo_withStart _ _ _)

omit [Core M] [Storage D] in
theorem Asks.keepsUndo {d d' : Deck M H D} (h : Asks d d') : KeepsUndo d d' := by
  induction h with
  | set readOnly => exact ⟨rfl, rfl, fun _ => .inl⟩
  | nothing => exact .refl d
  | asked r hr =>
    refine keepsUndo_enqueue (fun ht => ?_) d
    rw [ht] at hr
    cases hr
  | selected slot _ ih => exact ih.trans (.of_queue rfl rfl rfl)

/-- Everything but a drain keeps the undo state. -/
theorem keepsUndo_call {c : Call} (hc : c ≠ .drain) (d : Deck M H D) : KeepsUndo d (d.call c) := by
  cases c with
  | setLaunched launched => exact keepsUndo_setLaunched launched d
  | drain => exact absurd rfl hc
  | startRecording now path flags author description =>
    exact keepsUndo_startRecording now path flags author description d
  | startPlayback path => exact keepsUndo_startPlayback path d
  | stopMovie => exact keepsUndo_stopMovie d
  | setAuthor path author description =>
    change KeepsUndo d (d.setAuthor path author description).2
    obtain ⟨disk, hd | hd⟩ := setAuthor_cases path author description d
    · rw [hd]
      exact .of_queue rfl rfl rfl
    · rw [hd]
      exact .of_queue rfl rfl rfl
  | poll index live => exact (poll_polls index live d).keepsUndo
  | vi => exact .of_queue rfl rfl rfl
  | beginSeek text pauseAtEnd =>
    obtain ⟨_, -, h⟩ := beginSeek_seeks text pauseAtEnd d
    exact h.keepsUndo
  | stopSeek => exact keepsUndo_stopSeek d
  | beginWarp inputs => exact (beginWarp_warps inputs d).keepsUndo
  | _ => exact (call_asks rfl d).keepsUndo

end

/-! ## Captures -/

variable [Core M] [Frontend H] [Storage D]

/-- The machine as a drain captures it for undo, if it can be saved. -/
def captured? (d : Deck M H D) : Option ByteArray :=
  match encode d.snapshot with
  | .error _ => none
  | .ok encoded => some encoded.bytes

/-- What something that happens captures for undo: a drain that loads captures the machine as it
begins. -/
def captureOf? (d : Deck M H D) : Happening M H D → Option ByteArray
  | .call .drain => if hasLoad d.queue.pending then d.captured? else none
  | _ => none

/-- What was captured for undo during a run, in order. -/
def undoCaptures : List (Happening M H D) → Deck M H D → List ByteArray
  | [], _ => []
  | h :: hs, d => (d.captureOf? h).toList ++ undoCaptures hs (d.undergo h)

/-- Nothing is captured where nothing loads. -/
theorem undo_drain_of_not_hasLoad {d : Deck M H D} (hload : hasLoad d.queue.pending = false)
    (htags : ∀ r ∈ d.queue.pending, r.tag ≠ some .undo) : d.drain.2.undo = d.undo := by
  have hbatch : d.runBatch.2.undo = d.undo := by
    rw [runBatch, prepare_of_not_hasLoad hload]
    refine undo_performAll (fun r hr => htags r ?_) { d with queue := d.queue.clear }
    exact (simplify_sublist _).mem ((simplify_sublist _).mem hr)
  rw [← drain_runBatch, undo_drain_of_captures d.onlyCaptures_runBatch, hbatch]

/-- A drain captures the machine for undo as it begins, or leaves what was captured. -/
theorem undo_drain_eq {d : Deck M H D} (hundo : d.config.undoOnLoad = true)
    (htags : ∀ r ∈ d.queue.pending, r.tag ≠ some .undo) :
    d.drain.2.undo = (d.captureOf? (.call .drain)).or d.undo := by
  cases hload : hasLoad d.queue.pending with
  | false =>
    rw [undo_drain_of_not_hasLoad hload htags, captureOf?, hload]
    rfl
  | true =>
    rw [undo_drain hundo hload htags, captureOf?, hload, captured?]
    cases encode d.snapshot <;> rfl

/-- A deck on which captures for undo are the drains' own. -/
structure OwnsUndo (d : Deck M H D) : Prop where
  undoOnLoad : d.config.undoOnLoad = true
  untagged : ∀ r ∈ d.queue.pending, r.tag ≠ some .undo

/-- What happens leaves the captures for undo to the drains, and each replaces the one before. -/
theorem OwnsUndo.undergo {d : Deck M H D} (h : OwnsUndo d) (happening : Happening M H D) :
    OwnsUndo (d.undergo happening) ∧
      (d.undergo happening).undo = (d.captureOf? happening).or d.undo := by
  cases happening with
  | outside => exact ⟨⟨h.undoOnLoad, h.untagged⟩, rfl⟩
  | call c =>
    by_cases hc : c = .drain
    · subst hc
      have hdrained : OwnsUndo d.drain.2 := by
        refine ⟨(congrArg (·.undoOnLoad) (settings_drain d).1).trans h.undoOnLoad, fun r hr => ?_⟩
        rw [pending_drain] at hr
        cases hr
      exact ⟨hdrained, undo_drain_eq h.undoOnLoad h.untagged⟩
    · have hkept := keepsUndo_call hc d
      have hnone : d.captureOf? (.call c) = none := by cases c <;> first | rfl | exact absurd rfl hc
      refine ⟨⟨hkept.undoOnLoad.trans h.undoOnLoad, fun r hr => ?_⟩, ?_⟩
      · exact (hkept.asked r hr).elim (h.untagged r) id
      · rw [hnone]
        exact hkept.undo

/-- The undo state after a run is what was captured last. -/
theorem undo_after {d : Deck M H D} (h : OwnsUndo d) (hs : List (Happening M H D)) :
    OwnsUndo (d.after hs) ∧ (d.after hs).undo = (undoCaptures hs d).getLast?.or d.undo := by
  induction hs generalizing d with
  | nil => exact ⟨h, rfl⟩
  | cons happening hs ih =>
    obtain ⟨hown, hundo⟩ := h.undergo happening
    obtain ⟨hafter, hlast⟩ := ih hown
    refine ⟨hafter, hlast.trans ?_⟩
    have htoList : (d.captureOf? happening).toList.getLast? = d.captureOf? happening := by
      cases d.captureOf? happening <;> rfl
    rw [hundo, undoCaptures, List.getLast?_append, htoList, Option.or_assoc]

/-- **The undo state belongs to the last drain that loads, unless the machine could not be saved.**
After a drain that loads, it is the machine as that drain began, if this could be saved, and else
what was captured last before. So it is absent, or the machine as the drain began, if and only if
that machine could be saved or nothing had been captured yet. -/
theorem undo_drain_after {config : Config} (hundo : config.undoOnLoad = true) (machine : M)
    (frontend : H) (disk : D) (hs : List (Happening M H D))
    (hload : hasLoad ((new config machine frontend disk).after hs).queue.pending = true) :
    let start := new config machine frontend disk
    let d := start.after hs
    d.drain.2.undo = d.captured?.or (undoCaptures hs start).getLast? ∧
      ((d.drain.2.undo = none ∨
          ∃ encoded, encode d.snapshot = .ok encoded ∧ d.drain.2.undo = some encoded.bytes) ↔
        (∃ encoded, encode d.snapshot = .ok encoded) ∨ undoCaptures hs start = []) := by
  intro start d
  have hstart : OwnsUndo start := ⟨hundo, fun _ hr => absurd hr List.not_mem_nil⟩
  obtain ⟨hown, hbefore⟩ := undo_after hstart hs
  have hafter : d.drain.2.undo = d.captured?.or (undoCaptures hs start).getLast? := by
    rw [undo_drain_eq hown.undoOnLoad hown.untagged, hbefore, captureOf?, hload]
    exact congrArg _ (Option.or_none)
  refine ⟨hafter, ?_⟩
  rw [hafter, captured?]
  cases encode d.snapshot with
  | error e => simp
  | ok encoded => simp

/-- A silent deck carries out the load of a state that can be read. -/
theorem exists_outcome_of_load {d : Deck M H D} (hsilent : d.config.silent = true)
    {state : ByteArray} {decoded : Decoded} (hdecode : decode state = .ok decoded)
    (ha : decoded.snapshot.romHash.IsAscii) {id : UInt64}
    (hp : d.queue.pending =
      [{ job := .load, medium := .memory state, tag := some (.caller id) }]) :
    ∃ o ∈ d.drain.1, o.job = .load ∧ o.result = .ok state := by
  let load : Request := { job := .load, medium := .memory state, tag := some (.caller id) }
  let cleared : Deck M H D := { d with queue := d.queue.clear }
  have hresult {d' : Deck M H D} (hc : d'.config = d.config) :
      (d'.execute load).1.result = .ok state := by
    have hquiet : load.ignoreWarnings = true ∨ d'.config.silent = true := .inr (hc ▸ hsilent)
    have hloaded := loadState_memory_of_quiet hquiet hdecode ha (restoreMode load.tag d'.config)
    exact congrArg Prod.fst hloaded
  have hmem (d' : Deck M H D) : (d'.execute load).1 ∈
      (d'.outcomes [load]).filter fun o => isCallers o.tag := .head _
  rw [drain_eq_runBatch_runBatch, runBatch, performAll_fst, hp, prepare_load rfl, simplify_nil,
    simplify_nil]
  cases d.config.undoOnLoad with
  | false => exact ⟨_, hmem cleared, rfl, hresult rfl⟩
  | true =>
    have hc : (cleared.perform (.capture .undo)).2.config = d.config :=
      config_perform_any (.capture .undo) cleared
    exact ⟨_, hmem (cleared.perform (.capture .undo)).2, rfl, hresult hc⟩

/-- A machine with more interrupts pending than a savestate has room for. -/
def crowded : Machine.Accumulator :=
  { cutOff.machine with
    state.interrupts.events := List.replicate (maxEvents + 1) ⟨Machine.Interrupt.si, 100⟩ }

omit [Storage D] in
theorem captured?_of_crowded {d : Deck Machine.Accumulator H D} (h : d.machine = crowded) :
    d.captured? = none := by
  have hirq : d.snapshot.interrupts = crowded.state.interrupts :=
    congrArg (fun m : Machine.Accumulator => m.state.interrupts) h
  have hsi : d.snapshot.interrupts.has Machine.Interrupt.si = true := by
    rw [hirq]
    rfl
  have hlength : maxEvents < d.snapshot.interrupts.events.length := by
    rw [hirq]
    exact Nat.lt_of_lt_of_eq (Nat.lt_succ_self _) List.length_replicate.symm
  rw [captured?, encode_of_si hsi, write, if_pos hlength]
  rfl

/-- A silent deck in which nothing has happened. -/
def unused : Deck Machine.Accumulator Journal Storage.Tree :=
  new { silent := true } cutOff.machine {} {}

/-- A state is loaded, and then again after the machine has become crowded. -/
def loadedTwice (state : ByteArray) :
    List (Happening Machine.Accumulator Journal Storage.Tree) :=
  [.call (.setLaunched true), .call (.loadMemory state 1), .call .drain,
    .outside crowded id {}, .call (.loadMemory state 2)]

theorem undo_drain_after_loadedTwice :
    ∃ state encoded, decode state = .ok ⟨ahead, false⟩ ∧ encode unused.snapshot = .ok encoded ∧
      let d := unused.after (loadedTwice state)
      d.captured? = none ∧ (∃ o ∈ d.drain.1, o.job = .load ∧ o.result = .ok state) ∧
        d.drain.2.undo = some encoded.bytes := by
  obtain ⟨encoded, hencoded⟩ := encode_of_noScreen (s := unused.snapshot) rfl (by decide)
  obtain ⟨state, hdecode⟩ : ∃ state, decode state = .ok ⟨ahead, false⟩ := ⟨_, decode_ahead⟩
  refine ⟨state, encoded, hdecode, hencoded, ?_⟩
  intro d
  let first := unused.after ((loadedTwice state).take 2)
  let later := first.drain.2.undergo (.outside crowded id {})
  obtain ⟨hconfig, hlaunched⟩ := settings_drain first
  have hl : later.queue.launched = true := hlaunched
  have hd : d = { later with queue.pending :=
      { job := .load, medium := .memory state, tag := some (.caller 2) } ::
        later.queue.pending } := congrArg Prod.snd (enqueue_of_launched hl _)
  have hp : d.queue.pending =
      [{ job := .load, medium := .memory state, tag := some (.caller 2) }] := by
    rw [hd]
    exact congrArg (_ :: ·) (pending_drain first)
  have hload : hasLoad d.queue.pending = true := by
    rw [hp]
    rfl
  have hsilent : d.config.silent = true := by
    rw [hd]
    exact congrArg (·.silent) hconfig
  have hcrowded : d.captured? = none := captured?_of_crowded (congrArg (·.machine) hd)
  have hfirst : first.captureOf? (.call .drain) = some encoded.bytes := by
    have hsame : first.snapshot = unused.snapshot := rfl
    have hloads : hasLoad first.queue.pending = true := rfl
    rw [captureOf?, if_pos hloads, captured?, hsame, hencoded]
  have hcaptures : undoCaptures (loadedTwice state) unused = [encoded.bytes] := by
    change (first.captureOf? (.call .drain)).toList ++ [] = _
    rw [hfirst]
    rfl
  have hon : ({ silent := true } : Config).undoOnLoad = true := rfl
  have hafter := undo_drain_after hon cutOff.machine ({} : Journal) ({} : Storage.Tree)
    (loadedTwice state)
  have hundo : d.drain.2.undo =
      d.captured?.or (undoCaptures (loadedTwice state) unused).getLast? := (hafter hload).1
  refine ⟨hcrowded, exists_outcome_of_load hsilent hdecode isAscii_cutOff hp, ?_⟩
  rw [hundo, hcrowded, hcaptures]
  rfl

end Deck

end Rewind
