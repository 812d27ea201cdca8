import Rewind.Proofs.Deck.Calls
import Rewind.Proofs.Deck.Operations
import Rewind.Proofs.Deck.SeekReplay

/-!
What goes on as before. Only seeks, warps and the end of a movie change a seek or a warp, and only
they speak of warps to the frontend. Main statements: carrying out a request (`steady_execute`) and
everything a caller asks for (`call_aside`) leave the seek and the warp as they are.
-/

namespace Rewind

open Savestate

/-- What an event says about warps: that one began, or ended. -/
def Event.warpStatus? : Event → Option Bool
  | .warpModifyStatusChanged warping => some warping
  | _ => none

/-- A frontend's state can be told from whether a warp is under way, as long as the frontend hears
of each warp when it begins and when it ends. -/
structure Frontend.Follows {H : Type} [Frontend H] (told : Bool → H → Prop) : Prop where
  begins {h : H} : told false h → told true (Frontend.notify (.warpModifyStatusChanged true) h)
  ends {h : H} : told true h → told false (Frontend.notify (.warpModifyStatusChanged false) h)
  notify {e : Event} {warping : Bool} {h : H} :
    e.warpStatus? = none → told warping h → told warping (Frontend.notify e h)
  confirm (message : String) {warping : Bool} {h : H} :
    told warping h → told warping (Frontend.confirm message h).2
  pause {warping : Bool} {h : H} : told warping h → told warping (Frontend.pause h)
  restoreScreen (shot : Machine.Screenshot) {warping : Bool} {h : H} :
    told warping h → told warping (Frontend.restoreScreen shot h)

/-- Nothing is known of a frontend that nobody listens to. -/
theorem Frontend.follows_unheard {H : Type} [Frontend H] :
    Follows (fun (_ : Bool) (_ : H) => True) :=
  ⟨id, id, fun _ => id, fun _ => id, id, fun _ => id⟩

namespace Deck

variable {M H D : Type} {told : Bool → H → Prop}

/-- The seek and the warp go on as before, and nothing was said about warps. -/
structure Steady (told : Bool → H → Prop) (d d' : Deck M H D) : Prop where
  seek : d'.seek = d.seek
  warping : d'.warp.warping = d.warp.warping
  told {warping : Bool} : told warping d.frontend → told warping d'.frontend

namespace Steady

theorem refl (d : Deck M H D) : Steady told d d := ⟨rfl, rfl, id⟩

theorem trans {a b c : Deck M H D} (h : Steady told a b) (h' : Steady told b c) :
    Steady told a c :=
  ⟨h'.seek.trans h.seek, h'.warping.trans h.warping, fun ht => h'.told (h.told ht)⟩

end Steady

/-! ## Parts of operations -/

theorem steady_enqueue (r : Request) (d : Deck M H D) : Steady told d (d.enqueue r).2 := by
  unfold enqueue
  split <;> exact ⟨rfl, rfl, id⟩

theorem steady_offerCheckpoint (d : Deck M H D) : Steady told d d.offerCheckpoint := by
  unfold offerCheckpoint
  split
  · exact steady_enqueue _ d
  · exact .refl d

theorem steady_saveMovie [Storage D] (d : Deck M H D) : Steady told d d.saveMovie.2 :=
  ⟨rfl, rfl, id⟩

theorem steady_writeState [Storage D] (path : Storage.Pathname) (state : ByteArray)
    (d : Deck M H D) : Steady told d (d.writeState path state).2 := by
  unfold writeState
  simp only
  split <;> exact ⟨rfl, rfl, id⟩

section
variable [Frontend H] (follows : Frontend.Follows told)
include follows

theorem steady_notify {e : Event} (he : e.warpStatus? = none) (d : Deck M H D) :
    Steady told d (d.notify e) := ⟨rfl, rfl, follows.notify he⟩

theorem steady_pause (d : Deck M H D) : Steady told d d.pause := ⟨rfl, rfl, follows.pause⟩

theorem steady_notifyTask (before : Movie.Task) (d : Deck M H D) :
    Steady told d (d.notifyTask before) := by
  unfold notifyTask
  split
  · exact .refl d
  · exact steady_notify follows rfl d

theorem steady_changeMovie (log : Movie.Log) (d : Deck M H D) :
    Steady told d (d.changeMovie log) :=
  have h : Steady told d { d with movie := log } := ⟨rfl, rfl, id⟩
  h.trans (steady_notifyTask follows _ _)

theorem steady_questioned (messages : List String) (d : Deck M H D) :
    Steady told d (d.questioned messages) := by
  refine ⟨rfl, rfl, fun {warping} ht => ?_⟩
  change told warping (Frontend.questioned messages d.frontend)
  generalize d.frontend = h at ht
  induction messages generalizing h with
  | nil => exact ht
  | cons message messages ih => exact ih _ (follows.confirm message ht)

theorem steady_dropCheckpoints (sample : Nat) (d : Deck M H D) :
    Steady told d (d.dropCheckpoints sample) := by
  unfold dropCheckpoints
  simp only
  split
  · exact ⟨rfl, rfl, id⟩
  · exact ⟨rfl, rfl, follows.notify rfl⟩

theorem steady_restoreScreen (shot : Option Machine.Screenshot) (d : Deck M H D) :
    Steady told d (d.restoreScreen shot) := by
  unfold restoreScreen
  split
  · exact .refl d
  · split
    · exact ⟨rfl, rfl, follows.restoreScreen _⟩
    · exact .refl d

theorem steady_keepCheckpoint (state : ByteArray) (d : Deck M H D) :
    Steady told d (d.keepCheckpoint state) := by
  unfold keepCheckpoint
  split
  · exact ⟨rfl, rfl, follows.notify rfl⟩
  · exact .refl d

theorem steady_selectSlot (slot : Nat) (d : Deck M H D) : Steady told d (d.selectSlot slot) :=
  ⟨rfl, rfl, follows.notify rfl⟩

end

/-! ## Requests -/

variable [Frontend H] [Storage D] (follows : Frontend.Follows told)
include follows

theorem steady_restorePosition (freeze : Movie.Freeze) (mode : Movie.RestoreMode)
    (d : Deck M H D) : Steady told d (d.restorePosition freeze mode) := by
  have hfinish (n : Nat) (d : Deck M H D) : Steady told d (d.finishRerecord n) :=
    (steady_dropCheckpoints follows _ d).trans
      ((steady_saveMovie _).trans (steady_notify follows rfl _))
  unfold restorePosition
  simp only
  split
  · exact steady_notifyTask follows _ d
  · next movie _ =>
    have hmoved : Steady told d { d with movie } := ⟨rfl, rfl, id⟩
    refine Steady.trans ?_ (steady_notifyTask follows _ _)
    split
    · exact hmoved.trans (hfinish _ _)
    · exact hmoved

variable [Core M]

theorem steady_applyState (decoded : Decoded)
    (position : Option (Movie.Freeze × Movie.RestoreMode)) (d : Deck M H D) :
    Steady told d (d.applyState decoded position) := by
  have hresumed : Steady told d { d with machine := decoded.resume d.machine } := ⟨rfl, rfl, id⟩
  have hshown (d : Deck M H D) :
      Steady told d ((d.restoreScreen decoded.snapshot.screenshot).notify .stateLoaded) :=
    (steady_restoreScreen follows _ d).trans (steady_notify follows rfl _)
  cases position with
  | none => exact hresumed.trans (hshown _)
  | some position =>
    exact hresumed.trans ((steady_restorePosition follows position.1 position.2 _).trans (hshown _))

theorem steady_loadState (medium : Medium) (ignoreWarnings : Bool)
    (mode : Option Movie.RestoreMode) (d : Deck M H D) :
    Steady told d (d.loadState medium ignoreWarnings mode).2 := by
  have hsettled (d : Deck M H D) : Steady told d d.settleEntry := ⟨rfl, rfl, id⟩
  obtain ⟨messages, hd | hd | ⟨decoded, position, -, hd⟩⟩ :=
    loadState_cases medium ignoreWarnings mode d
  · rw [hd]
    exact steady_questioned follows messages d
  · rw [hd]
    exact (steady_questioned follows messages d).trans (hsettled _)
  · rw [hd]
    exact (steady_questioned follows messages d).trans
      ((steady_applyState follows decoded position _).trans (hsettled _))

theorem steady_saveState (medium : Medium) (d : Deck M H D) :
    Steady told d (d.saveState medium).2 := by
  have hstore (state : ByteArray) (d : Deck M H D) : Steady told d (d.store medium state).2 := by
    unfold store
    cases d.statePath? medium with
    | none => exact steady_notify follows rfl d
    | some path =>
      have hwritten : Steady told d (d.writeState path state).2 := steady_writeState path state d
      simp only
      split
      · exact hwritten
      · exact hwritten.trans (steady_notify follows rfl _)
  rw [saveState_eq]
  split
  · exact .refl d
  · refine Steady.trans ?_ (hstore _ _)
    split <;> exact ⟨rfl, rfl, id⟩

theorem steady_execute (r : Request) (d : Deck M H D) : Steady told d (d.execute r).2 := by
  unfold execute
  cases r.job with
  | save => exact steady_saveState follows r.medium d
  | load => exact steady_loadState follows r.medium r.ignoreWarnings _ d

/-! ## Calls -/

omit follows [Frontend H] [Storage D] [Core M] in
theorem pending_enqueue (r : Request) (d : Deck M H D) :
    ∃ more, (d.enqueue r).2.queue.pending = more ++ d.queue.pending := by
  cases hl : d.queue.launched with
  | false => exact ⟨[], by rw [enqueue_of_not_launched hl]; rfl⟩
  | true => exact ⟨[r], by rw [enqueue_of_launched hl]; rfl⟩

/-- Something was asked for at most: the movie and the files are as they were. -/
structure Aside (told : Bool → H → Prop) (d d' : Deck M H D) : Prop extends Steady told d d' where
  movie : d'.movie = d.movie
  disk : d'.disk = d.disk
  pending : ∃ more, d'.queue.pending = more ++ d.queue.pending

omit follows [Frontend H] [Storage D] [Core M] in
theorem aside_enqueue (r : Request) (d : Deck M H D) : Aside told d (d.enqueue r).2 :=
  { steady_enqueue r d with
    movie := movie_enqueue r d
    disk := by unfold enqueue; split <;> rfl
    pending := pending_enqueue r d }

omit [Storage D] [Core M] in
theorem aside_selectSlot (slot : Nat) (d : Deck M H D) : Aside told d (d.selectSlot slot) :=
  { steady_selectSlot follows slot d with movie := rfl, disk := rfl, pending := ⟨[], rfl⟩ }

omit follows [Frontend H] [Storage D] [Core M] in
theorem Aside.trans {a b c : Deck M H D} (h : Aside told a b) (h' : Aside told b c) :
    Aside told a c where
  toSteady := h.toSteady.trans h'.toSteady
  movie := h'.movie.trans h.movie
  disk := h'.disk.trans h.disk
  pending := by
    obtain ⟨more, hb⟩ := h.pending
    obtain ⟨again, hc⟩ := h'.pending
    exact ⟨again ++ more, by rw [hc, hb, List.append_assoc]⟩

end Deck

/-- Whether a call only changes a setting or asks for something. -/
def Call.isAside : Call → Bool
  | .setReadOnly _ | .selectSlot _ | .saveSlot _ | .loadSlot _ | .saveFile _ | .loadFile _ _
  | .saveMemory _ | .loadMemory _ _ | .undoLoad | .enqueue _ _ _ => true
  | _ => false

namespace Deck

variable {M H D : Type} {told : Bool → H → Prop} [Frontend H]

/-- What a call that only asks does: it changes a setting, or requests what a caller may, and
selects slots. -/
inductive Asks (d : Deck M H D) : Deck M H D → Prop
  | set (readOnly : Bool) : Asks d { d with config.readOnly := readOnly }
  | nothing : Asks d d
  | asked (r : Request) (callers : isCallers r.tag = true) : Asks d (d.enqueue r).2
  | selected {d' : Deck M H D} (slot : Nat) : Asks d d' → Asks d (d'.selectSlot slot)

theorem Asks.aside (follows : Frontend.Follows told) {d d' : Deck M H D} (h : Asks d d') :
    Aside told d d' := by
  induction h with
  | set readOnly => exact ⟨⟨rfl, rfl, id⟩, rfl, rfl, [], rfl⟩
  | nothing => exact ⟨.refl d, rfl, rfl, [], rfl⟩
  | asked r => exact aside_enqueue r d
  | selected slot _ ih => exact ih.trans (aside_selectSlot follows slot _)

/-- The tape stays as it is but for the setting or the request. -/
theorem Asks.tape {d d' : Deck M H D} (h : Asks d d') :
    (∃ readOnly, d'.tape = { d.tape with config.readOnly := readOnly }) ∨
      ∃ r, d'.tape = d.tape.ask r := by
  induction h with
  | set readOnly => exact .inl ⟨readOnly, rfl⟩
  | nothing => exact .inl ⟨d.config.readOnly, rfl⟩
  | asked r => exact (tape_enqueue r d).imp (fun ht => ⟨d.config.readOnly, ht⟩) fun ht => ⟨r, ht⟩
  | selected _ _ ih => exact ih

variable [Core M] [Storage D]

theorem call_asks {c : Call} (hc : c.isAside = true) (d : Deck M H D) : Asks d (d.call c) := by
  cases c with
  | setReadOnly readOnly => exact .set readOnly
  | selectSlot slot => exact .selected slot .nothing
  | saveSlot slot =>
    have hasked : Asks d (d.enqueue { job := .save, medium := .slot slot }).2 := .asked _ rfl
    change Asks d (d.saveSlot slot).2
    unfold saveSlot
    split
    · next he => rwa [he] at hasked
    · next he =>
      rw [he] at hasked
      simp only
      split
      · exact .selected _ (.selected _ hasked)
      · exact .selected _ hasked
  | loadSlot slot =>
    have hasked : Asks d (d.enqueue { job := .load, medium := .slot slot }).2 := .asked _ rfl
    change Asks d (d.loadSlot slot).2
    unfold loadSlot
    split
    · next he => rwa [he] at hasked
    · next he =>
      rw [he] at hasked
      exact .selected _ hasked
  | saveFile path => exact .asked _ rfl
  | loadFile path ignoreWarnings => exact .asked _ rfl
  | saveMemory id => exact .asked _ rfl
  | loadMemory state id => exact .asked _ rfl
  | undoLoad =>
    change Asks d d.undoLoad.2
    unfold undoLoad
    split
    · exact .nothing
    · exact .asked _ rfl
  | enqueue job medium ignoreWarnings => exact .asked _ rfl
  | _ => cases hc

theorem call_aside (follows : Frontend.Follows told) {c : Call} (hc : c.isAside = true)
    (d : Deck M H D) : Aside told d (d.call c) := (call_asks hc d).aside follows

end Deck

end Rewind
