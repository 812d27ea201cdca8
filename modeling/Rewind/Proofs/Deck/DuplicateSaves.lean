import Rewind.Proofs.Deck.Beginnings
import Rewind.Proofs.Machine.Programs
import Rewind.Proofs.Savestate.Batches
import Rewind.Proofs.Storage.Rewrites

/-!
Saves that a batch can do without. Between two loads every save writes the same state, so a slot
that was saved to holds it already (`Settled`), and to save to it once more leaves a deck that
nothing tells from the one before (`Interchangeable`). Main statement: a batch comes to the same
without the saves that `simplify` drops (`performAll_simplify`).
-/

namespace Rewind

open Savestate
open Storage (Pathname Tree)
open Storage.Tree (SameNodes Written)

/-- What a frontend was told of saves makes no difference to it: frontends that are the same but for
that answer alike and show the same screen, and they stay the same whatever happens to both. -/
structure Frontend.IgnoresSaves {H : Type} [Frontend H] (same : H → H → Prop) : Prop where
  equivalence : Equivalence same
  stateSaved (h : H) : same h (Frontend.notify .stateSaved h)
  notify {h h' : H} (event : Event) : same h h' →
    same (Frontend.notify event h) (Frontend.notify event h')
  confirm {h h' : H} (message : String) : same h h' →
    (Frontend.confirm message h').1 = (Frontend.confirm message h).1 ∧
      same (Frontend.confirm message h).2 (Frontend.confirm message h').2
  captureScreen {h h' : H} : same h h' → Frontend.captureScreen h' = Frontend.captureScreen h
  videoSize {h h' : H} : same h h' → Frontend.videoSize h' = Frontend.videoSize h
  restoreScreen {h h' : H} (shot : Machine.Screenshot) : same h h' →
    same (Frontend.restoreScreen shot h) (Frontend.restoreScreen shot h')

namespace Journal

/-- Journals that differ at most in the events that they hold. -/
def SameButEvents (j j' : Journal) : Prop := ∃ events, j' = { j with events }

theorem ignoresSaves : Frontend.IgnoresSaves SameButEvents where
  equivalence :=
    { refl := fun j => ⟨j.events, rfl⟩
      symm := by
        rintro j - ⟨events, rfl⟩
        exact ⟨j.events, rfl⟩
      trans := by
        rintro j - - ⟨events, rfl⟩ ⟨events', rfl⟩
        exact ⟨events', rfl⟩ }
  stateSaved j := ⟨.stateSaved :: j.events, rfl⟩
  notify := by
    rintro j - event ⟨events, rfl⟩
    exact ⟨event :: events, rfl⟩
  confirm := by
    rintro j - message ⟨events, rfl⟩
    simp only [Frontend.confirm, answer]
    split
    · exact ⟨rfl, events, rfl⟩
    · exact ⟨rfl, events, rfl⟩
  captureScreen := by
    rintro j - ⟨events, rfl⟩
    rfl
  videoSize := by
    rintro j - ⟨events, rfl⟩
    rfl
  restoreScreen := by
    rintro j - shot ⟨events, rfl⟩
    exact ⟨events, rfl⟩

end Journal

namespace Deck

variable {M H : Type} {same : H → H → Prop} {d d' d'' : Deck M H Tree}

/-- Decks that nothing tells apart: they differ at most in what their frontends were told of saves,
and in how their disks came to hold what they hold. -/
inductive Interchangeable (same : H → H → Prop) (d : Deck M H Tree) : Deck M H Tree → Prop
  | of {frontend : H} {disk : Tree} (hf : same d.frontend frontend) (hd : SameNodes d.disk disk) :
    Interchangeable same d { d with frontend, disk }

/-- Operations that give the same, and leave decks that nothing tells apart. -/
inductive Agree {α : Type} (same : H → H → Prop) : α × Deck M H Tree → α × Deck M H Tree → Prop
  | of (a : α) {d d' : Deck M H Tree} (h : Interchangeable same d d') : Agree same (a, d) (a, d')

theorem Agree.mk {α : Type} {a a' : α} (ha : a' = a) (h : Interchangeable same d d') :
    Agree same (a, d) (a', d') := by
  subst ha
  exact .of a' h

theorem Agree.map {α β : Type} (f : α → β) {p p' : α × Deck M H Tree} (h : Agree same p p') :
    Agree same (f p.1, p.2) (f p'.1, p'.2) := by
  obtain ⟨a, h⟩ := h
  exact .of _ h

theorem Agree.answer {α : Type} {p p' : α × Deck M H Tree} (h : Agree same p p') :
    p'.1 = p.1 := by
  obtain ⟨a, -⟩ := h
  rfl

theorem Agree.left {α : Type} {p p' : α × Deck M H Tree} (h : Agree same p p') :
    Interchangeable same p.2 p'.2 := by
  obtain ⟨a, h⟩ := h
  exact h

namespace Interchangeable

theorem session (h : Interchangeable same d d') : d'.toSession = d.toSession := by
  obtain ⟨-, -⟩ := h
  rfl

theorem machine (h : Interchangeable same d d') : d'.machine = d.machine := by
  obtain ⟨-, -⟩ := h
  rfl

theorem disk (h : Interchangeable same d d') : SameNodes d.disk d'.disk := by
  obtain ⟨-, hd⟩ := h
  exact hd

theorem saveMovie (h : Interchangeable same d d') : Agree same d.saveMovie d'.saveMovie := by
  obtain @⟨frontend, disk, hf, hd⟩ := h
  cases hp : d.movie.path with
  | none =>
    unfold Deck.saveMovie Movie.Log.save
    simp only [hp]
    exact .of _ (.of hf hd)
  | some path =>
    obtain ⟨hresult, hleft⟩ := hd.write path d.movieFile
    rw [saveMovie_of_path hp, saveMovie_of_path (d := { d with frontend, disk }) hp]
    exact .mk (congrArg (Except.mapError Movie.Error.io) hresult) (.of hf hleft)

theorem writeState (h : Interchangeable same d d') (path : Pathname) (state : ByteArray) :
    Agree same (d.writeState path state) (d'.writeState path state) := by
  obtain ⟨hf, hd⟩ := h
  obtain ⟨hresult, hleft⟩ := hd.deposit path (d.config.pack state)
  rw [writeState_eq, writeState_eq]
  exact .mk (congrArg (Except.mapError Error.fileWrite) hresult) (.of hf hleft)

section
variable [Frontend H] (hb : Frontend.IgnoresSaves same)
include hb

theorem refl (d : Deck M H Tree) : Interchangeable same d d :=
  .of (hb.equivalence.refl _) (.refl _)

theorem symm (h : Interchangeable same d d') : Interchangeable same d' d := by
  obtain ⟨hf, hd⟩ := h
  exact .of (hb.equivalence.symm hf) hd.symm

theorem trans (h : Interchangeable same d d') (h' : Interchangeable same d' d'') :
    Interchangeable same d d'' := by
  obtain ⟨hf, hd⟩ := h
  obtain ⟨hf', hd'⟩ := h'
  exact .of (hb.equivalence.trans hf hf') (hd.trans hd')

theorem notify (h : Interchangeable same d d') (event : Event) :
    Interchangeable same (d.notify event) (d'.notify event) := by
  obtain ⟨hf, hd⟩ := h
  exact .of (hb.notify event hf) hd

theorem notifyTask (h : Interchangeable same d d') (before : Movie.Task) :
    Interchangeable same (d.notifyTask before) (d'.notifyTask before) := by
  have hn := h.notify hb (.taskChanged d.movie.task)
  obtain ⟨hf, hd⟩ := h
  unfold Deck.notifyTask
  by_cases ht : d.movie.task = before
  · rw [if_pos ht, if_pos ht]
    exact .of hf hd
  · rw [if_neg ht, if_neg ht]
    exact hn

theorem confirm (h : Interchangeable same d d') (message : String) :
    Agree same (d.confirm message) (d'.confirm message) := by
  obtain ⟨hf, hd⟩ := h
  unfold Deck.confirm
  by_cases hs : d.config.silent = true
  · rw [if_pos hs, if_pos hs]
    exact .of true (.of hf hd)
  · rw [if_neg hs, if_neg hs]
    obtain ⟨hanswer, hleft⟩ := hb.confirm message hf
    simp only [hanswer]
    exact .of _ (.of hleft hd)

theorem ask (h : Interchangeable same d d') (message : String) :
    Agree same (d.ask message) (d'.ask message) := by
  have hc := h.confirm hb message
  unfold Deck.ask
  generalize d.confirm message = asked, d'.confirm message = asked' at hc
  obtain ⟨yes, hleft⟩ := hc
  cases yes with
  | false => exact .of _ hleft
  | true => exact .of _ hleft

theorem dropCheckpoints (h : Interchangeable same d d') (sample : Nat) :
    Interchangeable same (d.dropCheckpoints sample) (d'.dropCheckpoints sample) := by
  obtain ⟨hf, hd⟩ := h
  unfold Deck.dropCheckpoints
  have hdropped : Interchangeable same
      { d with checkpoints := d.checkpoints.dropAfter sample } _ := .of hf hd
  by_cases hn : d.checkpoints.countAfter sample = 0
  · simp only [hn, ↓reduceIte]
    exact hdropped
  · simp only [hn, ↓reduceIte]
    exact hdropped.notify hb _

theorem finishRerecord (h : Interchangeable same d d') (divergedAt : Nat) :
    Interchangeable same (d.finishRerecord divergedAt) (d'.finishRerecord divergedAt) := by
  have hmovie : d'.movie = d.movie := congrArg Session.movie h.session
  have hsaved := (h.dropCheckpoints hb (min divergedAt d.movie.currentSample)).saveMovie.left
  have hcount := congrArg (·.movie.header.rerecordCount) hsaved.session
  unfold Deck.finishRerecord
  simp only [hmovie] at hcount ⊢
  rw [hcount]
  exact hsaved.notify hb _

theorem restorePosition (h : Interchangeable same d d') (freeze : Movie.Freeze)
    (mode : Movie.RestoreMode) :
    Interchangeable same (d.restorePosition freeze mode) (d'.restorePosition freeze mode) := by
  obtain ⟨hf, hd⟩ := h
  unfold Deck.restorePosition
  simp only
  cases d.movie.unfreeze freeze mode with
  | error e => exact notifyTask hb (.of hf hd) _
  | ok movie =>
    have hmoved : Interchangeable same { d with movie } _ := .of hf hd
    refine notifyTask hb ?_ _
    by_cases hm : mode = .rerecord
    · rw [if_pos hm, if_pos hm]
      exact hmoved.finishRerecord hb _
    · rw [if_neg hm, if_neg hm]
      exact hmoved

theorem restoreScreen (h : Interchangeable same d d') (shot : Option Machine.Screenshot) :
    Interchangeable same (d.restoreScreen shot) (d'.restoreScreen shot) := by
  obtain ⟨hf, hd⟩ := h
  unfold Deck.restoreScreen
  cases shot with
  | none => exact .of hf hd
  | some shot =>
    simp only [hb.videoSize hf]
    split
    · exact .of (hb.restoreScreen shot hf) hd
    · exact .of hf hd

theorem admitPosition (h : Interchangeable same d d') (position : Option Movie.Freeze)
    (ignoreWarnings : Bool) (mode : Option Movie.RestoreMode) :
    Agree same (d.admitPosition position ignoreWarnings mode)
      (d'.admitPosition position ignoreWarnings mode) := by
  have hmovie : d'.movie = d.movie := congrArg Session.movie h.session
  unfold Deck.admitPosition
  rw [hmovie]
  split
  · exact .of _ h
  · split
    · exact .of _ h
    · split
      · exact (h.ask hb _).map _
      · exact .of _ h
  · split
    · exact (h.ask hb _).map _
    · exact .of _ h

end

variable [Core M]

theorem statePath? (h : Interchangeable same d d') (medium : Medium) :
    d'.statePath? medium = d.statePath? medium := by
  obtain ⟨-, -⟩ := h
  rfl

theorem fetchState (h : Interchangeable same d d') (medium : Medium) :
    d'.fetchState medium = d.fetchState medium := by
  have hread (path : Pathname) : Storage.read path d'.disk = Storage.read path d.disk :=
    h.disk.read path
  unfold Deck.fetchState fetch
  rw [h.statePath?]
  simp only [hread]

theorem settleEntry (h : Interchangeable same d d') :
    Interchangeable same d.settleEntry d'.settleEntry := by
  obtain ⟨hf, hd⟩ := h
  exact .of hf hd

variable [Frontend H] (hb : Frontend.IgnoresSaves same)
include hb

theorem applyState (h : Interchangeable same d d') (decoded : Decoded)
    (position : Option (Movie.Freeze × Movie.RestoreMode)) :
    Interchangeable same (d.applyState decoded position) (d'.applyState decoded position) := by
  have happlied : Interchangeable same
      { d with machine := decoded.resume d.machine }
      { d' with machine := decoded.resume d'.machine } := by
    obtain ⟨hf, hd⟩ := h
    exact .of hf hd
  unfold Deck.applyState
  refine notify hb (restoreScreen hb ?_ _) _
  cases position with
  | none => exact happlied
  | some position => exact happlied.restorePosition hb position.1 position.2

theorem loadDecoded (h : Interchangeable same d d') (data : ByteArray) (ignoreWarnings : Bool)
    (mode : Option Movie.RestoreMode) :
    Agree same (d.loadDecoded data ignoreWarnings mode)
      (d'.loadDecoded data ignoreWarnings mode) := by
  unfold Deck.loadDecoded
  cases decode data with
  | error e => exact .of _ h
  | ok decoded =>
    have hadmitted := h.admitPosition hb decoded.snapshot.movie ignoreWarnings mode
    simp only
    generalize d.admitPosition _ _ _ = admitted, d'.admitPosition _ _ _ = admitted' at hadmitted ⊢
    obtain ⟨position, hleft⟩ := hadmitted
    cases position with
    | error e => exact .of _ hleft
    | ok position => exact .of _ (hleft.applyState hb decoded position)

theorem loadState (h : Interchangeable same d d') (medium : Medium) (ignoreWarnings : Bool)
    (mode : Option Movie.RestoreMode) :
    Agree same (d.loadState medium ignoreWarnings mode)
      (d'.loadState medium ignoreWarnings mode) := by
  unfold Deck.loadState
  rw [h.fetchState, h.machine]
  cases d.fetchState medium with
  | error e => exact .of _ h
  | ok fetched =>
    obtain ⟨data, hash⟩ := fetched
    have hgo (foreign : Bool) : Agree same
        (if foreign then d.ask (foreignRomMessage hash) else (.ok (), d))
        (if foreign then d'.ask (foreignRomMessage hash) else (.ok (), d')) := by
      cases foreign with
      | false => exact .of _ h
      | true => exact h.ask hb _
    simp only
    generalize (!ignoreWarnings && hash != (Core.rom d.machine).md5) = foreign
    have hgo := hgo foreign
    generalize (if foreign = true then d.ask _ else _) = asked,
      (if foreign = true then d'.ask _ else _) = asked' at hgo ⊢
    obtain @⟨go, left, left', hleft⟩ := hgo
    cases go with
    | error e => exact .of _ hleft
    | ok =>
      have hloaded := hleft.loadDecoded hb data ignoreWarnings mode
      simp only
      generalize left.loadDecoded data ignoreWarnings mode = loaded,
        left'.loadDecoded data ignoreWarnings mode = loaded' at hloaded ⊢
      obtain ⟨result, hleft⟩ := hloaded
      exact .of _ hleft.settleEntry

/-! ### Saves -/

theorem snapshot (h : Interchangeable same d d') : d'.snapshot = d.snapshot := by
  obtain ⟨hf, -⟩ := h
  simp only [Deck.snapshot, hb.captureScreen hf]

theorem store (h : Interchangeable same d d') (medium : Medium) (state : ByteArray) :
    Agree same (d.store medium state) (d'.store medium state) := by
  unfold Deck.store
  rw [h.statePath?]
  cases d.statePath? medium with
  | none => exact .of _ (h.notify hb _)
  | some path =>
    have hwritten := h.writeState path state
    simp only
    generalize d.writeState path state = written, d'.writeState path state = written'
      at hwritten ⊢
    obtain ⟨result, hleft⟩ := hwritten
    cases result with
    | error e => exact .of _ hleft
    | ok => exact .of _ (hleft.notify hb _)

theorem saveState (h : Interchangeable same d d') (medium : Medium) :
    Agree same (d.saveState medium) (d'.saveState medium) := by
  rw [saveState_eq, saveState_eq, h.snapshot hb]
  cases encode d.snapshot with
  | error e => exact .of _ h
  | ok encoded =>
    refine store hb ?_ medium encoded.bytes
    cases encoded.transferEnded with
    | false => exact h
    | true =>
      obtain ⟨hf, hd⟩ := h
      exact .of hf hd

theorem execute (h : Interchangeable same d d') (r : Request) :
    Agree same (d.execute r) (d'.execute r) := by
  unfold Deck.execute
  cases r.job with
  | save => exact (h.saveState hb r.medium).map _
  | load =>
    have hconfig : d'.config = d.config := congrArg Session.config h.session
    rw [hconfig]
    exact (h.loadState hb r.medium r.ignoreWarnings _).map _

end Interchangeable

/-! ## What a save comes to -/

variable [Core M] [Frontend H]

/-- If a request saves, it has no transfer to end and its file is written. -/
def GoesWell (r : Request) (d : Deck M H Tree) : Prop :=
  r.job = .save → (Core.capture d.machine).HasSi ∧
    ∀ fault, (d.execute r).1.result ≠ .error (.fileWrite fault)

/-- Each of the requests goes well when they are carried out in order. -/
def RunSmoothly : List Request → Deck M H Tree → Prop
  | [], _ => True
  | r :: rs, d => d.GoesWell r ∧ (d.perform r).2.RunSmoothly rs

/-- A save between transfers leaves everything alone but the file that it writes, and the frontend
hears of it. -/
inductive Saves (medium : Medium) (d : Deck M H Tree) : Deck M H Tree → Prop
  | refused {e : Error} (hencode : encode d.snapshot = .error e) : Saves medium d d
  | handed {encoded : Encoded} (hencode : encode d.snapshot = .ok encoded)
    (hmedium : d.statePath? medium = none) : Saves medium d (d.notify .stateSaved)
  | written {encoded : Encoded} {path : Pathname} {disk : Tree}
    (hencode : encode d.snapshot = .ok encoded) (hmedium : d.statePath? medium = some path)
    (hdeposit : d.disk.deposit path (d.config.pack encoded.bytes) = (.ok (), disk)) :
    Saves medium d ({ d with disk }.notify .stateSaved)

/-- What a save would write to a slot is what its file holds. -/
def Settled (slot : Nat) (d : Deck M H Tree) : Prop :=
  ∀ encoded, encode d.snapshot = .ok encoded →
    Written (slotPath d.config.savesDir (Core.rom d.machine) slot) (d.config.pack encoded.bytes)
      d.disk

variable {r : Request} {slot : Nat} {medium : Medium}

theorem perform_of_isCallers (hc : isCallers r.tag = true) (d : Deck M H Tree) :
    (d.perform r).2 = (d.execute r).2 := by
  have hd (o : Outcome) (ho : isCallers o.tag = true) (d : Deck M H Tree) :
      (d.deliver o).2 = d := by
    obtain ⟨job, tag, label, result⟩ := o
    cases tag with
    | none => rfl
    | some tag =>
      cases tag with
      | caller id => rfl
      | _ => cases ho
  exact hd _ ((tag_execute r d).symm ▸ hc) _

theorem saveState_of_hasSi (hsi : (Core.capture d.machine).HasSi) (medium : Medium) :
    d.saveState medium = match encode d.snapshot with
      | .error e => (.error e, d)
      | .ok encoded => d.store medium encoded.bytes := by
  have hsi : d.snapshot.HasSi := hsi
  rw [saveState_eq, encode_of_si hsi]
  cases write d.snapshot false with
  | error e => rfl
  | ok bytes => rfl

theorem saves_perform (hc : isCallers r.tag = true) (hr : r.job = .save) (hwell : d.GoesWell r) :
    d.Saves r.medium (d.perform r).2 := by
  obtain ⟨hsi, hwritten⟩ := hwell hr
  rw [execute_save_eq hr] at hwritten
  rw [perform_of_isCallers hc, execute_save_eq hr]
  simp only [saveState_of_hasSi hsi] at hwritten ⊢
  cases he : encode d.snapshot with
  | error e => exact .refused he
  | ok encoded =>
    simp only [he] at hwritten ⊢
    unfold store at hwritten ⊢
    cases hm : d.statePath? r.medium with
    | none => exact .handed he hm
    | some path =>
      simp only [hm, writeState_eq] at hwritten ⊢
      generalize hd : d.disk.deposit path (d.config.pack encoded.bytes) = deposited at hwritten ⊢
      obtain ⟨result, disk⟩ := deposited
      cases result with
      | error fault => exact absurd rfl (hwritten fault)
      | ok => exact .written he hm hd

theorem saves_perform_slot (hc : isCallers r.tag = true) (hslot : r.savedSlot? = some slot)
    (hwell : d.GoesWell r) : d.Saves (.slot slot) (d.perform r).2 := by
  obtain ⟨hjob, hmedium⟩ := savedSlot?_eq_some hslot
  exact hmedium ▸ saves_perform hc hjob hwell

/-- A request goes well if the machine can be saved, and the file that it writes can be written. -/
theorem goesWell_of_deposit {encoded : Encoded} (hsi : (Core.capture d.machine).HasSi)
    (he : encode d.snapshot = .ok encoded)
    (h : ∀ path ∈ d.statePath? r.medium,
      (d.disk.deposit path (d.config.pack encoded.bytes)).1 = .ok ()) : d.GoesWell r := by
  intro hr
  refine ⟨hsi, fun fault hresult => ?_⟩
  have hstored : (d.store r.medium encoded.bytes).1 = .error (.fileWrite fault) := by
    rw [execute_save_eq hr] at hresult
    rw [← hresult, saveState_of_hasSi hsi, he]
  unfold store at hstored
  cases hm : d.statePath? r.medium with
  | none =>
    rw [hm] at hstored
    cases hstored
  | some path =>
    simp only [hm, writeState_eq, h path hm] at hstored
    cases hstored

theorem Saves.machine (h : d.Saves medium d') : d'.machine = d.machine := by
  cases h <;> rfl

section
variable (hb : Frontend.IgnoresSaves same)
include hb

/-- A save does not change what the next one would write. -/
theorem Saves.snapshot (h : d.Saves medium d') : d'.snapshot = d.snapshot := by
  have hscreen := hb.captureScreen (hb.stateSaved d.frontend)
  cases h with
  | refused => rfl
  | handed => simp only [Deck.snapshot, notify, hscreen]
  | written => simp only [Deck.snapshot, notify, hscreen]

/-- A save to a slot settles it. -/
theorem Saves.settled (h : d.Saves (.slot slot) d') : d'.Settled slot := by
  intro encoded' he
  rw [h.snapshot hb] at he
  cases h with
  | refused hencode => cases hencode.symm.trans he
  | handed hencode hmedium => cases hmedium
  | written hencode hmedium hdeposit =>
    cases hencode.symm.trans he
    obtain rfl := Option.some.inj hmedium
    exact Storage.Tree.deposit_eq_ok hdeposit

/-- Once settled, a slot stays settled by whatever else is saved. -/
theorem Settled.saves (h : d.Settled slot) (hs : d.Saves medium d') : d'.Settled slot := by
  intro encoded' he
  rw [hs.snapshot hb] at he
  have hwritten := h encoded' he
  cases hs with
  | refused => exact hwritten
  | handed => exact hwritten
  | @written _ path _ hencode hmedium hdeposit =>
    cases hencode.symm.trans he
    have hstays := hwritten.deposit path
    rw [hdeposit] at hstays
    exact hstays

/-- To save once more to a settled slot changes nothing. -/
theorem Settled.interchangeable (h : d.Settled slot) (hs : d.Saves (.slot slot) d') :
    Interchangeable same d d' := by
  cases hs with
  | refused hencode => exact .refl hb d
  | handed hencode hmedium => cases hmedium
  | written hencode hmedium hdeposit =>
    obtain rfl := Option.some.inj hmedium
    obtain ⟨disk, hagain, hsame⟩ := (h _ hencode).deposit_self
    cases hdeposit.symm.trans hagain
    exact .of (hb.stateSaved _) hsame

/-- What a slot was settled for can be saved to it again, or held in memory. -/
theorem Settled.perform {encoded : Encoded} (h : d.Settled slot)
    (hsi : (Core.capture d.machine).HasSi) (he : encode d.snapshot = .ok encoded)
    (hc : isCallers r.tag = true) (hr : r.job = .save)
    (hmedium : ∀ path ∈ d.statePath? r.medium, d.statePath? (.slot slot) = some path) :
    d.GoesWell r ∧ (d.perform r).2.Settled slot ∧
      (Core.capture (d.perform r).2.machine).HasSi ∧
      encode (d.perform r).2.snapshot = .ok encoded := by
  have hwell : d.GoesWell r := by
    refine goesWell_of_deposit hsi he fun path hpath => ?_
    obtain rfl := Option.some.inj (hmedium path hpath)
    obtain ⟨disk, hagain, -⟩ := (h encoded he).deposit_self
    rw [hagain]
  have hsaves := saves_perform hc hr hwell
  rw [hsaves.machine, hsaves.snapshot hb]
  exact ⟨hwell, h.saves hb hsaves, hsi, he⟩

/-! ## Batches -/

namespace Interchangeable

theorem goesWell (h : Interchangeable same d d') (hwell : d.GoesWell r) : d'.GoesWell r := by
  intro hr
  rw [h.machine, (h.execute hb r).answer]
  exact hwell hr

theorem perform (h : Interchangeable same d d') (hc : isCallers r.tag = true) :
    Interchangeable same (d.perform r).2 (d'.perform r).2 := by
  rw [perform_of_isCallers hc, perform_of_isCallers hc]
  exact (h.execute hb r).left

variable {rs : List Request}

theorem runSmoothly (hc : ∀ r ∈ rs, isCallers r.tag = true) (h : Interchangeable same d d')
    (hs : d.RunSmoothly rs) : d'.RunSmoothly rs := by
  induction rs generalizing d d' with
  | nil => trivial
  | cons r rs ih =>
    obtain ⟨hwell, hrest⟩ := hs
    obtain ⟨hr, hrs⟩ := List.forall_mem_cons.1 hc
    exact ⟨h.goesWell hb hwell, ih hrs (h.perform hb hr) hrest⟩

theorem performAll (hc : ∀ r ∈ rs, isCallers r.tag = true) (h : Interchangeable same d d') :
    Interchangeable same (d.performAll rs).2 (d'.performAll rs).2 := by
  induction rs generalizing d d' with
  | nil => exact h
  | cons r rs ih =>
    obtain ⟨hr, hrs⟩ := List.forall_mem_cons.1 hc
    exact ih hrs (h.perform hb hr)

end Interchangeable

variable {rs : List Request}

/-- The saves to a slot can be dropped up to the next load once it is settled. -/
theorem performAll_dropSaves (hc : ∀ r ∈ rs, isCallers r.tag = true)
    (h : Interchangeable same d d') (hslot : d.Settled slot) (hs : d.RunSmoothly rs) :
    d'.RunSmoothly (dropSaves slot rs) ∧
      Interchangeable same (d.performAll rs).2 (d'.performAll (dropSaves slot rs)).2 := by
  fun_induction dropSaves slot rs generalizing d d' with
  | case1 => exact ⟨trivial, h⟩
  | case2 r rs hload => exact ⟨h.runSmoothly hb hc hs, h.performAll hb hc⟩
  | case3 r rs hload hsaved ih =>
    obtain ⟨hwell, hrest⟩ := hs
    obtain ⟨hr, hrs⟩ := List.forall_mem_cons.1 hc
    have hsaves := saves_perform_slot hr hsaved hwell
    -- Only the whole batch takes a step here.
    have hstep := ((hslot.interchangeable hb hsaves).symm hb).trans hb h
    exact ih hrs hstep (hsaves.settled hb) hrest
  | case4 r rs hload hsaved ih =>
    obtain ⟨hwell, hrest⟩ := hs
    obtain ⟨hr, hrs⟩ := List.forall_mem_cons.1 hc
    have hsaves := saves_perform hr (job_of_not_isLoad hload) hwell
    obtain ⟨hsmooth, hleft⟩ := ih hrs (h.perform hb hr) (hslot.saves hb hsaves) hrest
    exact ⟨⟨h.goesWell hb hwell, hsmooth⟩, hleft⟩

theorem interchangeable_performAll_simplify (hc : ∀ r ∈ rs, isCallers r.tag = true)
    (hs : d.RunSmoothly rs) :
    Interchangeable same (d.performAll rs).2 (d.performAll (simplify rs)).2 := by
  fun_induction simplify rs generalizing d with
  | case1 => exact .refl hb d
  | case2 r rs hsaved ih =>
    obtain ⟨-, hrs⟩ := List.forall_mem_cons.1 hc
    exact ih hrs hs.2
  | case3 r rs slot hsaved ih =>
    obtain ⟨hwell, hrest⟩ := hs
    obtain ⟨hr, hrs⟩ := List.forall_mem_cons.1 hc
    have hsaves := saves_perform_slot hr hsaved hwell
    obtain ⟨hsmooth, hdropped⟩ :=
      performAll_dropSaves hb hrs (.refl hb _) (hsaves.settled hb) hrest
    have hkept (r' : Request) (hr' : r' ∈ dropSaves slot rs) : isCallers r'.tag = true :=
      hrs r' ((dropSaves_sublist slot rs).mem hr')
    exact hdropped.trans hb (ih hkept hsmooth)

/-- **A batch comes to the same without the saves that are dropped from it.** Whatever callers ask
for, on any machine whose captures have the end of a transfer queued: if the files of the batch
are written, then carrying out `simplify` of it instead leaves the same session, with its movie and
its checkpoints, the same machine, and the same in every file. -/
theorem performAll_simplify (hc : ∀ r ∈ rs, isCallers r.tag = true) (hs : d.RunSmoothly rs) :
    let whole := (d.performAll rs).2
    let reduced := (d.performAll (simplify rs)).2
    reduced.toSession = whole.toSession ∧ reduced.machine = whole.machine ∧
      ∀ path, Storage.read path reduced.disk = Storage.read path whole.disk := by
  intro whole reduced
  have h := interchangeable_performAll_simplify hb hc hs
  exact ⟨h.session, h.machine, h.disk.read⟩

end

/-- A slot is saved to before and after a load, and once more with a save to memory in between. -/
def resaves : List Request :=
  [{ job := .save, medium := .slot 3 }, .capture (.caller 1), { job := .save, medium := .slot 3 },
    { job := .load, medium := .memory ByteArray.empty }, { job := .save, medium := .slot 3 }]

theorem simplify_resaves : simplify resaves =
    [{ job := .save, medium := .slot 3 }, .capture (.caller 1),
      { job := .load, medium := .memory ByteArray.empty },
      { job := .save, medium := .slot 3 }] := by
  simp [resaves, simplify, dropSaves, Request.savedSlot?, Request.isLoad, Request.capture]

theorem runSmoothly_resaves : cutOff.RunSmoothly resaves := by
  have hb := Journal.ignoresSaves
  have hsi : (Core.capture cutOff.machine).HasSi := rfl
  obtain ⟨encoded, he⟩ : ∃ encoded, encode cutOff.snapshot = .ok encoded :=
    encode_of_noScreen rfl (by decide)
  have hfirst : cutOff.GoesWell { job := .save, medium := .slot 3 } := by
    refine goesWell_of_deposit hsi he fun path hpath => ?_
    obtain rfl := Option.some.inj hpath
    rfl
  have hsaved := saves_perform rfl rfl hfirst
  have hsettled := hsaved.settled hb
  rw [← hsaved.machine] at hsi
  rw [← hsaved.snapshot hb] at he
  obtain ⟨hmemory, hsettled, hsi, he⟩ :=
    hsettled.perform hb (r := .capture (.caller 1)) hsi he rfl rfl nofun
  obtain ⟨hagain, hsettled, hsi, he⟩ :=
    hsettled.perform hb (r := { job := .save, medium := .slot 3 }) hsi he rfl rfl fun _ h => h
  obtain ⟨hlast, -⟩ :=
    hsettled.perform hb (r := { job := .save, medium := .slot 3 }) hsi he rfl rfl fun _ h => h
  exact ⟨hfirst, hmemory, hagain, nofun, hlast, trivial⟩

theorem performAll_simplify_resaves :
    let whole := (cutOff.performAll resaves).2
    let reduced := (cutOff.performAll (simplify resaves)).2
    simplify resaves ≠ resaves ∧ reduced.toSession = whole.toSession ∧
      reduced.machine = whole.machine ∧
      ∀ path, Storage.read path reduced.disk = Storage.read path whole.disk := by
  refine ⟨?_, performAll_simplify Journal.ignoresSaves (by decide) runSmoothly_resaves⟩
  rw [simplify_resaves]
  decide

end Deck

end Rewind
