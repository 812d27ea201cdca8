import Rewind.Proofs.Deck.Steady

/-!
Warps, seeks and the movie are nested: a warp belongs to a seek, a seek belongs to a movie that
runs, and a seek that waits for a checkpoint has asked for it. Main statement: whatever happens to a
deck keeps them nested, and the frontend hears of each warp when it begins and when it ends, by
turns (`nested_after_run`).
-/

namespace Rewind

open Savestate

/-- The return of a seek to a checkpoint. -/
def IsRollback (r : Request) : Prop := r.job = .load ∧ r.tag = some .seekRollback

namespace Deck

variable {M H D : Type} {told : Bool → H → Prop}

/-! ## The invariant -/

/-- No seek and no warp is under way, and the frontend knows it. -/
structure AtRest (told : Bool → H → Prop) (d : Deck M H D) : Prop where
  seek : d.seek.active = none
  warp : d.warp.warping = false
  told : told false d.frontend

/-- Warps, seeks and the movie are nested, where `rest` of a batch is still to be carried out. -/
structure Nested (told : Bool → H → Prop) (rest : List Request) (d : Deck M H D) : Prop where
  seeking : d.warp.warping = true → d.seek.isSeeking = true
  running : d.seek.isSeeking = true → d.movie.task.isRunning = true
  awaited {op : Seek.Operation} : d.seek.active = some op → op.awaitingRollback = true →
    ∃ r ∈ rest ++ d.queue.pending, IsRollback r
  told : told d.warp.warping d.frontend

variable {d d' : Deck M H D} {rest rest' : List Request}

theorem isSeeking_eq_false_iff : d.seek.isSeeking = false ↔ d.seek.active = none := by
  simp [Seek.State.isSeeking]

theorem AtRest.steady (h : AtRest told d) (hs : Steady told d d') : AtRest told d' :=
  ⟨hs.seek ▸ h.seek, hs.warping.trans h.warp, hs.told h.told⟩

theorem AtRest.nested (h : AtRest told d) (rest : List Request) : Nested told rest d where
  seeking hw := absurd (h.warp.symm.trans hw) Bool.false_ne_true
  running hs := absurd ((isSeeking_eq_false_iff.2 h.seek).symm.trans hs) Bool.false_ne_true
  awaited hop := absurd (h.seek.symm.trans hop) nofun
  told := h.warp ▸ h.told

namespace Nested

theorem atRest (h : Nested told rest d) (hs : d.seek.isSeeking = false) : AtRest told d := by
  have hw : d.warp.warping = false := by
    by_contra hw
    exact absurd (hs.symm.trans (h.seeking (by simpa using hw))) Bool.false_ne_true
  exact ⟨isSeeking_eq_false_iff.1 hs, hw, hw ▸ h.told⟩

/-- Only a movie that runs is sought in. -/
theorem atRest_of_not_running (h : Nested told rest d) (hr : d.movie.task.isRunning = false) :
    AtRest told d := by
  refine h.atRest ?_
  by_contra hs
  exact absurd (hr.symm.trans (h.running (by simpa using hs))) Bool.false_ne_true

theorem atRest_of_inactive (h : Nested told rest d) (ha : ¬d.movie.isActive = true) :
    AtRest told d := by
  refine h.atRest_of_not_running ?_
  by_contra hr
  exact ha (Movie.Log.isActive_of_isRunning (by simpa using hr))

/-- What leaves seek and warp alone, lets the movie run on and keeps the returns to come. -/
theorem steady (h : Nested told rest d) (hs : Steady told d d')
    (hr : d.movie.task.isRunning = true → d'.movie.task.isRunning = true)
    (hq : ∀ r ∈ rest ++ d.queue.pending, IsRollback r → r ∈ rest' ++ d'.queue.pending) :
    Nested told rest' d' where
  seeking hw := hs.seek ▸ h.seeking (hs.warping ▸ hw)
  running hs' := hr (h.running (hs.seek ▸ hs'))
  awaited hop hawait := by
    obtain ⟨r, hr, hroll⟩ := h.awaited (hs.seek ▸ hop) hawait
    exact ⟨r, hq r hr hroll, hroll⟩
  told := hs.warping ▸ hs.told h.told

theorem aside (h : Nested told rest d) (ha : Aside told d d') : Nested told rest d' := by
  refine h.steady ha.toSteady (fun hr => ha.movie ▸ hr) fun r hr _ => ?_
  obtain ⟨more, hp⟩ := ha.pending
  rw [hp]
  simp only [List.mem_append] at hr ⊢
  exact hr.imp_right .inr

end Nested

/-! ## Ends of seeks -/

variable [Frontend H] (follows : Frontend.Follows told)
include follows

theorem atRest_endWarp (hs : d.seek.active = none) (ht : told d.warp.warping d.frontend) :
    AtRest told d.endWarp := by
  unfold endWarp
  split
  · next hw => exact ⟨hs, rfl, follows.ends (hw ▸ ht)⟩
  · next hw =>
    have hw : d.warp.warping = false := by simpa using hw
    exact ⟨hs, hw, hw ▸ ht⟩

theorem atRest_stopSeek (hw : d.warp.warping = true → d.seek.isSeeking = true)
    (ht : told d.warp.warping d.frontend) : AtRest told d.stopSeek := by
  unfold stopSeek
  split
  · exact atRest_endWarp follows rfl ht
  · next hs =>
    have hs : d.seek.isSeeking = false := by simpa using hs
    have hw : d.warp.warping = false := by
      by_contra h
      exact absurd (hs.symm.trans (hw (by simpa using h))) Bool.false_ne_true
    exact ⟨isSeeking_eq_false_iff.1 hs, hw, hw ▸ ht⟩

theorem Nested.stopSeek (h : Nested told rest d) : AtRest told d.stopSeek :=
  atRest_stopSeek follows h.seeking h.told

theorem Nested.checkSeek (h : Nested told rest d) : Nested told rest d.checkSeek := by
  unfold Deck.checkSeek
  split
  · exact h
  · refine (atRest_endWarp follows ?_ ?_).nested rest
    · split <;> rfl
    · split
      · exact follows.pause (follows.notify rfl h.told)
      · exact follows.notify rfl h.told

theorem AtRest.dropMovie (h : AtRest told d) : AtRest told d.dropMovie :=
  ⟨h.seek, rfl, follows.notify rfl h.told⟩

/-- A seek that is back at its checkpoint waits for nothing. -/
theorem Nested.finishRollback (h : Nested told rest d) (rest' : List Request) :
    Nested told rest' d.finishRollback := by
  refine Nested.checkSeek follows ⟨fun hw => ?_, fun hs => ?_, fun {op} hop hawait => ?_, h.told⟩
  · simpa [Seek.State.isSeeking, Seek.State.rollbackDone] using h.seeking hw
  · exact h.running (by simpa [Seek.State.isSeeking, Seek.State.rollbackDone] using hs)
  · obtain ⟨op', -, rfl⟩ := Option.map_eq_some_iff.1 hop
    cases hawait

theorem Nested.failRollback (h : Nested told rest d) : AtRest told d.failRollback := by
  unfold Deck.failRollback
  split
  · exact atRest_stopSeek follows h.seeking (follows.notify rfl h.told)
  · exact h.stopSeek follows

theorem AtRest.settleStart (h : AtRest told d) (succeeded : Bool) :
    AtRest told (d.settleStart succeeded) := by
  unfold Deck.settleStart
  split
  · exact h
  · next next _ =>
    split
    · have hnext : AtRest told ({ d with movie.task := next } : Deck M H D) :=
        ⟨h.seek, h.warp, h.told⟩
      exact (hnext.steady (steady_notify follows rfl _)).steady (steady_enqueue _ _)
    · exact h.dropMovie follows

theorem Nested.settleStart (h : Nested told rest d) (succeeded : Bool) :
    Nested told rest (d.settleStart succeeded) := by
  cases hstart : taskAfterStart? d.movie.task with
  | none => rwa [settleStart_of_noStart hstart]
  | some next =>
    have hr : d.movie.task.isRunning = false := by
      by_contra hr
      exact absurd (hstart.symm.trans (Movie.Log.noStart_of_isRunning (by simpa using hr))) nofun
    exact ((h.atRest_of_not_running hr).settleStart follows succeeded).nested rest

/-! ## Requests -/

section
variable [Core M] [Storage D]

omit follows in
theorem isRunning_execute (r : Request) (h : d.movie.task.isRunning = true) :
    (d.execute r).2.movie.task.isRunning = true := by
  obtain ⟨-, ⟨-, -, hm⟩ | ⟨-, ⟨hm, -⟩ | ⟨-, -, hm, -⟩⟩⟩ := execute_cases r d
  · rwa [hm]
  · rwa [hm]
  · rw [hm]
    exact Movie.Log.isRunning_restore h _ _

theorem Nested.executed (h : Nested told rest d) {r : Request} :
    Nested told rest (d.execute r).2 := by
  refine h.steady (steady_execute follows r d) (isRunning_execute r) fun r' hr' _ => ?_
  rwa [queue_execute]

theorem Nested.perform {r : Request} (h : Nested told (r :: rest) d) :
    Nested told rest (d.perform r).2 := by
  have hexecuted : Nested told (r :: rest) (d.execute r).2 := h.executed follows
  have hother (htag : r.tag ≠ some .seekRollback) : Nested told rest (d.execute r).2 := by
    refine hexecuted.steady (.refl _) id fun r' hr' hroll => ?_
    obtain rfl | hr' := List.mem_cons.1 hr'
    · exact absurd hroll.2 htag
    · exact hr'
  refine deliver_cases (Nested told rest) (d.execute r).1 (d.execute r).2 hother ?_ ?_ ?_ ?_ ?_
  · intro htag state
    have h := hother (by rw [show r.tag = _ from htag]; nofun)
    exact ⟨h.seeking, h.running, h.awaited, h.told⟩
  · intro htag state
    refine (hother (by rw [show r.tag = _ from htag]; nofun)).steady
      (steady_keepCheckpoint follows state _) (fun hr => ?_) fun r' hr' _ => ?_
    · rwa [movie_keepCheckpoint]
    · rwa [queue_keepCheckpoint]
  · intro htag succeeded
    exact (hother (by rw [show r.tag = _ from htag]; nofun)).settleStart follows succeeded
  · intro _
    exact hexecuted.finishRollback follows rest
  · intro _
    exact (hexecuted.failRollback follows).nested rest

/-- Warps, seeks and the movie are nested wherever a drain passes. -/
theorem Nested.passes {e : Deck M H D} (h : Nested told [] d) (he : d.Passes rest e) :
    Nested told rest e := by
  refine he.keeps (Nested told) (fun d hd => ?_) (fun r rest d hd => hd.perform follows) h
  refine hd.steady ⟨rfl, rfl, id⟩ id fun r hr hroll => ?_
  have hload : r.isLoad = true := by simp [Request.isLoad, hroll.1]
  exact List.mem_append_left _
    (mem_prepare_of_savedSlot? (savedSlot?_of_isLoad hload) _ (by simpa using hr))

/-- Once everything is carried out, no seek waits. -/
theorem Nested.not_awaiting (h : Nested told [] d) {op : Seek.Operation}
    (hop : d.drain.2.seek.active = some op) : op.awaitingRollback = false := by
  have hdrained := h.passes follows (passes_drain d)
  by_contra hawait
  obtain ⟨r, hr, -⟩ := hdrained.awaited hop (by simpa using hawait)
  rw [pending_drain] at hr
  cases hr

/-- A return to a checkpoint that fails ends the seek. -/
theorem Nested.atRest_of_error {r : Request} (h : Nested told (r :: rest) d)
    (hr : r.tag = some .seekRollback) {e : Error} (he : (d.execute r).1.result = .error e) :
    AtRest told (d.perform r).2 := by
  have hp : (d.perform r).2 = (d.execute r).2.failRollback := by
    have hp : d.perform r = (d.execute r).2.deliver (d.execute r).1 := rfl
    have ht : (d.execute r).1.tag = some .seekRollback := hr
    rw [hp, deliver, ht, he]
  rw [hp]
  exact (h.executed follows).failRollback follows

theorem Nested.drain (h : Nested told [] d) : Nested told [] d.drain.2 :=
  h.passes follows (passes_drain d)

end

/-! ## Starts and stops -/

theorem AtRest.withStart [Core M] (h : AtRest told d) (log : Movie.Log)
    (start : Option Request) : AtRest told (d.withStart log start) := by
  let begun : Deck M H D := { d with
    checkpoints := d.checkpoints.clear
    warp := {}
    movie := log
    machine := startMachine start d.machine }
  have hbegun : AtRest told begun := ⟨h.seek, rfl, h.told⟩
  exact (hbegun.steady (steady_enqueue (startRequest start) begun)).steady
    (steady_notify follows rfl _)

variable [Storage D]

theorem AtRest.startRecording [Core M] (h : AtRest told d) (now : UInt32)
    (path : Storage.Pathname) (flags : UInt16) (author description : String) :
    AtRest told (d.startRecording now path flags author description).2 := by
  have hrecords := startRecording_records now path flags author description d
  generalize d.startRecording now path flags author description = result at hrecords ⊢
  have hsaved {d' : Deck M H D} {movie : Movie.Recording} {task : Movie.Task}
      {start : Option Request} (htaken : d.takeUpMovie path movie task start = (.ok (), d')) :
      AtRest told d'.saveMovie.2 := by
    obtain ⟨-, rfl⟩ := takeUpMovie_eq_ok htaken
    exact (h.withStart follows _ _).steady (steady_saveMovie _)
  cases hrecords with
  | refused e => exact h
  | dropped fault htaken => exact (hsaved htaken).dropMovie follows
  | recorded htaken => exact hsaved htaken

theorem AtRest.startPlayback [Core M] (h : AtRest told d) (path : Storage.Pathname) :
    AtRest told (d.startPlayback path).2 := by
  have hplays := startPlayback_plays path d
  generalize d.startPlayback path = result at hplays ⊢
  have hasked {movie : Movie.Recording} {d' : Deck M H D} (ha : AskedAbout movie d d') :
      AtRest told d' := by
    obtain rfl | ⟨-, rfl⟩ := ha
    · exact h
    · exact h.steady (steady_questioned follows _ d)
  cases hplays with
  | refused e => exact h
  | declined e _ ha => exact hasked ha
  | played _ ha htaken =>
    obtain ⟨-, rfl⟩ := takeUpMovie_eq_ok htaken
    exact (hasked ha).withStart follows _ _

/-- Where a movie is active, another one is refused. -/
theorem Nested.startRecording [Core M] (h : Nested told rest d) (now : UInt32)
    (path : Storage.Pathname) (flags : UInt16) (author description : String) :
    Nested told rest (d.startRecording now path flags author description).2 := by
  by_cases ha : d.movie.isActive = true
  · rwa [startRecording_of_isActive ha]
  · exact ((h.atRest_of_inactive ha).startRecording follows _ _ _ _ _).nested rest

theorem Nested.startPlayback [Core M] (h : Nested told rest d) (path : Storage.Pathname) :
    Nested told rest (d.startPlayback path).2 := by
  by_cases ha : d.movie.isActive = true
  · rwa [startPlayback_of_isActive ha]
  · exact ((h.atRest_of_inactive ha).startPlayback follows path).nested rest

theorem Nested.stopMovie (h : Nested told rest d) : AtRest told d.stopMovie.2 := by
  have hstopped := h.stopSeek follows
  unfold Deck.stopMovie
  simp only
  split
  · exact hstopped
  · refine AtRest.steady (AtRest.dropMovie follows ?_) (steady_notify follows rfl _)
    split
    · exact hstopped.steady (steady_saveMovie _)
    · exact hstopped

/-! ## Frames, seeks and warps -/

omit [Storage D] in
theorem Nested.changeMovie (h : Nested told rest d) {log : Movie.Log}
    (hr : d.movie.task.isRunning = true → log.task.isRunning = true) :
    Nested told rest (d.changeMovie log) := by
  have ht := tape_changeMovie log d
  refine h.steady (steady_changeMovie follows log d) (fun hrun => ?_) fun r hr _ => ?_
  · rw [show (d.changeMovie log).movie = log from congrArg Tape.movie ht]
    exact hr hrun
  · rwa [show (d.changeMovie log).queue = d.queue from congrArg Tape.queue ht]

omit follows [Storage D] [Frontend H] in
theorem Nested.offerCheckpoint (h : Nested told rest d) : Nested told rest d.offerCheckpoint := by
  unfold Deck.offerCheckpoint
  split
  · exact h.aside (aside_enqueue _ d)
  · exact h

theorem Nested.poll (h : Nested told rest d) (index : Nat) (live : Sample) :
    Nested told rest (d.poll index live).2 ∧
      ((d.poll index live).1.1 = .ended → AtRest told (d.poll index live).2) := by
  have harrived : Nested told rest (d.changeMovie d.movie.arrive) :=
    h.changeMovie follows fun hr => by rwa [Movie.Log.arrive_of_isRunning hr]
  have hpolls := poll_polls index live d
  generalize d.poll index live = result at hpolls ⊢
  cases hpolls with
  | passed => exact ⟨harrived, nofun⟩
  | handed polled handed =>
    refine ⟨((h.changeMovie follows fun _ => ?_).offerCheckpoint).checkSeek follows, ?_⟩
    · cases polled with
      | played running => exact running
      | recorded => rfl
      | passed => cases handed <;> contradiction
      | ended => cases handed <;> contradiction
    · rintro rfl
      cases handed <;> contradiction
  | @ended d' paused =>
    have hstopped : AtRest told d'.stopMovie.2 := by
      obtain rfl | rfl := paused
      · exact harrived.stopMovie follows
      · have hpaused : Nested told rest (d.changeMovie d.movie.arrive).pause :=
          harrived.steady (steady_pause follows _) id fun _ hr _ => hr
        exact hpaused.stopMovie follows
    exact ⟨hstopped.nested rest, fun _ => hstopped⟩

section
omit [Storage D]

theorem Nested.seekTo (h : Nested told rest d) (hr : d.movie.task.isRunning = true)
    (target rollbackTo : Nat) (pauseAtEnd mustRollback : Bool) :
    Nested told rest (d.seekTo target rollbackTo pauseAtEnd mustRollback).2 := by
  have hseeks := seekTo_seeks target rollbackTo pauseAtEnd mustRollback d
  generalize d.seekTo target rollbackTo pauseAtEnd mustRollback = result at hseeks ⊢
  cases hseeks with
  | refused e => exact h
  | ahead idle free le =>
    refine Nested.checkSeek follows ⟨fun _ => rfl, fun _ => hr, fun hop hawait => ?_, h.told⟩
    cases hop
    cases hawait
  | back idle state =>
    exact ⟨fun _ => rfl, fun _ => hr,
      fun _ _ => ⟨rollbackRequest state, List.mem_append_right _ (.head _), rfl, rfl⟩, h.told⟩

theorem Nested.beginSeek (h : Nested told rest d) (text : String) (pauseAtEnd : Bool) :
    Nested told rest (d.beginSeek text pauseAtEnd).2 := by
  unfold Deck.beginSeek
  split
  · exact h
  · next hr =>
    split
    · exact h
    · split
      · exact h
      · exact h.seekTo follows (by simpa using hr) _ _ _ _

/-- The samples of a warp are in place, and the frontend knows of the warp. -/
theorem told_withInputs (h : Nested told rest d) (hw : d.warp.warping = false)
    (inputs : Array Sample) (rollbackTo : Nat) :
    (d.withInputs inputs rollbackTo).warp.warping = true ∧
      told true (d.withInputs inputs rollbackTo).frontend := by
  have hstarted : d.startWarp.warp.warping = true ∧ told true d.startWarp.frontend := by
    rw [startWarp, if_neg (by simp [hw])]
    exact ⟨rfl, follows.begins (hw ▸ h.told)⟩
  have hs : Steady told d.startWarp (d.withInputs inputs rollbackTo) :=
    (steady_changeMovie follows _ _).trans (steady_dropCheckpoints follows _ _)
  exact ⟨hs.warping.trans hstarted.1, hs.told hstarted.2⟩

theorem Nested.beginWarp (h : Nested told rest d) (inputs : Array Sample) :
    Nested told rest (d.beginWarp inputs).2 := by
  have hwarps := beginWarp_warps inputs d
  generalize d.beginWarp inputs = result at hwarps ⊢
  cases hwarps with
  | refused e => exact h
  | same => exact ⟨h.seeking, h.running, h.awaited, h.told⟩
  | extended => exact ⟨h.seeking, h.running, h.awaited, h.told⟩
  | replayed running still idle rollbackTo state =>
    obtain ⟨hw, ht⟩ := told_withInputs follows h still inputs rollbackTo
    have hm := movie_withInputs inputs rollbackTo d
    refine ⟨fun _ => rfl, fun _ => ?_, fun _ _ => ?_, ?_⟩
    · exact congrArg (·.task.isRunning) hm
    · exact ⟨rollbackRequest state, List.mem_append_right _ (.head _), rfl, rfl⟩
    · change told (d.withInputs inputs rollbackTo).warp.warping _
      rw [hw]
      exact ht

end

/-! ## Runs -/

omit [Storage D] in
theorem Nested.atRest_setLaunched (h : Nested told rest d) : AtRest told (d.setLaunched false) := by
  have hstopped : AtRest told
      ({ d with queue := d.queue.setLaunched false } : Deck M H D).stopSeek :=
    atRest_stopSeek follows h.seeking h.told
  exact hstopped

omit [Storage D] in
theorem Nested.setLaunched (h : Nested told rest d) (launched : Bool) :
    Nested told rest (d.setLaunched launched) := by
  cases launched with
  | false => exact (h.atRest_setLaunched follows).nested rest
  | true => exact ⟨h.seeking, h.running, h.awaited, h.told⟩

variable [Core M]

theorem Nested.call (h : Nested told [] d) (c : Call) : Nested told [] (d.call c) := by
  have haside (hc : c.isAside = true) := h.aside (call_aside follows hc d)
  cases c with
  | setLaunched launched => exact h.setLaunched follows launched
  | drain => exact h.drain follows
  | startRecording now path flags author description =>
    exact h.startRecording follows now path flags author description
  | startPlayback path => exact h.startPlayback follows path
  | stopMovie => exact (h.stopMovie follows).nested []
  | setAuthor path author description =>
    obtain ⟨disk, hd | hd⟩ := setAuthor_cases path author description d
    · change Nested told [] (d.setAuthor path author description).2
      rw [hd]
      exact ⟨h.seeking, h.running, h.awaited, h.told⟩
    · change Nested told [] (d.setAuthor path author description).2
      rw [hd]
      exact ⟨h.seeking, h.running, h.awaited, h.told⟩
  | poll index live => exact (h.poll follows index live).1
  | vi =>
    obtain ⟨currentVi, lengthVis, hvi⟩ := d.movie.vi_eq
    refine ⟨h.seeking, fun hs => ?_, h.awaited, h.told⟩
    change d.movie.vi.task.isRunning = true
    rw [hvi]
    exact h.running hs
  | beginSeek text pauseAtEnd => exact h.beginSeek follows text pauseAtEnd
  | stopSeek => exact (h.stopSeek follows).nested []
  | beginWarp inputs => exact h.beginWarp follows inputs
  | _ => exact haside rfl

end Deck

/-- What the user does on the frontend's own account says nothing about warps. -/
def Happening.Discreet {M H D : Type} (told : Bool → H → Prop) : Happening M H D → Prop
  | .call _ => True
  | .outside _ frontend _ => ∀ {warping : Bool} {h : H}, told warping h → told warping (frontend h)

theorem Happening.discreet_unheard {M H D : Type} (happening : Happening M H D) :
    happening.Discreet fun _ _ => True := by
  cases happening with
  | call c => exact trivial
  | outside machine frontend disk => exact fun _ => trivial

namespace Deck

variable {M H D : Type} {told : Bool → H → Prop} [Core M] [Frontend H] [Storage D]
  {d : Deck M H D}

omit [Core M] [Frontend H] [Storage D] in
theorem nested_new (config : Config) (machine : M) {frontend : H} (disk : D)
    (h : told false frontend) : Nested told [] (new config machine frontend disk) :=
  ⟨nofun, nofun, nofun, h⟩

theorem Nested.undergo (follows : Frontend.Follows told) (h : Nested told [] d)
    {happening : Happening M H D} (hd : happening.Discreet told) :
    Nested told [] (d.undergo happening) := by
  cases happening with
  | call c => exact h.call follows c
  | outside machine frontend disk => exact ⟨h.seeking, h.running, h.awaited, hd h.told⟩

theorem Nested.after (follows : Frontend.Follows told) (h : Nested told [] d)
    (hs : List (Happening M H D)) (hd : Along (fun _ happening => happening.Discreet told) hs d) :
    Nested told [] (d.after hs) :=
  after_keeps (Nested told []) (fun _ _ h hd => h.undergo follows hd) h hd

end Deck

/-! ## What the frontend hears -/

/-- A frontend with a record of everything that it was told. -/
structure Noted (H : Type) where
  inner : H
  /-- What happened, in order. -/
  events : List Event := []

namespace Noted

variable {H : Type} [Frontend H]

instance : Frontend (Noted H) where
  confirm message h :=
    let (yes, inner) := Frontend.confirm message h.inner
    (yes, { h with inner })
  notify event h := ⟨Frontend.notify event h.inner, h.events ++ [event]⟩
  pause h := { h with inner := Frontend.pause h.inner }
  captureScreen h := Frontend.captureScreen h.inner
  videoSize h := Frontend.videoSize h.inner
  restoreScreen shot h := { h with inner := Frontend.restoreScreen shot h.inner }

/-- What was said about warps, in order: that one began, or ended. -/
def statuses (h : Noted H) : List Bool := h.events.filterMap Event.warpStatus?

/-- Warps began and ended by turns, and one is under way if the last one has not ended. -/
structure ByTurns (warping : Bool) (h : Noted H) : Prop where
  getElem? : ∀ i < h.statuses.length, h.statuses[i]? = some (i % 2 == 0)
  warping_iff : warping = true ↔ h.statuses.length % 2 = 1

omit [Frontend H] in
theorem byTurns_nil (inner : H) : (⟨inner, []⟩ : Noted H).ByTurns false :=
  ⟨fun i hi => absurd hi (Nat.not_lt_zero i), by simp [statuses]⟩

omit [Frontend H] in
theorem ByTurns.next {warping : Bool} {h h' : Noted H} (ht : h.ByTurns warping)
    (hs : h'.statuses = h.statuses ++ [!warping]) : h'.ByTurns (!warping) := by
  obtain ⟨hget, hw⟩ := ht
  refine ⟨fun i hi => ?_, ?_⟩
  · rw [hs, List.length_append, List.length_singleton] at hi
    rw [hs]
    obtain hi | rfl := Nat.lt_succ_iff_lt_or_eq.1 hi
    · rw [List.getElem?_append_left hi, hget i hi]
    · cases warping <;> simp_all
  · rw [hs, List.length_append, List.length_singleton]
    cases warping with
    | false =>
      have : h.statuses.length % 2 ≠ 1 := fun h1 => absurd (hw.2 h1) Bool.false_ne_true
      simp only [Bool.not_false, true_iff]
      omega
    | true =>
      have := hw.1 rfl
      simp only [Bool.not_true, Bool.false_eq_true, false_iff]
      omega

omit [Frontend H] in
theorem ByTurns.getLast?_iff {warping : Bool} {h : Noted H} (ht : h.ByTurns warping) :
    h.statuses.getLast? = some true ↔ warping = true := by
  rw [ht.warping_iff, List.getLast?_eq_getElem?]
  obtain hz | hpos := Nat.eq_zero_or_pos h.statuses.length
  · simp [List.length_eq_zero_iff.1 hz]
  · rw [ht.getElem? _ (by omega), Option.some_inj, beq_iff_eq]
    omega

theorem statuses_notify (e : Event) (h : Noted H) :
    (Frontend.notify e h).statuses = h.statuses ++ e.warpStatus?.toList := by
  change (h.events ++ [e]).filterMap _ = _
  rw [List.filterMap_append]
  cases he : e.warpStatus? <;> simp [he, statuses]

theorem follows_byTurns : Frontend.Follows (fun warping (h : Noted H) => h.ByTurns warping) where
  begins ht := ht.next (statuses_notify _ _)
  ends ht := ht.next (statuses_notify _ _)
  notify {e _ h} he ht := by
    have hs : (Frontend.notify e h).statuses = h.statuses := by
      rw [statuses_notify, he]
      exact List.append_nil _
    exact ⟨by rw [hs]; exact ht.getElem?, by rw [hs]; exact ht.warping_iff⟩
  confirm _ _ _ ht := ⟨ht.getElem?, ht.warping_iff⟩
  pause ht := ⟨ht.getElem?, ht.warping_iff⟩
  restoreScreen _ _ _ ht := ⟨ht.getElem?, ht.warping_iff⟩

end Noted

/-- What happens, where a record is kept of what the frontend is told. -/
def Happening.noted {M H D : Type} : Happening M H D → Happening M (Noted H) D
  | .call c => .call c
  | .outside machine frontend disk =>
    .outside machine (fun h => { h with inner := frontend h.inner }) disk

namespace Deck

variable {M H D : Type} [Core M] [Frontend H] [Storage D]

theorem along_noted (hs : List (Happening M H D)) (d : Deck M (Noted H) D) :
    Along (fun _ happening => happening.Discreet fun warping h => h.ByTurns warping)
      (hs.map Happening.noted) d := by
  induction hs generalizing d with
  | nil => exact trivial
  | cons happening hs ih =>
    refine ⟨?_, ih _⟩
    cases happening with
    | call c => exact trivial
    | outside machine frontend disk => exact fun ht => ⟨ht.getElem?, ht.warping_iff⟩

/-- A warp under way belongs to a seek, and a seek to a movie that runs. A seek that waits for a
checkpoint has asked for it, and does not wait once everything pending is carried out. The frontend
heard of warps by turns. No seek outlives its end by the caller, the end of its movie, of playback
or of the machine, or a return to a checkpoint that fails. -/
structure Orderly (d : Deck M (Noted H) D) : Prop where
  seeking : d.warp.warping = true → d.seek.isSeeking = true
  running : d.seek.isSeeking = true → d.movie.task = .recording ∨ d.movie.task = .playback
  awaited : ∀ op, d.seek.active = some op → op.awaitingRollback = true →
    ∃ r ∈ d.queue.pending, r.job = .load ∧ r.tag = some .seekRollback
  notAwaiting : ∀ op, d.drain.2.seek.active = some op → op.awaitingRollback = false
  byTurns : ∀ i < d.frontend.statuses.length, d.frontend.statuses[i]? = some (i % 2 == 0)
  warping_iff : d.frontend.statuses.getLast? = some true ↔ d.warp.warping = true
  stops : ∀ c ∈ [.stopSeek, .stopMovie, .setLaunched false], (d.call c).seek.isSeeking = false
  ends : ∀ index live, (d.poll index live).1.1 = .ended →
    (d.poll index live).2.seek.isSeeking = false
  fails : ∀ r rest e, d.Passes (r :: rest) e → r.tag = some .seekRollback →
    (e.execute r).1.result.isOk = false → (e.perform r).2.seek.isSeeking = false

/-- **Warps, seeks and the movie stay nested, and no seek waits forever**, whatever was called in
whatever order. -/
theorem nested_after_run (config : Config) (machine : M) (frontend : H) (disk : D)
    (hs : List (Happening M H D)) :
    let d : Deck M (Noted H) D := (new config machine ⟨frontend, []⟩ disk).after
      (hs.map Happening.noted)
    d.Orderly := by
  intro d
  have follows := Noted.follows_byTurns (H := H)
  have hd : Nested (fun warping (h : Noted H) => h.ByTurns warping) [] d :=
    (nested_new config machine disk (Noted.byTurns_nil frontend)).after follows _ (along_noted hs _)
  have hend {d : Deck M (Noted H) D}
      (h : AtRest (fun warping (h : Noted H) => h.ByTurns warping) d) :
      d.seek.isSeeking = false := isSeeking_eq_false_iff.2 h.seek
  exact
    { seeking := hd.seeking
      running := fun hs => by
        have hrun := hd.running hs
        cases ht : d.movie.task <;> simp_all [Movie.Task.isRunning]
      awaited := fun op hop => hd.awaited hop
      notAwaiting := fun op => hd.not_awaiting follows
      byTurns := hd.told.getElem?
      warping_iff := hd.told.getLast?_iff
      stops := fun c hc => by
        simp only [List.mem_cons, List.not_mem_nil, or_false] at hc
        obtain rfl | rfl | rfl := hc
        · exact hend (hd.stopSeek follows)
        · exact hend (hd.stopMovie follows)
        · exact hend (hd.atRest_setLaunched follows)
      ends := fun index live hended => hend ((hd.poll follows index live).2 hended)
      fails := fun r rest e he hr hfails => by
        cases hresult : (e.execute r).1.result with
        | error cause => exact hend ((hd.passes follows he).atRest_of_error follows hr hresult)
        | ok state => rw [hresult] at hfails; cases hfails }

end Deck

end Rewind
