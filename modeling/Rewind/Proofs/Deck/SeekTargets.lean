import Rewind.Proofs.Deck.Course
import Rewind.Proofs.Deck.Cursor
import Rewind.Proofs.Deck.Nesting

/-!
The targets of seeks. A seek begins towards a sample inside the movie and in front of the cursor,
unless it goes back first, and it ends when the cursor arrives. Main statement: the target stays
inside as long as nothing cuts the movie while the seek is under way, and ahead as long as no caller
loads (`seekTarget_ahead`).
-/

namespace Rewind

open Savestate

/-- A request that no caller asked for to load. -/
def IsOwn (r : Request) : Prop :=
  r.job = .save ∨ r.tag = some .movieStart ∨ r.tag = some .seekRollback

namespace Deck

variable {M H D : Type} {reads : Bool} {d d' : Deck M H D} {rest : List Request}

/-- The seek under way has its target inside the movie, and also ahead, if callers do not load. -/
structure Sought (reads : Bool) (d : Deck M H D) : Prop where
  inside {op : Seek.Operation} : d.seek.active = some op → op.target ≤ d.movie.inputs.size
  ahead {op : Seek.Operation} : reads = false → d.seek.active = some op →
    op.awaitingRollback = false → d.movie.currentSample < op.target

theorem sought_of_none (h : d.seek.active = none) : Sought reads d :=
  ⟨fun hop => absurd (h.symm.trans hop) nofun, fun _ hop => absurd (h.symm.trans hop) nofun⟩

/-- What leaves the seek, the samples and the cursor alone leaves the target where it was. -/
theorem Sought.congr (h : Sought reads d) (hs : d'.seek = d.seek)
    (hi : d'.movie.inputs = d.movie.inputs)
    (hc : d'.movie.currentSample = d.movie.currentSample) : Sought reads d' :=
  ⟨fun hop => hi ▸ h.inside (hs ▸ hop), fun hwatch hop => hc ▸ h.ahead hwatch (hs ▸ hop)⟩

section
variable [Frontend H]

theorem seek_endWarp (d : Deck M H D) : d.endWarp.seek = d.seek := by
  unfold endWarp
  split <;> rfl

theorem seek_checkSeek_of_some {op : Seek.Operation}
    (h : d.seek.arrived? d.movie.currentSample = some op) : d.checkSeek.seek.active = none := by
  rw [checkSeek, h]
  simp only [seek_endWarp]
  split <;> rfl

theorem seek_stopSeek (d : Deck M H D) : d.stopSeek.seek.active = none := by
  unfold stopSeek
  split
  · rw [seek_endWarp]
  · next hs => exact isSeeking_eq_false_iff.1 (by simpa using hs)

theorem seek_stopMovie [Storage D] (d : Deck M H D) : d.stopMovie.2.seek.active = none := by
  unfold stopMovie
  simp only
  split
  · exact seek_stopSeek d
  · refine Eq.trans ?_ (seek_stopSeek d)
    split <;> rfl

theorem checkSeek_of_none (h : d.seek.arrived? d.movie.currentSample = none) : d.checkSeek = d := by
  rw [checkSeek, h]

/-- A seek that goes on after it was looked at has its target ahead. -/
theorem sought_checkSeek
    (h : ∀ {op : Seek.Operation}, d.seek.active = some op → op.target ≤ d.movie.inputs.size) :
    Sought reads d.checkSeek := by
  cases harrived : d.seek.arrived? d.movie.currentSample with
  | some op => exact sought_of_none (seek_checkSeek_of_some harrived)
  | none =>
    rw [checkSeek_of_none harrived]
    refine ⟨h, fun _ hop hawait => ?_⟩
    simpa [Seek.State.arrived?, hop, hawait, Option.filter] using harrived

/-! ## Requests -/

/-- No outcome begins a seek. -/
theorem active_deliver_of_none (h : d.seek.active = none) (o : Outcome) :
    (d.deliver o).2.seek.active = none := by
  refine deliver_cases (·.seek.active = none) o d (fun _ => h) (fun _ _ => h) (fun _ state => ?_)
    (fun _ succeeded => ?_) (fun _ => ?_) (fun _ => ?_)
  · exact (steady_keepCheckpoint Frontend.follows_unheard state d).seek ▸ h
  · unfold settleStart
    split
    · exact h
    · split
      · unfold queueCheckpoint enqueue
        split <;> exact h
      · exact h
  · have hdone : d.seek.rollbackDone.active = none := by simp [Seek.State.rollbackDone, h]
    have harrived : d.seek.rollbackDone.arrived? d.movie.currentSample = none := by
      simp [Seek.State.arrived?, hdone]
    rw [finishRollback, checkSeek_of_none harrived]
    exact hdone
  · exact seek_stopSeek _

end

variable [Core M] [Frontend H] [Storage D]

theorem active_perform_of_none (h : d.seek.active = none) (r : Request) :
    (d.perform r).2.seek.active = none :=
  active_deliver_of_none ((steady_execute Frontend.follows_unheard r d).seek ▸ h) _

theorem config_perform_any (r : Request) (d : Deck M H D) :
    (d.perform r).2.config = d.config :=
  (deliver_keeps (d.execute r).1 (d.execute r).2).1.trans (execute_cases r d).1

/-- Nothing that a drain has yet to carry out disturbs the seek under way. -/
structure Undisturbed (reads : Bool) (rest : List Request) (d : Deck M H D) : Prop where
  nested : Nested (fun _ _ => True) rest d
  sought : Sought reads d
  calm : d.seek.isSeeking = true →
    (∀ r ∈ rest ++ d.queue.pending, IsOwn r) ∨ reads = true ∧ d.config.readOnly = true

theorem restoreMode_of_readOnly {tag : Option Tag} {config : Config} {m : Movie.RestoreMode}
    (hread : config.readOnly = true) (h : restoreMode tag config = some m) : m ≠ .rerecord := by
  rintro rfl
  unfold restoreMode at h
  split at h
  · cases h
  · cases h
  · cases h
  · rw [hread] at h
    cases h

/-- Nothing becomes of a caller's load but what it loaded. -/
theorem perform_of_restoreMode {r : Request} {m : Movie.RestoreMode}
    (hmode : restoreMode r.tag d.config = some m) (hm : m ≠ .reposition) :
    (d.perform r).2.movie = (d.execute r).2.movie ∧ (d.perform r).2.disk = (d.execute r).2.disk ∧
      (d.perform r).2.seek = d.seek := by
  have hseek : (d.execute r).2.seek = d.seek := (steady_execute Frontend.follows_unheard r d).seek
  have hother {t : Tag} (htag : r.tag = some t)
      (ht : restoreMode (some t) d.config = none ∨
        restoreMode (some t) d.config = some .reposition) : False := by
    rw [← htag, hmode] at ht
    obtain ht | ht := ht
    · cases ht
    · exact hm (Option.some.inj ht)
  refine deliver_cases (fun e => e.movie = (d.execute r).2.movie ∧
      e.disk = (d.execute r).2.disk ∧ e.seek = d.seek) (d.execute r).1 (d.execute r).2
    (fun _ => ⟨rfl, rfl, hseek⟩) (fun _ _ => ⟨rfl, rfl, hseek⟩) ?_ ?_ ?_ ?_
  · exact fun htag => (hother htag (.inr rfl)).elim
  · exact fun htag => (hother htag (.inl rfl)).elim
  · exact fun htag => (hother htag (.inr rfl)).elim
  · exact fun htag => (hother htag (.inr rfl)).elim

/-- A load that cuts the movie at the cursor leaves the seek, and no target ahead and inside. -/
theorem not_ahead_of_rerecord {r : Request} {op : Seek.Operation} (hop : d.seek.active = some op)
    (hmode : restoreMode r.tag d.config = some .rerecord)
    (hmoved : (d.execute r).2.movie ≠ d.movie) :
    (d.perform r).2.seek.active = some op ∧
      ¬((d.perform r).2.movie.currentSample < op.target ∧
        op.target ≤ (d.perform r).2.movie.length) := by
  obtain ⟨hm, -, hs⟩ := perform_of_restoreMode hmode (by decide)
  refine ⟨hs ▸ hop, ?_⟩
  obtain ⟨-, ⟨-, -, he⟩ | ⟨-, ⟨he, -⟩ | ⟨hmode', admitted, he, -⟩⟩⟩ := execute_cases r d
  · exact absurd he hmoved
  · exact absurd he hmoved
  · obtain rfl := Option.some.inj (hmode.symm.trans hmode')
    rw [hm, he, Movie.Log.currentSample_restore, Movie.Log.length,
      Movie.Log.size_restore_rerecord admitted]
    rintro ⟨hlt, hle⟩
    exact absurd hle (Nat.not_le.2 hlt)

/-- A request that does not disturb keeps the samples, and the cursor unless a seek returns. -/
theorem execute_calm {r : Request} (h : IsOwn r ∨ reads = true ∧ d.config.readOnly = true) :
    (d.execute r).2.movie.inputs = d.movie.inputs ∧
      (reads = false → r.tag ≠ some .seekRollback →
        (d.execute r).2.movie.currentSample = d.movie.currentSample) := by
  obtain ⟨-, ⟨-, -, hm⟩ | ⟨hjob, ⟨hm, -⟩ | ⟨hmode, -, hm, -⟩⟩⟩ := execute_cases r d
  · rw [hm]
    exact ⟨rfl, fun _ _ => rfl⟩
  · rw [hm]
    exact ⟨rfl, fun _ _ => rfl⟩
  · obtain (hsave | htag | htag) | ⟨hreads, hread⟩ := h
    · cases hjob.symm.trans hsave
    · rw [htag] at hmode
      cases hmode
    · rw [htag] at hmode
      cases hmode
      exact ⟨congrArg (·.inputs) hm, fun _ hne => absurd htag hne⟩
    · rw [hm]
      exact ⟨Movie.Log.inputs_restore_of_ne (restoreMode_of_readOnly hread hmode),
        fun hwatch => absurd (hreads.symm.trans hwatch) nofun⟩

theorem sought_perform {r : Request} (h : Undisturbed reads (r :: rest) d) :
    Sought reads (d.perform r).2 := by
  cases hs : d.seek.isSeeking with
  | false => exact sought_of_none (active_perform_of_none (isSeeking_eq_false_iff.1 hs) r)
  | true =>
    have hseek : (d.execute r).2.seek = d.seek := (steady_execute Frontend.follows_unheard r d).seek
    have hrun := isRunning_execute r (h.nested.running hs)
    obtain ⟨hi, hc⟩ := execute_calm ((h.calm hs).imp_left fun hown => hown r (.head _))
    have hinside {op : Seek.Operation} (hop : (d.execute r).2.seek.active = some op) :
        op.target ≤ (d.execute r).2.movie.inputs.size :=
      hi ▸ h.sought.inside (hseek ▸ hop)
    have haside (hne : r.tag ≠ some .seekRollback) : Sought reads (d.execute r).2 :=
      ⟨hinside, fun hwatch hop => hc hwatch hne ▸ h.sought.ahead hwatch (hseek ▸ hop)⟩
    refine deliver_cases (Sought reads) (d.execute r).1 (d.execute r).2 haside ?_ ?_ ?_ ?_ ?_
    · intro htag state
      exact (haside (by rw [show r.tag = _ from htag]; nofun)).congr rfl rfl rfl
    · intro htag state
      have hm := movie_keepCheckpoint state (d.execute r).2
      exact (haside (by rw [show r.tag = _ from htag]; nofun)).congr
        (steady_keepCheckpoint Frontend.follows_unheard state _).seek (congrArg (·.inputs) hm)
        (congrArg (·.currentSample) hm)
    · intro htag succeeded
      rw [settleStart_of_noStart (Movie.Log.noStart_of_isRunning hrun)]
      exact haside (by rw [show r.tag = _ from htag]; nofun)
    · intro _
      refine sought_checkSeek fun hop => ?_
      obtain ⟨op', hop', rfl⟩ := Option.map_eq_some_iff.1 hop
      exact (hinside hop' : op'.target ≤ _)
    · intro _
      exact sought_of_none ((h.nested.executed Frontend.follows_unheard).failRollback
        Frontend.follows_unheard).seek

theorem Undisturbed.perform {r : Request} (h : Undisturbed reads (r :: rest) d) :
    Undisturbed reads rest (d.perform r).2 := by
  refine ⟨h.nested.perform Frontend.follows_unheard, sought_perform h, fun hs => ?_⟩
  have hs : d.seek.isSeeking = true := by
    by_contra hn
    have hnone := active_perform_of_none (isSeeking_eq_false_iff.1 (by simpa using hn)) r
    exact absurd ((isSeeking_eq_false_iff.2 hnone).symm.trans hs) Bool.false_ne_true
  refine (h.calm hs).imp (fun hown r' hr' => ?_) (fun ⟨hreads, hread⟩ =>
    ⟨hreads, (config_perform_any r d).symm ▸ hread⟩)
  -- What a request queues itself are captures for checkpoints.
  obtain ⟨k, -, hp⟩ := queuesAtMost_perform r d
  rw [hp] at hr'
  obtain hr' | hr' := List.mem_append.1 hr'
  · exact hown r' (List.mem_cons_of_mem _ (List.mem_append_left _ hr'))
  · obtain hr' | hr' := List.mem_append.1 hr'
    · exact .inl (List.eq_of_mem_replicate hr' ▸ rfl)
    · exact hown r' (List.mem_cons_of_mem _ (List.mem_append_right _ hr'))

theorem Undisturbed.passes {e : Deck M H D} (h : Undisturbed reads [] d)
    (he : d.Passes rest e) : Undisturbed reads rest e := by
  refine he.keeps (Undisturbed reads) (fun d hd => ?_) (fun r rest d hd => hd.perform) h
  have hbegun : d.Passes _ _ := .batch .start
  refine ⟨hd.nested.passes Frontend.follows_unheard hbegun, hd.sought.congr rfl rfl rfl,
    fun hs => ?_⟩
  refine (hd.calm hs).imp_left fun hown r hr => ?_
  obtain hr | rfl := mem_prepare (by simpa [Queue.clear] using hr)
  · exact hown r (by simpa using hr)
  · exact .inl rfl

/-! ## Calls -/

omit [Core M] in
theorem sought_poll (h : Sought reads d) (index : Nat) (live : Sample) :
    Sought reads (d.poll index live).2 := by
  have hpolls := poll_polls index live d
  generalize d.poll index live = result at hpolls ⊢
  cases hpolls with
  | passed =>
    have hm : (d.changeMovie d.movie.arrive).movie = d.movie.arrive :=
      congrArg Tape.movie (tape_changeMovie _ d)
    refine h.congr (seek_changeMovie _ d) ?_ ?_
    · rw [hm, Movie.Log.arrive_eq]
    · rw [hm, Movie.Log.arrive_eq]
  | @handed outcome seen log polled =>
    have hs : (d.changeMovie log).offerCheckpoint.seek = d.seek := by
      rw [(steady_offerCheckpoint _ : Steady (fun _ (_ : H) => True) _ _).seek, seek_changeMovie]
    refine sought_checkSeek fun hop => ?_
    rw [(movie_offered log d).1]
    exact Nat.le_trans (h.inside (hs ▸ hop)) polled.size_le
  | ended => exact sought_of_none (seek_stopMovie _)

omit [Core M] [Storage D] in
theorem sought_beginSeek (h : Sought reads d) (text : String) (pauseAtEnd : Bool) :
    Sought reads (d.beginSeek text pauseAtEnd).2 := by
  obtain ⟨target, hle, hseeks⟩ := beginSeek_seeks text pauseAtEnd d
  generalize d.beginSeek text pauseAtEnd = result at hseeks ⊢
  cases hseeks with
  | refused e => exact h
  | ahead =>
    refine sought_checkSeek fun hop => ?_
    cases hop
    exact hle
  | back =>
    refine ⟨fun hop => ?_, fun _ hop hawait => ?_⟩
    · cases hop
      exact hle
    · cases hop
      cases hawait

omit [Core M] [Storage D] in
theorem sought_beginWarp (h : Sought reads d) (inputs : Array Sample) :
    Sought reads (d.beginWarp inputs).2 := by
  have hwarps := beginWarp_warps inputs d
  generalize d.beginWarp inputs = result at hwarps ⊢
  cases hwarps with
  | refused e => exact h
  | same => exact h.congr rfl rfl rfl
  | extended running idle => exact sought_of_none (isSeeking_eq_false_iff.1 idle)
  | replayed running still idle rollbackTo =>
    have hm := movie_withInputs inputs rollbackTo d
    refine ⟨fun hop => ?_, fun _ hop hawait => ?_⟩
    · cases hop
      change _ ≤ (d.withInputs inputs rollbackTo).movie.inputs.size
      rw [hm]
      exact Nat.min_le_right _ _
    · cases hop
      cases hawait

/-! ## Runs -/

/-- No drain disturbs a seek that is under way: no caller's load is carried out in it, except, with
`reads`, on a deck that only reads. -/
def Calm (reads : Bool) (d : Deck M H D) : Happening M H D → Prop
  | .call .drain => d.seek.isSeeking = true →
    (∀ r ∈ d.queue.pending, IsOwn r) ∨ reads = true ∧ d.config.readOnly = true
  | _ => True

theorem sought_undergo (hn : Nested (fun _ _ => True) [] d) (h : Sought reads d)
    {happening : Happening M H D} (hcalm : Calm reads d happening) :
    Sought reads (d.undergo happening) := by
  have unheard := Frontend.follows_unheard (H := H)
  cases happening with
  | outside machine frontend disk => exact h.congr rfl rfl rfl
  | call c =>
    have haside (hc : c.isAside = true) : Sought reads (d.call c) := by
      have ha := call_aside unheard hc d
      exact h.congr ha.seek (congrArg (·.inputs) ha.movie) (congrArg (·.currentSample) ha.movie)
    cases c with
    | setLaunched launched =>
      cases launched with
      | false => exact sought_of_none (seek_stopSeek _)
      | true => exact h.congr rfl rfl rfl
    | drain =>
      have hd : Undisturbed reads [] d := ⟨hn, h, fun hs => (hcalm hs)⟩
      exact (hd.passes (passes_drain d)).sought
    | startRecording now path flags author description =>
      by_cases ha : d.movie.isActive = true
      · exact (congrArg (Sought reads ·.2) (startRecording_of_isActive ha _ _ _ _ _)).mpr h
      · exact sought_of_none ((hn.atRest_of_inactive ha).startRecording unheard _ _ _ _ _).seek
    | startPlayback path =>
      by_cases ha : d.movie.isActive = true
      · exact (congrArg (Sought reads ·.2) (startPlayback_of_isActive ha path)).mpr h
      · exact sought_of_none ((hn.atRest_of_inactive ha).startPlayback unheard path).seek
    | stopMovie => exact sought_of_none (seek_stopMovie d)
    | setAuthor path author description =>
      change Sought reads (d.setAuthor path author description).2
      obtain ⟨disk, hd | hd⟩ := setAuthor_cases path author description d
      · rw [hd]
        exact h.congr rfl rfl rfl
      · rw [hd]
        exact h.congr rfl rfl rfl
    | poll index live => exact sought_poll h index live
    | vi =>
      obtain ⟨currentVi, lengthVis, hvi⟩ := d.movie.vi_eq
      exact h.congr rfl (congrArg (·.inputs) hvi) (congrArg (·.currentSample) hvi)
    | beginSeek text pauseAtEnd => exact sought_beginSeek h text pauseAtEnd
    | stopSeek => exact sought_of_none (seek_stopSeek d)
    | beginWarp inputs => exact sought_beginWarp h inputs
    | _ => exact haside rfl

theorem sought_after (config : Config) (machine : M) (frontend : H) (disk : D)
    {hs : List (Happening M H D)}
    (hcalm : Along (Calm reads) hs (new config machine frontend disk)) :
    Sought reads ((new config machine frontend disk).after hs) := by
  have unheard := Frontend.follows_unheard (H := H)
  have hnew : Nested (fun _ _ => True) [] (new config machine frontend disk) :=
    nested_new config machine disk trivial
  have hboth := after_keeps (fun d => Nested (fun _ _ => True) [] d ∧ Sought reads d)
    (fun d happening ⟨hn, h⟩ hcalm =>
      ⟨hn.undergo unheard happening.discreet_unheard, sought_undergo hn h hcalm⟩)
    ⟨hnew, sought_of_none rfl⟩ hcalm
  exact hboth.2

/-- **The target of a seek lies inside the movie**, if no caller's load is carried out during a seek
except by a deck that only reads, **and ahead of the cursor**, if none is carried out at all and the
seek waits for no checkpoint. So it is reached over samples that are there, and nothing is recorded
on the way. A caller's load that cuts the movie leaves the seek as it is, and no target ahead that
is inside. -/
theorem seekTarget_ahead (config : Config) (machine : M) (frontend : H) (disk : D)
    {hs : List (Happening M H D)} {op : Seek.Operation}
    (hop : ((new config machine frontend disk).after hs).seek.active = some op) :
    let d := (new config machine frontend disk).after hs
    (Along (Calm true) hs (new config machine frontend disk) → op.target ≤ d.movie.length) ∧
    (Along (Calm false) hs (new config machine frontend disk) → op.awaitingRollback = false →
      d.movie.currentSample < op.target ∧ op.target ≤ d.movie.length ∧
      ∀ index live, (d.poll index live).1.1 ≠ .recorded) ∧
    ∀ r, restoreMode r.tag d.config = some .rerecord → (d.execute r).2.movie ≠ d.movie →
      (d.perform r).2.seek.active = some op ∧
        ¬((d.perform r).2.movie.currentSample < op.target ∧
          op.target ≤ (d.perform r).2.movie.length) := by
  intro d
  refine ⟨fun hcalm => (sought_after config machine frontend disk hcalm).inside hop,
    fun hcalm hawait => ?_, fun r => not_ahead_of_rerecord hop⟩
  have hsought := sought_after config machine frontend disk hcalm
  have hlt := hsought.ahead rfl hop hawait
  have hle := hsought.inside hop
  refine ⟨hlt, hle, fun index live hr => ?_⟩
  have hpolls := poll_polls index live d
  generalize d.poll index live = result at hpolls hr
  cases hpolls with
  | passed => cases hr
  | ended => cases hr
  | handed polled =>
    obtain rfl := hr
    cases polled with
    | recorded recording behind => exact absurd (Nat.lt_of_lt_of_le hlt hle) (Nat.not_lt.2 behind)

/-- A seek goes to the sample that a warp put behind what was recorded. -/
def sentAhead : List (Happening Machine.Accumulator Journal Storage.Sink) :=
  appended ++ [.call (.beginSeek "3" true), .call .drain]

theorem seekTarget_ahead_sentAhead :
    let d := (new {} running.machine {} {}).after sentAhead
    d.seek.active = some ⟨3, true, false⟩ ∧
      Along (Calm false) sentAhead (new {} running.machine {} {}) ∧
      d.movie.currentSample < 3 ∧ 3 ≤ d.movie.length := by
  have hc : Frontend.Counts fun j : Journal => j.events.count .seekCompleted := by
    intro e j
    change (e :: j.events).count .seekCompleted = _
    simp only [List.count_cons, beq_iff_eq]
  -- The checkpoint at the start is made while the seek is under way.
  have hpending : ((new {} running.machine {} {}).after (sentAhead.take 6)).queue.pending =
      [.capture .checkpoint] := rfl
  have hsaves : ∀ r ∈ ((new {} running.machine {} {}).after (sentAhead.take 6)).queue.pending,
      r.IsSave := by
    rw [hpending]
    intro r hr
    obtain rfl := List.mem_singleton.1 hr
    exact ⟨rfl, nofun⟩
  obtain ⟨-, -, hcourse⟩ := drain_of_saves hc rfl hsaves
  have hop : ((new {} running.machine {} {}).after sentAhead).seek.active =
      some ⟨3, true, false⟩ := congrArg (·.seek.active) hcourse
  have hcalm : Along (Calm false) sentAhead (new {} running.machine {} {}) :=
    ⟨trivial, trivial, trivial, trivial, trivial, trivial,
      fun _ => .inl fun r hr => .inl (hsaves r hr).1, trivial⟩
  obtain ⟨hlt, hle, -⟩ := (seekTarget_ahead {} running.machine ({} : Journal)
    ({} : Storage.Sink) hop).2.1 hcalm rfl
  exact ⟨hop, hcalm, hlt, hle⟩

end Deck

end Rewind
