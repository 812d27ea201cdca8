import Rewind.Proofs.Deck.Calls
import Rewind.Proofs.Deck.Steady

/-!
The cursor and the movie's length. Everything that moves the cursor or puts samples in place keeps
the cursor inside the movie, except a warp to fewer samples than were consumed. Main statement: the
cursor stays inside exactly as long as every warp reaches it (`currentSample_le_length`).
-/

namespace Rewind

open Savestate

namespace Movie.Log

/-- The cursor lies inside the movie, while there is one. -/
def Inside (log : Log) : Prop := log.isActive = true → log.currentSample ≤ log.inputs.size

variable {log : Log}

theorem inside_of_inactive (h : log.isActive = false) : log.Inside :=
  fun ha => absurd (h.symm.trans ha) Bool.false_ne_true

/-- Another task changes nothing about the cursor, unless there was no movie before. -/
theorem Inside.withTask (h : log.Inside) {task : Task}
    (ha : task ≠ .idle → log.isActive = true) : Inside { log with task } := by
  intro ha'
  exact h (ha (by simpa [isActive] using ha'))

theorem isActive_of_arrive (h : log.arrive.task ≠ .idle) : log.isActive = true := by
  unfold arrive at h
  cases ht : log.task <;> simp_all [isActive]

theorem Inside.arrive (h : log.Inside) : log.arrive.Inside := by
  rw [arrive_eq]
  exact h.withTask isActive_of_arrive

theorem inside_begin (path : Storage.Pathname) (movie : Recording) (task : Task) :
    (begin path movie task).Inside := fun _ => Nat.zero_le _

theorem Inside.polled (h : log.Inside) {live seen : Sample} {outcome : PollOutcome} {log' : Log}
    (hp : log.Polled live (outcome, seen, log')) : log'.Inside := by
  cases hp with
  | passed => exact h.arrive
  | ended => exact h.arrive
  | played running here =>
    intro _
    exact (Array.getElem?_eq_some_iff.1 here).1
  | recorded recording behind =>
    intro _
    have hle := h (isActive_of_arrive (by rw [recording]; nofun))
    simp only [replaceInputs, Array.size_push]
    omega

theorem Inside.vi (h : log.Inside) : log.vi.Inside := by
  obtain ⟨currentVi, lengthVis, hvi⟩ := log.vi_eq
  rw [hvi]
  exact h

/-- A live sample is recorded at the cursor. -/
theorem Inside.getElem?_recorded (h : log.Inside) {live seen : Sample} {log' : Log}
    (hp : log.Polled live (.recorded, seen, log')) :
    log'.inputs = log.inputs.push live ∧ log.currentSample = log.inputs.size := by
  cases hp with
  | recorded recording behind =>
    exact ⟨rfl, Nat.le_antisymm (h (isActive_of_arrive (by rw [recording]; nofun))) behind⟩

/-- The position of a cursor inside the movie is one of the movie's own. -/
theorem Inside.check_freeze (h : log.Inside) (hlength : log.length < UInt32.size)
    {freeze : Freeze} (hf : log.freeze = some freeze) : freeze.check log.header.uid = .ok () := by
  unfold Log.freeze at hf
  split at hf
  · next ha =>
    cases hf
    exact Freeze.check_ofInputs hlength (h ha)
  · cases hf

end Movie.Log

namespace Deck

open Movie.Log

variable {M H D : Type} [Core M] [Frontend H] [Storage D] {d e : Deck M H D}

/-! ## What keeps the cursor inside -/

/-- A request that changes the movie puts the cursor inside, wherever it was before. -/
theorem currentSample_execute_le {r : Request} (h : (d.execute r).2.movie ≠ d.movie) :
    (d.execute r).2.movie.currentSample ≤ (d.execute r).2.movie.length := by
  obtain ⟨-, ⟨-, -, hm⟩ | ⟨-, ⟨hm, -⟩ | ⟨-, admitted, hm, -⟩⟩⟩ := execute_cases r d
  · exact absurd hm h
  · exact absurd hm h
  · rw [hm]
    exact currentSample_restore_le admitted

theorem inside_execute (h : d.movie.Inside) (r : Request) : (d.execute r).2.movie.Inside := by
  by_cases hm : (d.execute r).2.movie = d.movie
  · rwa [hm]
  · exact fun _ => currentSample_execute_le hm

theorem inside_perform (h : d.movie.Inside) (r : Request) : (d.perform r).2.movie.Inside := by
  have hexecuted := inside_execute h r
  obtain ⟨hm, -⟩ | ⟨waits, hm, -⟩ | ⟨hm, -⟩ := deliver_settles (d.execute r).1 (d.execute r).2
  · exact hm ▸ hexecuted
  · refine hm ▸ hexecuted.withTask fun _ => ?_
    cases ht : (d.execute r).2.movie.task <;> simp_all [taskAfterStart?, isActive]
  · exact hm ▸ inside_of_inactive rfl

/-- The cursor is inside the movie wherever a drain passes. -/
theorem inside_passes (h : d.movie.Inside) {rest : List Request} (he : d.Passes rest e) :
    e.movie.Inside :=
  he.keeps (fun _ d => d.movie.Inside) (fun _ h => h) (fun r _ _ h => inside_perform h r) h

omit [Core M] [Storage D] [Frontend H] in
theorem inside_begins {path : Storage.Pathname} {movie : Movie.Recording} {task : Movie.Task}
    {log log' : Movie.Log} (h : log.Inside) (hb : Begins path movie task log log') :
    log'.Inside := by
  cases hb with
  | aside => exact h
  | dropped header => exact inside_of_inactive rfl
  | begun => exact inside_begin path movie task

omit [Core M] in
theorem inside_poll (h : d.movie.Inside) (index : Nat) (live : Sample) :
    (d.poll index live).2.movie.Inside := by
  have hpolls := poll_polls index live d
  generalize d.poll index live = result at hpolls ⊢
  cases hpolls with
  | passed =>
    rw [show (d.changeMovie d.movie.arrive).movie = d.movie.arrive from
      congrArg Tape.movie (tape_changeMovie _ d)]
    exact h.arrive
  | handed polled =>
    rw [(movie_handed _ d).1]
    exact h.polled polled
  | @ended d' => exact inside_of_inactive (movie_stopMovie d')

section
omit [Core M] [Storage D]

/-- A warp puts the samples in place and leaves the cursor where it is. -/
theorem beginWarp_eq_ok_movie {inputs : Array Sample} (h : (d.beginWarp inputs).1 = .ok ()) :
    (d.beginWarp inputs).2.movie.inputs = inputs ∧
      (d.beginWarp inputs).2.movie.currentSample = d.movie.currentSample := by
  have hwarps := beginWarp_warps inputs d
  generalize d.beginWarp inputs = result at hwarps h ⊢
  cases hwarps with
  | refused e => cases h
  | same eq => exact ⟨eq.symm, rfl⟩
  | extended => exact ⟨rfl, rfl⟩
  | replayed running still idle rollbackTo =>
    have hm := movie_withInputs inputs rollbackTo d
    have hc : (d.withInputs inputs rollbackTo).movie.currentSample = d.movie.currentSample := by
      rw [hm]
      rfl
    exact ⟨congrArg (·.inputs) hm, hc⟩

/-- A warp keeps the cursor inside the movie if and only if its samples reach it. -/
theorem currentSample_beginWarp_le_iff {inputs : Array Sample}
    (h : (d.beginWarp inputs).1 = .ok ()) :
    (d.beginWarp inputs).2.movie.currentSample ≤ (d.beginWarp inputs).2.movie.length ↔
      d.movie.currentSample ≤ inputs.size := by
  obtain ⟨hi, hc⟩ := beginWarp_eq_ok_movie h
  rw [Movie.Log.length, hi, hc]

end

/-! ## Runs -/

/-- Every warp that begins has samples up to the cursor. -/
def WarpsReach (d : Deck M H D) : Happening M H D → Prop
  | .call (.beginWarp inputs) =>
    (d.beginWarp inputs).1 = .ok () → d.movie.currentSample ≤ inputs.size
  | _ => True

omit [Core M] [Storage D] in
theorem inside_beginWarp (h : d.movie.Inside) {inputs : Array Sample}
    (hreach : (d.beginWarp inputs).1 = .ok () → d.movie.currentSample ≤ inputs.size) :
    (d.beginWarp inputs).2.movie.Inside := by
  cases hresult : (d.beginWarp inputs).1 with
  | ok => exact fun _ => (currentSample_beginWarp_le_iff hresult).2 (hreach hresult)
  | error e =>
    have hwarps := beginWarp_warps inputs d
    generalize d.beginWarp inputs = result at hwarps hresult ⊢
    cases hwarps with
    | refused e => exact h
    | _ => cases hresult

theorem inside_undergo (h : d.movie.Inside) {happening : Happening M H D}
    (hrule : d.WarpsReach happening) : (d.undergo happening).movie.Inside := by
  cases happening with
  | outside machine frontend disk => exact h
  | call c =>
    have haside (hc : c.isAside = true) : (d.call c).movie.Inside := by
      rw [(call_aside Frontend.follows_unheard hc d).movie]
      exact h
    cases c with
    | setLaunched launched => exact (setLaunched_unmoved launched d).1 ▸ h
    | drain => exact inside_passes h (passes_drain d)
    | startRecording now path flags author description =>
      exact inside_begins h (startRecording_begins now path flags author description d)
    | startPlayback path =>
      obtain hm | ⟨movie, -, hbegins⟩ := startPlayback_begins path d
      · exact hm ▸ h
      · exact inside_begins h hbegins
    | stopMovie => exact inside_of_inactive (movie_stopMovie d)
    | setAuthor path author description =>
      change (d.setAuthor path author description).2.movie.Inside
      obtain ⟨disk, hd | hd⟩ := setAuthor_cases path author description d
      · rw [hd]
        exact h
      · rw [hd]
        exact h
    | poll index live => exact inside_poll h index live
    | vi => exact h.vi
    | beginSeek text pauseAtEnd => exact (beginSeek_unmoved text pauseAtEnd d).1 ▸ h
    | stopSeek => exact (alike_stopSeek d).movie ▸ h
    | beginWarp inputs => exact inside_beginWarp h hrule
    | _ => exact haside rfl

/-- **The cursor stays inside the movie as long as every warp reaches it**, after every call and
wherever a drain passes. So the position that is embedded in a state belongs to the movie and is
well formed, where the movie's length fits in it, and a live sample is recorded at the cursor. A
warp whose samples do not reach the cursor puts it outside, until a load that changes the movie
brings it back. -/
theorem currentSample_le_length
    (hd : d.movie.task ≠ .idle → d.movie.currentSample ≤ d.movie.length)
    {hs : List (Happening M H D)} (hreach : Along WarpsReach hs d) {rest : List Request}
    (he : (d.after hs).Passes rest e) :
    (e.movie.task ≠ .idle → e.movie.currentSample ≤ e.movie.length) ∧
    (∀ freeze, e.snapshot.movie = some freeze → e.movie.length < UInt32.size →
      freeze.check e.movie.header.uid = .ok ()) ∧
    (∀ index live, (e.poll index live).1.1 = .recorded →
      (e.poll index live).2.movie.inputs = e.movie.inputs.push live ∧
      (e.poll index live).2.movie.inputs[e.movie.currentSample]? = some live) ∧
    ∀ inputs, (e.beginWarp inputs).1 = .ok () →
      let warped := (e.beginWarp inputs).2
      (warped.movie.currentSample ≤ warped.movie.length ↔ e.movie.currentSample ≤ inputs.size) ∧
      ∀ r, (warped.execute r).2.movie ≠ warped.movie →
        (warped.execute r).2.movie.currentSample ≤ (warped.execute r).2.movie.length := by
  have hafter : (d.after hs).movie.Inside :=
    after_keeps (fun d => d.movie.Inside) (fun _ _ h => inside_undergo h)
      (fun ha => hd (isActive_iff.1 ha)) hreach
  have hinside : e.movie.Inside := inside_passes hafter he
  refine ⟨fun ht => hinside (isActive_iff.2 ht), fun freeze hf hlength =>
    hinside.check_freeze hlength hf, fun index live hr => ?_,
    fun inputs hok => ⟨currentSample_beginWarp_le_iff hok, fun r => currentSample_execute_le⟩⟩
  have hpolls := poll_polls index live e
  generalize e.poll index live = result at hpolls hr ⊢
  cases hpolls with
  | passed => cases hr
  | ended => cases hr
  | handed polled =>
    obtain rfl := hr
    obtain ⟨hi, hc⟩ := hinside.getElem?_recorded polled
    simp only [(movie_handed _ e).1]
    exact ⟨hi, by simp [hi, hc]⟩

/-- Two samples are recorded, and a warp puts a third one behind them. -/
def appended {D : Type} : List (Happening Machine.Accumulator Journal D) :=
  [.call (.setLaunched true), .call (.startRecording 7 ⟨"run.m64"⟩ 0 "" ""),
    .call (.poll 0 ⟨1, 0, 0⟩), .call (.poll 0 ⟨2, 0, 0⟩),
    .call (.beginWarp #[⟨1, 0, 0⟩, ⟨2, 0, 0⟩, ⟨3, 0, 0⟩])]

theorem currentSample_le_length_appended :
    let d := (new {} running.machine {} ({} : Storage.Sink)).after appended
    Along WarpsReach appended (new {} running.machine {} ({} : Storage.Sink)) ∧
      d.movie.task = .recording ∧ d.movie.length = 3 ∧ d.movie.currentSample ≤ d.movie.length := by
  have hreach : Along WarpsReach appended (new {} running.machine {} ({} : Storage.Sink)) :=
    ⟨trivial, trivial, trivial, trivial, fun _ => by decide, trivial⟩
  have ht : ((new {} running.machine {} ({} : Storage.Sink)).after appended).movie.task =
      .recording := rfl
  have h := currentSample_le_length (fun ht => absurd rfl ht) hreach .start
  exact ⟨hreach, ht, rfl, h.1 (by rw [ht]; nofun)⟩

end Deck

end Rewind
