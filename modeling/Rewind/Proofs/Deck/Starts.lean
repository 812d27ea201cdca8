import Rewind.Proofs.Deck.FailedLoads
import Rewind.Proofs.Movie.RecordingLayout

/-!
Starts of movies. Where no movie is active, what is to be played back is read and asked about, the
movie is taken up, and what is to be recorded is written to its file at once. Main statements: the
deck with a movie taken up (`takeUpMovie_of_idle`), and from it what a start of a recording and of
playback comes to (`startRecording_of_idle`, `startPlayback_plays`).
-/

namespace Rewind

open Savestate

namespace Movie.Log

/-- The log of a movie that begins. -/
def begin (path : Storage.Pathname) (movie : Recording) (task : Task) : Log :=
  ⟨task, some path, movie.header, movie.inputs, 0, 0⟩

theorem start_of_idle {log : Log} (h : log.isActive = false) (path : Storage.Pathname)
    (movie : Recording) (task : Task) :
    log.start path movie task = .ok (.begin path movie task) := by
  rw [start, h]
  rfl

end Movie.Log

/-- The request that a movie's start waits for. -/
def Savestate.Request.forStart (r : Request) : Request :=
  { r with ignoreWarnings := true, tag := some .movieStart }

namespace Deck

variable {M H D : Type}

theorem movie_enqueue (r : Request) (d : Deck M H D) : (d.enqueue r).2.movie = d.movie := by
  obtain ht | ht := tape_enqueue r d <;> exact congrArg Tape.movie ht

theorem disk_enqueue (r : Request) (d : Deck M H D) : (d.enqueue r).2.disk = d.disk := by
  unfold enqueue
  split <;> rfl

/-! ## Movie files -/

/-- What is written of a movie when it is saved. -/
def movieFile (d : Deck M H D) : ByteArray :=
  (Movie.Recording.counted ⟨d.movie.header, d.movie.inputs⟩).toBytes

theorem saveMovie_of_path [Storage D] {d : Deck M H D} {path : Storage.Pathname}
    (hp : d.movie.path = some path) :
    d.saveMovie = ((Storage.write path d.movieFile d.disk).1.mapError .io,
      { d with movie := d.movie.counted, disk := (Storage.write path d.movieFile d.disk).2 }) := by
  have hsave : d.movie.save d.disk = ((Storage.write path d.movieFile d.disk).1.mapError .io,
      d.movie.counted, (Storage.write path d.movieFile d.disk).2) := by
    rw [Movie.Log.save, hp]
    rfl
  rw [saveMovie, hsave]

theorem saveMovie_eq_ok [Storage D] {d d' : Deck M H D} (h : d.saveMovie = (.ok (), d')) :
    d'.tape = d.tape.withMovie d.movie.counted ∧ ∃ path, d.movie.path = some path ∧
      Storage.write path d.movieFile d.disk = (.ok (), d'.disk) := by
  cases hp : d.movie.path with
  | none =>
    rw [saveMovie, Movie.Log.save, hp] at h
    cases h
  | some path =>
    rw [saveMovie_of_path hp] at h
    obtain ⟨hw, rfl⟩ := Prod.mk.inj h
    exact ⟨rfl, path, rfl, Prod.ext (eq_ok_of_mapError hw) rfl⟩

/-- A movie that has a file fails to be saved only over that file. -/
theorem saveMovie_error [Storage D] {d : Deck M H D} {path : Storage.Pathname}
    (hp : d.movie.path = some path) {e : Movie.Error} (h : d.saveMovie.1 = .error e) :
    ∃ fault, e = .io fault := by
  rw [saveMovie_of_path hp] at h
  cases hw : (Storage.write path d.movieFile d.disk).1 with
  | ok => rw [hw] at h; cases h
  | error fault => rw [hw] at h; cases h; exact ⟨fault, rfl⟩

variable [Core M] [Frontend H]

/-! ## Taking up a movie -/

/-- The request that a start makes: for the snapshot that it waits for, or else for a checkpoint. -/
def startRequest (start : Option Request) : Request :=
  match start with
  | none => .capture .checkpoint
  | some request => request.forStart

/-- The machine at the start of a movie, which is reset if the movie waits for no snapshot. -/
def startMachine (start : Option Request) (machine : M) : M :=
  match start with
  | none => Core.reset machine
  | some _ => machine

/-- The deck that has taken up a movie. -/
def withStart (log : Movie.Log) (start : Option Request) (d : Deck M H D) : Deck M H D :=
  (({ d with
    checkpoints := d.checkpoints.clear
    warp := {}
    movie := log
    machine := startMachine start d.machine }).enqueue (startRequest start)).2.notify
    (.taskChanged log.task)

theorem tape_withStart (log : Movie.Log) (start : Option Request) (d : Deck M H D) :
    (d.withStart log start).tape =
      { d.tape with
        queue := (d.enqueue (startRequest start)).2.queue
        movie := log
        checkpoints := d.checkpoints.clear
        machine := startMachine start d.machine } := by
  let begun : Deck M H D := { d with
    checkpoints := d.checkpoints.clear, warp := {}, movie := log,
    machine := startMachine start d.machine }
  change (begun.enqueue (startRequest start)).2.tape = _
  cases hl : d.queue.launched with
  | false => rw [enqueue_of_not_launched (d := begun) hl, enqueue_of_not_launched hl]; rfl
  | true => rw [enqueue_of_launched (d := begun) hl, enqueue_of_launched hl]; rfl

theorem movie_withStart (log : Movie.Log) (start : Option Request) (d : Deck M H D) :
    (d.withStart log start).movie = log := congrArg Tape.movie (tape_withStart log start d)

theorem disk_withStart (log : Movie.Log) (start : Option Request) (d : Deck M H D) :
    (d.withStart log start).disk = d.disk := disk_enqueue _ _

/-- Where no movie is active, one is taken up unless it would have to wait for a machine that does
not run. -/
theorem takeUpMovie_of_idle {d : Deck M H D} (hidle : d.movie.isActive = false)
    (path : Storage.Pathname) (movie : Movie.Recording) (task : Movie.Task)
    (start : Option Request) :
    d.takeUpMovie path movie task start =
      if start.isSome && !d.queue.launched then (.error (.state .coreNotLaunched), d)
      else (.ok (), d.withStart (.begin path movie task) start) := by
  have hs := Movie.Log.start_of_idle hidle path movie task
  unfold takeUpMovie
  split
  · rfl
  · next hwaits =>
    simp only [hs]
    cases start with
    | none => rfl
    | some request =>
      have hl : d.queue.launched = true := by simpa using hwaits
      have hq := enqueue_of_launched (d := { d with
        checkpoints := d.checkpoints.clear, warp := {}, movie := .begin path movie task })
        hl request.forStart
      simp only [Request.forStart] at hq
      simp only [withStart, startRequest, startMachine, Request.forStart, hq]
      rfl

/-- What is taken up takes the place of no other movie. -/
theorem takeUpMovie_eq_ok {d d' : Deck M H D} {path : Storage.Pathname} {movie : Movie.Recording}
    {task : Movie.Task} {start : Option Request}
    (h : d.takeUpMovie path movie task start = (.ok (), d')) :
    d.movie.isActive = false ∧ d' = d.withStart (.begin path movie task) start := by
  cases hidle : d.movie.isActive with
  | true =>
    unfold takeUpMovie Movie.Log.start at h
    simp only [hidle, ↓reduceIte] at h
    split at h <;> cases h
  | false =>
    rw [takeUpMovie_of_idle hidle] at h
    split at h
    · cases h
    · cases h
      exact ⟨rfl, rfl⟩

/-- A movie that cannot be taken up leaves the deck as it was. -/
theorem takeUpMovie_error {d : Deck M H D} (hidle : d.movie.isActive = false)
    {path : Storage.Pathname} {movie : Movie.Recording} {task : Movie.Task}
    {start : Option Request} {e : Movie.Error}
    (h : (d.takeUpMovie path movie task start).1 = .error e) :
    (d.takeUpMovie path movie task start).2 = d := by
  rw [takeUpMovie_of_idle hidle] at h ⊢
  split at h
  · next hwaits => rw [if_pos hwaits]
  · cases h

variable [Storage D]

/-! ## Recording -/

theorem startRecording_of_isActive {d : Deck M H D} (h : d.movie.isActive = true) (now : UInt32)
    (path : Storage.Pathname) (flags : UInt16) (author description : String) :
    d.startRecording now path flags author description = (.error .alreadyActive, d) := if_pos h

/-- What a start of a recording may do: it is refused, or its movie is taken up. Then it is dropped
again where its file cannot be written. -/
inductive Records (path : Storage.Pathname) (movie : Movie.Recording)
    (start : Movie.Task × Option Request) (d : Deck M H D) :
    Except Movie.Error Unit × Deck M H D → Prop
  | refused (e : Movie.Error) (before : ∀ fault, e ≠ .io fault) :
      Records path movie start d (.error e, d)
  | dropped {d' : Deck M H D} (fault : Storage.Fault)
      (taken : d.takeUpMovie path movie start.1 start.2 = (.ok (), d')) :
      Records path movie start d (.error (.io fault), d'.saveMovie.2.dropMovie)
  | recorded {d' : Deck M H D}
      (taken : d.takeUpMovie path movie start.1 start.2 = (.ok (), d'))
      (written : d'.saveMovie = (.ok (), d'.saveMovie.2)) :
      Records path movie start d (.ok (), d'.saveMovie.2)

theorem startRecording_records (now : UInt32) (path : Storage.Pathname) (flags : UInt16)
    (author description : String) (d : Deck M H D) :
    Records path ⟨newHeader d.machine now flags author description, #[]⟩
      (recordingStart flags (path.withExtension "st")) d
      (d.startRecording now path flags author description) := by
  cases hidle : d.movie.isActive with
  | true =>
    rw [startRecording_of_isActive hidle]
    exact .refused _ nofun
  | false =>
    unfold startRecording
    simp only [hidle, Bool.false_eq_true, ↓reduceIte]
    generalize recordingStart flags (path.withExtension "st") = start
    generalize hmovie : (⟨newHeader d.machine now flags author description, #[]⟩ :
      Movie.Recording) = movie
    have htaken := takeUpMovie_of_idle hidle path movie start.1 start.2
    by_cases hwaits : (start.2.isSome && !d.queue.launched) = true
    · rw [if_pos hwaits] at htaken
      simp only [htaken]
      exact .refused _ nofun
    · rw [if_neg hwaits] at htaken
      simp only [htaken]
      generalize hd : d.withStart (.begin path movie start.1) start.2 = d' at htaken ⊢
      have hpath : d'.movie.path = some path := by
        rw [← hd, movie_withStart]
        rfl
      have hfault {e : Movie.Error} := saveMovie_error (e := e) hpath
      cases hresult : d'.saveMovie.1 with
      | error e =>
        obtain ⟨fault, rfl⟩ := hfault hresult
        rw [show d'.saveMovie = (.error (.io fault), d'.saveMovie.2) from Prod.ext hresult rfl]
        exact .dropped fault htaken
      | ok =>
        have hsaved : d'.saveMovie = (.ok (), d'.saveMovie.2) := Prod.ext hresult rfl
        rw [hsaved]
        exact .recorded htaken hsaved

omit [Frontend H] [Storage D] in
/-- A recording that begins has no sample to count yet. -/
theorem counted_begin (path : Storage.Pathname) (machine : M) (now : UInt32) (flags : UInt16)
    (author description : String) (task : Movie.Task) :
    (Movie.Log.begin path ⟨newHeader machine now flags author description, #[]⟩ task).counted =
      .begin path ⟨newHeader machine now flags author description, #[]⟩ task := rfl

/-! ## Playback -/

theorem startPlayback_of_isActive {d : Deck M H D} (h : d.movie.isActive = true)
    (path : Storage.Pathname) : d.startPlayback path = (.error .alreadyActive, d) := if_pos h

/-- Between two decks, the user was asked about the movie of another cartridge at most. -/
def AskedAbout (movie : Movie.Recording) (d d' : Deck M H D) : Prop :=
  d' = d ∨ isRecordedOn movie.header (Core.rom d.machine) = false ∧
    d' = d.questioned [foreignMovieMessage movie.header (Core.rom d.machine)]

omit [Storage D] in
theorem AskedAbout.tape {movie : Movie.Recording} {d d' : Deck M H D}
    (h : AskedAbout movie d d') : d'.tape = d.tape := by
  obtain rfl | ⟨-, rfl⟩ := h <;> rfl

omit [Storage D] in
theorem AskedAbout.movie {movie : Movie.Recording} {d d' : Deck M H D}
    (h : AskedAbout movie d d') : d'.movie = d.movie := congrArg Tape.movie h.tape

omit [Storage D] in
theorem AskedAbout.disk {movie : Movie.Recording} {d d' : Deck M H D}
    (h : AskedAbout movie d d') : d'.disk = d.disk := by
  obtain rfl | ⟨-, rfl⟩ := h <;> rfl

/-- What a start of playback may do: it is refused before the user is asked, or afterwards, or the
movie is taken up. -/
inductive Plays (path : Storage.Pathname) (d : Deck M H D) :
    Except Movie.Error Unit × Deck M H D → Prop
  | refused (e : Movie.Error) : Plays path d (.error e, d)
  | declined {movie : Movie.Recording} {d' : Deck M H D} (e : Movie.Error)
      (read : (Movie.readRecording (m := StateM D) path d.disk).1 = .ok movie)
      (asked : AskedAbout movie d d') : Plays path d (.error e, d')
  | played {movie : Movie.Recording} {d' d'' : Deck M H D}
      (read : (Movie.readRecording (m := StateM D) path d.disk).1 = .ok movie)
      (asked : AskedAbout movie d d')
      (taken : d'.takeUpMovie path movie
        (playbackStart movie.header (path.withExtension "st")).1
        (playbackStart movie.header (path.withExtension "st")).2 = (.ok (), d'')) :
      Plays path d (.ok (), d'')

theorem AskedAbout.plays {path : Storage.Pathname} {movie : Movie.Recording} {d d' : Deck M H D}
    (h : AskedAbout movie d d') (hidle : d.movie.isActive = false)
    (hread : (Movie.readRecording (m := StateM D) path d.disk).1 = .ok movie) :
    Plays path d (d'.takeUpMovie path movie
      (playbackStart movie.header (path.withExtension "st")).1
      (playbackStart movie.header (path.withExtension "st")).2) := by
  generalize htaken : d'.takeUpMovie path movie
    (playbackStart movie.header (path.withExtension "st")).1
    (playbackStart movie.header (path.withExtension "st")).2 = result
  obtain ⟨result, d''⟩ := result
  cases result with
  | error e =>
    have hd : d'' = d' := by
      have herror := takeUpMovie_error (h.movie.symm ▸ hidle) (congrArg Prod.fst htaken)
      rw [htaken] at herror
      exact herror
    rw [hd]
    exact .declined e hread h
  | ok => exact .played hread h htaken

theorem startPlayback_plays (path : Storage.Pathname) (d : Deck M H D) :
    Plays path d (d.startPlayback path) := by
  cases hidle : d.movie.isActive with
  | true =>
    rw [startPlayback_of_isActive hidle]
    exact .refused _
  | false =>
    have hread : Movie.readRecording (m := StateM D) path d.disk =
        ((Movie.readRecording (m := StateM D) path d.disk).1, d.disk) :=
      Prod.ext rfl (Movie.readRecording_unmoved path d.disk)
    unfold startPlayback
    simp only [hidle, Bool.false_eq_true, ↓reduceIte]
    rw [hread]
    cases hmovie : (Movie.readRecording (m := StateM D) path d.disk).1 with
    | error e => exact .refused e
    | ok movie =>
      cases hknown : isRecordedOn movie.header (Core.rom d.machine) with
      | true =>
        simp only [hknown, ↓reduceIte]
        exact AskedAbout.plays (.inl rfl) hidle hmovie
      | false =>
        simp only [hknown, Bool.false_eq_true, ↓reduceIte]
        have hasked : AskedAbout movie d
            (d.confirm (foreignMovieMessage movie.header (Core.rom d.machine))).2 :=
          (confirm_eq _ d).imp_right fun hd => ⟨hknown, hd⟩
        generalize d.confirm (foreignMovieMessage movie.header (Core.rom d.machine)) = asked
          at hasked ⊢
        obtain ⟨go, d'⟩ := asked
        cases go with
        | false => exact .declined _ hmovie hasked
        | true => exact hasked.plays hidle hmovie

/-- What is played back is read, and no file is changed. -/
theorem disk_startPlayback (path : Storage.Pathname) (d : Deck M H D) :
    (d.startPlayback path).2.disk = d.disk := by
  have hplays := startPlayback_plays path d
  generalize d.startPlayback path = result at hplays ⊢
  cases hplays with
  | refused e => rfl
  | declined e read asked => exact asked.disk
  | played read asked taken =>
    obtain ⟨-, rfl⟩ := takeUpMovie_eq_ok taken
    exact (disk_withStart _ _ _).trans asked.disk

end Deck

end Rewind
