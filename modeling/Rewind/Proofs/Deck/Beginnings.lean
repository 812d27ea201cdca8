import Rewind.Proofs.Deck.Captures
import Rewind.Proofs.Deck.PendingLoads
import Rewind.Proofs.Deck.Starts
import Rewind.Proofs.Savestate.StateFiles
import Rewind.Proofs.Storage.Writes

/-!
Beginnings of movies. A movie is taken up with a request pending, either for the checkpoint of a
reset machine or for the snapshot that it begins from (`Tape.begin`). Main statements: where the
snapshot is saved, or loaded, the movie runs from it (`drain_savedStart`, `drain_loadedStart`), and
what is recorded is in the movie's file when the movie is stopped (`stopMovie_eq_ok`).
-/

namespace Rewind

open Savestate

/-- The tape with a movie taken up. -/
def Tape.begin {M : Type} [Core M] (log : Movie.Log) (start : Option Request) (t : Tape M) :
    Tape M :=
  match start with
  | none => (t.takeUp log (Core.reset t.machine)).ask (.capture .checkpoint)
  | some request => (t.takeUp log t.machine).ask request.forStart

theorem Tape.movie_begin {M : Type} [Core M] (log : Movie.Log) (start : Option Request)
    (t : Tape M) : (t.begin log start).movie = log := by
  cases start with
  | none => rfl
  | some request => rfl

namespace Deck

variable {M H D : Type}

/-- The machine runs, no movie is active, and nothing is pending. -/
structure Ready (d : Deck M H D) : Prop where
  launched : d.queue.launched = true
  idle : d.movie.isActive = false
  pending : d.queue.pending = []

/-! ## Stops -/

variable [Frontend H]

theorem stopMovie_of_isRecording [Storage D] {d : Deck M H D}
    (hr : d.movie.task.isRecording = true) :
    d.stopMovie.1 = d.stopSeek.saveMovie.1 ∧ d.stopMovie.2.disk = d.stopSeek.saveMovie.2.disk := by
  have hr' : d.stopSeek.movie.task.isRecording = true := (alike_stopSeek d).movie.symm ▸ hr
  have hne : d.stopSeek.movie.task ≠ .idle := by
    intro he
    rw [he] at hr'
    cases hr'
  have hstop : d.stopMovie =
      (d.stopSeek.saveMovie.1, d.stopSeek.saveMovie.2.dropMovie.notify .seekSavestatesChanged) := by
    unfold stopMovie
    simp only [hr', hne, ↓reduceIte]
  rw [hstop]
  exact ⟨rfl, rfl⟩

/-- What was recorded is written to the movie's file when the movie is stopped. -/
theorem stopMovie_eq_ok [Storage D] {d d' : Deck M H D} (hr : d.movie.task.isRecording = true)
    (h : d.stopMovie = (.ok (), d')) : ∃ path, d.movie.path = some path ∧
      Storage.write path d.movieFile d.disk = (.ok (), d'.disk) := by
  have hstopped := alike_stopSeek d
  obtain ⟨hresult, hdisk⟩ := stopMovie_of_isRecording hr
  rw [h] at hresult hdisk
  have hsaved : d.stopSeek.saveMovie = (.ok (), d.stopSeek.saveMovie.2) :=
    Prod.ext hresult.symm rfl
  obtain ⟨-, path, hpath, hwrite⟩ := saveMovie_eq_ok hsaved
  rw [hstopped.movie] at hpath
  rw [movieFile, hstopped.movie, hstopped.disk, ← hdisk] at hwrite
  exact ⟨path, hpath, hwrite⟩

variable [Core M]

/-! ## Taking up a movie -/

theorem Ready.tape_withStart {d : Deck M H D} (h : d.Ready) (log : Movie.Log)
    (start : Option Request) : (d.withStart log start).tape = d.tape.begin log start := by
  rw [Deck.tape_withStart, enqueue_of_launched h.launched]
  cases start with
  | none => rfl
  | some request => rfl

/-- Where a movie can be taken up, it is. -/
theorem takeUpMovie_eq {d : Deck M H D} (h : d.Ready) (path : Storage.Pathname)
    (movie : Movie.Recording) (task : Movie.Task) (start : Option Request) :
    ∃ d', d.takeUpMovie path movie task start = (.ok (), d') ∧
      d'.tape = d.tape.begin (.begin path movie task) start ∧ d'.disk = d.disk := by
  refine ⟨d.withStart (.begin path movie task) start, ?_, h.tape_withStart _ start,
    disk_withStart _ start d⟩
  rw [takeUpMovie_of_idle h.idle, if_neg (by simp [h.launched])]

variable [Storage D]

theorem startRecording_eq {d d' : Deck M H D} (hd : d.Ready) {now : UInt32}
    {path : Storage.Pathname} {flags : UInt16} {author description : String}
    (h : d.startRecording now path flags author description = (.ok (), d')) :
    let start := recordingStart flags (path.withExtension "st")
    d'.tape = d.tape.begin (.begin path
      ⟨newHeader d.machine now flags author description, #[]⟩ start.1) start.2 := by
  intro start
  have hrecords := startRecording_records now path flags author description d
  rw [h] at hrecords
  generalize hr : (Except.ok (), d') = result at hrecords
  cases hrecords with
  | refused => cases hr
  | dropped => cases hr
  | recorded htaken hsaved =>
    cases hr
    obtain ⟨-, rfl⟩ := takeUpMovie_eq_ok htaken
    rw [(saveMovie_eq_ok hsaved).1, hd.tape_withStart, movie_withStart, counted_begin]
    simp only [start]
    cases (recordingStart flags (path.withExtension "st")).2 with
    | none => rfl
    | some request => rfl

theorem startPlayback_eq {d : Deck M H D} (hd : d.Ready) {path : Storage.Pathname}
    {data : ByteArray} {movie : Movie.Recording} (hread : Storage.read path d.disk = .ok data)
    (hmovie : Movie.Recording.ofBytes data = .ok movie)
    (hrom : isRecordedOn movie.header (Core.rom d.machine) = true) :
    let start := playbackStart movie.header (path.withExtension "st")
    ∃ d', d.startPlayback path = (.ok (), d') ∧
      d'.tape = d.tape.begin (.begin path movie start.1) start.2 ∧ d'.disk = d.disk := by
  intro start
  have hr : Movie.readRecording (m := StateM D) path d.disk = (.ok movie, d.disk) := by
    rw [Movie.readRecording_eq, hread]
    exact congrArg (·, d.disk) hmovie
  unfold startPlayback
  rw [if_neg (by rw [hd.idle]; exact Bool.false_ne_true), hr]
  simp only [hrom, ↓reduceIte]
  exact takeUpMovie_eq hd path movie start.1 start.2

/-! ## Starts from a snapshot -/

omit [Core M] [Storage D] in
/-- A start that is done leaves the movie running, with a checkpoint to be made. -/
theorem settleStart_true {d : Deck M H D} (hl : d.queue.launched = true) {next : Movie.Task}
    (ht : taskAfterStart? d.movie.task = some next) :
    (d.settleStart true).tape =
        (d.tape.withMovie { d.movie with task := next }).ask (.capture .checkpoint) ∧
      (d.settleStart true).disk = d.disk := by
  let started : Deck M H D := { d with movie.task := next }.notify (.taskChanged next)
  have hs : d.settleStart true = started.queueCheckpoint := by
    unfold settleStart
    rw [ht]
    rfl
  rw [hs, queueCheckpoint, enqueue_of_launched (d := started) hl]
  exact ⟨rfl, rfl⟩

theorem isActive_drain_settleStart_false {d : Deck M H D} (hp : d.queue.pending = [])
    {next : Movie.Task} (ht : taskAfterStart? d.movie.task = some next) :
    (d.settleStart false).drain.2.movie.isActive = false := by
  have hs : d.settleStart false = d.dropMovie := by
    unfold settleStart
    rw [ht]
    rfl
  rw [hs, drain_of_pending_eq_nil (d := d.dropMovie) hp]
  rfl

theorem isActive_drain_settleStart_true {d : Deck M H D} (hl : d.queue.launched = true)
    (hp : d.queue.pending = []) {next : Movie.Task}
    (ht : taskAfterStart? d.movie.task = some next) :
    (d.settleStart true).drain.2.movie.isActive = true := by
  obtain ⟨hstarted, -⟩ := settleStart_true hl ht
  have hcaptures : (d.settleStart true).tape.OnlyCaptures := by
    rw [hstarted]
    intro r hr
    have hr : r ∈ [Request.capture .checkpoint] := hp ▸ hr
    exact List.mem_singleton.1 hr
  obtain ⟨checkpoints, hdrained⟩ := (captured_drain hcaptures).tape
  have hmovie : (d.settleStart true).drain.2.movie = { d.movie with task := next } :=
    (congrArg Tape.movie hdrained).trans (congrArg Tape.movie hstarted)
  rw [hmovie]
  unfold taskAfterStart? at ht
  split at ht <;> cases ht <;> rfl

theorem drain_of_pending_ne_nil {d : Deck M H D} (h : d.queue.pending ≠ []) :
    d.drain.2 = d.runBatch.2.drain.2 := by
  rw [drain, if_neg h]

omit [Core M] [Frontend H] in
theorem writeState_eq_ok {path : Storage.Pathname} {state : ByteArray} {d d' : Deck M H D}
    (h : d.writeState path state = (.ok (), d')) :
    ∃ disk, Storage.write path (d.config.pack state) disk = (.ok (), d'.disk) := by
  unfold writeState at h
  simp only at h
  split at h
  · cases h
  · obtain ⟨hw, rfl⟩ := Prod.mk.inj h
    exact ⟨_, Prod.ext (eq_ok_of_mapError hw) rfl⟩

omit [Core M] [Frontend H] [Storage D] in
/-- A state is written by depositing it. -/
theorem writeState_eq (path : Storage.Pathname) (state : ByteArray) (d : Deck M H Storage.Tree) :
    d.writeState path state =
      ((d.disk.deposit path (d.config.pack state)).1.mapError .fileWrite,
        { d with disk := (d.disk.deposit path (d.config.pack state)).2 }) := by
  unfold writeState Storage.Tree.deposit Storage.Tree.folder?
  cases path.parent? with
  | none => rfl
  | some directory =>
    cases he : directory.text.isEmpty with
    | true =>
      simp only [he, Option.filter_some, Bool.not_true, Bool.false_eq_true, ↓reduceIte]
      rfl
    | false =>
      have hc : Storage.createDirectories directory d.disk = d.disk.createDirectories directory :=
        rfl
      simp only [he, hc, Option.filter_some, Option.elim_some, Bool.not_false, Bool.false_eq_true,
        ↓reduceIte]
      generalize d.disk.createDirectories directory = made
      obtain ⟨result, disk⟩ := made
      cases result with
      | error fault => rfl
      | ok => rfl

/-- A save to a file that succeeds writes the machine as it was. -/
theorem saveState_path_eq_ok {path : Storage.Pathname} {d : Deck M H D} {state : ByteArray}
    (h : (d.saveState (.path path)).1 = .ok state) :
    ∃ encoded, encode d.snapshot = .ok encoded ∧ encoded.bytes = state ∧
      (d.saveState (.path path)).2.tape = d.tape.withMachine (encoded.resume d.machine) ∧
      ∃ disk, Storage.write path (d.config.pack state) disk =
        (.ok (), (d.saveState (.path path)).2.disk) := by
  obtain ⟨encoded, he, rfl⟩ := saveState_eq_ok h
  rw [saveState_of_encode he] at h ⊢
  refine ⟨encoded, he, rfl, tape_store _ _ _, ?_⟩
  have hpath : { d with machine := encoded.resume d.machine }.statePath? (.path path) =
      some path := rfl
  unfold store at h ⊢
  simp only [hpath] at h ⊢
  cases hw : { d with machine := encoded.resume d.machine }.writeState path encoded.bytes with
  | mk result left =>
    rw [hw] at h
    cases result with
    | error e => cases h
    | ok =>
      obtain ⟨disk, hdisk⟩ := writeState_eq_ok hw
      exact ⟨disk, hdisk⟩

/-- A machine that can be saved is saved to a file that can be written, beside those there are. -/
theorem saveState_path_of_write {path : Storage.Pathname} {d : Deck M H D} {encoded : Encoded}
    {disk : D} (he : encode d.snapshot = .ok encoded) (hparent : path.parent? = some ⟨""⟩)
    (hw : Storage.write path (d.config.pack encoded.bytes) d.disk = (.ok (), disk)) :
    (d.saveState (.path path)).1 = .ok encoded.bytes ∧
      (d.saveState (.path path)).2.disk = disk := by
  have hpath : { d with machine := encoded.resume d.machine }.statePath? (.path path) =
      some path := rfl
  have hempty : "".isEmpty = true := rfl
  have hwrite : { d with machine := encoded.resume d.machine }.writeState path encoded.bytes =
      (.ok (), { d with machine := encoded.resume d.machine, disk }) := by
    rw [Config.pack] at hw
    unfold writeState
    simp only [hparent, hempty, ↓reduceIte, hw]
    rfl
  rw [saveState_of_encode he]
  simp only [store, hpath, hwrite]
  exact ⟨trivial, rfl⟩

/-- The save that a movie's start waits for decides what becomes of the movie. -/
theorem runBatch_saveStart {d : Deck M H D} {path : Storage.Pathname}
    (hp : d.queue.pending = [Request.forStart { job := .save, medium := .path path }]) :
    let saved := { d with queue := d.queue.clear }.saveState (.path path)
    d.runBatch.2 = saved.2.settleStart saved.1.isOk := by
  intro saved
  rw [runBatch, hp, prepare_of_not_hasLoad rfl, simplify_singleton, simplify_singleton]
  change ({ d with queue := d.queue.clear }.perform
    (Request.forStart { job := .save, medium := .path path })).2 = _
  rw [perform_save_eq rfl]
  rfl

/-- A movie is still there after its start exactly if its snapshot was saved. -/
theorem isActive_drain_saveStart {d : Deck M H D} (hl : d.queue.launched = true)
    {path : Storage.Pathname}
    (hp : d.queue.pending = [Request.forStart { job := .save, medium := .path path }])
    {next : Movie.Task} (ht : taskAfterStart? d.movie.task = some next) :
    d.drain.2.movie.isActive =
      ({ d with queue := d.queue.clear }.saveState (.path path)).1.isOk := by
  obtain ⟨machine, htape⟩ := tape_saveState (.path path) { d with queue := d.queue.clear }
  rw [drain_of_pending_ne_nil (by rw [hp]; nofun), runBatch_saveStart hp]
  generalize Deck.saveState (.path path) { d with queue := d.queue.clear } = saved at htape ⊢
  have hmovie : saved.2.movie = d.movie := congrArg Tape.movie htape
  have hp' : saved.2.queue.pending = [] := congrArg (·.queue.pending) htape
  have hl' : saved.2.queue.launched = true := (congrArg (·.queue.launched) htape).trans hl
  cases saved.1.isOk with
  | false => exact isActive_drain_settleStart_false hp' (hmovie ▸ ht)
  | true => exact isActive_drain_settleStart_true hl' hp' (hmovie ▸ ht)

/-- **A movie whose snapshot was saved runs from it**, on the machine as it was saved. -/
theorem drain_savedStart {d : Deck M H D} (hl : d.queue.launched = true) {path : Storage.Pathname}
    (hp : d.queue.pending = [Request.forStart { job := .save, medium := .path path }])
    {next : Movie.Task} (ht : taskAfterStart? d.movie.task = some next)
    (ha : d.drain.2.movie.isActive = true) :
    d.drain.2 = d.runBatch.2.drain.2 ∧ ∃ encoded, encode d.snapshot = .ok encoded ∧
      d.runBatch.2.tape = ((d.tape.settled.withMachine (encoded.resume d.machine)).withMovie
        { d.movie with task := next }).ask (.capture .checkpoint) ∧
      ∃ disk, Storage.write path (d.config.pack encoded.bytes) disk =
        (.ok (), d.runBatch.2.disk) := by
  let cleared : Deck M H D := { d with queue := d.queue.clear }
  have hrun : d.runBatch.2 = (cleared.saveState (.path path)).2.settleStart
      (cleared.saveState (.path path)).1.isOk := runBatch_saveStart hp
  obtain ⟨machine, htape⟩ := tape_saveState (.path path) cleared
  have hmovie : (cleared.saveState (.path path)).2.movie = d.movie := congrArg Tape.movie htape
  have hl' : (cleared.saveState (.path path)).2.queue.launched = true :=
    (congrArg (·.queue.launched) htape).trans hl
  have hok : (cleared.saveState (.path path)).1.isOk = true :=
    (isActive_drain_saveStart hl hp ht).symm.trans ha
  obtain ⟨state, hsaved⟩ : ∃ state, (cleared.saveState (.path path)).1 = .ok state := by
    cases hs : (cleared.saveState (.path path)).1 with
    | error e => rw [hs] at hok; cases hok
    | ok state => exact ⟨state, rfl⟩
  rw [hok] at hrun
  obtain ⟨encoded, hencode, rfl, hmachine, disk, hwrite⟩ := saveState_path_eq_ok hsaved
  obtain ⟨hstarted, hdisk⟩ := settleStart_true hl' (hmovie ▸ ht)
  refine ⟨drain_of_pending_ne_nil (by rw [hp]; nofun), encoded, hencode, ?_, disk, ?_⟩
  · rw [hmovie, hmachine] at hstarted
    rw [hrun]
    exact hstarted
  · rw [hrun]
    exact hwrite.trans (congrArg (Prod.mk _) hdisk.symm)

omit [Frontend H] in
theorem fetchState_path {path : Storage.Pathname} {d : Deck M H D} {raw state : ByteArray}
    {decoded : Decoded} (hread : Storage.read path d.disk = .ok raw) (hne : raw.isEmpty = false)
    (hexpand : Gzip.decompress raw = .ok state) (hdecode : decode state = .ok decoded) :
    d.fetchState (.path path) = .ok (state, decoded.snapshot.romHash) := by
  have hpath : d.statePath? (.path path) = some path := rfl
  have hf : d.fetch (.path path) = .ok raw := by
    simp only [fetch, hpath, hread]
  have hexpanded : (Gzip.decompress raw).mapError Error.decompression = .ok state := by
    rw [hexpand]
    rfl
  simp only [fetchState, hf, hne, hexpanded, romHash_of_decode hdecode, bind, Except.bind, pure,
    Except.pure, Bool.false_eq_true, ↓reduceIte]

theorem perform_undo (d : Deck M H D) :
    ∃ machine, (d.perform (.capture .undo)).2.tape = d.tape.withMachine machine ∧
      (d.perform (.capture .undo)).2.disk = d.disk := by
  have hd (result : Except Error ByteArray) (d : Deck M H D) :
      (d.deliver ⟨.save, some .undo, "memory", result⟩).2.tape = d.tape ∧
        (d.deliver ⟨.save, some .undo, "memory", result⟩).2.disk = d.disk := by
    cases result <;> exact ⟨rfl, rfl⟩
  have hdisk : (d.saveState (.memory ByteArray.empty)).2.disk = d.disk := by
    cases he : encode d.snapshot with
    | error e => rw [saveState_eq, he]
    | ok encoded =>
      rw [saveState_of_encode he]
      rfl
  obtain ⟨machine, ht⟩ := tape_saveState (.memory ByteArray.empty) d
  obtain ⟨htape, hkept⟩ := hd (d.saveState (.memory ByteArray.empty)).1
    (d.saveState (.memory ByteArray.empty)).2
  exact ⟨machine, htape.trans ht, hkept.trans hdisk⟩

/-- A load that a start waits for is a batch of its own, behind a capture of the machine perhaps. -/
theorem runBatch_loadStart {d : Deck M H D} {path : Storage.Pathname}
    (hp : d.queue.pending = [Request.forStart { job := .load, medium := .path path }]) :
    ∃ (d₁ : Deck M H D) (machine : M), d₁.tape = d.tape.settled.withMachine machine ∧
      d₁.disk = d.disk ∧ d.runBatch.2 =
        (d₁.perform (Request.forStart { job := .load, medium := .path path })).2 := by
  let cleared : Deck M H D := { d with queue := d.queue.clear }
  have hbatch := runBatch_of_load rfl hp
  rw [simplify_nil, simplify_nil] at hbatch
  split at hbatch
  · obtain ⟨machine, htape, hdisk⟩ := perform_undo cleared
    exact ⟨_, machine, htape, hdisk, hbatch⟩
  · exact ⟨cleared, d.machine, rfl, rfl, hbatch⟩

/-- The snapshot that a start waits for is taken over, without a question, and the movie starts. -/
theorem perform_loadStart {d : Deck M H D} {path : Storage.Pathname} {raw state : ByteArray}
    {decoded : Decoded} (hread : Storage.read path d.disk = .ok raw) (hne : raw.isEmpty = false)
    (hexpand : Gzip.decompress raw = .ok state) (hdecode : decode state = .ok decoded) :
    (d.perform (Request.forStart { job := .load, medium := .path path })).2 =
      (d.applyState decoded none).settleEntry.settleStart true := by
  have hload : d.loadState (.path path) true none =
      (.ok state, (d.applyState decoded none).settleEntry) := by
    rw [loadState_of_quiet (.inl rfl), fetchState_path hread hne hexpand hdecode]
    simp only [hdecode, Movie.Log.admitted_none]
  change ((d.loadState (.path path) true none).2.deliver
    ⟨.load, some .movieStart, _, (d.loadState (.path path) true none).1⟩).2 = _
  rw [hload]
  rfl

/-- **A movie whose snapshot was loaded runs from it.** -/
theorem drain_loadedStart {d : Deck M H D} (hl : d.queue.launched = true)
    {path : Storage.Pathname}
    (hp : d.queue.pending = [Request.forStart { job := .load, medium := .path path }])
    {next : Movie.Task} (ht : taskAfterStart? d.movie.task = some next) {raw state : ByteArray}
    {decoded : Decoded} (hread : Storage.read path d.disk = .ok raw) (hne : raw.isEmpty = false)
    (hexpand : Gzip.decompress raw = .ok state) (hdecode : decode state = .ok decoded) :
    d.drain.2 = d.runBatch.2.drain.2 ∧ ∃ machine : M,
      d.runBatch.2.tape = ((d.tape.settled.withMachine (Core.noteEntry
        (Core.programCounter (decoded.resume machine) == legacyEntry)
          (decoded.resume machine))).withMovie { d.movie with task := next }).ask
            (.capture .checkpoint) := by
  obtain ⟨d₁, machine, ht₁, hd₁, hrun⟩ := runBatch_loadStart hp
  rw [perform_loadStart (hd₁ ▸ hread) hne hexpand hdecode] at hrun
  have hm₁ : d₁.machine = machine := congrArg Tape.machine ht₁
  have happlied := tape_applyState_none decoded d₁
  have hmachine : (d₁.applyState decoded none).machine = decoded.resume d₁.machine :=
    congrArg Tape.machine happlied
  have htape : (d₁.applyState decoded none).settleEntry.tape =
      d.tape.settled.withMachine (Core.noteEntry
        (Core.programCounter (decoded.resume machine) == legacyEntry)
        (decoded.resume machine)) := by
    rw [tape_settleEntry, hmachine, happlied, ht₁, hm₁]
    rfl
  have hl' : (d₁.applyState decoded none).settleEntry.queue.launched = true :=
    (congrArg (·.queue.launched) htape).trans hl
  have hmovie : (d₁.applyState decoded none).settleEntry.movie = d.movie :=
    congrArg Tape.movie htape
  obtain ⟨hstarted, -⟩ := settleStart_true hl' (hmovie ▸ ht)
  refine ⟨drain_of_pending_ne_nil (by rw [hp]; nofun), machine, ?_⟩
  rw [hrun, hstarted, htape, hmovie]

end Deck

end Rewind
