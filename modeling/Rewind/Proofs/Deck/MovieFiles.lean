import Rewind.Proofs.Deck.Playback
import Rewind.Proofs.Deck.SeekTargets

/-!
Movies and their files. While a movie is recorded its file may lag behind, for it is written when
the movie stops; while it is played back it is not written, so its file must hold it already. Main
statement: when a movie stops, its file holds its samples, unless a load turned a recording that was
not written yet into playback, or a warp extended what was played back (`stopped_file_holds`).
-/

namespace Rewind

open Savestate
open Storage (Pathname Tree)

/-- A file holds a movie with the given samples. -/
def Storage.Tree.Holds (disk : Tree) (path : Pathname) (inputs : Array Sample) : Prop :=
  ∃ movie, (Movie.readRecording (m := StateM Tree) path disk).1 = .ok movie ∧ movie.inputs = inputs

namespace Storage.Tree

variable {disk disk' : Tree} {path : Pathname} {inputs : Array Sample}

theorem readRecording_eq (path : Pathname) (disk : Tree) :
    Movie.readRecording (m := StateM Tree) path disk =
      (match disk.read path with
      | .error fault => .error (.io fault)
      | .ok data => Movie.Recording.ofBytes data, disk) :=
  Movie.readRecording_eq path disk

theorem version_of_readRecording {movie : Movie.Recording}
    (h : (Movie.readRecording (m := StateM Tree) path disk).1 = .ok movie) :
    movie.header.version = Movie.version := by
  rw [readRecording_eq] at h
  simp only at h
  split at h
  · cases h
  · exact Movie.Recording.version_of_ofBytes h

/-- Only what is read from a file counts. -/
theorem readRecording_kept {movie : Movie.Recording}
    (h : (Movie.readRecording (m := StateM Tree) path disk).1 = .ok movie)
    (hkept : Keeps path disk disk') :
    (Movie.readRecording (m := StateM Tree) path disk').1 = .ok movie := by
  rw [readRecording_eq] at h ⊢
  cases hread : disk.read path with
  | error fault => rw [hread] at h; cases h
  | ok data =>
    rw [hread] at h
    rw [hkept data hread]
    exact h

theorem Holds.kept (h : disk.Holds path inputs) (hkept : Keeps path disk disk') :
    disk'.Holds path inputs := by
  obtain ⟨movie, hmovie, hinputs⟩ := h
  exact ⟨movie, readRecording_kept hmovie hkept, hinputs⟩

theorem Holds.unique {inputs' : Array Sample} (h : disk.Holds path inputs)
    (h' : disk.Holds path inputs') : inputs = inputs' := by
  obtain ⟨movie, hmovie, rfl⟩ := h
  obtain ⟨movie', hmovie', rfl⟩ := h'
  rw [hmovie] at hmovie'
  cases hmovie'
  rfl

/-- A movie that was written is read back, if its samples can be counted. -/
theorem holds_of_write {header : Movie.Header} (hv : header.version = Movie.version)
    (hs : inputs.size < UInt32.size)
    (hw : Storage.write path (Movie.Recording.counted ⟨header, inputs⟩).toBytes disk =
      (.ok (), disk')) : disk'.Holds path inputs := by
  have hback := Movie.Recording.ofBytes_toBytes (r := ⟨header, inputs⟩) hv hs
  refine ⟨⟨(Movie.Recording.counted ⟨header, inputs⟩).header.readBack, inputs⟩, ?_, rfl⟩
  rw [readRecording_eq, read_write hw]
  exact hback

end Storage.Tree

namespace Movie.Log

/-- The movie is recorded, or its file holds it. -/
def Filed (log : Log) (disk : Tree) : Prop :=
  ∀ path, log.path = some path → log.isActive = true ∧ log.header.version = version ∧
    (log.task.isRecording = true ∨ disk.Holds path log.inputs)

variable {log log' : Log} {disk disk' : Tree}

theorem filed_of_no_path (h : log.path = none) : log.Filed disk :=
  fun _ hp => absurd (h.symm.trans hp) nofun

theorem Filed.of_inactive (h : log.Filed disk) (ha : ¬log.isActive = true) : log.Filed disk' :=
  fun path hpath => absurd (h path hpath).1 ha

theorem Filed.congr (h : log.Filed disk) (hp : log'.path = log.path)
    (hv : log'.header.version = log.header.version) (hi : log'.inputs = log.inputs)
    (ha : log.isActive = true → log'.isActive = true)
    (hr : log.task.isRecording = true → log'.task.isRecording = true)
    (hkept : ∀ path, log.path = some path → Tree.Keeps path disk disk') :
    log'.Filed disk' := by
  intro path hpath
  obtain ⟨hactive, hversion, hheld⟩ := h path (hp ▸ hpath)
  refine ⟨ha hactive, hv.trans hversion, hheld.imp hr fun hholds => ?_⟩
  rw [hi]
  exact hholds.kept (hkept path (hp ▸ hpath))

theorem isRecording_arrive_eq (log : Log) : log.arrive.task.isRecording = log.task.isRecording := by
  unfold arrive
  cases ht : log.task <;> simp_all [Task.isRecording]

theorem isActive_arrive (h : log.isActive = true) : log.arrive.isActive = true := by
  unfold arrive
  cases ht : log.task <;> simp_all [isActive]

theorem Filed.arrive (h : log.Filed disk) : log.arrive.Filed disk := by
  refine h.congr ?_ ?_ ?_ isActive_arrive (fun hr => (isRecording_arrive_eq log).trans hr)
    fun _ _ _ => id
  · rw [arrive_eq]
  · rw [arrive_eq]
  · rw [arrive_eq]

theorem Filed.handed (h : log.Filed disk) {live seen : Sample} {outcome : PollOutcome}
    (hp : log.Polled live (outcome, seen, log')) : log'.Filed disk := by
  cases hp with
  | passed => exact h.arrive
  | ended => exact h.arrive
  | played running =>
    refine h.congr rfl rfl rfl (fun _ => isActive_of_isRunning running)
      (fun hr => (isRecording_arrive_eq log).trans hr) fun _ _ _ => id
  | recorded =>
    intro path hpath
    obtain ⟨-, hversion, -⟩ := h path hpath
    exact ⟨rfl, hversion, .inl rfl⟩

theorem Filed.vi (h : log.Filed disk) : log.vi.Filed disk := by
  obtain ⟨currentVi, lengthVis, hvi⟩ := log.vi_eq
  rw [hvi]
  exact h

theorem Filed.started (h : log.Filed disk) {next : Task}
    (hs : Deck.taskAfterStart? log.task = some next) : Filed { log with task := next } disk := by
  refine h.congr rfl rfl rfl (fun _ => ?_) (fun hr => ?_) fun _ _ _ => id
  · cases ht : log.task <;> simp_all [Deck.taskAfterStart?, isActive] <;> subst hs <;> decide
  · cases ht : log.task <;> simp_all [Deck.taskAfterStart?, Task.isRecording] <;> subst hs <;> rfl

/-- Where a movie is brought to a position, its file must hold it if it is only read from then. -/
theorem Filed.restore (h : log.Filed disk) {freeze : Freeze} {mode : RestoreMode}
    (hhold : mode = .readOnly → ∀ path, log.path = some path → disk.Holds path log.inputs)
    (hdisk : mode ≠ .rerecord → disk' = disk) : (log.restore freeze mode).Filed disk' := by
  intro path hpath
  rw [path_restore] at hpath
  obtain ⟨hactive, hversion, hheld⟩ := h path hpath
  cases mode with
  | rerecord => exact ⟨rfl, hversion, .inl rfl⟩
  | readOnly =>
    obtain rfl := hdisk nofun
    exact ⟨rfl, hversion, .inr (hhold rfl path hpath)⟩
  | reposition =>
    obtain rfl := hdisk nofun
    exact ⟨hactive, hversion, hheld⟩

end Movie.Log

namespace Deck

variable {M H : Type} [Core M] [Frontend H] {d d' e : Deck M H Tree} {rest : List Request}

/-! ## Requests -/

/-- A save to a medium leaves a file alone, whatever the machine is and the frontend. -/
def SparesFile (path : Pathname) (medium : Medium) (d : Deck M H Tree) : Prop :=
  ∀ d' : Deck M H Tree, d'.config = d.config →
    Tree.Keeps path d'.disk (d'.saveState medium).2.disk

omit [Core M] [Frontend H] in
theorem keeps_writeState {path other : Pathname}
    (hne : ∀ names names', Tree.names other = .ok names → Tree.names path = .ok names' →
      names'.getLast? ≠ names.getLast?) (state : ByteArray) (d : Deck M H Tree) :
    Tree.Keeps path d.disk (d.writeState other state).2.disk := by
  rw [writeState_eq]
  exact Storage.Tree.keeps_deposit hne _ _

/-- A file is spared by a state that is kept in memory, or goes to a file of another name. -/
theorem sparesFile_of_ne {path : Pathname} {medium : Medium}
    (hne : ∀ d' : Deck M H Tree, d'.config = d.config → ∀ other, d'.statePath? medium = some other →
      ∀ names names', Tree.names other = .ok names → Tree.names path = .ok names' →
        names'.getLast? ≠ names.getLast?) : d.SparesFile path medium := by
  intro d' hd'
  have hstore (state : ByteArray) (d' : Deck M H Tree) (hd' : d'.config = d.config) :
      Tree.Keeps path d'.disk (d'.store medium state).2.disk := by
    have hne := hne d' hd'
    unfold store
    cases hp : d'.statePath? medium with
    | none => exact fun _ => id
    | some other =>
      have hkept := keeps_writeState (hne other hp) state d'
      simp only
      split <;> exact hkept
  cases he : encode d'.snapshot with
  | error e =>
    rw [saveState_eq, he]
    exact fun _ => id
  | ok encoded =>
    rw [saveState_of_encode he]
    exact hstore encoded.bytes { d' with machine := encoded.resume d'.machine } hd'

theorem sparesFile_memory (path : Pathname) (state : ByteArray) (d : Deck M H Tree) :
    d.SparesFile path (.memory state) := by
  refine sparesFile_of_ne fun d' _ other h => ?_
  cases h

/-- Which file a state goes to depends on the configuration alone. -/
theorem SparesFile.congr {path : Pathname} {medium : Medium} (h : d.SparesFile path medium)
    (hc : d'.config = d.config) : d'.SparesFile path medium :=
  fun d₂ hd₂ => h d₂ (hd₂.trans hc)

/-- A request that is carried out asks for checkpoints at most. -/
theorem mem_pending_perform {r r' : Request} (h : r' ∈ rest ++ (d.perform r).2.queue.pending) :
    r' ∈ rest ++ d.queue.pending ∨ ∃ tag, r' = .capture tag := by
  obtain ⟨k, -, hp⟩ := queuesAtMost_perform r d
  rw [hp] at h
  simp only [List.mem_append] at h ⊢
  obtain hr | hr | hr := h
  · exact .inl (.inl hr)
  · exact .inr ⟨.checkpoint, List.eq_of_mem_replicate hr⟩
  · exact .inl (.inr hr)

/-- What a drain has yet to carry out loses nothing of the movie: no save overwrites its file, and
where the deck only reads, no caller loads, or the file holds the movie. -/
structure Safe (rest : List Request) (d : Deck M H Tree) : Prop where
  filed : d.movie.Filed d.disk
  saves : ∀ path, d.movie.path = some path → ∀ r ∈ rest ++ d.queue.pending, r.job = .save →
    d.SparesFile path r.medium
  reads : d.config.readOnly = true → (∀ r ∈ rest ++ d.queue.pending, IsOwn r) ∨
    ∀ path, d.movie.path = some path → d.disk.Holds path d.movie.inputs

/-- Only a caller's load restores a movie to be read only, and only if the deck reads only. -/
theorem readOnly_of_restoreMode {r : Request} {config : Config} (hjob : r.job = .load)
    (h : restoreMode r.tag config = some .readOnly) : config.readOnly = true ∧ ¬IsOwn r := by
  refine ⟨?_, ?_⟩
  · by_contra hro
    unfold restoreMode at h
    split at h <;> simp_all
  · rintro (hsave | htag | htag)
    · cases hjob.symm.trans hsave
    · rw [htag] at h
      cases h
    · rw [htag] at h
      cases h

omit [Core M] [Frontend H] in
/-- What a load restores leaves the movie filed: it is recorded then, or the deck only reads and no
caller asked for the load. -/
theorem filed_restores {r : Request} (h : d.movie.Filed d.disk)
    (hreads : d.config.readOnly = true → IsOwn r ∨
      ∀ path, d.movie.path = some path → d.disk.Holds path d.movie.inputs)
    (hjob : r.job = .load) {freeze : Movie.Freeze} {m : Movie.RestoreMode}
    (hmode : restoreMode r.tag d.config = some m) (hdisk : m ≠ .rerecord → d'.disk = d.disk) :
    (d.movie.restore freeze m).Filed d'.disk := by
  refine h.restore (fun hm path hpath => ?_) hdisk
  subst hm
  obtain ⟨hro, hcaller⟩ := readOnly_of_restoreMode hjob hmode
  obtain hown | hholds := hreads hro
  · exact absurd hown hcaller
  · exact hholds path hpath

/-- What keeps the movie filed, and its file and its samples while the deck only reads, and asks for
captures at most, is safe. -/
theorem Safe.onward (h : Safe rest d) {rest' : List Request} (hc : d'.config = d.config)
    (hfiled : d'.movie.Filed d'.disk)
    (hm : ∀ path, d'.movie.path = some path → d.movie.path = some path ∧
      (d.config.readOnly = true →
        d'.movie.inputs = d.movie.inputs ∧ Tree.Keeps path d.disk d'.disk))
    (hq : ∀ r ∈ rest' ++ d'.queue.pending,
      r ∈ rest ++ d.queue.pending ∨ ∃ tag, r = .capture tag) : Safe rest' d' where
  filed := hfiled
  saves path hpath r hr hjob := by
    obtain hr | ⟨tag, rfl⟩ := hq r hr
    · exact (h.saves path (hm path hpath).1 r hr hjob).congr hc
    · exact sparesFile_memory path ByteArray.empty d'
  reads hro := by
    rw [hc] at hro
    refine (h.reads hro).imp (fun hown r hr => ?_) fun hholds path hpath => ?_
    · obtain hr | ⟨tag, rfl⟩ := hq r hr
      · exact hown r hr
      · exact .inl rfl
    · obtain ⟨hp, hkept⟩ := hm path hpath
      obtain ⟨hi, hkept⟩ := hkept hro
      rw [hi]
      exact (hholds path hp).kept hkept

theorem Safe.execute {r : Request} (h : Safe (r :: rest) d) : Safe rest (d.execute r).2 := by
  have hconfig := (execute_cases r d).1
  have hq (r' : Request) (hr' : r' ∈ rest ++ (d.execute r).2.queue.pending) :
      r' ∈ r :: rest ++ d.queue.pending ∨ ∃ tag, r' = .capture tag := by
    rw [queue_execute] at hr'
    exact .inl (.tail _ hr')
  obtain ⟨-, ⟨hjob, hsaved, hm⟩ | ⟨hjob, ⟨hm, hdisk⟩ | ⟨hmode, -, hm, hdisk⟩⟩⟩ := execute_cases r d
  · have hkept (path : Pathname) (hpath : d.movie.path = some path) :
        Tree.Keeps path d.disk (d.execute r).2.disk := by
      rw [hsaved]
      exact h.saves path hpath r (.head _) hjob d rfl
    refine h.onward hconfig ?_ (fun path hpath => ?_) hq
    · rw [hm]
      exact h.filed.congr rfl rfl rfl id id hkept
    · rw [hm] at hpath ⊢
      exact ⟨hpath, fun _ => ⟨rfl, hkept path hpath⟩⟩
  · refine h.onward hconfig ?_ (fun path hpath => ?_) hq
    · rw [hm, hdisk]
      exact h.filed
    · rw [hm] at hpath ⊢
      exact ⟨hpath, fun _ => ⟨rfl, hdisk ▸ fun _ => id⟩⟩
  · refine h.onward hconfig ?_ (fun path hpath => ?_) hq
    · rw [hm]
      exact filed_restores h.filed (fun hro => (h.reads hro).imp_left fun hown => hown r (.head _))
        hjob hmode hdisk
    · rw [hm, Movie.Log.path_restore] at hpath
      refine ⟨hpath, fun hro => ?_⟩
      have hne := restoreMode_of_readOnly hro hmode
      rw [hm, Movie.Log.inputs_restore_of_ne hne]
      exact ⟨rfl, hdisk hne ▸ fun _ => id⟩

theorem Safe.perform {r : Request} (h : Safe (r :: rest) d) : Safe rest (d.perform r).2 := by
  have hexecuted := h.execute
  have hc : (d.perform r).2.config = (d.execute r).2.config :=
    (deliver_keeps (d.execute r).1 (d.execute r).2).1
  have hq (r' : Request) (hr' : r' ∈ rest ++ (d.perform r).2.queue.pending) :
      r' ∈ rest ++ (d.execute r).2.queue.pending ∨ ∃ tag, r' = .capture tag := by
    rw [queue_execute]
    exact mem_pending_perform hr'
  have hsettles : Settles (d.execute r).2 (d.perform r).2 := deliver_settles _ _
  cases hsettles with
  | aside hm hdisk =>
    refine hexecuted.onward hc ?_ (fun path hpath => ?_) hq
    · rw [hm, hdisk]
      exact hexecuted.filed
    · rw [hm] at hpath ⊢
      exact ⟨hpath, fun _ => ⟨rfl, hdisk ▸ fun _ => id⟩⟩
  | started waits hm hdisk =>
    refine hexecuted.onward hc ?_ (fun path hpath => ?_) hq
    · rw [hm, hdisk]
      exact hexecuted.filed.started waits
    · rw [hm] at hpath ⊢
      exact ⟨hpath, fun _ => ⟨rfl, hdisk ▸ fun _ => id⟩⟩
  | dropped hm hdisk =>
    have hnone : (d.perform r).2.movie.path = none := congrArg (·.path) hm
    exact hexecuted.onward hc (Movie.Log.filed_of_no_path hnone)
      (fun path hpath => absurd (hnone.symm.trans hpath) nofun) hq

theorem Safe.passes (h : Safe [] d) (he : d.Passes rest e) : Safe rest e := by
  refine he.keeps Safe (fun d hd => ?_) (fun r rest d hd => hd.perform) h
  refine hd.onward rfl hd.filed (fun path hpath => ⟨hpath, fun _ => ⟨rfl, fun _ => id⟩⟩)
    fun r hr => ?_
  obtain hr | rfl := mem_prepare (by simpa [Queue.clear] using hr)
  · exact .inl (by simpa using hr)
  · exact .inr ⟨.undo, rfl⟩

/-! ## Calls -/

omit [Core M] in
theorem filed_stopMovie (h : d.movie.Filed d.disk) :
    d.stopMovie.2.movie.Filed d.stopMovie.2.disk := by
  have hstopped := alike_stopSeek d
  unfold stopMovie
  simp only
  split
  · rw [hstopped.movie, hstopped.disk]
    exact h
  · exact Movie.Log.filed_of_no_path rfl

omit [Core M] in
theorem filed_poll (h : d.movie.Filed d.disk) (index : Nat) (live : Sample) :
    (d.poll index live).2.movie.Filed (d.poll index live).2.disk := by
  have hfiled : (d.changeMovie d.movie.arrive).movie.Filed (d.changeMovie d.movie.arrive).disk := by
    obtain ⟨hm, hdisk⟩ := movie_changeMovie d.movie.arrive d
    rw [hm, hdisk]
    exact h.arrive
  have hpolls := poll_polls index live d
  generalize d.poll index live = result at hpolls ⊢
  cases hpolls with
  | passed => exact hfiled
  | @handed outcome seen log polled =>
    obtain ⟨hm, hdisk⟩ := movie_handed log d
    rw [hm, hdisk]
    exact h.handed polled
  | ended paused =>
    refine filed_stopMovie ?_
    obtain rfl | rfl := paused
    · exact hfiled
    · exact hfiled

omit [Core M] in
/-- Playback that comes to its end writes no file. -/
theorem poll_ended {index : Nat} {live : Sample} (h : (d.poll index live).1.1 = .ended) :
    ¬d.movie.task.isRecording = true ∧ (d.poll index live).2.disk = d.disk := by
  have hpolls := poll_polls index live d
  generalize d.poll index live = result at hpolls h ⊢
  cases hpolls with
  | passed => cases h
  | handed polled handed =>
    obtain rfl := h
    obtain h | h := handed <;> cases h
  | @ended d' paused playback =>
    obtain ⟨hm, hdisk⟩ := movie_changeMovie d.movie.arrive d
    have hm' : d'.movie = d.movie.arrive := by obtain rfl | rfl := paused <;> exact hm
    have hdisk' : d'.disk = d.disk := by obtain rfl | rfl := paused <;> exact hdisk
    have hr : ¬d.movie.arrive.task.isRecording = true := by
      rw [playback]
      exact Bool.false_ne_true
    rw [(stopMovie_of_not_isRecording (hm' ▸ hr)).2, hdisk']
    exact ⟨Movie.Log.isRecording_arrive_eq d.movie ▸ hr, rfl⟩

theorem filed_startRecording (h : d.movie.Filed d.disk) (now : UInt32) (path : Pathname)
    (flags : UInt16) (author description : String) :
    (d.startRecording now path flags author description).2.movie.Filed
      (d.startRecording now path flags author description).2.disk := by
  by_cases ha : d.movie.isActive = true
  · rw [startRecording_of_isActive ha]
    exact h
  · have hbegins := startRecording_begins now path flags author description d
    generalize d.startRecording now path flags author description = result at hbegins ⊢
    generalize result.2.movie = log at hbegins ⊢
    cases hbegins with
    | aside => exact h.of_inactive ha
    | dropped header => exact Movie.Log.filed_of_no_path rfl
    | begun =>
      have hr := isRecording_recordingStart flags (path.withExtension "st")
      refine fun _ _ => ⟨Movie.Log.isActive_of_isRecording hr, rfl, .inl hr⟩

theorem playbackStart_ne_idle (header : Movie.Header) (snapshot : Pathname) :
    (playbackStart header snapshot).1 ≠ .idle := by
  unfold playbackStart
  simp only
  split <;> nofun

theorem filed_startPlayback (h : d.movie.Filed d.disk) (path : Pathname) :
    (d.startPlayback path).2.movie.Filed (d.startPlayback path).2.disk := by
  by_cases ha : d.movie.isActive = true
  · rw [startPlayback_of_isActive ha]
    exact h
  · rw [disk_startPlayback]
    obtain hm | ⟨movie, hread, hbegins⟩ := startPlayback_begins path d
    · rw [hm]
      exact h.of_inactive ha
    · generalize (d.startPlayback path).2.movie = log at hbegins ⊢
      cases hbegins with
      | aside => exact h.of_inactive ha
      | dropped header => exact Movie.Log.filed_of_no_path rfl
      | begun =>
        rintro _ ⟨⟩
        refine ⟨isActive_iff.2 (playbackStart_ne_idle movie.header _), ?_, .inr ⟨movie, hread, rfl⟩⟩
        exact Storage.Tree.version_of_readRecording hread

omit [Core M] [Frontend H] in
theorem filed_setAuthor (h : d.movie.Filed d.disk) {path : Pathname} {author description : String}
    (hkept : ∀ moviePath, d.movie.path = some moviePath →
      Tree.Keeps moviePath d.disk (d.setAuthor path author description).2.disk) :
    (d.setAuthor path author description).2.movie.Filed
      (d.setAuthor path author description).2.disk := by
  obtain ⟨disk, hd | hd⟩ := setAuthor_cases path author description d
  · rw [hd] at hkept ⊢
    exact h.congr rfl rfl rfl id id hkept
  · rw [hd] at hkept ⊢
    exact h.congr rfl rfl rfl id id hkept

omit [Core M] in
theorem filed_beginWarp (h : d.movie.Filed d.disk) {inputs : Array Sample}
    (hplayed : d.movie.task = .playback → ∀ common,
      Warp.plan d.movie.inputs inputs d.movie.currentSample ≠ .ok (.extend common)) :
    (d.beginWarp inputs).2.movie.Filed (d.beginWarp inputs).2.disk := by
  have hwarps := beginWarp_warps inputs d
  generalize d.beginWarp inputs = result at hwarps ⊢
  cases hwarps with
  | refused e => exact h
  | same eq => exact h
  | extended running idle common planned =>
    intro path hpath
    obtain ⟨hactive, hversion, -⟩ := h path hpath
    refine ⟨hactive, hversion, .inl ?_⟩
    change d.movie.task.isRecording = true
    cases ht : d.movie.task with
    | recording => rfl
    | playback => exact absurd planned (hplayed ht common)
    | _ => rw [ht] at running; cases running
  | replayed running still idle rollbackTo =>
    intro path hpath
    have hm := movie_withInputs inputs rollbackTo d
    change (d.withInputs inputs rollbackTo).movie.path = some path at hpath
    change (d.withInputs inputs rollbackTo).movie.isActive = true ∧
      (d.withInputs inputs rollbackTo).movie.header.version = Movie.version ∧ _
    rw [hm] at hpath ⊢
    exact ⟨rfl, (h path hpath).2.1, .inl (congrArg (·.task.isRecording) hm)⟩

omit [Core M] in
/-- Stopping fails only where the file of what was recorded cannot be written. -/
theorem stopMovie_eq_ok_iff {path : Pathname} (hpath : d.movie.path = some path) :
    d.stopMovie.1 = .ok () ↔ (d.movie.task.isRecording = true →
      (Storage.write path d.movieFile d.disk).1 = .ok ()) := by
  by_cases hr : d.movie.task.isRecording = true
  · have hstopped := alike_stopSeek d
    have hfile : d.stopSeek.movieFile = d.movieFile := by rw [movieFile, hstopped.movie, movieFile]
    rw [(stopMovie_of_isRecording hr).1, saveMovie_of_path (hstopped.movie ▸ hpath), hfile,
      hstopped.disk]
    refine ⟨fun h _ => eq_ok_of_mapError h, fun h => ?_⟩
    rw [h hr]
    rfl
  · exact ⟨fun _ h => absurd h hr, fun _ => (stopMovie_of_not_isRecording hr).1⟩

/-! ## What is lost -/

omit [Core M] in
/-- Playback that was extended stops without an error, and its file does not hold it. -/
theorem not_holds_of_extend {path : Pathname} {inputs : Array Sample} {common : Nat}
    (hheld : d.disk.Holds path d.movie.inputs) (ht : d.movie.task = .playback)
    (hplan : Warp.plan d.movie.inputs inputs d.movie.currentSample = .ok (.extend common))
    (hok : (d.beginWarp inputs).1 = .ok ()) :
    (d.beginWarp inputs).2.stopMovie.1 = .ok () ∧
      ¬(d.beginWarp inputs).2.stopMovie.2.disk.Holds path (d.beginWarp inputs).2.movie.inputs := by
  have hwarps := beginWarp_warps inputs d
  generalize d.beginWarp inputs = result at hwarps hok ⊢
  cases hwarps with
  | refused e => cases hok
  | same eq planned => cases hplan.symm.trans planned
  | replayed running still idle rollbackTo state planned => cases hplan.symm.trans planned
  | extended running idle common planned =>
    have hr : ¬({ d with movie := d.movie.replaceInputs inputs }.recordWarp
        (.extend common)).movie.task.isRecording = true := by
      change ¬d.movie.task.isRecording = true
      rw [ht]
      exact Bool.false_ne_true
    obtain ⟨hstopped, hdisk⟩ := stopMovie_of_not_isRecording hr
    refine ⟨hstopped, fun hholds => ?_⟩
    rw [hdisk] at hholds
    have heq : d.movie.inputs = inputs := hheld.unique hholds
    have hlt := (Warp.plan_extend planned).2.1
    rw [heq] at hlt
    exact absurd hlt (Nat.lt_irrefl _)

/-- A recording that a load turns into playback stops without an error and is not written. -/
theorem stopMovie_of_readOnly {r : Request}
    (hmode : restoreMode r.tag d.config = some .readOnly)
    (hmoved : (d.execute r).2.movie ≠ d.movie) :
    (d.perform r).2.movie.inputs = d.movie.inputs ∧ (d.perform r).2.stopMovie.1 = .ok () ∧
      (d.perform r).2.stopMovie.2.disk = d.disk := by
  obtain ⟨hm, hdisk, -⟩ := perform_of_restoreMode hmode nofun
  obtain ⟨-, ⟨-, -, he⟩ | ⟨-, ⟨he, -⟩ | ⟨hmode', -, he, hkept⟩⟩⟩ := execute_cases r d
  · exact absurd he hmoved
  · exact absurd he hmoved
  · obtain rfl := Option.some.inj (hmode.symm.trans hmode')
    have hr : ¬(d.perform r).2.movie.task.isRecording = true := by
      rw [hm, he]
      exact Bool.false_ne_true
    obtain ⟨hstopped, hstop⟩ := stopMovie_of_not_isRecording hr
    refine ⟨?_, hstopped, ?_⟩
    · rw [hm, he]
      rfl
    · rw [hstop, hdisk, hkept nofun]

/-! ## Runs -/

/-- Nothing takes a movie away from its file: nobody else writes it, no state is saved over it, no
caller's load turns a recording into playback before the file holds it, and no warp extends what is
played back. -/
def Careful (d : Deck M H Tree) : Happening M H Tree → Prop
  | .outside _ _ disk => ∀ path, d.movie.path = some path → Tree.Keeps path d.disk disk
  | .call (.setAuthor path author description) => ∀ moviePath, d.movie.path = some moviePath →
    Tree.Keeps moviePath d.disk (d.setAuthor path author description).2.disk
  | .call .drain =>
    (∀ path, d.movie.path = some path → ∀ r ∈ d.queue.pending, r.job = .save →
      d.SparesFile path r.medium) ∧
    (d.config.readOnly = true → d.movie.task.isRecording = true → (∀ r ∈ d.queue.pending, IsOwn r) ∨
      ∀ path, d.movie.path = some path → d.disk.Holds path d.movie.inputs)
  | .call (.beginWarp inputs) => d.movie.task = .playback → ∀ common,
    Warp.plan d.movie.inputs inputs d.movie.currentSample ≠ .ok (.extend common)
  | _ => True

theorem filed_undergo (h : d.movie.Filed d.disk) {happening : Happening M H Tree}
    (hcareful : Careful d happening) :
    (d.undergo happening).movie.Filed (d.undergo happening).disk := by
  cases happening with
  | outside machine frontend disk => exact h.congr rfl rfl rfl id id hcareful
  | call c =>
    have hkept {d' : Deck M H Tree} (hm : d'.movie = d.movie) (hdisk : d'.disk = d.disk) :
        d'.movie.Filed d'.disk := by
      rw [hm, hdisk]
      exact h
    have haside (hc : c.isAside = true) : (d.call c).movie.Filed (d.call c).disk := by
      have ha := call_aside Frontend.follows_unheard hc d
      exact hkept ha.movie ha.disk
    cases c with
    | setLaunched launched =>
      obtain ⟨hm, hdisk⟩ := setLaunched_unmoved launched d
      exact hkept hm hdisk
    | drain =>
      have hsafe : Safe [] d := by
        refine ⟨h, hcareful.1, fun hro => ?_⟩
        by_cases hr : d.movie.task.isRecording = true
        · exact hcareful.2 hro hr
        · exact .inr fun path hpath => (h path hpath).2.2.resolve_left hr
      exact (hsafe.passes (passes_drain d)).filed
    | startRecording now path flags author description =>
      exact filed_startRecording h now path flags author description
    | startPlayback path => exact filed_startPlayback h path
    | stopMovie => exact filed_stopMovie h
    | setAuthor path author description => exact filed_setAuthor h hcareful
    | poll index live => exact filed_poll h index live
    | vi => exact h.vi
    | beginSeek text pauseAtEnd =>
      obtain ⟨hm, hdisk⟩ := beginSeek_unmoved text pauseAtEnd d
      exact hkept hm hdisk
    | stopSeek => exact hkept (alike_stopSeek d).movie (alike_stopSeek d).disk
    | beginWarp inputs => exact filed_beginWarp h hcareful
    | _ => exact haside rfl

/-- A movie that can be counted is in its file after it was stopped without an error, and after
playback came to its end. Stopping fails only where what was recorded cannot be written. Playback
that a warp extends is not in its file after it was stopped, and a recording that a load turns into
playback is as far in its file as it was before. -/
structure StopsAt (path : Pathname) (d : Deck M H Tree) : Prop where
  stops_iff : d.stopMovie.1 = .ok () ↔ (d.movie.task.isRecording = true →
    (Storage.write path d.movieFile d.disk).1 = .ok ())
  holds : d.stopMovie.1 = .ok () → d.movie.length < UInt32.size →
    d.stopMovie.2.disk.Holds path d.movie.inputs
  holds_of_ended : ∀ index live, (d.poll index live).1.1 = .ended →
    (d.poll index live).2.disk.Holds path d.movie.inputs
  not_holds_of_extend : ∀ inputs common, d.movie.task = .playback →
    Warp.plan d.movie.inputs inputs d.movie.currentSample = .ok (.extend common) →
    (d.beginWarp inputs).1 = .ok () → (d.beginWarp inputs).2.stopMovie.1 = .ok () ∧
      ¬(d.beginWarp inputs).2.stopMovie.2.disk.Holds path (d.beginWarp inputs).2.movie.inputs
  disk_of_readOnly : ∀ r, restoreMode r.tag d.config = some .readOnly →
    (d.execute r).2.movie ≠ d.movie → (d.perform r).2.movie.inputs = d.movie.inputs ∧
      (d.perform r).2.stopMovie.1 = .ok () ∧ (d.perform r).2.stopMovie.2.disk = d.disk

/-- **When a movie stops, its file holds its samples**, in a run from nothing in which every step is
careful. -/
theorem stopped_file_holds (config : Config) (machine : M) (frontend : H) (disk : Tree)
    {hs : List (Happening M H Tree)}
    (hcareful : Along Careful hs (new config machine frontend disk)) {path : Pathname}
    (hpath : ((new config machine frontend disk).after hs).movie.path = some path) :
    ((new config machine frontend disk).after hs).StopsAt path := by
  let d := (new config machine frontend disk).after hs
  have hfiled : d.movie.Filed d.disk :=
    after_keeps (fun d => d.movie.Filed d.disk) (fun _ _ h hcareful => filed_undergo h hcareful)
      (Movie.Log.filed_of_no_path rfl) hcareful
  obtain ⟨-, hversion, hheld⟩ := hfiled path hpath
  exact
    { stops_iff := stopMovie_eq_ok_iff hpath
      holds := fun hok hsize => by
        by_cases hr : d.movie.task.isRecording = true
        · obtain ⟨_, hpath', hwrite⟩ := stopMovie_eq_ok hr (Prod.ext hok rfl)
          obtain rfl := Option.some.inj (hpath.symm.trans hpath')
          exact Storage.Tree.holds_of_write hversion hsize hwrite
        · rw [(stopMovie_of_not_isRecording hr).2]
          exact hheld.resolve_left hr
      holds_of_ended := fun index live hended => by
        obtain ⟨hr, hdisk⟩ := poll_ended hended
        rw [hdisk]
        exact hheld.resolve_left hr
      not_holds_of_extend := fun inputs common ht =>
        have hr : ¬d.movie.task.isRecording = true := by
          rw [ht]
          exact Bool.false_ne_true
        not_holds_of_extend (hheld.resolve_left hr) ht
      disk_of_readOnly := fun r => stopMovie_of_readOnly }

theorem stopped_file_holds_appended :
    let d := (new {} running.machine {} ({} : Tree)).after appended
    Along Careful appended (new {} running.machine {} ({} : Tree)) ∧ d.stopMovie.1 = .ok () ∧
      d.stopMovie.2.disk.Holds ⟨"run.m64"⟩ #[⟨1, 0, 0⟩, ⟨2, 0, 0⟩, ⟨3, 0, 0⟩] := by
  have hcareful : Along Careful appended (new {} running.machine {} ({} : Tree)) :=
    ⟨trivial, trivial, trivial, trivial, nofun, trivial⟩
  have hpath : ((new {} running.machine {} ({} : Tree)).after appended).movie.path =
      some ⟨"run.m64"⟩ := rfl
  have hok : ((new {} running.machine {} ({} : Tree)).after appended).stopMovie.1 = .ok () := rfl
  have hstops := stopped_file_holds {} running.machine ({} : Journal) ({} : Tree) hcareful hpath
  exact ⟨hcareful, hok, hstops.holds hok (by decide)⟩

end Deck

end Rewind
