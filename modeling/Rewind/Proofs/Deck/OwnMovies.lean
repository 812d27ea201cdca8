import Rewind.Proofs.Deck.MovieFiles
import Rewind.Proofs.Movie.HeaderEdits
import Rewind.Proofs.Text.Decimal

/-!
Movies and the cartridges that they were recorded on. A movie's file keeps of the cartridge's name
what the field has room for, and playback compares that with the whole name. Main statement: a movie
is played back on its own cartridge without a question if and only if the field holds the name
(`startPlayback_asks_iff`).
-/

namespace Rewind

open Savestate
open Storage (Pathname Tree)

/-! ## Names in fields -/

namespace Movie

/-- A field of `width` bytes holds a text, but for white space at its end. -/
def FieldHolds (width : Nat) (text : String) : Prop :=
  (String.ofList (Text.trimEnd text.toList)).utf8ByteSize < width ∧ '\x00' ∉ text.toList

instance (width : Nat) (text : String) : Decidable (FieldHolds width text) :=
  inferInstanceAs (Decidable (_ ∧ _))

variable {width : Nat} {text : String}

theorem fieldHolds_of_blank (hw : 0 < width) {rest : List Char}
    (hrest : text.toList = (clip width text).toList ++ rest) (hblank : Text.Blank rest) :
    FieldHolds width text := by
  have htrim : Text.trimEnd text.toList = Text.trimEnd (clip width text).toList := by
    rw [hrest]
    exact Text.trimEnd_append_blank hblank
  obtain ⟨back, hback, -⟩ := Text.exists_trimEnd_append (clip width text).toList
  have hparts : (clip width text).utf8ByteSize =
      (String.ofList (Text.trimEnd text.toList)).utf8ByteSize +
        (String.ofList back).utf8ByteSize := by
    rw [htrim, ← String.utf8ByteSize_append, ← String.ofList_append, ← hback, String.ofList_toList]
  have hsize := (front_clip width text).2
  refine ⟨by omega, ?_⟩
  rw [hrest, List.mem_append, not_or]
  exact ⟨zero_notMem_clip width text, fun hzero => absurd (hblank _ hzero) (by decide)⟩

theorem FieldHolds.blank (h : FieldHolds width text) {rest : List Char}
    (hrest : text.toList = (clip width text).toList ++ rest) : Text.Blank rest := by
  obtain ⟨hsize, hzero⟩ := h
  obtain ⟨back, hback, hblank⟩ := Text.exists_trimEnd_append text.toList
  -- The field keeps all that is left without the white space, and some of that perhaps.
  have hfront : Text.trimEnd text.toList <+: Text.cutTo (width - 1) text.toList := by
    refine Text.isPrefix_cutTo_iff.2 ⟨⟨back, hback.symm⟩, ?_⟩
    rw [Text.length_utf8]
    omega
  obtain ⟨more, hmore⟩ := hfront
  have hclip : (clip width text).toList = Text.trimEnd text.toList ++ more := by
    rw [clip_of_zero_notMem hzero, String.toList_ofList, hmore]
  have htail : more ++ rest = back := by
    rw [hclip, List.append_assoc] at hrest
    exact List.append_cancel_left (hrest.symm.trans hback)
  exact fun c hc => hblank c (htail ▸ List.mem_append_right _ hc)

/-- What a field keeps of a text is the text again, without the white space at the end of both, if
and only if the field holds it. -/
theorem trimEnd_clip_eq_iff (hw : 0 < width) :
    Text.trimEnd (clip width text).toList = Text.trimEnd text.toList ↔ FieldHolds width text := by
  obtain ⟨rest, hrest⟩ := (front_clip width text).1
  have hblank : Text.trimEnd (clip width text).toList = Text.trimEnd text.toList ↔
      Text.Blank rest := by
    rw [← hrest, eq_comm]
    exact Text.trimEnd_append_eq_iff
  rw [hblank]
  exact ⟨fieldHolds_of_blank hw hrest.symm, fun h => h.blank hrest.symm⟩

/-- Seventeen characters can be too many. -/
example : ¬FieldHolds 32 "ﾕｹﾕｹ!!ﾄﾗﾌﾞﾙﾒｰｶｰｽﾞ" := by decide

end Movie

/-! ## What a movie says of its cartridge -/

namespace Movie

/-- What stays the same of a movie as long as it is active. -/
structure Label where
  path : Pathname
  version : UInt32
  romName : String
  romCrc1 : UInt32

/-- A movie is in a file and was recorded on a cartridge, as far as the file can tell. -/
structure Label.Names (label : Label) (path : Pathname) (rom : RomIdentity) : Prop where
  path : label.path = path
  version : label.version = Movie.version
  romName : clip 32 label.romName = clip 32 rom.name
  romCrc1 : label.romCrc1 = rom.crc1

namespace Log

variable {log log' : Log}

/-- The label of the active movie. -/
def label? (log : Log) : Option Label :=
  log.path.map fun path => ⟨path, log.header.version, log.header.romName, log.header.romCrc1⟩

theorem label?_of_path {path : Pathname} (h : log.path = some path) : log.label? =
    some ⟨path, log.header.version, log.header.romName, log.header.romCrc1⟩ := by
  rw [label?, h]
  rfl

theorem label?_arrive (log : Log) : log.arrive.label? = log.label? := by
  rw [arrive_eq]
  rfl

theorem Polled.label? {live seen : Sample} {outcome : PollOutcome}
    (h : log.Polled live (outcome, seen, log')) : log'.label? = log.label? := by
  cases h with
  | passed => exact label?_arrive log
  | played => rfl
  | recorded => rfl
  | ended => exact label?_arrive log

theorem label?_vi (log : Log) : log.vi.label? = log.label? := by
  obtain ⟨currentVi, lengthVis, hvi⟩ := log.vi_eq
  rw [hvi]
  rfl

theorem label?_restore (log : Log) (freeze : Freeze) (mode : RestoreMode) :
    (log.restore freeze mode).label? = log.label? := by
  cases mode <;> rfl

end Log

end Movie

namespace Storage.Tree

variable {disk disk' : Tree} {path : Pathname} {rom : RomIdentity}

/-- A file is a movie with the name and the checksum of a cartridge, as its header can hold them. -/
def Bears (disk : Tree) (path : Pathname) (rom : RomIdentity) : Prop :=
  ∃ movie, (Movie.readRecording (m := StateM Tree) path disk).1 = .ok movie ∧
    movie.header.romName = Movie.clip 32 rom.name ∧ movie.header.romCrc1 = rom.crc1

theorem Bears.kept (h : disk.Bears path rom) (hkept : Keeps path disk disk') :
    disk'.Bears path rom := by
  obtain ⟨movie, hmovie, hrom⟩ := h
  exact ⟨movie, readRecording_kept hmovie hkept, hrom⟩

/-- The label of a movie that is taken up from its file. -/
theorem Bears.names (h : disk.Bears path rom) {movie : Movie.Recording}
    (hread : (Movie.readRecording (m := StateM Tree) path disk).1 = .ok movie) :
    Movie.Label.Names
      ⟨path, movie.header.version, movie.header.romName, movie.header.romCrc1⟩ path rom := by
  obtain ⟨movie', hread', hname, hcrc⟩ := h
  cases hread.symm.trans hread'
  refine ⟨rfl, version_of_readRecording hread, ?_, hcrc⟩
  change Movie.clip 32 movie.header.romName = _
  rw [hname, Movie.clip_clip (by decide)]

/-- A file that was written with a header that names a cartridge is read back so. -/
theorem bears_of_ofBytes {data : ByteArray} {header : Movie.Header} {inputs : Array Sample}
    (hread : disk.read path = .ok data)
    (hdata : Movie.Recording.ofBytes data = .ok ⟨header.readBack, inputs⟩)
    (hname : Movie.clip 32 header.romName = Movie.clip 32 rom.name)
    (hcrc : header.romCrc1 = rom.crc1) : disk.Bears path rom := by
  refine ⟨⟨header.readBack, inputs⟩, ?_, ?_, ?_⟩
  · rw [readRecording_eq, hread]
    exact hdata
  · rw [Movie.Header.readBack_eq]
    exact hname
  · rw [Movie.Header.readBack_eq]
    exact hcrc

theorem bears_of_write {header : Movie.Header} {inputs : Array Sample}
    (hnames : Movie.Label.Names
      ⟨path, header.version, header.romName, header.romCrc1⟩ path rom)
    (hw : Storage.write path (Movie.Recording.counted ⟨header, inputs⟩).toBytes disk =
      (.ok (), disk')) : disk'.Bears path rom := by
  obtain ⟨inputs', -, hback⟩ :=
    Movie.Recording.ofBytes_toBytes_header (r := ⟨header, inputs⟩) hnames.version
  exact bears_of_ofBytes (read_write hw) hback hnames.romName hnames.romCrc1

theorem Bears.write (h : disk.Bears path rom) {header : Movie.Header} {inputs : Array Sample}
    (hnames : Movie.Label.Names
      ⟨path, header.version, header.romName, header.romCrc1⟩ path rom) :
    (Storage.write path (Movie.Recording.counted ⟨header, inputs⟩).toBytes disk).2.Bears path
      rom := by
  generalize hw : Storage.write path (Movie.Recording.counted ⟨header, inputs⟩).toBytes disk =
    written
  obtain ⟨result, disk'⟩ := written
  cases result with
  | error fault => exact write_eq_error hw ▸ h
  | ok => exact bears_of_write hnames hw

/-- A change of the author leaves the cartridge in the header. -/
theorem Bears.writeAuthor (h : disk.Bears path rom) (author description : String) :
    (Movie.writeAuthor (m := StateM Tree) path author description disk).2.Bears path rom := by
  obtain ⟨movie, hmovie, hname, hcrc⟩ := h
  rw [readRecording_eq] at hmovie
  simp only at hmovie
  cases hread : disk.read path with
  | error fault => rw [hread] at hmovie; cases hmovie
  | ok data =>
    rw [hread] at hmovie
    obtain ⟨hheader, -⟩ := Movie.Recording.ofBytes_eq_ok hmovie
    obtain ⟨disk', hwrite, hread'⟩ :=
      Movie.writeAuthor_of_ofBytes hread hheader author description
    obtain ⟨inputs, hback⟩ := Movie.Recording.ofBytes_withAuthor hmovie author description
    rw [hwrite]
    refine bears_of_ofBytes hread' hback ?_ hcrc
    change Movie.clip 32 movie.header.romName = _
    rw [hname, Movie.clip_clip (by decide)]

end Storage.Tree

namespace Deck

variable {M H : Type} [Core M] [Frontend H] {d d' e : Deck M H Tree} {path : Pathname}
  {rom : RomIdentity} {rest : List Request}

/-! ## What keeps a movie its cartridge's -/

/-- A file is a movie of a cartridge, and the active movie is that one, if there is one. -/
structure Owns (path : Pathname) (rom : RomIdentity) (d : Deck M H Tree) : Prop where
  file : d.disk.Bears path rom
  movie : ∀ label ∈ d.movie.label?, label.Names path rom

namespace Owns

omit [Core M] [Frontend H]

theorem onward (h : d.Owns path rom) (hm : d'.movie.label? = d.movie.label?)
    (hkept : Tree.Keeps path d.disk d'.disk) : d'.Owns path rom :=
  ⟨h.file.kept hkept, hm ▸ h.movie⟩

theorem unmoved (h : d.Owns path rom) (hm : d'.movie = d.movie) (hdisk : d'.disk = d.disk) :
    d'.Owns path rom := h.onward (congrArg _ hm) (hdisk ▸ fun _ => id)

theorem dropped (h : d.Owns path rom) (hm : d'.movie.path = none) (hdisk : d'.disk = d.disk) :
    d'.Owns path rom := by
  refine ⟨hdisk ▸ h.file, ?_⟩
  rw [Movie.Log.label?, hm]
  exact nofun

theorem saveMovie (h : d.Owns path rom) : d.saveMovie.2.Owns path rom := by
  cases hp : d.movie.path with
  | none =>
    have hsame : d.saveMovie.2 = d := by
      rw [Deck.saveMovie, Movie.Log.save, hp]
    rwa [hsame]
  | some other =>
    have hnames := h.movie _ (Movie.Log.label?_of_path hp)
    obtain rfl : other = path := hnames.path
    rw [saveMovie_of_path hp]
    exact ⟨h.file.write hnames, h.movie⟩

theorem setAuthor (h : d.Owns path rom) {other : Pathname} {author description : String}
    (hkept : other ≠ path → Tree.Keeps path d.disk (d.setAuthor other author description).2.disk) :
    (d.setAuthor other author description).2.Owns path rom := by
  have hmovie : (d.setAuthor other author description).2.movie.label? = d.movie.label? := by
    obtain ⟨disk, hd | hd⟩ := setAuthor_cases other author description d
    · rw [hd]
    · rw [hd]
      rfl
  have hfile : (d.setAuthor other author description).2.disk.Bears path rom := by
    by_cases ho : other = path
    · rw [ho, disk_setAuthor]
      exact h.file.writeAuthor author description
    · exact h.file.kept (hkept ho)
  exact ⟨hfile, hmovie ▸ h.movie⟩

end Owns

/-! ## Requests -/

section

omit [Core M]

theorem Owns.restorePosition (h : d.Owns path rom) (freeze : Movie.Freeze)
    (mode : Movie.RestoreMode) : (d.restorePosition freeze mode).Owns path rom := by
  have hnotify {d' : Deck M H Tree} (h' : d'.Owns path rom) (before : Movie.Task) :
      (d'.notifyTask before).Owns path rom :=
    h'.unmoved (alike_notifyTask before d').movie (alike_notifyTask before d').disk
  let restored : Deck M H Tree := { d with movie := d.movie.restore freeze mode }
  have hrestored : restored.Owns path rom :=
    h.onward (Movie.Log.label?_restore d.movie freeze mode) fun _ => id
  have hdropped (sample : Nat) : (restored.dropCheckpoints sample).Owns path rom :=
    hrestored.unmoved (congrArg Tape.movie (tape_dropCheckpoints sample restored))
      (disk_dropCheckpoints sample restored)
  unfold Deck.restorePosition Movie.Log.unfreeze
  cases d.movie.checkFreeze freeze mode with
  | error e => exact hnotify h _
  | ok =>
    simp only
    split
    · refine hnotify ?_ _
      exact (hdropped _).saveMovie.unmoved rfl rfl
    · exact hnotify hrestored _

end

theorem Owns.loadState (h : d.Owns path rom) (medium : Medium) (ignoreWarnings : Bool)
    (mode : Option Movie.RestoreMode) :
    (d.loadState medium ignoreWarnings mode).2.Owns path rom := by
  obtain ⟨messages, hd | hd | ⟨decoded, position, -, hd⟩⟩ :=
    loadState_cases medium ignoreWarnings mode d
  · rw [hd]
    exact h.unmoved rfl rfl
  · rw [hd]
    exact h.unmoved rfl rfl
  · rw [hd]
    have hasked : ({ d.questioned messages with machine := decoded.resume d.machine } :
        Deck M H Tree).Owns path rom := h.unmoved rfl rfl
    have hshown {d' : Deck M H Tree} (h' : d'.Owns path rom) :
        ((d'.restoreScreen decoded.snapshot.screenshot).notify .stateLoaded).Owns path rom :=
      h'.unmoved (alike_restoreScreen _ d').movie (alike_restoreScreen _ d').disk
    cases position with
    | none => exact (hshown hasked).unmoved rfl rfl
    | some position =>
      exact (hshown (hasked.restorePosition position.1 position.2)).unmoved rfl rfl

theorem Owns.execute (h : d.Owns path rom) {r : Request}
    (hspares : r.job = .save → d.SparesFile path r.medium) : (d.execute r).2.Owns path rom := by
  obtain ⟨-, ⟨hjob, hsaved, hm⟩ | ⟨hjob, -⟩⟩ := execute_cases r d
  · refine h.onward (congrArg _ hm) ?_
    rw [hsaved]
    exact hspares hjob d rfl
  · unfold Deck.execute
    rw [hjob]
    exact h.loadState r.medium r.ignoreWarnings (restoreMode r.tag d.config)

omit [Core M] in
theorem Owns.deliver (h : d.Owns path rom) (o : Outcome) : (d.deliver o).2.Owns path rom := by
  have hsettles := deliver_settles o d
  cases hsettles with
  | aside hm hdisk => exact h.unmoved hm hdisk
  | started _ hm hdisk =>
    refine h.onward ?_ (hdisk ▸ fun _ => id)
    rw [hm]
    rfl
  | dropped hm hdisk => exact h.dropped (congrArg (·.path) hm) hdisk

/-- No save that a drain has yet to carry out overwrites the file. -/
structure Guards (path : Pathname) (rom : RomIdentity) (rest : List Request)
    (d : Deck M H Tree) : Prop where
  owns : d.Owns path rom
  saves : ∀ r ∈ rest ++ d.queue.pending, r.job = .save → d.SparesFile path r.medium

theorem Guards.perform {r : Request} (h : Guards path rom (r :: rest) d) :
    Guards path rom rest (d.perform r).2 where
  owns := (h.owns.execute (h.saves r (.head _))).deliver _
  saves r' hr' hjob := by
    have hc : (d.perform r).2.config = d.config :=
      (deliver_keeps (d.execute r).1 (d.execute r).2).1.trans (execute_cases r d).1
    obtain hr' | ⟨tag, rfl⟩ := mem_pending_perform hr'
    · exact (h.saves r' (.tail _ hr') hjob).congr hc
    · exact sparesFile_memory path ByteArray.empty _

theorem Guards.passes (h : Guards path rom [] d) (he : d.Passes rest e) :
    Guards path rom rest e := by
  refine he.keeps (Guards path rom) (fun d hd => ⟨hd.owns.unmoved rfl rfl, fun r hr hjob => ?_⟩)
    (fun r rest d hd => hd.perform) h
  obtain hr | rfl := mem_prepare (by simpa [Queue.clear] using hr)
  · exact (hd.saves r (by simpa using hr) hjob).congr rfl
  · exact sparesFile_memory path ByteArray.empty _

/-! ## Calls -/

omit [Core M] in
theorem Owns.stopMovie (h : d.Owns path rom) : d.stopMovie.2.Owns path rom := by
  have hstopped : d.stopSeek.Owns path rom :=
    h.unmoved (alike_stopSeek d).movie (alike_stopSeek d).disk
  unfold Deck.stopMovie
  simp only
  split
  · exact hstopped
  · split
    · exact hstopped.saveMovie.dropped rfl rfl
    · exact hstopped.dropped rfl rfl

omit [Core M] in
theorem Owns.poll (h : d.Owns path rom) (index : Nat) (live : Sample) :
    (d.poll index live).2.Owns path rom := by
  have hchanged {log : Movie.Log} (hlog : log.label? = d.movie.label?) :
      (d.changeMovie log).Owns path rom := by
    obtain ⟨hm, hdisk⟩ := movie_changeMovie log d
    exact h.onward (by rw [hm, hlog]) (hdisk ▸ fun _ => id)
  have harrived := hchanged d.movie.label?_arrive
  have hpolls := poll_polls index live d
  generalize d.poll index live = result at hpolls ⊢
  cases hpolls with
  | passed => exact harrived
  | @handed outcome seen log polled =>
    obtain ⟨hm, hdisk⟩ := movie_handed log d
    refine h.onward ?_ (hdisk ▸ fun _ => id)
    rw [hm, polled.label?]
  | ended paused =>
    refine Owns.stopMovie ?_
    obtain rfl | rfl := paused
    · exact harrived
    · exact harrived.unmoved rfl rfl

omit [Core M] in
theorem Owns.beginWarp (h : d.Owns path rom) (inputs : Array Sample) :
    (d.beginWarp inputs).2.Owns path rom := by
  have hwarps := beginWarp_warps inputs d
  generalize d.beginWarp inputs = result at hwarps ⊢
  cases hwarps with
  | refused e => exact h
  | same eq => exact h.unmoved rfl rfl
  | extended => exact h.onward rfl fun _ => id
  | replayed running still idle rollbackTo state =>
    have hm := movie_withInputs inputs rollbackTo d
    have hdisk := disk_withInputs inputs rollbackTo d
    have hreplayed : (d.withInputs inputs rollbackTo).Owns path rom := by
      refine h.onward ?_ (hdisk ▸ fun _ => id)
      rw [hm]
      rfl
    exact hreplayed.unmoved rfl rfl

/-- A movie that is played back from the file is the one in the file. -/
theorem Owns.startPlayback (h : d.Owns path rom) : (d.startPlayback path).2.Owns path rom := by
  obtain hm | ⟨movie, hread, hbegins⟩ := startPlayback_begins path d
  · exact h.unmoved hm (disk_startPlayback path d)
  · refine ⟨(disk_startPlayback path d).symm ▸ h.file, ?_⟩
    generalize (d.startPlayback path).2.movie = log at hbegins ⊢
    cases hbegins with
    | aside => exact h.movie
    | dropped header => exact nofun
    | begun =>
      rintro _ ⟨⟩
      exact h.file.names hread

/-- A recording that is begun is written to its file at once. -/
theorem owns_startRecording {now : UInt32} {flags : UInt16} {author description : String}
    (h : d.startRecording now path flags author description = (.ok (), d')) :
    d'.Owns path (Core.rom d.machine) := by
  have hnames (task : Movie.Task) : ∀ label ∈ (Movie.Log.begin path
      ⟨newHeader d.machine now flags author description, #[]⟩ task).label?,
      label.Names path (Core.rom d.machine) := by
    rintro _ ⟨⟩
    exact ⟨rfl, rfl, rfl, rfl⟩
  have hrecords := startRecording_records now path flags author description d
  rw [h] at hrecords
  generalize hr : (Except.ok (), d') = result at hrecords
  cases hrecords with
  | refused => cases hr
  | dropped => cases hr
  | @recorded begun htaken hsaved =>
    cases hr
    obtain ⟨-, hbegun⟩ := takeUpMovie_eq_ok htaken
    have hmovie := movie_withStart (.begin path
      ⟨newHeader d.machine now flags author description, #[]⟩
      (recordingStart flags (path.withExtension "st")).1)
      (recordingStart flags (path.withExtension "st")).2 d
    rw [← hbegun] at hmovie
    obtain ⟨htape, other, hpath, hwrite⟩ := saveMovie_eq_ok hsaved
    rw [hmovie] at hpath
    obtain rfl : path = other := Option.some.inj hpath
    rw [movieFile, hmovie] at hwrite
    have hleft : begun.saveMovie.2.movie = begun.movie.counted := congrArg Tape.movie htape
    refine ⟨Storage.Tree.bears_of_write (hnames _ _ rfl) hwrite, ?_⟩
    rw [hleft, hmovie]
    exact hnames _

/-! ## Runs -/

/-- Nothing takes a file from its movie: nobody else writes it, no state is saved over it, and no
other movie begins. The movie itself may be played back from it. -/
def Spares (path : Pathname) (d : Deck M H Tree) : Happening M H Tree → Prop
  | .outside _ _ disk => Tree.Keeps path d.disk disk
  | .call (.setAuthor other author description) =>
    other ≠ path → Tree.Keeps path d.disk (d.setAuthor other author description).2.disk
  | .call .drain => ∀ r ∈ d.queue.pending, r.job = .save → d.SparesFile path r.medium
  | .call (.startRecording ..) => d.movie.isActive = true
  | .call (.startPlayback other) => d.movie.isActive = true ∨ other = path
  | _ => True

theorem Owns.undergo (h : d.Owns path rom) {happening : Happening M H Tree}
    (hspares : Spares path d happening) : (d.undergo happening).Owns path rom := by
  cases happening with
  | outside machine frontend disk => exact h.onward rfl hspares
  | call c =>
    have haside (hc : c.isAside = true) : (d.call c).Owns path rom := by
      have ha := call_aside Frontend.follows_unheard hc d
      exact h.unmoved ha.movie ha.disk
    cases c with
    | setLaunched launched =>
      obtain ⟨hm, hdisk⟩ := setLaunched_unmoved launched d
      exact h.unmoved hm hdisk
    | drain =>
      have hguards : Guards path rom [] d := ⟨h, hspares⟩
      exact (hguards.passes (passes_drain d)).owns
    | startRecording now other flags author description =>
      have hrefused := startRecording_of_isActive hspares now other flags author description
      exact h.unmoved (congrArg (·.2.movie) hrefused) (congrArg (·.2.disk) hrefused)
    | startPlayback other =>
      obtain hactive | rfl := hspares
      · have hrefused := startPlayback_of_isActive hactive other
        exact h.unmoved (congrArg (·.2.movie) hrefused) (congrArg (·.2.disk) hrefused)
      · exact h.startPlayback
    | stopMovie => exact h.stopMovie
    | setAuthor other author description => exact h.setAuthor hspares
    | poll index live => exact h.poll index live
    | vi => exact h.onward d.movie.label?_vi fun _ => id
    | beginSeek text pauseAtEnd =>
      obtain ⟨hm, hdisk⟩ := beginSeek_unmoved text pauseAtEnd d
      exact h.unmoved hm hdisk
    | stopSeek => exact h.unmoved (alike_stopSeek d).movie (alike_stopSeek d).disk
    | beginWarp inputs => exact h.beginWarp inputs
    | _ => exact haside rfl

/-! ## Questions -/

section

variable {D : Type} [Storage D] {a : Deck M H D} {movie : Movie.Recording}

/-- What is asked before a movie is played back. -/
def cartridgeQuestions (header : Movie.Header) (d : Deck M H D) : List String :=
  if isRecordedOn header (Core.rom d.machine) || d.config.silent then []
  else [foreignMovieMessage header (Core.rom d.machine)]

omit [Core M] [Frontend H] [Storage D] in
theorem foreignMovieMessage_congr {header header' : Movie.Header}
    (hname : header.romName = header'.romName) (hcrc : header.romCrc1 = header'.romCrc1)
    (rom : RomIdentity) : foreignMovieMessage header rom = foreignMovieMessage header' rom := by
  unfold foreignMovieMessage
  rw [hname, hcrc]

omit [Frontend H] [Storage D] in
theorem cartridgeQuestions_cases (header : Movie.Header) (d : Deck M H D) :
    (isRecordedOn header (Core.rom d.machine) = true ∨ d.config.silent = true) ∧
        d.cartridgeQuestions header = [] ∨
      ¬(isRecordedOn header (Core.rom d.machine) = true ∨ d.config.silent = true) ∧
        d.cartridgeQuestions header = [foreignMovieMessage header (Core.rom d.machine)] := by
  rw [← Bool.or_eq_true, cartridgeQuestions]
  split
  · next hquiet => exact .inl ⟨hquiet, rfl⟩
  · next hheard => exact .inr ⟨hheard, rfl⟩

omit [Core M] [Frontend H] [Storage D] in
theorem prompts_answer (j : Journal) (message : String) :
    (j.answer message).2.prompts = message :: j.prompts := by
  unfold Journal.answer
  simp only
  split <;> rfl

/-- A movie that was read is asked about, and taken up unless the answer is no. -/
theorem startPlayback_of_read (hidle : a.movie.isActive = false)
    (hread : (Movie.readRecording (m := StateM D) path a.disk).1 = .ok movie) :
    let asked := a.questioned (a.cartridgeQuestions movie.header)
    let start := playbackStart movie.header (path.withExtension "st")
    (a.startPlayback path).2 = asked ∨
      a.startPlayback path = asked.takeUpMovie path movie start.1 start.2 := by
  intro asked start
  have hread : Movie.readRecording (m := StateM D) path a.disk = (.ok movie, a.disk) :=
    Prod.ext hread (Movie.readRecording_unmoved path a.disk)
  unfold startPlayback
  rw [if_neg (by rw [hidle]; exact Bool.false_ne_true), hread]
  simp only [asked, cartridgeQuestions, confirm]
  cases isRecordedOn movie.header (Core.rom a.machine) with
  | true => exact .inr rfl
  | false =>
    cases a.config.silent with
    | true => exact .inr rfl
    | false =>
      simp only [Bool.or_self, Bool.false_eq_true, ↓reduceIte]
      split
      · exact .inr rfl
      · exact .inl rfl

omit [Storage D] in
theorem prompts_withStart (log : Movie.Log) (start : Option Request) (b : Deck M Journal D) :
    (b.withStart log start).frontend.prompts = b.frontend.prompts := by
  unfold withStart enqueue
  split <;> rfl

omit [Storage D] in
/-- Taking up a movie asks nothing. -/
theorem prompts_takeUpMovie {b : Deck M Journal D} (hidle : b.movie.isActive = false)
    (path : Pathname) (movie : Movie.Recording) (task : Movie.Task) (start : Option Request) :
    (b.takeUpMovie path movie task start).2.frontend.prompts = b.frontend.prompts := by
  rw [takeUpMovie_of_idle hidle]
  split
  · rfl
  · exact prompts_withStart _ _ b

theorem prompts_startPlayback {b : Deck M Journal D} (hidle : b.movie.isActive = false)
    (hread : (Movie.readRecording (m := StateM D) path b.disk).1 = .ok movie) :
    (b.startPlayback path).2.frontend.prompts =
      b.cartridgeQuestions movie.header ++ b.frontend.prompts := by
  have hasked : (b.questioned (b.cartridgeQuestions movie.header)).frontend.prompts =
      b.cartridgeQuestions movie.header ++ b.frontend.prompts := by
    unfold cartridgeQuestions
    split
    · rfl
    · simp only [questioned, Frontend.questioned, List.foldl_cons, List.foldl_nil]
      exact prompts_answer _ _
  obtain hdeclined | htaken := startPlayback_of_read hidle hread
  · rw [hdeclined, hasked]
  · rw [htaken]
    exact (prompts_takeUpMovie (b := b.questioned _) hidle _ _ _ _).trans hasked

end

/-- A movie's file names its cartridge if and only if the field holds the cartridge's name. -/
theorem isRecordedOn_iff {header : Movie.Header} (hname : header.romName = Movie.clip 32 rom.name)
    (hcrc : header.romCrc1 = rom.crc1) :
    isRecordedOn header rom = true ↔ Movie.FieldHolds 32 rom.name := by
  rw [isRecordedOn, hname, hcrc, beq_self_eq_true, Bool.true_and, beq_iff_eq]
  exact Movie.trimEnd_clip_eq_iff (by decide)

/-- **A cartridge knows its own movies if and only if the field for its name holds it.** A recording
is begun, and then anything happens that spares its file. Wherever that file is played back on the
same cartridge, it is asked about, once, if and only if no movie is active, there is somebody to
ask, and the field does not hold the name: because it is too long even without the white space at
its end, or because there is a zero character in it. -/
theorem startPlayback_asks_iff {M' D : Type} [Core M'] [Storage D] {begun : Deck M H Tree}
    {now : UInt32} {flags : UInt16} {author description : String}
    (hrecord : d.startRecording now path flags author description = (.ok (), begun))
    {hs : List (Happening M H Tree)} (hspares : Along (Spares path) hs begun)
    {other : Pathname} {b : Deck M' Journal D}
    (hrom : (Core.rom b.machine : RomIdentity) = Core.rom d.machine)
    (hfile : Storage.read other b.disk = Storage.read path (begun.after hs).disk) :
    let rom : RomIdentity := Core.rom d.machine
    let question :=
      foreignMovieMessage { romName := Movie.clip 32 rom.name, romCrc1 := rom.crc1 } rom
    let prompts := (b.startPlayback other).2.frontend.prompts
    (prompts = b.frontend.prompts ∨ prompts = question :: b.frontend.prompts) ∧
      (prompts = b.frontend.prompts ↔
        b.movie.isActive = true ∨ b.config.silent = true ∨ Movie.FieldHolds 32 rom.name) := by
  intro rom question prompts
  have howns : (begun.after hs).Owns path rom :=
    after_keeps (Owns path rom) (fun _ _ h hspares => h.undergo hspares)
      (owns_startRecording hrecord) hspares
  obtain ⟨movie, hread, hname, hcrc⟩ := howns.file
  have hread' : (Movie.readRecording (m := StateM D) other b.disk).1 = .ok movie := by
    rw [Movie.readRecording_eq] at hread ⊢
    rwa [hfile]
  cases hidle : b.movie.isActive with
  | true =>
    have hsame : prompts = b.frontend.prompts :=
      congrArg (·.2.frontend.prompts) (startPlayback_of_isActive hidle other)
    exact ⟨.inl hsame, iff_of_true hsame (.inl rfl)⟩
  | false =>
    have hmessage : foreignMovieMessage movie.header rom = question :=
      foreignMovieMessage_congr hname hcrc rom
    have hprompts : prompts = b.cartridgeQuestions movie.header ++ b.frontend.prompts :=
      prompts_startPlayback hidle hread'
    obtain ⟨hquiet, hnone⟩ | ⟨hheard, hone⟩ := cartridgeQuestions_cases movie.header b
    · rw [hnone, List.nil_append] at hprompts
      rw [hrom, isRecordedOn_iff hname hcrc] at hquiet
      exact ⟨.inl hprompts, iff_of_true hprompts (.inr hquiet.symm)⟩
    · rw [hone, hrom, hmessage, List.singleton_append] at hprompts
      rw [hrom, isRecordedOn_iff hname hcrc] at hheard
      refine ⟨.inr hprompts, iff_of_false ?_ ?_⟩
      · rw [hprompts]
        exact List.cons_ne_self _ _
      · rintro (hactive | hquiet)
        · cases hactive
        · exact hheard hquiet.symm

/-- A recording on a machine with a cartridge whose name is longer than the field. -/
def longNamed : Deck Machine.Accumulator Journal Tree :=
  new {} { running.machine with rom.name := "THE LEGEND OF ZELDA: MAJORA'S MASK" } {} {}

/-- One sample is recorded, and the movie is stopped. -/
def recordedOnce : List (Happening Machine.Accumulator Journal Tree) :=
  [.call (.poll 0 ⟨1, 0, 0⟩), .call .stopMovie]

theorem startPlayback_asks_longNamed :
    ∃ begun : Deck Machine.Accumulator Journal Tree,
      longNamed.startRecording 7 ⟨"run.m64"⟩ Movie.StartFlags.nothing "" "" = (.ok (), begun) ∧
      Along (Spares ⟨"run.m64"⟩) recordedOnce begun ∧
      let b : Deck Machine.Accumulator Journal Tree :=
        { longNamed with disk := (begun.after recordedOnce).disk }
      (b.startPlayback ⟨"run.m64"⟩).2.frontend.prompts =
        [foreignMovieMessage
          { romName := "THE LEGEND OF ZELDA: MAJORA'S M", romCrc1 := longNamed.machine.rom.crc1 }
          longNamed.machine.rom] := by
  obtain ⟨begun, hrecord⟩ : ∃ begun, longNamed.startRecording 7 ⟨"run.m64"⟩
      Movie.StartFlags.nothing "" "" = (.ok (), begun) := ⟨_, Prod.ext rfl rfl⟩
  have hspares : Along (Spares ⟨"run.m64"⟩) recordedOnce begun := ⟨trivial, trivial, trivial⟩
  refine ⟨begun, hrecord, hspares, ?_⟩
  intro b
  have hname : Movie.clip 32 longNamed.machine.rom.name = "THE LEGEND OF ZELDA: MAJORA'S M" := by
    decide
  have hunfit : ¬Movie.FieldHolds 32 longNamed.machine.rom.name := by decide
  obtain ⟨hsame | hasked, hquiet⟩ := startPlayback_asks_iff (b := b) hrecord hspares rfl rfl
  · obtain hactive | hsilent | hholds := hquiet.1 hsame
    · cases hactive
    · cases hsilent
    · exact absurd hholds hunfit
  · rw [← hname]
    exact hasked

end Deck

end Rewind
