import Rewind.Proofs.Deck.Beginnings
import Rewind.Proofs.Deck.Mirrored
import Rewind.Proofs.Deck.SeekReplay
import Rewind.Proofs.Movie.RecordingLayout

/-!
How a recording and its playback begin: at power-on, or at the state that was saved when the
recording began, and that playback loads. Main statement: either way the player is beside the
recorder then (`BeginsFrom.begunAt`).
-/

namespace Rewind

open Machine Savestate

/-! ## Headers -/

namespace Movie

theorem Header.controllerFlags_readBack (h : Header) :
    h.readBack.controllerFlags = h.controllerFlags := by
  rw [readBack_eq]
  rfl

theorem Header.startFlags_readBack (h : Header) : h.readBack.startFlags = h.startFlags := by
  rw [readBack_eq]
  rfl

end Movie

/-- A cartridge whose name movies can hold, and whose hash is text. -/
structure RomIdentity.Storable (rom : RomIdentity) : Prop where
  isAscii : rom.md5.IsAscii
  utf8ByteSize_le : rom.name.utf8ByteSize ≤ 31
  notMem : '\x00' ∉ rom.name.toList

namespace Deck

/-- A movie is still known as the cartridge's after it was written and read back. -/
theorem isRecordedOn_readBack {header : Movie.Header} {rom : RomIdentity} (h : rom.Storable)
    (hname : header.romName = rom.name) (hcrc : header.romCrc1 = rom.crc1) :
    isRecordedOn header.readBack rom = true := by
  have hn : header.readBack.romName = rom.name := by
    rw [Movie.Header.readBack_eq]
    change Movie.clip 32 header.romName = _
    rw [hname]
    exact Movie.clip_of_fits (Nat.lt_succ_of_le h.utf8ByteSize_le) h.notMem
  have hc : header.readBack.romCrc1 = rom.crc1 := by
    rw [Movie.Header.readBack_eq]
    exact hcrc
  rw [isRecordedOn, hn, hc, beq_self_eq_true, beq_self_eq_true]
  rfl

/-! ## Flags -/

variable {M H D : Type} [Core M]

theorem beginsAtReset_newHeader {flags : UInt16}
    (h : flags &&& (Movie.StartFlags.snapshot ||| Movie.StartFlags.existingSnapshot) = 0)
    (machine : M) (now : UInt32) (author description : String) :
    (newHeader machine now flags author description).BeginsAtReset := by
  have he : flags &&& Movie.StartFlags.existingSnapshot = 0 := by
    rw [show Movie.StartFlags.existingSnapshot = (Movie.StartFlags.snapshot |||
      Movie.StartFlags.existingSnapshot) &&& Movie.StartFlags.existingSnapshot from rfl,
      ← UInt16.and_assoc, h, UInt16.zero_and]
  have hf : (newHeader machine now flags author description).startFlags = flags := by
    change (if flags &&& Movie.StartFlags.existingSnapshot != 0 then _ else flags) = flags
    rw [he]
    rfl
  rw [Movie.Header.BeginsAtReset, hf]
  exact h

theorem playbackStart_of_snapshot {header : Movie.Header} (h : ¬header.BeginsAtReset)
    (snapshot : Storage.Pathname) : playbackStart header snapshot =
      (.startPlaybackFromSnapshot, some { job := .load, medium := .path snapshot }) := by
  have h : (header.startFlags &&& (Movie.StartFlags.snapshot |||
      Movie.StartFlags.existingSnapshot) != 0) = true := bne_iff_ne.2 h
  unfold playbackStart
  simp only [h, ↓reduceIte]

theorem not_beginsAtReset_newHeader {flags : UInt16} (h : flags &&& Movie.StartFlags.snapshot ≠ 0)
    (machine : M) (now : UInt32) (author description : String) :
    ¬(newHeader machine now flags author description).BeginsAtReset := by
  intro hreset
  have hreset : (if flags &&& Movie.StartFlags.existingSnapshot != 0 then
      Movie.StartFlags.snapshot else flags) &&& (Movie.StartFlags.snapshot |||
        Movie.StartFlags.existingSnapshot) = 0 := hreset
  split at hreset
  · exact absurd hreset (by decide)
  · refine h ?_
    rw [show Movie.StartFlags.snapshot = (Movie.StartFlags.snapshot |||
      Movie.StartFlags.existingSnapshot) &&& Movie.StartFlags.snapshot from rfl,
      ← UInt16.and_assoc, hreset, UInt16.zero_and]

theorem recordingStart_of_snapshot {flags : UInt16} (h : flags &&& Movie.StartFlags.snapshot ≠ 0)
    (snapshot : Storage.Pathname) : recordingStart flags snapshot =
      (.startRecordingFromSnapshot, some { job := .save, medium := .path snapshot }) :=
  if_pos (bne_iff_ne.2 h)

/-! ## Both sides at the start -/

end Deck

namespace Tape

variable {program : Program} {controllers : UInt32} {t u : Tape Accumulator}

omit controllers in
theorem rolling_of_begun {M : Type} {t : Tape M} (hl : t.queue.launched = true)
    (hp : t.queue.pending = []) (log : Movie.Log) (hu : log.task.isUnderway = true) :
    ((t.withMovie log).ask (.capture .checkpoint)).Rolling log.header.controllerFlags := by
  refine ⟨hu, rfl, hl, fun r hr => ?_⟩
  have hr : r ∈ [Request.capture .checkpoint] := hp ▸ hr
  exact List.mem_singleton.1 hr

/-- A player that has begun where its recorder has is beside it. -/
theorem mirrors_of_begun {log log' : Movie.Log}
    (hr : ((t.withMovie log).ask (.capture .checkpoint)).Records controllers)
    (hr' : ((u.withMovie log').ask (.capture .checkpoint)).Plays controllers)
    (hm : u.machine.state.anonymous = t.machine.state.anonymous)
    (hc : log'.currentSample = log.currentSample)
    (hq : u.queue.pending = t.queue.pending)
    (hpace : program.KeepsSi ∧ t.machine.state.HasSi ∨ t.config.stScreenshot = false ∧
      u.config.stScreenshot = false ∧
        t.checkpoints.SamePace log.currentSample u.checkpoints) :
    Mirrors program controllers ((t.withMovie log).ask (.capture .checkpoint))
      ((u.withMovie log').ask (.capture .checkpoint)) := by
  refine ⟨hr, hr', hc, hm, ?_⟩
  obtain ⟨hkeeps, hsi⟩ | ⟨hscreen, hscreen', hsame⟩ := hpace
  · exact .still hkeeps hsi
  · refine .alike hscreen hscreen' hsame ?_
    change (Request.capture .checkpoint :: u.queue.pending).length =
      (Request.capture .checkpoint :: t.queue.pending).length
    rw [hq]

end Tape

namespace Deck

open Storage (Tree Pathname)

variable {H H' : Type} [Frontend H] [Frontend H']

/-- Two decks that make checkpoints at the same samples, without a screen. A checkpoint ends the
transfer that is under way, so a machine in the middle of one shows where its checkpoints are. -/
structure SameCheckpoints {M D : Type} (d : Deck M H D) (e : Deck M H' D) : Prop where
  noScreen : d.config.stScreenshot = false
  noScreen' : e.config.stScreenshot = false
  interval : e.checkpoints.interval = d.checkpoints.interval

/-- What a recording begins from: power-on, or the machine as it is, which is saved beside the
movie. Only savestates carry a movie or a screen; a machine that runs has neither. -/
inductive BeginsFrom (path : Pathname) (flags : UInt16) (d d₁ : Deck Accumulator H Tree) : Prop
  | reset
      (flags : flags &&& (Movie.StartFlags.snapshot ||| Movie.StartFlags.existingSnapshot) = 0)
  | snapshot
      (flags : flags &&& Movie.StartFlags.snapshot ≠ 0)
      (wellFormed : d.machine.state.WellFormed)
      (movie : d.machine.state.movie = none)
      (screenshot : d.machine.state.screenshot = none)
      (extension? : path.extension? ≠ some "st".toList)
      (noScreen : d.config.stScreenshot = false)
      (written : d₁.drain.2.movie.isActive = true)

/-- A recording whose start is carried out goes on from a deck. -/
structure BegunAt (path : Pathname) (header : Movie.Header) (d₁ d' : Deck Accumulator H Tree) :
    Prop where
  drain : d₁.drain.2 = d'.drain.2
  records : d'.tape.Records header.controllerFlags
  movie : ∃ task, d'.movie = .begin path ⟨header, #[]⟩ task

/-- Playback was started of a movie that begins as a recording does, and the state that was saved
for the recording is still there. -/
structure Follows (path : Pathname) (flags : UInt16) (header : Movie.Header)
    (d' : Deck Accumulator H Tree) (movie : Movie.Recording) (e e₁ : Deck Accumulator H' Tree) :
    Prop where
  controllers : movie.header.controllerFlags = header.controllerFlags
  startFlags : movie.header.startFlags = header.startFlags
  tape : let start := playbackStart movie.header (path.withExtension "st")
    e₁.tape = e.tape.begin (.begin path movie start.1) start.2
  state : flags &&& Movie.StartFlags.snapshot ≠ 0 → ∀ data,
    Storage.read (path.withExtension "st") d'.disk = .ok data →
      Storage.read (path.withExtension "st") e₁.disk = .ok data

/-- A start of playback is carried out, and playback goes on from a deck with all samples left:
beside the recording `d'` that was begun on `d`, unless a checkpoint tells the machines apart. -/
structure GoesOn (d d' : Deck Accumulator H Tree) (controllers : UInt32) (movie : Movie.Recording)
    (e e₁ e' : Deck Accumulator H' Tree) : Prop where
  drain : e₁.drain.2 = e'.drain.2
  plays : e'.tape.Plays controllers
  remaining : e'.movie.remaining = movie.inputs.toList
  mirrors : ∀ {program : Program}, (program.KeepsSi ∨ SameCheckpoints d e) →
    d'.tape.Mirrors program controllers e'.tape

/-- Whatever playback follows the recording goes on. -/
def Joins (path : Pathname) (flags : UInt16) (header : Movie.Header)
    (d d' : Deck Accumulator H Tree) (e : Deck Accumulator H' Tree) : Prop :=
  ∀ {movie : Movie.Recording} {e₁ : Deck Accumulator H' Tree},
    Follows path flags header d' movie e e₁ →
      ∃ e', GoesOn d d' header.controllerFlags movie e e₁ e'

variable {path : Pathname} {flags : UInt16} {now : UInt32} {author description : String}
  {d d₁ : Deck Accumulator H Tree} {e : Deck Accumulator H' Tree}

/-! ### Power-on -/

theorem records_of_reset (hd : d.Ready)
    (hflags : flags &&& (Movie.StartFlags.snapshot ||| Movie.StartFlags.existingSnapshot) = 0)
    (hrecord : d.startRecording now path flags author description = (.ok (), d₁)) :
    let header := newHeader d.machine now flags author description
    let log : Movie.Log := .begin path ⟨header, #[]⟩ .startRecordingFromReset
    d₁.tape = ((d.tape.takeUp log (Core.reset d.machine)).withMovie log).ask
        (.capture .checkpoint) ∧
      d₁.tape.Records header.controllerFlags := by
  intro header log
  have ht₁ := startRecording_eq hd hrecord
  rw [recordingStart_of_reset (beginsAtReset_newHeader hflags d.machine now author description)]
    at ht₁
  let t : Tape Accumulator := d.tape.takeUp log (Core.reset d.machine)
  have ht₁ : d₁.tape = (t.withMovie log).ask (.capture .checkpoint) := ht₁
  refine ⟨ht₁, ?_⟩
  rw [ht₁]
  exact ⟨Tape.rolling_of_begun (t := t) hd.launched hd.pending log rfl, rfl, rfl⟩

theorem begunAt_of_reset (hd : d.Ready)
    (hflags : flags &&& (Movie.StartFlags.snapshot ||| Movie.StartFlags.existingSnapshot) = 0)
    (hrecord : d.startRecording now path flags author description = (.ok (), d₁)) :
    BegunAt path (newHeader d.machine now flags author description) d₁ d₁ := by
  obtain ⟨ht₁, hrecords⟩ := records_of_reset hd hflags hrecord
  exact ⟨rfl, hrecords, ⟨_, congrArg Tape.movie ht₁⟩⟩

theorem joins_of_reset (hd : d.Ready) (he : e.Ready)
    (hflags : flags &&& (Movie.StartFlags.snapshot ||| Movie.StartFlags.existingSnapshot) = 0)
    (hrecord : d.startRecording now path flags author description = (.ok (), d₁)) :
    Joins path flags (newHeader d.machine now flags author description) d d₁ e := by
  have hreset := beginsAtReset_newHeader hflags d.machine now author description
  obtain ⟨ht₁, hrecords⟩ := records_of_reset hd hflags hrecord
  generalize newHeader d.machine now flags author description = header at hreset ht₁ hrecords ⊢
  intro movie e₁ ⟨hcontrollers, hstart, htape, _⟩
  have hreset' : movie.header.BeginsAtReset := by
    rw [Movie.Header.BeginsAtReset, hstart]
    exact hreset
  simp only [playbackStart_of_reset hreset'] at htape
  let log' : Movie.Log := .begin path movie .startPlaybackFromReset
  let u : Tape Accumulator := e.tape.takeUp log' (Core.reset e.machine)
  have htape : e₁.tape = (u.withMovie log').ask (.capture .checkpoint) := htape
  have hplays : ((u.withMovie log').ask (.capture .checkpoint)).Plays header.controllerFlags :=
    ⟨hcontrollers ▸ Tape.rolling_of_begun (t := u) he.launched he.pending log' rfl, rfl⟩
  have hremaining : e₁.movie.remaining = movie.inputs.toList :=
    congrArg (fun t : Tape Accumulator => t.movie.remaining) htape
  rw [ht₁] at hrecords
  refine ⟨e₁, rfl, htape ▸ hplays, hremaining, fun hpace => ?_⟩
  rw [ht₁, htape]
  refine Tape.mirrors_of_begun hrecords hplays rfl rfl (he.pending.trans hd.pending.symm) ?_
  obtain hkeeps | hsame := hpace
  · exact .inl ⟨hkeeps, rfl⟩
  · exact .inr ⟨hsame.noScreen, hsame.noScreen', .clear hsame.interval⟩

/-! ### The machine as it is -/

/-- The state that a recording begins from is saved, and the recording runs from it. -/
structure RunsFromSaved (path : Pathname) (header : Movie.Header) (d d₁ : Deck Accumulator H Tree)
    (encoded : Encoded) : Prop where
  drain : d₁.drain.2 = d₁.runBatch.2.drain.2
  tape : d₁.runBatch.2.tape = ((d₁.tape.settled.withMachine (encoded.resume d.machine)).withMovie
    (.begin path ⟨header, #[]⟩ .recording)).ask (.capture .checkpoint)
  saved : ∃ s : Snapshot, s.bare = d.machine.state.bare ∧ encode s = .ok encoded
  loads : decode encoded.bytes = .ok ⟨encoded.snapshot, encoded.transferEnded⟩
  isAscii : encoded.snapshot.romHash.IsAscii
  size_le : encoded.bytes.size ≤ Gzip.expandedLimit
  file : Storage.read (path.withExtension "st") d₁.runBatch.2.disk =
    .ok (d.config.pack encoded.bytes)

/-- What is saved at the start of a recording is the machine, with a movie of no samples. -/
theorem runsFromSaved (hd : d.Ready) (hrom : d.machine.rom.md5.IsAscii)
    (hflags : flags &&& Movie.StartFlags.snapshot ≠ 0) (hstate : d.machine.state.WellFormed)
    (hscreen : d.config.stScreenshot = false)
    (hrecord : d.startRecording now path flags author description = (.ok (), d₁))
    (hwritten : d₁.drain.2.movie.isActive = true) :
    ∃ encoded,
      RunsFromSaved path (newHeader d.machine now flags author description) d d₁ encoded := by
  have ht₁ := startRecording_eq hd hrecord
  rw [recordingStart_of_snapshot hflags] at ht₁
  generalize newHeader d.machine now flags author description = header at ht₁ ⊢
  have hm₁ : d₁.movie = .begin path ⟨header, #[]⟩ .startRecordingFromSnapshot :=
    congrArg Tape.movie ht₁
  have hmachine₁ : d₁.machine = d.machine := congrArg Tape.machine ht₁
  have hconfig₁ : d₁.config = d.config := congrArg Tape.config ht₁
  have hl₁ : d₁.queue.launched = true := (congrArg (·.queue.launched) ht₁).trans hd.launched
  have hp₁ : d₁.queue.pending = _ :=
    (congrArg (·.queue.pending) ht₁).trans (congrArg (_ :: ·) hd.pending)
  have hnext₁ : taskAfterStart? d₁.movie.task = some .recording := by rw [hm₁]; rfl
  obtain ⟨hdrain, encoded, hencode, htape, disk, hwrite⟩ :=
    drain_savedStart hl₁ hp₁ hnext₁ hwritten
  have hsnap : d₁.snapshot =
      { d.machine.state with
        romHash := d.machine.rom.md5, movie := d₁.movie.freeze, screenshot := none } := by
    rw [snapshot, hconfig₁, hscreen, hmachine₁]
    rfl
  have hwf : d₁.snapshot.WellFormed := by
    rw [hsnap, hm₁]
    exact { hstate with
      movie := by
        rintro f ⟨⟩
        exact Movie.Freeze.size_inputs_ofInputs (show 0 < UInt32.size by decide)
      screenshot := by rintro _ ⟨⟩ }
  have hhash := romHash_finishTransfer d₁.snapshot
  rw [finishTransfer_of_encode hencode, hsnap] at hhash
  rw [hmachine₁, hm₁] at htape
  rw [hconfig₁] at hwrite
  have hsize : encoded.bytes.size ≤ Gzip.expandedLimit := by
    refine size_le_of_encode hencode (hsnap ▸ rfl) ?_
    rw [hsnap, hm₁]
    exact Nat.le_of_ble_eq_true rfl
  exact ⟨encoded, hdrain, htape, ⟨d₁.snapshot, by rw [hsnap]; rfl, hencode⟩,
    decode_of_encode hwf hencode, hhash ▸ hrom, hsize, Tree.read_write hwrite⟩

/-- Playback that loads the state from which a recording runs has the machine of the recording. -/
theorem RunsFromSaved.loaded {header : Movie.Header} {encoded : Encoded}
    (h : RunsFromSaved path header d d₁ encoded) (he : e.Ready)
    (hmovie : d.machine.state.movie = none) (hshot : d.machine.state.screenshot = none)
    {movie : Movie.Recording} {e₁ : Deck Accumulator H' Tree}
    (htape : e₁.tape = e.tape.begin (.begin path movie .startPlaybackFromSnapshot)
      (some { job := .load, medium := .path (path.withExtension "st") }))
    (hread : Storage.read (path.withExtension "st") e₁.disk = .ok (d.config.pack encoded.bytes)) :
    e₁.drain.2 = e₁.runBatch.2.drain.2 ∧ ∃ machine : Accumulator,
      e₁.runBatch.2.tape = ((e₁.tape.settled.withMachine machine).withMovie
        (.begin path movie .playback)).ask (.capture .checkpoint) ∧
      machine.state.anonymous = (encoded.resume d.machine).state.anonymous ∧
      (encoded.resume d.machine).state.HasSi := by
  have hm : e₁.movie = .begin path movie .startPlaybackFromSnapshot := congrArg Tape.movie htape
  have hl : e₁.queue.launched = true := (congrArg (·.queue.launched) htape).trans he.launched
  have hp : e₁.queue.pending = _ :=
    (congrArg (·.queue.pending) htape).trans (congrArg (_ :: ·) he.pending)
  have hnext : taskAfterStart? e₁.movie.task = some .playback := by rw [hm]; rfl
  obtain ⟨hsome, hplain⟩ := decompress_of_romHash (romHash_of_decode h.loads) h.isAscii
  have hexpand : Gzip.decompress (d.config.pack encoded.bytes) = .ok encoded.bytes :=
    Config.decompress_pack hplain hsome fun _ => h.size_le
  have hne := Config.isEmpty_pack hsome hexpand
  obtain ⟨hdrain, machine, hu⟩ := drain_loadedStart hl hp hnext hread hne hexpand h.loads
  rw [hm] at hu
  obtain ⟨s, hbare, hencode⟩ := h.saved
  obtain ⟨hsi, hsame⟩ := Accumulator.state_resume_saved hmovie hshot hbare hencode machine
  let resumed : Accumulator := Decoded.resume ⟨encoded.snapshot, encoded.transferEnded⟩ machine
  have hnoted := Accumulator.state_noteEntry (Core.programCounter resumed == legacyEntry) resumed
  exact ⟨hdrain, _, hu, (congrArg Snapshot.anonymous hnoted).trans hsame, hsi⟩

/-- Playback that loads the state from which a recording runs goes on. -/
theorem RunsFromSaved.goesOn {header : Movie.Header} {encoded : Encoded}
    (h : RunsFromSaved path header d d₁ encoded)
    (hrecords : d₁.runBatch.2.tape.Records header.controllerFlags) (he : e.Ready)
    (hmovie : d.machine.state.movie = none) (hshot : d.machine.state.screenshot = none)
    (hconfig₁ : d₁.config = d.config) (hcheckpoints₁ : d₁.checkpoints = d.checkpoints.clear)
    {movie : Movie.Recording} {e₁ : Deck Accumulator H' Tree}
    (hcontrollers : movie.header.controllerFlags = header.controllerFlags)
    (htape : e₁.tape = e.tape.begin (.begin path movie .startPlaybackFromSnapshot)
      (some { job := .load, medium := .path (path.withExtension "st") }))
    (hread : Storage.read (path.withExtension "st") e₁.disk = .ok (d.config.pack encoded.bytes)) :
    GoesOn d d₁.runBatch.2 header.controllerFlags movie e e₁ e₁.runBatch.2 := by
  obtain ⟨hdrain, machine, hu, hmachine, hsi⟩ := h.loaded he hmovie hshot htape hread
  have hl : e₁.queue.launched = true := (congrArg (·.queue.launched) htape).trans he.launched
  let t : Tape Accumulator := d₁.tape.settled.withMachine (encoded.resume d.machine)
  let u : Tape Accumulator := e₁.tape.settled.withMachine machine
  let log : Movie.Log := .begin path ⟨header, #[]⟩ .recording
  let log' : Movie.Log := .begin path movie .playback
  have ht : d₁.runBatch.2.tape = (t.withMovie log).ask (.capture .checkpoint) := h.tape
  have hu : e₁.runBatch.2.tape = (u.withMovie log').ask (.capture .checkpoint) := hu
  have hplays : ((u.withMovie log').ask (.capture .checkpoint)).Plays header.controllerFlags :=
    ⟨hcontrollers ▸ Tape.rolling_of_begun (t := u) hl rfl log' rfl, rfl⟩
  refine ⟨hdrain, hu ▸ hplays, (congrArg (·.movie.remaining) hu :), fun hpace => ?_⟩
  rw [ht, hu]
  refine Tape.mirrors_of_begun (ht ▸ hrecords) hplays hmachine rfl rfl ?_
  obtain hkeeps | hsame := hpace
  · exact .inl ⟨hkeeps, hsi⟩
  · have hcheckpoints : e₁.checkpoints = e.checkpoints.clear := congrArg Tape.checkpoints htape
    have hconfig : e₁.config = e.config := congrArg Tape.config htape
    refine .inr ⟨(congrArg (·.stScreenshot) hconfig₁).trans hsame.noScreen,
      (congrArg (·.stScreenshot) hconfig).trans hsame.noScreen', ?_⟩
    change d₁.checkpoints.SamePace 0 e₁.checkpoints
    rw [hcheckpoints₁, hcheckpoints]
    exact .clear hsame.interval

theorem RunsFromSaved.begunAt {header : Movie.Header} {encoded : Encoded}
    (h : RunsFromSaved path header d d₁ encoded) (hl₁ : d₁.queue.launched = true) :
    BegunAt path header d₁ d₁.runBatch.2 := by
  let t : Tape Accumulator := d₁.tape.settled.withMachine (encoded.resume d.machine)
  let log : Movie.Log := .begin path ⟨header, #[]⟩ .recording
  refine ⟨h.drain, ?_, ⟨_, congrArg Tape.movie h.tape⟩⟩
  rw [h.tape]
  exact ⟨Tape.rolling_of_begun (t := t) hl₁ rfl log rfl, rfl, rfl⟩

variable (H') in
/-- Both sides begin at the state that was saved beside the movie. -/
theorem begunAt_of_snapshot (hd : d.Ready) (hrom : d.machine.rom.md5.IsAscii)
    (hflags : flags &&& Movie.StartFlags.snapshot ≠ 0) (hstate : d.machine.state.WellFormed)
    (hmovie : d.machine.state.movie = none) (hshot : d.machine.state.screenshot = none)
    (hscreen : d.config.stScreenshot = false)
    (hrecord : d.startRecording now path flags author description = (.ok (), d₁))
    (hwritten : d₁.drain.2.movie.isActive = true) :
    let header := newHeader d.machine now flags author description
    BegunAt path header d₁ d₁.runBatch.2 ∧ ∀ {e : Deck Accumulator H' Tree}, e.Ready →
      Joins path flags header d d₁.runBatch.2 e := by
  intro header
  have hreset : ¬header.BeginsAtReset :=
    not_beginsAtReset_newHeader hflags d.machine now author description
  have ht₁ := startRecording_eq hd hrecord
  rw [recordingStart_of_snapshot hflags] at ht₁
  obtain ⟨encoded, hruns⟩ := runsFromSaved hd hrom hflags hstate hscreen hrecord hwritten
  have hl₁ : d₁.queue.launched = true := (congrArg (·.queue.launched) ht₁).trans hd.launched
  have hbegun : BegunAt path header d₁ d₁.runBatch.2 := hruns.begunAt hl₁
  refine ⟨hbegun, fun {e} he {movie e₁} ⟨hcontrollers, hstart, htape, hkept⟩ => ?_⟩
  have hreset' : ¬movie.header.BeginsAtReset := by
    rw [Movie.Header.BeginsAtReset, hstart]
    exact hreset
  simp only [playbackStart_of_snapshot hreset'] at htape
  exact ⟨_, hruns.goesOn hbegun.records he hmovie hshot (congrArg Tape.config ht₁)
    (congrArg Tape.checkpoints ht₁) hcontrollers htape (hkept hflags _ hruns.file)⟩

variable (H') in
/-- **A recording goes on from where it begins, and its playback beside it.** -/
theorem BeginsFrom.begunAt (h : BeginsFrom path flags d d₁) (hd : d.Ready)
    (hrom : d.machine.rom.md5.IsAscii)
    (hrecord : d.startRecording now path flags author description = (.ok (), d₁)) :
    let header := newHeader d.machine now flags author description
    ∃ d', BegunAt path header d₁ d' ∧ ∀ {e : Deck Accumulator H' Tree}, e.Ready →
      Joins path flags header d d' e := by
  cases h with
  | reset hflags =>
    exact ⟨d₁, begunAt_of_reset hd hflags hrecord, fun he => joins_of_reset hd he hflags hrecord⟩
  | snapshot hflags hstate hmovie hshot _ hscreen hwritten =>
    exact ⟨_, begunAt_of_snapshot H' hd hrom hflags hstate hmovie hshot hscreen hrecord hwritten⟩

end Deck

end Rewind
