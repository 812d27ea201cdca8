import Rewind.Proofs.Deck.Openings

/-!
From a recording to its playback, through the movie's file and the savestate beside it. Main
statement: playback of a recording hands over what was recorded, poll by poll, and the machine is
the recorded one after every frame (`startPlayback_reproduces`).
-/

namespace Rewind

open Machine Savestate

namespace Deck

open Storage (Tree Pathname)

variable {H H' : Type} [Frontend H] [Frontend H'] {program : Program} {path : Pathname}
  {flags : UInt16} {now : UInt32} {author description : String} {d d₁ d₂ : Deck Accumulator H Tree}
  {e : Deck Accumulator H' Tree} {frames frames' : List (List Poll)}

/-! ## The file in between -/

theorem BegunAt.rounds {header : Movie.Header} {d' : Deck Accumulator H Tree}
    (h : BegunAt path header d₁ d') {task : Movie.Task}
    (hm : d₁.movie = .begin path ⟨header, #[]⟩ task) (hr : task.isRecording = true)
    (program : Program) (frames : List (List Poll)) :
    let final := (d₁.rounds program.run frames).2
    (d₁.rounds program.run frames).1.map Prod.fst =
        frames.map (·.map (·.answer .recorded header.controllerFlags)) ∧
      d₁.movie.Continues (frames.flatMap (Poll.heard header.controllerFlags)) final.movie ∧
      final.movie.task.isRecording = true ∧ (frames ≠ [] → final.disk = d'.disk) := by
  intro final
  by_cases hne : frames = []
  · subst hne
    exact ⟨rfl, .refl _, hm ▸ hr, fun h => absurd rfl h⟩
  · have hrounds := rounds_of_drain_eq h.drain program.run hne
    obtain ⟨ha, hon⟩ := rounds_records h.records program.run frames
    obtain ⟨task', hm'⟩ := h.movie
    have hbegin : d₁.movie.Continues [] d'.movie := by
      rw [hm, hm']
      exact ⟨rfl, ⟨_, _, rfl⟩, rfl⟩
    simp only [final, hrounds]
    exact ⟨ha, hbegin.trans hon.movie, hon.records.isRecording, fun _ => hon.disk⟩

omit [Frontend H] in
theorem isRecording_recordingStart (flags : UInt16) (snapshot : Pathname) :
    (recordingStart flags snapshot).1.isRecording = true := by
  unfold recordingStart
  split
  · rfl
  · split <;> rfl

/-- The movie begins as a recording did that has these samples, and has as many of them as can be
counted in 32 bits. -/
structure ReadsBack (header : Movie.Header) (samples : List Sample) (movie : Movie.Recording) :
    Prop where
  header : ∃ lengthVis lengthSamples,
    movie.header = { header with lengthVis, lengthSamples }.readBack
  size : movie.inputs.size = samples.length % UInt32.size
  inputs : samples.length < UInt32.size → movie.inputs.toList = samples

/-- A recording that was stopped is read back from its file. -/
theorem readRecording_of_stopMovie {final : Deck Accumulator H Tree} {header : Movie.Header}
    {task : Movie.Task} {samples : List Sample} (hv : header.version = Movie.version)
    (hmovie : (Movie.Log.begin path ⟨header, #[]⟩ task).Continues samples final.movie)
    (hr : final.movie.task.isRecording = true) (hstop : final.stopMovie = (.ok (), d₂)) :
    Storage.write path final.movieFile final.disk = (.ok (), d₂.disk) ∧
      ∃ movie data, Storage.read path d₂.disk = .ok data ∧
        Movie.Recording.ofBytes data = .ok movie ∧ ReadsBack header samples movie := by
  obtain ⟨path', hpath, hwrite⟩ := stopMovie_eq_ok hr hstop
  obtain rfl : path' = path := Option.some.inj (hpath.symm.trans hmovie.path)
  obtain ⟨lengthVis, lengthSamples, hheader⟩ := hmovie.header
  have hinputs : final.movie.inputs.toList = samples := hmovie.inputs
  have hcount : final.movie.inputs.size = samples.length := by
    rw [← Array.length_toList, hinputs]
  have hversion : final.movie.header.version = Movie.version := by
    rw [hheader]
    exact hv
  let recording : Movie.Recording := ⟨final.movie.header, final.movie.inputs⟩
  obtain ⟨inputs, hsize, hback⟩ := Movie.Recording.ofBytes_toBytes_header (r := recording) hversion
  refine ⟨hwrite, _, _, Tree.read_write hwrite, hback, ⟨lengthVis,
    UInt32.ofNat final.movie.inputs.size, ?_⟩, ?_, fun hlt => ?_⟩
  · change Movie.Header.readBack { final.movie.header with
      lengthSamples := UInt32.ofNat final.movie.inputs.size } = _
    rw [hheader]
    rfl
  · rw [← hcount]
    exact hsize
  · have hall := Movie.Recording.ofBytes_toBytes (r := recording) hversion (hcount ▸ hlt)
    rw [hback] at hall
    have hsame : inputs = final.movie.inputs := by
      injection hall with hall
      injection hall
    rw [← hinputs, ← hsame]

/-! ## Playback -/

/-- A recording was stopped, and its file, with the state saved beside it, is there for a fresh
machine of the same cartridge. In each frame, the same controllers are polled again. -/
structure OnFile (program : Program) (path : Pathname) (flags : UInt16)
    (frames frames' : List (List Poll)) (d d₁ d₂ : Deck Accumulator H Tree)
    (e : Deck Accumulator H' Tree) : Prop where
  ready : d.Ready
  storable : d.machine.rom.Storable
  recorded : ∃ now author description,
    d.startRecording now path flags author description = (.ok (), d₁)
  begins : BeginsFrom path flags d d₁
  stopped : (d₁.rounds program.run frames).2.stopMovie = (.ok (), d₂)
  ready' : e.Ready
  sameRom : e.machine.rom = d.machine.rom
  file : Storage.read path e.disk = Storage.read path d₂.disk
  state : Storage.read (path.withExtension "st") e.disk =
    Storage.read (path.withExtension "st") d₂.disk
  again : List.Forall₂ (List.Forall₂ (Poll.Again d.machine.controllerFlags)) frames frames'

/-- Playback of what is on file starts, and follows the recording. -/
theorem OnFile.exists_startPlayback (h : OnFile program path flags frames frames' d d₁ d₂ e) :
    ∃ now author description,
      let header := newHeader d.machine now flags author description
      ∃ d' movie e₁, BegunAt path header d₁ d' ∧
        Joins path flags header d d' e ∧
        (d₁.rounds program.run frames).1.map Prod.fst =
          frames.map (·.map (·.answer .recorded d.machine.controllerFlags)) ∧
        e.startPlayback path = (.ok (), e₁) ∧
        ReadsBack header (frames.flatMap (Poll.heard d.machine.controllerFlags)) movie ∧
        (frames ≠ [] → Follows path flags header d' movie e e₁) := by
  obtain ⟨now, author, description, hrecord⟩ := h.recorded
  refine ⟨now, author, description, ?_⟩
  intro header
  obtain ⟨d', hbegun, hjoins⟩ := h.begins.begunAt H' h.ready h.storable.isAscii hrecord
  have hm₁ : d₁.movie = _ :=
    (congrArg Tape.movie (startRecording_eq h.ready hrecord)).trans (d.tape.movie_begin _ _)
  obtain ⟨ha, hmovie, hr, hdisk⟩ :=
    hbegun.rounds hm₁ (isRecording_recordingStart flags _) program frames
  rw [hm₁] at hmovie
  obtain ⟨hwrite, movie, data, hread, hback, hmade⟩ :=
    readRecording_of_stopMovie rfl hmovie hr h.stopped
  obtain ⟨lengthVis, lengthSamples, hheader⟩ := hmade.header
  have hknown : isRecordedOn movie.header (Core.rom e.machine) = true := by
    have hrome : (Core.rom e.machine : RomIdentity) = d.machine.rom := h.sameRom
    rw [hheader, hrome]
    exact isRecordedOn_readBack h.storable rfl rfl
  obtain ⟨e₁, hplay, htape, hdisk₁⟩ := startPlayback_eq h.ready' (h.file.trans hread) hback hknown
  refine ⟨d', movie, e₁, hbegun, hjoins h.ready', ha, hplay, hmade, fun hne => ⟨?_, ?_, htape, ?_⟩⟩
  · rw [hheader, Movie.Header.controllerFlags_readBack]
  · rw [hheader, Movie.Header.startFlags_readBack]
  · -- The movie was written to another file than the state.
    intro hflags state hstate
    cases h.begins with
    | reset hreset =>
      exact absurd (beginsAtReset_newHeader hreset d.machine now author description)
        (not_beginsAtReset_newHeader hflags d.machine now author description)
    | snapshot _ _ _ _ hext =>
      rw [← hdisk hne] at hstate
      rw [hdisk₁, h.state]
      exact Tree.read_withExtension_write (by decide) (by decide) hext hwrite hstate

/-- **Playback reproduces a recording.** What was recorded on the controllers that the machine knows
is handed over poll by poll, whatever is held on them, and the other polls go through, as long as
the samples can be counted in 32 bits. After every frame, the machine is the recorded one but for
the cartridge's hash, unless a transfer that the program leaves open shows where checkpoints are. -/
theorem startPlayback_reproduces (h : OnFile program path flags frames frames' d d₁ d₂ e) :
    ∃ e₁, e.startPlayback path = (.ok (), e₁) ∧
      let recorded := (d₁.rounds program.run frames).1
      let played := (e₁.rounds program.run frames').1
      recorded.map Prod.fst =
          frames.map (·.map (·.answer .recorded d.machine.controllerFlags)) ∧
        ((frames.flatMap (Poll.heard d.machine.controllerFlags)).length < UInt32.size →
          played.map Prod.fst =
              frames.map (·.map (·.answer .played d.machine.controllerFlags)) ∧
            (program.KeepsSi ∨ SameCheckpoints d e →
              played.map (·.2.state.anonymous) = recorded.map (·.2.state.anonymous))) := by
  obtain ⟨now, author, description, d', movie, e₁, hbegun, hjoins, ha, hplay, hmade, hfollows⟩ :=
    h.exists_startPlayback
  refine ⟨e₁, hplay, ha, fun hsize => ?_⟩
  have hagain := h.again
  by_cases hne : frames = []
  · subst hne
    cases hagain
    exact ⟨rfl, fun _ => rfl⟩
  · have hne' : frames' ≠ [] := by
      rintro rfl
      cases hagain
      exact hne rfl
    obtain ⟨e', hon⟩ := hjoins (hfollows hne)
    have hrest : e'.movie.remaining =
        frames.flatMap (Poll.heard d.machine.controllerFlags) ++ [] := by
      rw [hon.remaining, hmade.inputs hsize, List.append_nil]
    rw [rounds_of_drain_eq hbegun.drain program.run hne,
      rounds_of_drain_eq hon.drain program.run hne']
    exact ⟨rounds_play hon.plays program.run hagain hrest, fun hpace =>
      rounds_mirror (hon.mirrors hpace) hagain hrest⟩

/-- A running accumulator at power-on, with periodic checkpoints. -/
def powered (interval : UInt64) (disk : Tree) : Deck Accumulator Journal Tree :=
  { Session.new { seekSavestateInterval := interval } with
    queue.launched := true
    machine := cutOff.machine
    frontend := {}
    disk }

/-- A running accumulator with two controllers, in the middle of a transfer. -/
def twoPlayers : Deck Accumulator Journal Tree :=
  { Session.new {} with
    queue.launched := true
    machine :=
      { cutOff.machine with
        state := { Accumulator.powerOn with interrupts := {} }
        controllerFlags := Controller.present 0 ||| Controller.present 1 }
    frontend := {}
    disk := {} }

/-- A recording is begun on it, from the state that it is in. -/
def onTape : Deck Accumulator Journal Tree :=
  (twoPlayers.startRecording 7 ⟨"run.m64"⟩ Movie.StartFlags.snapshot "" "").2

/-- Both controllers are polled, and one that is not there. -/
def pressed : List (List Poll) :=
  [[⟨1, ⟨1, 0, 0⟩⟩, ⟨0, ⟨2, 0, 0⟩⟩, ⟨2, ⟨3, 0, 0⟩⟩], [⟨1, ⟨4, 0, 0⟩⟩]]

/-- The same polls with nothing held where there is a controller. -/
def untouched : List (List Poll) :=
  [[⟨1, .neutral⟩, ⟨0, .neutral⟩, ⟨2, ⟨3, 0, 0⟩⟩], [⟨1, .neutral⟩]]

/-- The recording, stopped after two frames. -/
def offTape : Deck Accumulator Journal Tree :=
  (onTape.rounds Accumulator.program.run pressed).2.stopMovie.2

/-- Another machine with the same cartridge and files, which keeps every sample's checkpoint. -/
def nextDay : Deck Accumulator Journal Tree := powered 1 offTape.disk

/-- The state that the recording begins from is saved beside the movie. -/
theorem saved_onTape : onTape.drain.2.movie.isActive = true ∧
    ∃ state, onTape.runBatch.2.disk = onTape.disk.put ["run.st"] (.file state) := by
  have hl : onTape.queue.launched = true := rfl
  have hp : onTape.queue.pending =
      [Request.forStart { job := .save, medium := .path ⟨"run.st"⟩ }] := rfl
  have ht : taskAfterStart? onTape.movie.task = some .recording := rfl
  let cleared : Deck Accumulator Journal Tree := { onTape with queue := onTape.queue.clear }
  obtain ⟨encoded, hencode⟩ : ∃ encoded, encode cleared.snapshot = .ok encoded :=
    encode_of_noScreen rfl (by decide)
  let state := onTape.config.pack encoded.bytes
  have hw : Storage.write ⟨"run.st"⟩ state cleared.disk =
      (.ok (), onTape.disk.put ["run.st"] (.file state)) := rfl
  obtain ⟨hsaved, hdisk⟩ := saveState_path_of_write hencode rfl hw
  have hactive : onTape.drain.2.movie.isActive =
      (cleared.saveState (.path ⟨"run.st"⟩)).1.isOk := isActive_drain_saveStart hl hp ht
  have hrun : onTape.runBatch.2 = (cleared.saveState (.path ⟨"run.st"⟩)).2.settleStart
      (cleared.saveState (.path ⟨"run.st"⟩)).1.isOk := runBatch_saveStart hp
  obtain ⟨machine, htape⟩ := tape_saveState (.path ⟨"run.st"⟩) cleared
  have hstarted := settleStart_true (d := (cleared.saveState (.path ⟨"run.st"⟩)).2)
    ((congrArg (·.queue.launched) htape).trans hl)
    ((congrArg (taskAfterStart? ·.movie.task) htape).trans ht)
  rw [hsaved] at hactive hrun
  refine ⟨hactive, state, ?_⟩
  rw [hrun]
  exact hstarted.2.trans hdisk

theorem ready_twoPlayers : twoPlayers.Ready := ⟨rfl, rfl, rfl⟩

theorem startRecording_twoPlayers :
    twoPlayers.startRecording 7 ⟨"run.m64"⟩ Movie.StartFlags.snapshot "" "" = (.ok (), onTape) :=
  Prod.ext rfl rfl

theorem wellFormed_twoPlayers : twoPlayers.machine.state.WellFormed :=
  { Accumulator.powerOn_savable.toWellFormed with events := by rintro _ ⟨⟩ }

theorem stopMovie_onTape :
    (onTape.rounds Accumulator.program.run pressed).2.stopMovie = (.ok (), offTape) := by
  obtain ⟨hwritten, state, hsaved⟩ := saved_onTape
  obtain ⟨hbegun, -⟩ := begunAt_of_snapshot Journal ready_twoPlayers (by decide)
    (by decide) wellFormed_twoPlayers rfl rfl rfl startRecording_twoPlayers hwritten
  obtain ⟨-, hmovie, hr, hkept⟩ := hbegun.rounds rfl rfl Accumulator.program pressed
  have hstopped := alike_stopSeek (onTape.rounds Accumulator.program.run pressed).2
  have hpath := (congrArg Movie.Log.path hstopped.movie).trans hmovie.path
  have hdisk := (hstopped.disk.trans (hkept nofun)).trans hsaved
  have hwrite (contents : ByteArray) : (Storage.write ⟨"run.m64"⟩ contents
      (onTape.disk.put ["run.st"] (.file state))).1 = .ok () := rfl
  refine Prod.ext ?_ rfl
  rw [(stopMovie_of_isRecording hr).1, saveMovie_of_path hpath, hdisk]
  simp only [hwrite]
  rfl

/-- Nothing is held on the two controllers, and playback hands over what was. -/
theorem startPlayback_reproduces_onTape :
    ∃ e₁, nextDay.startPlayback ⟨"run.m64"⟩ = (.ok (), e₁) ∧
      let recorded := (onTape.rounds Accumulator.program.run pressed).1
      let played := (e₁.rounds Accumulator.program.run untouched).1
      recorded.map Prod.fst =
          [[(.recorded, ⟨1, 0, 0⟩), (.recorded, ⟨2, 0, 0⟩), (.passthrough, ⟨3, 0, 0⟩)],
            [(.recorded, ⟨4, 0, 0⟩)]] ∧
        played.map Prod.fst =
          [[(.played, ⟨1, 0, 0⟩), (.played, ⟨2, 0, 0⟩), (.passthrough, ⟨3, 0, 0⟩)],
            [(.played, ⟨4, 0, 0⟩)]] ∧
        played.map (·.2.state.anonymous) = recorded.map (·.2.state.anonymous) := by
  have h : OnFile Accumulator.program ⟨"run.m64"⟩ Movie.StartFlags.snapshot pressed untouched
      twoPlayers onTape offTape nextDay :=
    { ready := ready_twoPlayers
      storable := ⟨by decide, by decide, by decide⟩
      recorded := ⟨_, _, _, startRecording_twoPlayers⟩
      begins := .snapshot (by decide) wellFormed_twoPlayers rfl rfl (by decide) rfl saved_onTape.1
      stopped := stopMovie_onTape
      ready' := ⟨rfl, rfl, rfl⟩
      sameRom := rfl
      file := rfl
      state := rfl
      again := .cons (.cons (by decide) (.cons (by decide) (.cons (by decide) .nil)))
        (.cons (.cons (by decide) .nil) .nil) }
  obtain ⟨e₁, hplay, hrecorded, hplayed⟩ := startPlayback_reproduces h
  obtain ⟨ha, hmachines⟩ := hplayed (by decide)
  exact ⟨e₁, hplay, hrecorded, ha, hmachines (.inl Accumulator.keepsSi_program)⟩

/-! ## Playback that departs from its recording -/

/-- A movie whose samples are counted as none ends at the first poll of a controller. -/
theorem OnFile.ends (h : OnFile program path flags frames frames' d d₁ d₂ e)
    (hwraps : (frames.flatMap (Poll.heard d.machine.controllerFlags)).length % UInt32.size = 0)
    {p : Poll} {polls : List Poll} {rest : List (List Poll)}
    (hframes' : frames' = (p :: polls) :: rest) (hp : p.reaches d.machine.controllerFlags = true) :
    ∃ e₁, e.startPlayback path = (.ok (), e₁) ∧
      ((e₁.rounds program.run frames').1.flatMap Prod.fst).head? = some (.ended, p.live) := by
  obtain ⟨now, author, description, d', movie, e₁, -, hjoins, -, hplay, hmade, hfollows⟩ :=
    h.exists_startPlayback
  subst hframes'
  have hne : frames ≠ [] := by
    rintro rfl
    cases h.again
  obtain ⟨e', hon⟩ := hjoins (hfollows hne)
  obtain ⟨hplays, hmovie⟩ := drain_plays hon.plays
  have hnil : e'.drain.2.movie.remaining = [] := by
    rw [hmovie, hon.remaining]
    exact List.eq_nil_of_length_eq_zero (hmade.size.trans hwraps)
  have hends := poll_ends hplays hp (Movie.Log.getElem?_of_remaining_nil hnil)
  refine ⟨e₁, hplay, ?_⟩
  rw [rounds_of_drain_eq hon.drain program.run (List.cons_ne_nil _ _)]
  change some (e'.drain.2.poll p.index p.live).1 = _
  rw [hends]

/-- A recording is begun at power-on. -/
def live (interval : UInt64) : Deck Accumulator Journal Tree :=
  ((powered interval {}).startRecording 7 ⟨"run.m64"⟩ 0 "" "").2

/-- The recording, stopped after some frames. -/
def cut (interval : UInt64) (program : Program) (frames : List (List Poll)) :
    Deck Accumulator Journal Tree :=
  ((live interval).rounds program.run frames).2.stopMovie.2

theorem startRecording_powered (interval : UInt64) :
    (powered interval {}).startRecording 7 ⟨"run.m64"⟩ 0 "" "" = (.ok (), live interval) :=
  Prod.ext rfl rfl

theorem begunAt_live (interval : UInt64) : BegunAt ⟨"run.m64"⟩
    (newHeader cutOff.machine 7 0 "" "") (live interval) (live interval) :=
  begunAt_of_reset (d := powered interval {}) ⟨rfl, rfl, rfl⟩ (by decide)
    (startRecording_powered interval)

theorem stopMovie_live (interval : UInt64) (program : Program) (frames : List (List Poll)) :
    ((live interval).rounds program.run frames).2.stopMovie =
      (.ok (), cut interval program frames) := by
  obtain ⟨-, hmovie, hr, hkept⟩ := (begunAt_live interval).rounds rfl rfl program frames
  have hdisk : ((live interval).rounds program.run frames).2.disk = (live interval).disk := by
    by_cases hne : frames = []
    · rw [hne]
      rfl
    · exact hkept hne
  have hstopped := alike_stopSeek ((live interval).rounds program.run frames).2
  have hpath := (congrArg Movie.Log.path hstopped.movie).trans hmovie.path
  have hwrite (contents : ByteArray) :
      (Storage.write ⟨"run.m64"⟩ contents (live interval).disk).1 = .ok () := rfl
  refine Prod.ext ?_ rfl
  rw [(stopMovie_of_isRecording hr).1, saveMovie_of_path hpath, hstopped.disk, hdisk]
  simp only [hwrite]
  rfl

theorem storable_cutOff : cutOff.machine.rom.Storable := ⟨by decide, by decide, by decide⟩

/-- The recording is there for a machine that keeps its checkpoints at another distance. -/
theorem onFile_live (interval interval' : UInt64) (program : Program)
    (frames : List (List Poll)) :
    OnFile program ⟨"run.m64"⟩ 0 frames frames (powered interval {}) (live interval)
      (cut interval program frames) (powered interval' (cut interval program frames).disk) where
  ready := ⟨rfl, rfl, rfl⟩
  storable := storable_cutOff
  recorded := ⟨_, _, _, startRecording_powered interval⟩
  begins := .reset (by decide)
  stopped := stopMovie_live interval program frames
  ready' := ⟨rfl, rfl, rfl⟩
  sameRom := rfl
  file := rfl
  state := rfl
  again := List.forall₂_same.2 fun _ _ => List.forall₂_same.2 fun _ _ => ⟨rfl, fun _ => rfl⟩

/-- The player does what another recorder does that keeps its checkpoints at the same distance. -/
theorem machines_powered (interval interval' : UInt64) (program : Program)
    {frames : List (List Poll)} (hne : frames ≠ [])
    (hsize : (frames.flatMap (Poll.heard (Controller.present 0))).length < UInt32.size) :
    ∃ e₁, (powered interval' (cut interval program frames).disk).startPlayback ⟨"run.m64"⟩ =
        (.ok (), e₁) ∧
      (e₁.rounds program.run frames).1.map (·.2.state.anonymous) =
        ((live interval').rounds program.run frames).1.map (·.2.state.anonymous) := by
  have h := onFile_live interval interval' program frames
  obtain ⟨now, author, description, d', movie, e₁, -, -, -, hplay, hmade, hfollows⟩ :=
    h.exists_startPlayback
  have hstart := hfollows hne
  have hfollows' : Follows ⟨"run.m64"⟩ 0 (newHeader cutOff.machine 7 0 "" "") (live interval') movie
      (powered interval' (cut interval program frames).disk) e₁ :=
    ⟨hstart.controllers, hstart.startFlags, hstart.tape, fun hflags => absurd rfl hflags⟩
  obtain ⟨e', hon⟩ := joins_of_reset (d := powered interval' {}) ⟨rfl, rfl, rfl⟩ h.ready'
    (by decide) (startRecording_powered interval') hfollows'
  have hremaining := hon.remaining
  rw [hmade.inputs hsize, ← List.append_nil (List.flatMap _ _)] at hremaining
  refine ⟨e₁, hplay, ?_⟩
  rw [rounds_of_drain_eq hon.drain program.run hne]
  exact rounds_mirror (hon.mirrors (.inr ⟨rfl, rfl, rfl⟩)) h.again hremaining

/-- A program that takes all interrupts off the queue when something is pressed. -/
def released : Program where
  step s seen := if seen.all (· == .neutral) then s else { s with interrupts.events := [] }
  step_congr {s s'} seen h := by
    split
    · exact h
    · exact congrArg (fun s : Snapshot => { s with interrupts.events := [] }) h

/-- Something is pressed in the first of two frames. -/
def pressedOnce : List (List Poll) := [[⟨0, ⟨1, 0, 0⟩⟩], [⟨0, .neutral⟩]]

theorem events_live (interval : UInt64) (program : Program) (frames : List (List Poll)) :
    ((live interval).rounds program.run frames).1.map (·.2.state.interrupts.events.length) =
      ((live interval).tape.machines program.run (Controller.present 0) frames).map
        (·.state.interrupts.events.length) := by
  have h : ((live interval).rounds program.run frames).1.map Prod.snd =
      (live interval).tape.machines program.run (Controller.present 0) frames :=
    machines_rounds (begunAt_live interval).records rfl program.run frames
  rw [← h, List.map_map]
  rfl

theorem length_heard_replicate (n : Nat) : ((List.replicate n [⟨0, .neutral⟩]).flatMap
    (Poll.heard (Controller.present 0))).length = n := by
  induction n with
  | zero => rfl
  | succ n ih =>
    rw [List.replicate_succ, List.flatMap_cons, List.length_append, ih, Nat.add_comm]
    rfl

theorem ends_live {n : Nat} (hpos : n ≠ 0) (hwraps : n % UInt32.size = 0) :
    let frames := List.replicate n [⟨0, .neutral⟩]
    ∃ e₁, (powered 100 (cut 100 Accumulator.program frames).disk).startPlayback ⟨"run.m64"⟩ =
        (.ok (), e₁) ∧
      ((e₁.rounds Accumulator.program.run frames).1.flatMap Prod.fst).head? =
        some (.ended, .neutral) := by
  intro frames
  obtain ⟨n, rfl⟩ := Nat.exists_eq_succ_of_ne_zero hpos
  have hlength := (congrArg (· % UInt32.size) (length_heard_replicate (n + 1))).trans hwraps
  exact (onFile_live 100 100 Accumulator.program frames).ends hlength (p := ⟨0, .neutral⟩)
    List.replicate_succ (by decide)

/-- Playback is not always the recording: a checkpoint that only the recorder makes ends a transfer
that stays open for the player, and a movie of 2^32 samples ends at once. -/
theorem playback_departs :
    (OnFile released ⟨"run.m64"⟩ 0 pressedOnce pressedOnce (powered 1 {}) (live 1)
        (cut 1 released pressedOnce) (powered 100 (cut 1 released pressedOnce).disk) ∧
      ∃ e₁, (powered 100 (cut 1 released pressedOnce).disk).startPlayback ⟨"run.m64"⟩ =
          (.ok (), e₁) ∧
        let recorded := ((live 1).rounds released.run pressedOnce).1
        let played := (e₁.rounds released.run pressedOnce).1
        recorded.map (·.2.state.interrupts.events.length) = [0, 1] ∧
          played.map (·.2.state.interrupts.events.length) = [0, 0]) ∧
    let frames := List.replicate UInt32.size [⟨0, .neutral⟩]
    let e := powered 100 (cut 100 Accumulator.program frames).disk
    OnFile Accumulator.program ⟨"run.m64"⟩ 0 frames frames (powered 100 {}) (live 100)
        (cut 100 Accumulator.program frames) e ∧
      ∃ e₁, e.startPlayback ⟨"run.m64"⟩ = (.ok (), e₁) ∧
        ((e₁.rounds Accumulator.program.run frames).1.flatMap Prod.fst).head? =
          some (.ended, .neutral) := by
  refine ⟨⟨onFile_live 1 100 released pressedOnce, ?_⟩, ?_⟩
  · have hne : pressedOnce ≠ [] := by decide
    obtain ⟨e₁, hplay, hmachines⟩ := machines_powered 1 100 released hne (by decide)
    refine ⟨e₁, hplay, (events_live 1 _ _).trans (by decide +kernel), ?_⟩
    have hevents := congrArg (List.map (·.interrupts.events.length)) hmachines
    rw [List.map_map, List.map_map] at hevents
    exact hevents.trans ((events_live 100 _ _).trans (by decide +kernel))
  · exact ⟨onFile_live 100 100 _ _, ends_live (by decide) (Nat.mod_self _)⟩

end Deck

end Rewind
