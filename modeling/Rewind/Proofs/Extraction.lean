import Rewind.Command
import Rewind.Proofs.Deck.FailedSaves
import Rewind.Proofs.Gzip.PlainBlocks
import Rewind.Proofs.Movie.FileRoundTrip
import Rewind.Proofs.Savestate.Expressible

/-!
Movies taken out of savestates. A command is gone through step by step: `Command.Does` says what a
program makes of given files, `Command.Stops` with which message it stops. Main statement: what is
taken out is the movie that was put in (`extracts_embedded`).
-/

namespace Rewind

open Savestate
open Storage (Pathname Tree)

namespace Command

/-! ## Programs on files -/

section Does

variable {α β ε : Type} {files files' files'' : Tree} {message : String}

theorem bind_of_eq {program : StateM Tree α} {next : α → StateM Tree β} {a : α}
    (h : program files = (a, files')) : (program >>= next) files = next a files' := by
  have hbind : (program >>= next) files = next (program files).1 (program files).2 := rfl
  rw [hbind, h]

/-- On these files the program ends with `a`, and leaves the others. -/
def Does (program : ExceptT String (StateM Tree) α) (files files' : Tree) (a : α) : Prop :=
  program.run files = (.ok a, files')

theorem Does.pure (a : α) : Does (pure a) files files a := rfl

theorem Does.bind {program : ExceptT String (StateM Tree) α}
    {next : α → ExceptT String (StateM Tree) β} {a : α} {b : β} (h : Does program files files' a)
    (h' : Does (next a) files' files'' b) : Does (program >>= next) files files'' b := by
  have hbind : (program >>= next).run files =
      ExceptT.bindCont next (program.run files).1 (program.run files).2 := rfl
  rw [Does, hbind, h]
  exact h'

theorem Does.lift {program : StateM Tree α} {a : α} (h : program files = (a, files')) :
    Does (ExceptT.lift program) files files' a := by
  have hlift : (ExceptT.lift program : ExceptT String (StateM Tree) α).run files =
      (.ok (program files).1, (program files).2) := rfl
  rw [Does, hlift, h]

theorem Does.orStop {message : ε → String} {result : Except ε α} {a : α} (h : result = .ok a) :
    Does (orStop message result) files files a := by
  subst h
  rfl

/-- On these files the program stops with the message, and leaves the others. -/
def Stops (program : ExceptT String (StateM Tree) α) (files files' : Tree) (message : String) :
    Prop :=
  program.run files = (.error message, files')

theorem Stops.bind {program : ExceptT String (StateM Tree) α}
    {next : α → ExceptT String (StateM Tree) β} (h : Stops program files files' message) :
    Stops (program >>= next) files files' message := by
  have hbind : (program >>= next).run files =
      ExceptT.bindCont next (program.run files).1 (program.run files).2 := rfl
  rw [Stops, hbind, h]
  rfl

theorem Does.bind_stops {program : ExceptT String (StateM Tree) α}
    {next : α → ExceptT String (StateM Tree) β} {a : α} (h : Does program files files' a)
    (h' : Stops (next a) files' files'' message) :
    Stops (program >>= next) files files'' message := by
  have hbind : (program >>= next).run files =
      ExceptT.bindCont next (program.run files).1 (program.run files).2 := rfl
  rw [Stops, hbind, h]
  exact h'

theorem Stops.orStop {message : ε → String} {result : Except ε α} {e : ε}
    (h : result = .error e) : Stops (orStop message result) files files (message e) := by
  subst h
  rfl

end Does

variable {files : Tree} {state target : Pathname}

theorem readState_does {raw data : ByteArray} {decoded : Decoded}
    (hread : Storage.read state files = .ok raw) (hexpand : Gzip.decompress raw = .ok data)
    (hdecode : decode data = .ok decoded) : Does (readState state) files files decoded := by
  have hfile : Files.read (m := StateM Tree) state files = (Storage.read state files, files) := rfl
  refine (Does.lift hfile).bind ((Does.orStop hread).bind ?_)
  exact (Does.orStop hexpand).bind (.orStop hdecode)

/-- What is said of a file that cannot be expanded. -/
def cannotExpand (path : Pathname) (e : Gzip.Error) : String :=
  "Failed to decompress " ++ path.text ++ ": " ++ (Savestate.Error.decompression e).message

theorem readState_stops {raw : ByteArray} {e : Gzip.Error}
    (hread : Storage.read state files = .ok raw) (hexpand : Gzip.decompress raw = .error e) :
    Stops (readState state) files files (cannotExpand state e) := by
  have hfile : Files.read (m := StateM Tree) state files = (Storage.read state files, files) := rfl
  refine (Does.lift hfile).bind_stops ((Does.orStop hread).bind_stops ?_)
  exact (Stops.orStop hexpand).bind

theorem extract_does {decoded : Decoded} {freeze : Movie.Freeze} {movie : Movie.Recording}
    {files' : Tree} (hstate : Does (readState state) files files decoded)
    (hfreeze : decoded.snapshot.movie = some freeze) (hmovie : freeze.toRecording = .ok movie)
    (hwrite : Movie.writeRecording (m := StateM Tree) target movie files = (.ok (), files')) :
    Does (extract state (some target)) files files' () := by
  refine hstate.bind ?_
  rw [hfreeze]
  refine (Does.orStop hmovie).bind ?_
  exact (Does.lift hwrite).bind (.orStop rfl)

/-- A command that does what it is asked for and prints nothing. -/
theorem run_of_does {args : List String} {command : Command} {files' : Tree}
    (hparse : parse args = .ok command) (hdoes : Does (perform command) files files' []) :
    run (m := StateM Tree) args files = (⟨0, "", ""⟩, files') := by
  have hprogram : Does (orStop id (parse args) >>= fun command => perform command >>= pure)
      files files' [] := (Does.orStop hparse).bind (hdoes.bind (.pure []))
  unfold run
  exact bind_of_eq hprogram

theorem run_of_stops {args : List String} {command : Command} {files' : Tree} {message : String}
    (hparse : parse args = .ok command) (hstops : Stops (perform command) files files' message) :
    run (m := StateM Tree) args files = (⟨1, "", lines [message]⟩, files') := by
  have hprogram : Stops (orStop id (parse args) >>= fun command => perform command >>= pure)
      files files' message := (Does.orStop hparse).bind_stops hstops.bind
  unfold run
  exact bind_of_eq hprogram

/-- Nothing is extracted from a file that cannot be expanded, and no file changes. -/
theorem run_extract_of_error {raw : ByteArray} {e : Gzip.Error}
    (hread : Storage.read state files = .ok raw) (hexpand : Gzip.decompress raw = .error e)
    (rest : List String) : run (m := StateM Tree) ("extract-movie" :: state.text :: rest) files =
      (⟨1, "", lines [cannotExpand state e]⟩, files) :=
  run_of_stops rfl (readState_stops hread hexpand).bind.bind

end Command

namespace Movie

open Command

/-! ## What is taken out -/

/-- The samples of a buffer and its lookahead. -/
theorem Freeze.exists_lookahead {f : Freeze} (h : f.inputs.size = f.lengthSamples.toNat + 1) :
    f.samples.size = f.lengthSamples.toNat ∧ ∃ lookahead, f.inputs = f.samples.push lookahead := by
  have hne : f.inputs.size ≠ 0 := by omega
  obtain ⟨samples, lookahead, hpush⟩ := Array.eq_push_of_size_ne_zero hne
  have hsize : samples.size = f.lengthSamples.toNat := by
    rw [hpush, Array.size_push] at h
    omega
  have hsamples : f.samples = samples := by
    rw [Freeze.samples, hpush, ← hsize]
    simp
  exact ⟨hsamples ▸ hsize, lookahead, hsamples ▸ hpush⟩

/-- The recording that is made of a buffer. -/
def Freeze.recording (f : Freeze) : Recording where
  header :=
    { uid := f.uid
      lengthSamples := f.lengthSamples
      lengthVis := f.currentVi
      startFlags := StartFlags.snapshot
      controllerFlags := Controller.present 0
      author := "(no author)"
      description := "(no description)" }
  inputs := f.samples

theorem Freeze.toRecording_eq {f : Freeze} (h : f.inputs.size = f.lengthSamples.toNat + 1) :
    f.toRecording = .ok f.recording :=
  if_neg (by omega)

/-- The texts of such a recording fit their fields. -/
theorem Freeze.clipped_recording (f : Freeze) :
    f.recording.header.clipped = f.recording.header := by
  refine Header.clipped_of_fits ?_
  simp only [Header.texts, recording, List.forall_mem_cons, List.not_mem_nil, false_implies,
    implies_true, and_true]
  decide

/-- A recording made of a buffer is read back from its file as it is. -/
theorem Freeze.ofBytes_toBytes_recording {f : Freeze}
    (h : f.inputs.size = f.lengthSamples.toNat + 1) :
    Recording.ofBytes f.recording.counted.toBytes = .ok f.recording := by
  have hsize : f.recording.inputs.size = f.lengthSamples.toNat := (exists_lookahead h).1
  have hs : f.recording.inputs.size < UInt32.size := hsize ▸ f.lengthSamples.toNat_lt_size
  have hlength : UInt32.ofNat f.recording.inputs.size = f.lengthSamples := by
    rw [hsize, UInt32.ofNat_toNat]
  have hback := Recording.readBack_counted f.recording.header f.recording.inputs
  rw [Freeze.clipped_recording, hlength] at hback
  have hheader : f.recording.counted.header.readBack = f.recording.header := hback
  rw [Recording.ofBytes_toBytes rfl hs, hheader]

/-! ## Extraction -/

/-- Extracting the movie of a state file into a target succeeds, says nothing, and leaves a movie
file that reads back as the recording. -/
def Extracts (state target : Pathname) (files : Tree) (movie : Recording) : Prop :=
  ∀ rest, ∃ files', Command.run (m := StateM Tree)
      ("extract-movie" :: state.text :: target.text :: rest) files = (⟨0, "", ""⟩, files') ∧
    readRecording (m := StateM Tree) target files' = (.ok movie, files')

theorem extracts_recording {files : Tree} {state target : Pathname} {raw data : ByteArray}
    {decoded : Decoded} {freeze : Freeze} (hread : Storage.read state files = .ok raw)
    (hexpand : Gzip.decompress raw = .ok data) (hdecode : decode data = .ok decoded)
    (hfreeze : decoded.snapshot.movie = some freeze)
    (htarget : ∃ place, files.target target = .ok place) :
    Extracts state target files freeze.recording := by
  intro rest
  have hsize := (decode_wellFormed hdecode).1.movie freeze hfreeze
  obtain ⟨place, hplace⟩ := htarget
  let written := files.put place (.file freeze.recording.counted.toBytes)
  have hfile : files.write target freeze.recording.counted.toBytes = (.ok (), written) := by
    rw [Tree.write, hplace]
  have hwrite : writeRecording (m := StateM Tree) target freeze.recording files =
      (.ok (), written) :=
    congrArg (fun p : Except Storage.Fault Unit × Tree => (p.1.mapError Error.io, p.2)) hfile
  have hextract : Does (extract state (some target)) files written () :=
    extract_does (readState_does hread hexpand hdecode) hfreeze (freeze.toRecording_eq hsize) hwrite
  have hback : Storage.read target written = .ok freeze.recording.counted.toBytes :=
    Tree.read_write hfile
  refine ⟨written, run_of_does rfl (hextract.bind (.pure [])), ?_⟩
  rw [readRecording_eq, hback]
  exact congrArg (·, written) (Freeze.ofBytes_toBytes_recording hsize)

end Movie

namespace Deck

variable {M H : Type} [Core M] [Frontend H] {d : Deck M H Tree} {r : Request}

/-! ## States saved with a movie -/

/-- What is handed over of an expressible machine is a savestate at the position of its movie. -/
theorem decode_of_saved (hr : r.job = .save) (hactive : d.movie.isActive = true)
    (hfits : d.movie.inputs.size < UInt32.size)
    (hcapture : { d.snapshot with movie := none }.Expressible) {saved : ByteArray}
    (h : (d.execute r).1.result = .ok saved) :
    ∃ decoded, decode saved = .ok decoded ∧ decoded.snapshot.movie = d.movie.freeze ∧
      decoded.snapshot.romHash = (Core.capture d.machine).romHash := by
  rw [execute_save_eq hr] at h
  obtain ⟨encoded, he, rfl⟩ := saveState_eq_ok h
  have hexpressible : d.snapshot.Expressible :=
    { hcapture with
      movie := by
        intro freeze hfreeze
        have hposition : d.movie.freeze = some _ := if_pos hactive
        obtain rfl := Option.some.inj (hposition.symm.trans hfreeze)
        exact Movie.Freeze.size_inputs_ofInputs hfits }
  have hrom : encoded.snapshot.romHash = (Core.capture d.machine).romHash := by
    have hsame := romHash_finishTransfer d.snapshot
    rwa [finishTransfer_of_encode he] at hsame
  exact ⟨_, decode_of_encode_expressible hexpressible he, movie_of_encode he, hrom⟩

omit [Frontend H] in
theorem statePath?_of_tape {e : Deck M H Tree} (h : e.tape = d.tape) (medium : Medium) :
    e.statePath? medium = d.statePath? medium := by
  have hconfig : e.config = d.config := congrArg Tape.config h
  have hmachine : e.machine = d.machine := congrArg Tape.machine h
  unfold statePath?
  rw [hconfig, hmachine]

/-- A file that is written holds what was saved, packed as the settings say. -/
theorem read_store {medium : Medium} {state : ByteArray} {path : Pathname}
    (h : (d.store medium state).1 = .ok state) (hpath : d.statePath? medium = some path) :
    Storage.read path (d.store medium state).2.disk = .ok (d.config.pack state) := by
  unfold store at h ⊢
  simp only [hpath] at h ⊢
  generalize hw : d.writeState path state = written at h ⊢
  obtain ⟨result, d'⟩ := written
  cases result with
  | error e => cases h
  | ok =>
    obtain ⟨disk, hdisk⟩ := writeState_eq_ok hw
    exact Tree.read_write hdisk

theorem read_saved (hr : r.job = .save) {saved : ByteArray}
    (h : (d.execute r).1.result = .ok saved) {path : Pathname}
    (hpath : (d.execute r).2.statePath? r.medium = some path) :
    Storage.read path (d.execute r).2.disk = .ok (d.config.pack saved) := by
  rw [execute_save_eq hr] at h hpath ⊢
  obtain ⟨encoded, he, rfl⟩ := saveState_eq_ok h
  rw [saveState_of_encode he] at h hpath ⊢
  rw [statePath?_of_tape (tape_store _ _ _)] at hpath
  exact read_store h hpath

end Deck

namespace Gzip

/-- What stands in a file, as it is or compressed. -/
def Holds (files : Tree) (path : Pathname) (data : ByteArray) : Prop :=
  ∃ raw, Storage.read path files = .ok raw ∧ decompress raw = .ok data

end Gzip

open Movie Machine

/-- **An extracted movie is the one that was embedded.** Of every file that holds a savestate with a
movie position, extraction to a file that can be written leaves a movie file with the samples of the
position and without its lookahead. What was saved while a movie was active is such a savestate,
and its file holds it, unless it was compressed and is too much to expand. -/
theorem extracts_embedded (M H : Type) [Core M] [Frontend H] :
    (∀ (files : Tree) (state target : Pathname) (data : ByteArray) (decoded : Decoded)
        (freeze : Freeze), Gzip.Holds files state data → decode data = .ok decoded →
      decoded.snapshot.movie = some freeze → (∃ place, files.target target = .ok place) →
      ∃ movie lookahead, Extracts state target files movie ∧
        movie.inputs.size = freeze.lengthSamples.toNat ∧
        freeze.inputs = movie.inputs.push lookahead ∧ movie.header.uid = freeze.uid ∧
        movie.header.lengthVis = freeze.currentVi ∧
        movie.header.startFlags = StartFlags.snapshot) ∧
    ∀ (d : Deck M H Tree) (r : Request) (saved : ByteArray), r.job = .save →
      { d.snapshot with movie := none }.Expressible → (Core.capture d.machine).romHash.IsAscii →
      d.movie.isActive = true → d.movie.inputs.size < UInt32.size →
      (d.execute r).1.result = .ok saved →
      Gzip.decompress saved = .ok saved ∧
      (∀ path, (d.execute r).2.statePath? r.medium = some path →
        (d.config.compressSavestates = true → saved.size ≤ Gzip.expandedLimit) →
        Gzip.Holds (d.execute r).2.disk path saved) ∧
      ∀ (files : Tree) (state target : Pathname), Gzip.Holds files state saved →
        (∃ place, files.target target = .ok place) →
        ∃ movie, Extracts state target files movie ∧ movie.inputs = d.movie.inputs := by
  refine ⟨fun files state target data decoded freeze hholds hdecode hfreeze htarget => ?_,
    fun d r saved hr hcapture hascii hactive hfits hsaved => ?_⟩
  · obtain ⟨raw, hread, hexpand⟩ := hholds
    have hsize := (decode_wellFormed hdecode).1.movie freeze hfreeze
    obtain ⟨hcount, lookahead, hpush⟩ := Freeze.exists_lookahead hsize
    exact ⟨freeze.recording, lookahead,
      extracts_recording hread hexpand hdecode hfreeze htarget, hcount, hpush, rfl, rfl, rfl⟩
  · obtain ⟨decoded, hdecode, hmovie, hrom⟩ := Deck.decode_of_saved hr hactive hfits hcapture hsaved
    obtain ⟨hne, hplain⟩ := decompress_of_romHash (romHash_of_decode hdecode) (hrom ▸ hascii)
    refine ⟨hplain, fun path hpath hlimit => ?_, fun files state target hholds htarget => ?_⟩
    · exact ⟨_, Deck.read_saved hr hsaved hpath, Config.decompress_pack hplain hne hlimit⟩
    · obtain ⟨raw, hread, hexpand⟩ := hholds
      have hposition : d.movie.freeze = some _ := if_pos hactive
      exact ⟨_, extracts_recording hread hexpand hdecode (hmovie.trans hposition) htarget,
        Freeze.samples_ofInputs hfits⟩

namespace Deck

/-- A silent deck in the middle of a recording. -/
def midway (inputs : Array Sample) : Deck Accumulator Journal Tree :=
  { silenced [] with
    movie := { task := .recording, header.uid := 7, inputs, currentSample := 1, currentVi := 3 } }

/-- The save of that deck to a file. -/
def midwaySave : Request := { job := .save, medium := .path ⟨"run.st"⟩ }

variable {inputs : Array Sample}

theorem wellFormed_midway (h : inputs.size < UInt32.size) : (midway inputs).snapshot.WellFormed :=
  { waiting_wellFormed with
    movie := by rintro _ ⟨⟩; exact Freeze.size_inputs_ofInputs h
    screenshot := by rintro _ ⟨⟩ }

/-- The deck is saved to its file, compressed. -/
theorem saved_midway (inputs : Array Sample) : ∃ encoded,
    encode (midway inputs).snapshot = .ok encoded ∧
      ((midway inputs).execute midwaySave).1.result = .ok encoded.bytes ∧
      ((midway inputs).execute midwaySave).2.disk =
        ⟨[(["run.st"], .file ((midway inputs).config.pack encoded.bytes))]⟩ := by
  obtain ⟨encoded, hencode⟩ : ∃ encoded, encode (midway inputs).snapshot = .ok encoded :=
    encode_of_noScreen rfl (Nat.le_of_ble_eq_true rfl)
  have hwrite : Storage.write (⟨"run.st"⟩ : Pathname) ((midway inputs).config.pack encoded.bytes)
      (midway inputs).disk =
        (.ok (), ⟨[(["run.st"], .file ((midway inputs).config.pack encoded.bytes))]⟩) := rfl
  rw [execute_save_eq rfl]
  exact ⟨encoded, hencode, saveState_path_of_write hencode rfl hwrite⟩

end Deck

/-- What is saved between two samples, in a file of its own, gives both of them back. -/
theorem extracts_embedded_midway :
    let files := ((Deck.midway #[⟨1, 0, 0⟩, ⟨2, 0, 0⟩]).execute Deck.midwaySave).2.disk
    (∃ movie lookahead, Extracts ⟨"run.st"⟩ ⟨"out.m64"⟩ files movie ∧
      #[⟨1, 0, 0⟩, ⟨2, 0, 0⟩, .neutral] = movie.inputs.push lookahead ∧ movie.header.uid = 7 ∧
      movie.header.lengthVis = 3) ∧
    ∃ movie, Extracts ⟨"run.st"⟩ ⟨"out.m64"⟩ files movie ∧
      movie.inputs = #[⟨1, 0, 0⟩, ⟨2, 0, 0⟩] := by
  intro files
  have hcount : (#[⟨1, 0, 0⟩, ⟨2, 0, 0⟩] : Array Sample).size < UInt32.size := by decide
  have hformed := Deck.wellFormed_midway hcount
  obtain ⟨encoded, hencode, hresult, hdisk⟩ := Deck.saved_midway #[⟨1, 0, 0⟩, ⟨2, 0, 0⟩]
  obtain ⟨hposition, hsaved⟩ := extracts_embedded Accumulator Journal
  obtain ⟨-, hown, hextract⟩ := hsaved (Deck.midway #[⟨1, 0, 0⟩, ⟨2, 0, 0⟩]) Deck.midwaySave
    encoded.bytes rfl { hformed.expressible with movie := by rintro _ ⟨⟩ } Deck.isAscii_cutOff rfl
    (by decide) hresult
  have hholds : Gzip.Holds files ⟨"run.st"⟩ encoded.bytes :=
    hown _ rfl fun _ => size_le_of_encode hencode rfl (Nat.le_of_ble_eq_true rfl)
  have htarget : ∃ place, files.target ⟨"out.m64"⟩ = .ok place := by
    change ∃ place, ((Deck.midway _).execute Deck.midwaySave).2.disk.target _ = _
    rw [hdisk]
    exact ⟨["out.m64"], rfl⟩
  refine ⟨?_, hextract files _ _ hholds htarget⟩
  obtain ⟨movie, lookahead, hmade, -, hpush, huid, hvis, -⟩ :=
    hposition files _ _ encoded.bytes _ _ hholds (decode_of_encode hformed hencode)
      (movie_of_encode hencode) htarget
  exact ⟨movie, lookahead, hmade, hpush, huid, hvis⟩

/-! ## States that are not read back from their files -/

/-- Extracting the movie of a state file stops with the error and changes no file, although the
target can be written. -/
def CannotExtract (state target : Pathname) (files : Tree) (e : Gzip.Error) : Prop :=
  (∃ place, files.target target = .ok place) ∧ ∀ rest, Command.run (m := StateM Tree)
    ("extract-movie" :: state.text :: target.text :: rest) files =
      (⟨1, "", Command.lines [Command.cannotExpand state e]⟩, files)

namespace Gzip

/-- A ROM hash that is a compressed file of nothing, and some zeros. -/
def nothing : Wire.Block romHashSize :=
  .ofBytes _ ⟨#[0x1F, 0x8B, 8, 0, 0, 0, 0, 0, 0, 0xFF, 1, 0, 0, 0xFF, 0xFF]⟩

theorem bytes_nothing : nothing.bytes = compress ByteArray.empty 6 ++ Bytes.zeros 9 := by
  have hplain (out : ByteArray) : putPlain ByteArray.empty 0 out =
      (out.push 1 |> Bytes.putNat 2 0 |> Bytes.putNat 2 plainBlockLimit) ++ ByteArray.empty := by
    rw [putPlain]
    rfl
  rw [compress, hplain]
  rfl

/-- A savestate under that hash is taken for a compressed one, and nothing is in it. -/
theorem decompress_of_nothing {data : ByteArray} {decoded : Decoded}
    (hdecode : decode data = .ok decoded) (hhash : decoded.snapshot.romHash = nothing) :
    decompress data = .error .empty := by
  obtain ⟨hsize, hbytes⟩ := romHash_eq_ok (romHash_of_decode hdecode)
  have hsplit : data = compress ByteArray.empty 6 ++
      (Bytes.zeros 9 ++ data.extract romHashSize data.size) := by
    rw [← ByteArray.append_assoc, ← bytes_nothing, ← hhash, hbytes,
      ← ByteArray.extract_eq_extract_append_extract romHashSize (Nat.zero_le _) hsize,
      ByteArray.extract_zero_size]
  rw [hsplit, decompress_compress_append]
  rfl

end Gzip

/-- A machine in the middle of a movie, with that hash. -/
def nameless : Snapshot :=
  { Accumulator.powerOn with
    romHash := Gzip.nothing
    movie := some Deck.onward
    screenshot := none }

/-- Its savestate, in a file as it is. -/
def namelessFile : Tree := ⟨[(["run.st"], .file (stateBytes nameless false))]⟩

theorem decode_nameless : decode (stateBytes nameless false) = .ok ⟨nameless, false⟩ :=
  (Snapshot.Savable.captured (s := Accumulator.powerOn) { Accumulator.powerOn_savable with }
    Gzip.nothing rfl).decode_eq

namespace Deck

/-- With so many samples, the file that the deck was saved to holds a state that is too much to
expand. -/
theorem cannotExtract_midway {inputs : Array Sample}
    (hlarge : Gzip.expandedLimit ≤ inputs.size * Sample.size) :
    let d := midway inputs
    let files := (d.execute midwaySave).2.disk
    (∃ saved, (d.execute midwaySave).1.result = .ok saved ∧
      Storage.read ⟨"run.st"⟩ files = .ok (d.config.pack saved)) ∧
    CannotExtract ⟨"run.st"⟩ ⟨"out.m64"⟩ files (.tooLarge Gzip.expandedLimit) := by
  intro d files
  obtain ⟨encoded, hencode, hresult, hdisk⟩ := saved_midway inputs
  have hdisk : files = ⟨[(["run.st"], .file (d.config.pack encoded.bytes))]⟩ := hdisk
  have hread : Storage.read ⟨"run.st"⟩ files = .ok (d.config.pack encoded.bytes) := by
    rw [hdisk]
    rfl
  have hcount : (Freeze.ofInputs 7 1 3 inputs).inputs.size = inputs.size + 1 := by
    rw [Freeze.ofInputs, Array.size_push]
  have hmovie : d.snapshot.movie = some (.ofInputs 7 1 3 inputs) := rfl
  have hsize : Gzip.expandedLimit < encoded.bytes.size := by
    have hlt := lt_size_of_encode hencode hmovie
    rw [hcount, Nat.add_mul] at hlt
    omega
  refine ⟨⟨_, hresult, hread⟩, ?_, fun rest => ?_⟩
  · rw [hdisk]
    exact ⟨["out.m64"], rfl⟩
  · exact Command.run_extract_of_error hread (Config.decompress_pack_of_lt rfl hsize) _

end Deck

/-- Not every state that carries a movie can be extracted from its file: not one whose hash looks
compressed, and not one that was saved after so many samples that it is too much to expand. -/
theorem not_extracts_every :
    (Storage.read ⟨"run.st"⟩ namelessFile = .ok (stateBytes nameless false) ∧
      decode (stateBytes nameless false) = .ok ⟨nameless, false⟩ ∧
      nameless.movie = some Deck.onward ∧
      CannotExtract ⟨"run.st"⟩ ⟨"out.m64"⟩ namelessFile .empty) ∧
    let d := Deck.midway (Array.replicate 0x4000000 .neutral)
    let files := (d.execute Deck.midwaySave).2.disk
    ({ d.snapshot with movie := none }.WellFormed ∧ (Core.capture d.machine).romHash.IsAscii ∧
      d.movie.isActive = true ∧ d.movie.inputs.size < UInt32.size - 1) ∧
    (∃ saved, (d.execute Deck.midwaySave).1.result = .ok saved ∧
      Storage.read ⟨"run.st"⟩ files = .ok (d.config.pack saved)) ∧
    CannotExtract ⟨"run.st"⟩ ⟨"out.m64"⟩ files (.tooLarge Gzip.expandedLimit) := by
  refine ⟨⟨rfl, decode_nameless, rfl, ⟨["out.m64"], rfl⟩, fun rest => ?_⟩, ?_⟩
  · have hread : Storage.read ⟨"run.st"⟩ namelessFile = .ok (stateBytes nameless false) := rfl
    have hexpand := Gzip.decompress_of_nothing decode_nameless rfl
    exact Command.run_extract_of_error hread hexpand ("out.m64" :: rest)
  · have hsize : (Array.replicate 0x4000000 Sample.neutral).size = 0x4000000 :=
      Array.size_replicate
    have hfits : (Array.replicate 0x4000000 Sample.neutral).size < UInt32.size - 1 := by
      rw [hsize]
      decide
    have hlarge : Gzip.expandedLimit ≤
        (Array.replicate 0x4000000 Sample.neutral).size * Sample.size := by
      rw [hsize]
      decide
    have hformed := Deck.wellFormed_midway (Nat.lt_of_lt_of_le hfits (Nat.sub_le _ _))
    exact ⟨⟨{ hformed with movie := by rintro _ ⟨⟩ }, Deck.isAscii_cutOff, rfl, hfits⟩,
      Deck.cannotExtract_midway hlarge⟩

end Rewind
