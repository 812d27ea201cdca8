import Rewind.Config.Json
import Rewind.Storage.Files
import Rewind.Text.Quoted

/-!
The settings of movies and savestates, and their form as a file.
-/

namespace Rewind

open Storage (Pathname)

/-- The settings. -/
structure Config where
  /-- The directory of the slots. -/
  savesDir : Pathname := ⟨"saves"⟩
  /-- Capture the machine before every batch that loads. -/
  undoOnLoad : Bool := true
  compressSavestates : Bool := true
  compressionLevel : UInt32 := 6
  /-- Keep the screen in savestates. -/
  stScreenshot : Bool := false
  /-- Answer every question with yes. -/
  silent : Bool := false
  /-- Loading a state of the movie goes on with playback instead of recording. -/
  readOnly : Bool := false
  incrementSlot : Bool := false
  /-- Samples from one checkpoint to the next; with 0 there is only the one at the start. -/
  seekSavestateInterval : UInt64 := 100
  seekSavestateMaxCount : UInt64 := 32
  pauseAtLastSample : Bool := false
deriving DecidableEq, Inhabited

namespace Config

/-- Why settings cannot be read or written. -/
inductive Error
  | io (cause : Storage.Fault)
  | json
  /-- A variable of the environment has a value that its setting cannot take. -/
  | env (key value : String)
deriving DecidableEq, Repr

/-- The text for an error. -/
def Error.message : Error → String
  | io cause => "IO error: " ++ cause.message
  | json => "invalid config JSON"
  | env key value => "invalid value " ++ Text.quote value ++ " for " ++ key

/-- The kinds of values that settings take. -/
inductive Kind
  | path
  | flag
  /-- A number below a bound. -/
  | number (bound : Nat)

/-- What a setting of a given kind holds. -/
@[reducible] def Kind.Value : Kind → Type
  | .path => Pathname
  | .flag => Bool
  | .number _ => Nat

/-- A setting: its name in files and in the environment, and its place in the settings. -/
structure Setting where
  name : String
  kind : Kind
  get : Config → kind.Value
  set : kind.Value → Config → Config

/-- All settings, in the order of the file. -/
def settings : List Setting :=
  [ ⟨"saves_dir", .path, (·.savesDir), fun v c => { c with savesDir := v }⟩,
    ⟨"undo_on_load", .flag, (·.undoOnLoad), fun v c => { c with undoOnLoad := v }⟩,
    ⟨"compress_savestates", .flag, (·.compressSavestates),
      fun v c => { c with compressSavestates := v }⟩,
    ⟨"compression_level", .number UInt32.size, (·.compressionLevel.toNat),
      fun v c => { c with compressionLevel := UInt32.ofNat v }⟩,
    ⟨"st_screenshot", .flag, (·.stScreenshot), fun v c => { c with stScreenshot := v }⟩,
    ⟨"silent", .flag, (·.silent), fun v c => { c with silent := v }⟩,
    ⟨"read_only", .flag, (·.readOnly), fun v c => { c with readOnly := v }⟩,
    ⟨"increment_slot", .flag, (·.incrementSlot), fun v c => { c with incrementSlot := v }⟩,
    ⟨"seek_savestate_interval", .number UInt64.size, (·.seekSavestateInterval.toNat),
      fun v c => { c with seekSavestateInterval := UInt64.ofNat v }⟩,
    ⟨"seek_savestate_max_count", .number UInt64.size, (·.seekSavestateMaxCount.toNat),
      fun v c => { c with seekSavestateMaxCount := UInt64.ofNat v }⟩,
    ⟨"pause_at_last_sample", .flag, (·.pauseAtLastSample),
      fun v c => { c with pauseAtLastSample := v }⟩ ]

/-- The setting of a given name. -/
def setting? (name : String) : Option Setting := settings.find? (·.name == name)

namespace Setting

/-- A setting's value as it is written in a file. -/
def render (s : Setting) (c : Config) : String :=
  match s.kind, s.get c with
  | .path, (path : Pathname) => Json.quoteText path.text
  | .flag, (flag : Bool) => toString flag
  | .number _, (n : Nat) => toString n

/-- A value from a file, if the setting can take it. -/
def ofJson? (json : Json) : (kind : Kind) → Option kind.Value
  | .path => (Pathname.mk ·) <$> json.string?
  | .flag => json.bool?
  | .number bound => json.natBelow? bound

/-- Puts a value from a file into the settings. -/
def assign (s : Setting) (json : Json) (c : Config) : Option Config :=
  (s.set · c) <$> ofJson? json s.kind

end Setting

/-- The settings as a file. -/
def render (c : Config) : String := Json.layOut (settings.map fun s => (s.name, s.render c))

/-- Puts named values into the settings. No setting may be named twice; other names are ignored. -/
def assignNamed : List (List Json.Piece × Json) → (seen : List String) → Config → Option Config
  | [], _, c => some c
  | (name, json) :: rest, seen, c => do
    let name ← Json.text? name
    match setting? name with
    | none => assignNamed rest seen c
    | some s =>
      if name ∈ seen then none else assignNamed rest (name :: seen) (← s.assign json c)

/-- Puts values into the settings in order, of which there must not be more. -/
def assignInOrder : List Setting → List Json → Config → Option Config
  | _, [], c => some c
  | [], _ :: _, _ => none
  | s :: settings, json :: rest, c => do assignInOrder settings rest (← s.assign json c)

/-- The settings in a file: named or in order, with the usual value for those that are left out. -/
def parse? (text : String) : Option Config := do
  match ← Json.parse? text with
  | .object fields => assignNamed fields [] {}
  | .array items => assignInOrder settings items {}
  | _ => none

variable {m : Type → Type} [Monad m] [Files m]

/-- Reads settings from a file. -/
def read (path : Pathname) : m (Except Error Config) := do
  match ← Files.read path with
  | .error fault => return .error (.io fault)
  | .ok data =>
    match String.fromUTF8? data with
    | none => return .error (.io .notText)
    | some text =>
      match parse? text with
      | none => return .error .json
      | some c => return .ok c

/-- Writes settings to a file. -/
def write (path : Pathname) (c : Config) : m (Except Error Unit) := do
  return (← Files.write path c.render.toUTF8).mapError .io

end Config

end Rewind
