import Rewind.Config.Basic
import Rewind.Gzip.Member
import Rewind.Movie.Recording
import Rewind.Savestate.Encoding
import Rewind.Text.Number

/-!
The command line: one command a run, which describes, repairs or creates files. A command prints
its rows, or stops with a message.
-/

namespace Rewind

open Storage (Pathname)
open Movie (Header)

/-- What a run of the program can be asked for. -/
inductive Command
  | describeState (state : Pathname)
  | describeMovie (movie : Pathname)
  | setAuthor (movie : Pathname) (author description : String)
  /-- The target may be missing, which shows only when there is a movie to write to it. -/
  | extractMovie (state : Pathname) (target : Option Pathname)
  | createConfig (target : Pathname)
  | help

namespace Command

/-- How the program is used. -/
def usage : String := "\n".intercalate
  [ "Usage: n64-replay <command> [args]",
    "",
    "Commands:",
    "  st-info <state>                         Describe a savestate file",
    "  movie-info <movie.m64>                  Print a movie header",
    "  set-author <movie.m64> <author> <desc>  Rewrite author info in place",
    "  extract-movie <state> <out.m64>         Rebuild a movie from a state's freeze buffer",
    "  config-init <config.json>               Write the default configuration" ]

/-- The command that the arguments name. More arguments than it takes are ignored. -/
def parse : List String → Except String Command
  | "st-info" :: state :: _ => .ok (.describeState ⟨state⟩)
  | "movie-info" :: movie :: _ => .ok (.describeMovie ⟨movie⟩)
  | "set-author" :: movie :: author :: description :: _ =>
    .ok (.setAuthor ⟨movie⟩ author description)
  | "extract-movie" :: state :: rest => .ok (.extractMovie ⟨state⟩ (rest.head?.map Pathname.mk))
  | "config-init" :: target :: _ => .ok (.createConfig ⟨target⟩)
  | "-h" :: _ | "--help" :: _ => .ok .help
  | [] => .error usage
  | name :: _ =>
    if name ∈ ["st-info", "movie-info", "set-author", "extract-movie", "config-init"] then
      .error usage
    else .error ("Unknown command " ++ Text.quote name ++ "\n\n" ++ usage)

/-! ## Descriptions -/

/-- The columns that a label and its colon take. -/
def labelWidth : Nat := 17

/-- A row: a label, and a value in the column behind all labels. -/
def row (label value : String) : String :=
  String.ofList (List.rightpad labelWidth ' ' (label.toList ++ [':'])) ++ value

/-- A savestate in rows. -/
def stateRows (decoded : Savestate.Decoded) : List String :=
  let s := decoded.snapshot
  let event (e : Machine.Interrupt) :=
    "  kind " ++ Text.hex0x 3 e.kind.toNat ++ " at " ++ Text.hex0x 8 e.count.toNat
  [ row "ROM hash" (Text.ofBytesLossy s.romHash.bytes),
    row "PC" (Text.hex0x 8 s.cpu.pc.toNat),
    row "COP0 Count" (Text.hex0x 8 s.cpu.count.toNat),
    row "Next interrupt" (Text.hex0x 8 s.interrupts.next.toNat),
    row "Pending events" (toString s.interrupts.events.length) ] ++
  s.interrupts.events.map event ++
  [ row "SI DMA skipped" (toString decoded.transferEnded),
    row "Movie" <| match s.movie with
      | none => "none"
      | some freeze =>
        "uid " ++ toString freeze.uid ++ " at sample " ++ toString freeze.currentSample ++ "/" ++
          toString freeze.lengthSamples ++ " (vi " ++ toString freeze.currentVi ++ ")",
    row "Screenshot" <| match s.screenshot with
      | none => "none"
      | some shot => toString shot.width ++ "x" ++ toString shot.height ]

/-- What a movie starts from, in words. -/
def startText (flags : UInt16) : String :=
  if flags &&& Movie.StartFlags.snapshot != 0 then "snapshot"
  else if flags &&& Movie.StartFlags.eeprom != 0 then "eeprom"
  else if flags &&& Movie.StartFlags.existingSnapshot != 0 then "existing snapshot"
  else "power-on"

/-- A movie header in rows. -/
def headerRows (h : Header) : List String :=
  let seconds := Text.quotientText h.lengthVis.toNat (max h.visPerSecond.toNat 1)
  [ row "Version" (toString h.version),
    row "UID" (toString h.uid),
    row "Length" (toString h.lengthSamples ++ " samples, " ++ toString h.lengthVis ++ " VIs (" ++
      seconds ++ "s)"),
    row "Rerecords" (toString h.rerecordCount),
    row "Controllers" (toString h.numControllers),
    row "Starts from" (startText h.startFlags),
    row "ROM" (h.romName ++ " (CRC " ++ Text.hex 8 h.romCrc1.toNat ++ ", country " ++
      Text.hex0x 4 h.romCountry.toNat ++ ")"),
    row "Video plugin" h.plugins.video,
    row "Audio plugin" h.plugins.audio,
    row "Input plugin" h.plugins.input,
    row "RSP plugin" h.plugins.rsp,
    row "Author" h.author,
    row "Description" h.description ]

/-! ## Carrying out -/

variable {m : Type → Type} [Monad m] [Files m]

/-- Goes on with a result, or stops with a message made from what went wrong. -/
def orStop (message : ε → String) (result : Except ε α) : ExceptT String m α :=
  .mk (pure (result.mapError message))

/-- Reads a savestate that may be compressed. -/
def readState (path : Pathname) : ExceptT String m Savestate.Decoded := do
  let failed (what cause : String) := "Failed to " ++ what ++ " " ++ path.text ++ ": " ++ cause
  let raw ← orStop (failed "read" ·.message) (← ExceptT.lift (Files.read path))
  let data ← orStop (failed "decompress" <| Savestate.Error.message <| .decompression ·)
    (Gzip.decompress raw)
  orStop (failed "decode" ·.message) (Savestate.decode data)

/-- Writes the movie that a savestate carries to a file. -/
def extract (state : Pathname) (target : Option Pathname) : ExceptT String m Unit := do
  let decoded ← readState state
  let some freeze := decoded.snapshot.movie | throw "The savestate holds no movie"
  let movie ← orStop ("Failed to rebuild movie: " ++ ·.message) freeze.toRecording
  let some target := target | throw usage
  orStop ("Failed to write " ++ target.text ++ ": " ++ ·.message)
    (← ExceptT.lift (Movie.writeRecording target movie))

/-- Carries out a command and gives the rows it prints. -/
def perform : Command → ExceptT String m (List String)
  | describeState path => do return stateRows (← readState path)
  | describeMovie path => do
    return headerRows (← orStop ("Failed to read movie: " ++ ·.message)
      (← ExceptT.lift (Movie.readHeader path)))
  | setAuthor path author description => do
    orStop ("Failed to update movie: " ++ ·.message)
      (← ExceptT.lift (Movie.writeAuthor path author description))
    return []
  | extractMovie state target => do
    extract state target
    return []
  | createConfig path => do
    orStop ("Failed to write " ++ path.text ++ ": " ++ ·.message)
      (← ExceptT.lift (Config.write path {}))
    return []
  | help => return [usage]

/-- What a run of the program leaves behind. -/
structure Output where
  code : UInt32
  stdout : String
  stderr : String

/-- Each row on a line of its own. -/
def lines (rows : List String) : String := String.join (rows.map (· ++ "\n"))

/-- Runs the program on its arguments. -/
def run (args : List String) : m Output := do
  match ← (do perform (← orStop id (parse args))).run with
  | .ok rows => return ⟨0, lines rows, ""⟩
  | .error message => return ⟨1, "", lines [message]⟩

end Command

end Rewind
