import Rewind.Movie.Freeze
import Rewind.Movie.Header
import Rewind.Storage.Files

/-!
Recordings: a movie file's header and samples, as bytes and in files.
-/

namespace Rewind.Movie

open Storage (Pathname)

/-- The header at the front of `data`. -/
def Header.ofBytes (data : ByteArray) : Except Error Header :=
  if data.size < size then .error .truncated
  else if Wire.Layout.u32.get data 0 ≠ magic then .error .badMagic
  else
    let version := Wire.Layout.u32.get data 4
    if version ≠ Movie.version then .error (.unsupportedVersion version)
    else .ok (layout.get data 0)

/-- A movie as a file holds it. -/
structure Recording where
  header : Header
  inputs : Array Sample
deriving DecidableEq

namespace Recording

/-- The recording with the header's count set to the number of samples. -/
def counted (r : Recording) : Recording :=
  { r with header.lengthSamples := UInt32.ofNat r.inputs.size }

/-- The bytes of a recording: its header, then its samples. -/
def toBytes (r : Recording) : ByteArray := Sample.putAll r.inputs r.header.toBytes

/-- The recording in `data`: as many samples as the header says, which must be there. -/
def ofBytes (data : ByteArray) : Except Error Recording := do
  let header ← Header.ofBytes data
  let stop := Header.size + header.lengthSamples.toNat * Sample.size
  if data.size < stop then .error .truncated
  else .ok ⟨header, Sample.unpack (data.extract Header.size stop)⟩

end Recording

/--
The recording that a freeze buffer carries. Of its header only the movie's identity, the number of
samples and the time at the cursor are known.
-/
def Freeze.toRecording (f : Freeze) : Except Error Recording :=
  if f.inputs.size < f.lengthSamples.toNat then .error .invalidFormat
  else
    let header : Header :=
      { uid := f.uid
        lengthSamples := f.lengthSamples
        lengthVis := f.currentVi
        startFlags := StartFlags.snapshot
        controllerFlags := Controller.present 0
        author := "(no author)"
        description := "(no description)" }
    .ok ⟨header, f.samples⟩

variable {m : Type → Type} [Monad m] [Files m]

/-- Reads something out of a file. -/
def readFile (ofBytes : ByteArray → Except Error α) (path : Pathname) : m (Except Error α) := do
  match ← Files.read path with
  | .error fault => return .error (.io fault)
  | .ok data => return ofBytes data

/-- Reads the header of a movie file. -/
def readHeader : Pathname → m (Except Error Header) := readFile Header.ofBytes

/-- Reads a movie file. -/
def readRecording : Pathname → m (Except Error Recording) := readFile Recording.ofBytes

/-- Writes a movie file; the header's count is taken from the samples. -/
def writeRecording (path : Pathname) (r : Recording) : m (Except Error Unit) := do
  return (← Files.write path r.counted.toBytes).mapError .io

/-- Changes the author and the description in a movie file's header and leaves the rest. -/
def writeAuthor (path : Pathname) (author description : String) : m (Except Error Unit) := do
  match ← readHeader path with
  | .error e => return .error e
  | .ok header =>
    return (← Files.patch path { header with author, description }.toBytes).mapError .io

end Rewind.Movie
