import Rewind.Movie.Error
import Rewind.Movie.Sample
import Rewind.Savestate.Reader

/-!
The freeze buffer: the position in a movie, and the samples up to its end, as a savestate carries
them. Main notion: `Freeze.check` says whether a buffer belongs to a movie and is well formed.
-/

namespace Rewind.Movie

/-- The bytes of the four fields that `Freeze.size` counts before the samples. -/
def Freeze.fieldsSize : Nat := 16

/-- A movie position embedded in a savestate. -/
structure Freeze where
  /-- The number of bytes that follow this field on the wire. -/
  size : UInt32
  uid : UInt32
  currentSample : UInt32
  currentVi : UInt32
  lengthSamples : UInt32
  /-- One sample more than `lengthSamples`; the last is lookahead. -/
  inputs : Array Sample
deriving DecidableEq

/-- How a freeze buffer is applied to the active movie. -/
inductive RestoreMode
  /-- Cut the movie at the position, go on recording, and count a rerecord. -/
  | rerecord
  /-- Keep the movie and go on as playback. -/
  | readOnly
  /-- Move the cursor and nothing else. -/
  | reposition
deriving DecidableEq, Repr

namespace Freeze

/-- The size field of a buffer of `length` samples and the lookahead, at most the largest word. -/
def expectedSize (length : UInt32) : UInt32 :=
  UInt32.ofNat (min (fieldsSize + (length.toNat + 1) * Sample.size) (UInt32.size - 1))

/-- The buffer for a position in `inputs`, with one neutral sample of lookahead. -/
def ofInputs (uid currentSample currentVi : UInt32) (inputs : Array Sample) : Freeze where
  size := expectedSize (UInt32.ofNat inputs.size)
  uid := uid
  currentSample := currentSample
  currentVi := currentVi
  lengthSamples := UInt32.ofNat inputs.size
  inputs := inputs.push Sample.neutral

/-- Whether the buffer is one of the movie `movieUid`, at a position inside it, and well formed. -/
def check (f : Freeze) (movieUid : UInt32) : Except Error Unit :=
  if f.size.toNat < fieldsSize then .error .invalidFormat
  else if f.uid ≠ movieUid then .error .notFromThisMovie
  else if f.lengthSamples < f.currentSample then .error .invalidFrame
  else if f.size < expectedSize f.lengthSamples ∨ f.inputs.size ≠ f.lengthSamples.toNat + 1 then
    .error .invalidFormat
  else .ok ()

/-- The recorded samples, without the lookahead. -/
def samples (f : Freeze) : Array Sample := f.inputs.take f.lengthSamples.toNat

/-- Appends the buffer: five words, then every sample. -/
def put (f : Freeze) (out : ByteArray) : ByteArray :=
  [f.size, f.uid, f.currentSample, f.currentVi, f.lengthSamples].foldl
    (fun out word => Wire.Layout.u32.put word out) out |> Sample.putAll f.inputs

/-- Takes a buffer; the length field says how many samples to take besides the lookahead. -/
def get : Savestate.Reader Freeze := do
  let size ← .item .u32
  let uid ← .item .u32
  let currentSample ← .item .u32
  let currentVi ← .item .u32
  let lengthSamples ← .item .u32
  let packed ← .bytes ((lengthSamples.toNat + 1) * Sample.size)
  return ⟨size, uid, currentSample, currentVi, lengthSamples, Sample.unpack packed⟩

end Freeze

end Rewind.Movie
