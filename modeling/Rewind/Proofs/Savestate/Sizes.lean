import Rewind.Proofs.Savestate.Expressible

/-!
How many bytes a savestate takes (`Snapshot.savedSize`). Main statement: as many are written
(`size_of_encode`).
-/

namespace Rewind

open Wire

theorem Wire.Layout.size_bytes_u32 (v : UInt32) : (u32.bytes v).size = 4 :=
  (u32_readsAs v).size_bytes

theorem Movie.Freeze.size_bytes (f : Freeze) : f.bytes.size = 20 + f.inputs.size * Sample.size := by
  simp only [bytes, ByteArray.size_append, Layout.size_bytes_u32, Sample.size_putAll]
  omega

namespace Machine

theorem Screenshot.lt_of_byteCount? {width height : UInt32} {n : Nat}
    (h : byteCount? width height = some n) : n < UInt64.size := by
  simp only [byteCount?, Option.ite_none_right_eq_some] at h
  exact Option.some.inj h.2 ▸ h.1

/-- The bytes of the flag and the movie position. -/
def movieSize : Option Movie.Freeze → Nat
  | none => 4
  | some freeze => 24 + freeze.inputs.size * Sample.size

/-- The bytes in front of the pixels of a screenshot. -/
def screenshotLead : Nat := 12

/-- The bytes of the screenshot, if there is one. -/
def screenshotSize : Option Screenshot → Nat
  | none => 0
  | some shot => screenshotLead + shot.width.toNat * shot.height.toNat * 3

/-- The bytes of a savestate in front of the screenshot. -/
def Snapshot.frontSize (s : Snapshot) : Nat :=
  romHashSize + Savestate.fixedBlockSize + (8 * s.interrupts.events.length + 4) + movieSize s.movie

/-- The bytes of a savestate. -/
def Snapshot.savedSize (s : Snapshot) : Nat := s.frontSize + screenshotSize s.screenshot

end Machine

namespace Savestate

open Machine

theorem size_eventBytes (events : List Interrupt) :
    (eventBytes events).size = 8 * events.length + 4 := by
  induction events with
  | nil => exact Layout.size_bytes_u32 _
  | cons e events ih =>
    simp only [eventBytes, ByteArray.size_append, Layout.size_bytes_u32, ih, List.length_cons]
    omega

theorem size_movieBytes (movie : Option Movie.Freeze) :
    (movieBytes movie).size = movieSize movie := by
  cases movie with
  | none => exact Layout.size_bytes_u32 _
  | some freeze =>
    simp only [movieBytes, movieSize, ByteArray.size_append, Layout.size_bytes_u32,
      Movie.Freeze.size_bytes]
    omega

theorem size_screenshotBytes (screenshot : Option Screenshot) :
    (screenshotBytes (screenshot.map Screenshot.fitted)).size = screenshotSize screenshot := by
  have htag : screenshotTag.size = 4 := rfl
  cases screenshot with
  | none => rfl
  | some shot =>
    simp only [Option.map_some, screenshotBytes, screenshotSize, screenshotLead, Screenshot.fitted,
      ByteArray.size_append, Layout.size_bytes_u32, htag, Bytes.size_fit]
    omega

theorem size_machineBytes (s : Snapshot) (marked : Bool) :
    (machineBytes s marked).size = s.frontSize := by
  have hhash : (hashLayout.bytes s.romHash).size = romHashSize :=
    (Layout.block_readsAs _).size_bytes
  rw [machineBytes, Snapshot.frontSize]
  simp only [ByteArray.size_append, hhash, (fixedLayout_readsAs _).size_bytes, fixedLayout_size,
    size_eventBytes, size_movieBytes]
  omega

theorem size_of_write {s : Snapshot} {marked : Bool} {bytes : ByteArray}
    (h : write s marked = .ok bytes) : bytes.size = s.savedSize := by
  rw [write_eq_ok h, ByteArray.size_append, size_machineBytes, size_screenshotBytes]
  rfl

/-- What is saved takes as many bytes as the machine asks for after its transfer was ended. -/
theorem size_of_encode {s : Snapshot} {encoded : Encoded} (h : encode s = .ok encoded) :
    encoded.bytes.size = encoded.snapshot.savedSize := size_of_write (encode_eq_ok_iff.1 h).2

end Savestate

end Rewind
