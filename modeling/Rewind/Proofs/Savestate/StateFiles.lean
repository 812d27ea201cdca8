import Rewind.Config.Basic
import Rewind.Proofs.Gzip.PlainBlocks
import Rewind.Proofs.Machine.Programs
import Rewind.Proofs.Savestate.Loading
import Rewind.Proofs.Savestate.Sizes

/-!
What a file holds of a state (`Config.pack`). Main statement: the state is read back from it, unless
the file is compressed and the state is too much to expand (`Config.decompress_pack`).
-/

namespace Rewind

open Machine

namespace Config

/-- What a file holds of a state. -/
def pack (config : Config) (state : ByteArray) : ByteArray :=
  if config.compressSavestates then Gzip.compress state config.compressionLevel else state

variable {config : Config} {state : ByteArray}

theorem decompress_pack (hplain : Gzip.decompress state = .ok state)
    (hne : state.isEmpty = false)
    (hsize : config.compressSavestates = true → state.size ≤ Gzip.expandedLimit) :
    Gzip.decompress (config.pack state) = .ok state := by
  unfold pack
  cases hcompress : config.compressSavestates with
  | false => exact hplain
  | true =>
    have hlimit : ¬Gzip.expandedLimit < state.size := Nat.not_lt.mpr (hsize hcompress)
    have hsome : ¬state.isEmpty = true := by simp [hne]
    simp only [Gzip.decompress_compress, if_neg hlimit, if_neg hsome, if_true]

/-- A compressed state is not read back if it is too much to expand. -/
theorem decompress_pack_of_lt (hcompress : config.compressSavestates = true)
    (hsize : Gzip.expandedLimit < state.size) :
    Gzip.decompress (config.pack state) = .error (.tooLarge Gzip.expandedLimit) := by
  rw [pack, if_pos hcompress, Gzip.decompress_compress, if_pos hsize]

/-- Nothing at all is not compressed, and would be read as it is. -/
theorem isEmpty_pack (hne : state.isEmpty = false)
    (h : Gzip.decompress (config.pack state) = .ok state) :
    (config.pack state).isEmpty = false := by
  cases hempty : (config.pack state).isEmpty with
  | false => rfl
  | true =>
    have hnil : config.pack state = ByteArray.empty :=
      ByteArray.size_eq_zero_iff.1 (beq_iff_eq.1 hempty)
    have hexpanded : Gzip.decompress ByteArray.empty = .ok ByteArray.empty := rfl
    rw [hnil, hexpanded] at h
    cases h
    cases hne

end Config

namespace Savestate

/-- A state without a screen is expanded, unless its movie alone takes half of what may be. -/
theorem size_le_of_encode {s : Snapshot} {encoded : Encoded} (h : encode s = .ok encoded)
    (hscreen : s.screenshot = none) (hmovie : movieSize s.movie ≤ Gzip.expandedLimit / 2) :
    encoded.bytes.size ≤ Gzip.expandedLimit := by
  have hshot : encoded.snapshot.screenshot = none := (screenshot_of_encode h).trans hscreen
  have hl : encoded.snapshot.interrupts.events.length ≤ maxEvents := by
    obtain ⟨-, e, herror⟩ | ⟨hl, -⟩ := write_of_noScreen hshot encoded.transferEnded
    · rw [(encode_eq_ok_iff.1 h).2] at herror
      cases herror
    · exact Nat.not_lt.1 hl
  have hfixed : romHashSize + fixedBlockSize + (8 * maxEvents + 4) + Gzip.expandedLimit / 2 ≤
      Gzip.expandedLimit := by decide
  rw [size_of_encode h, Snapshot.savedSize, Snapshot.frontSize, hshot, movie_of_encode h,
    screenshotSize]
  omega

/-- A state takes more bytes than the samples of its movie position. -/
theorem lt_size_of_encode {s : Snapshot} {encoded : Encoded} (h : encode s = .ok encoded)
    {freeze : Movie.Freeze} (hmovie : s.movie = some freeze) :
    freeze.inputs.size * Sample.size < encoded.bytes.size := by
  rw [size_of_encode h, Snapshot.savedSize, Snapshot.frontSize, movie_of_encode h, hmovie,
    movieSize]
  omega

end Savestate

end Rewind
