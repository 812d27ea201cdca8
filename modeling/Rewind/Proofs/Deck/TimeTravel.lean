import Rewind.Proofs.Deck.Operations
import Rewind.Proofs.Movie.FreezeLayout

/-!
Positions of a movie as places to return to. A position is taken in one state of the movie and
restored in another, whose samples, cursor and task may be any. Main statement
(`unfreeze_freeze`): what a rerecord brings back is the movie as it was at the position; the modes
that keep the samples move in them if they reach that far; and a position that is refused leaves
everything alone.
-/

namespace Rewind

namespace Movie

open Savestate

namespace Freeze

/-- A buffer that was written is read back wherever it stands, and nothing behind it is taken. -/
theorem get_put {f : Freeze} (h : f.inputs.size = f.lengthSamples.toNat + 1)
    (out rest : ByteArray) :
    get (.between out (f.put ByteArray.empty ++ rest)) = .ok (f, .between (f.put out) rest) := by
  have hb : f.put ByteArray.empty = f.bytes := by rw [put_eq, ByteArray.empty_append]
  rw [hb, put_eq f out]
  exact get_takes h rest out

end Freeze

namespace Log

variable {a b : Log} {f : Freeze} {mode : RestoreMode}

/-- The position that an active movie hands out. -/
def position (a : Log) : Freeze :=
  .ofInputs a.header.uid (UInt32.ofNat a.currentSample) (UInt32.ofNat a.currentVi) a.inputs

theorem freeze_of_isActive (h : a.isActive = true) : a.freeze = some a.position := if_pos h

/-- Of a well-formed position of its own, a movie only asks whether it is long enough. -/
theorem checkFreeze_of_check (active : b.isActive = true) (h : f.check b.header.uid = .ok ())
    (mode : RestoreMode) : b.checkFreeze f mode =
      if mode ≠ .rerecord ∧ b.length < f.currentSample.toNat then .error .invalidFrame
      else .ok () := by
  unfold checkFreeze
  rw [active, h]
  rfl

theorem unfreeze_of_check (active : b.isActive = true) (h : f.check b.header.uid = .ok ())
    (mode : RestoreMode) : b.unfreeze f mode =
      if mode ≠ .rerecord ∧ b.length < f.currentSample.toNat then .error .invalidFrame
      else .ok (b.restore f mode) := by
  unfold unfreeze
  rw [checkFreeze_of_check active h]
  by_cases hshort : mode ≠ .rerecord ∧ b.length < f.currentSample.toNat
  · rw [if_pos hshort, if_pos hshort]
  · rw [if_neg hshort, if_neg hshort]

/-- The movie `b` as it goes on where `a` stood: with the samples up to there, and one more
rerecord on its count. -/
def rewoundTo (a b : Log) : Log :=
  { b with
    task := .recording
    inputs := a.inputs.take a.currentSample
    currentSample := a.currentSample
    currentVi := a.currentVi
    header.lengthSamples := UInt32.ofNat a.currentSample
    header.lengthVis := UInt32.ofNat a.currentVi
    header.rerecordCount := UInt64.ofNat (b.header.rerecordCount.toNat + 1) }

/-- The movie `b` with the cursor where `a` had it. -/
def movedTo (a b : Log) : Log :=
  { b with currentSample := a.currentSample, currentVi := a.currentVi }

section

variable (inside : a.currentSample ≤ a.length) (fits : a.length < UInt32.size)
  (fitsVi : a.currentVi < UInt32.size)

include inside fits in
theorem currentSample_position : a.position.currentSample.toNat = a.currentSample :=
  UInt32.toNat_ofNat_of_lt' (Nat.lt_of_le_of_lt inside fits)

include fitsVi in
theorem currentVi_position : a.position.currentVi.toNat = a.currentVi :=
  UInt32.toNat_ofNat_of_lt' fitsVi

include inside fits fitsVi in
theorem restore_position_rerecord (b : Log) :
    b.restore a.position .rerecord = a.rewoundTo b := by
  have hs : a.position.samples = a.inputs := Freeze.samples_ofInputs fits
  have hr : b.header.rerecordCount + 1 = UInt64.ofNat (b.header.rerecordCount.toNat + 1) := by
    rw [UInt64.ofNat_add, UInt64.ofNat_toNat]
    rfl
  simp only [restore, rewoundTo, hs, hr, currentSample_position inside fits,
    currentVi_position fitsVi]
  rfl

include inside fits fitsVi in
theorem restore_position_readOnly (b : Log) :
    b.restore a.position .readOnly = { a.movedTo b with task := .playback } := by
  simp only [restore, movedTo, currentSample_position inside fits, currentVi_position fitsVi]

include inside fits fitsVi in
theorem restore_position_reposition (b : Log) :
    b.restore a.position .reposition = a.movedTo b := by
  simp only [restore, movedTo, currentSample_position inside fits, currentVi_position fitsVi]

end

end Log

end Movie

namespace Deck

variable {M H D : Type} [Frontend H] [Storage D]

/-- A position that is refused changes nothing at all, and nobody is told of a change. -/
theorem restorePosition_of_error {d : Deck M H D} {g : Movie.Freeze} {mode : Movie.RestoreMode}
    {e : Movie.Error} (h : d.movie.unfreeze g mode = .error e) : d.restorePosition g mode = d := by
  simp only [restorePosition, h]
  exact if_pos rfl

end Deck

namespace Movie.Log

open Savestate

variable {M H D : Type} [Frontend H] [Storage D]

/-- Time travel in one movie. The position of a state `a` is read back as it was written. In any
other state `b` of the movie, a rerecord always goes back to where `a` stood, and the modes that
keep `b`'s samples move the cursor there if and only if it lies among them. Whatever position is
refused, by whichever movie, that movie and all around it stay as they are. -/
theorem unfreeze_freeze :
    (∀ a : Log, a.isActive = true → a.currentSample ≤ a.length → a.length < UInt32.size →
      a.currentVi < UInt32.size →
      ∃ f, a.freeze = some f ∧
        (∀ out rest, Freeze.get (.between out (f.put ByteArray.empty ++ rest)) =
          .ok (f, .between (f.put out) rest)) ∧
        f.check a.header.uid = .ok () ∧
        ∀ b : Log, b.isActive = true → b.header.uid = a.header.uid →
          b.unfreeze f .rerecord = .ok (a.rewoundTo b) ∧
          b.unfreeze f .readOnly =
            (if a.currentSample ≤ b.length then .ok { a.movedTo b with task := .playback }
              else .error .invalidFrame) ∧
          b.unfreeze f .reposition =
            (if a.currentSample ≤ b.length then .ok (a.movedTo b) else .error .invalidFrame)) ∧
    ∀ (d : Deck M H D) (g : Freeze) (mode : RestoreMode) (e : Error),
      d.movie.unfreeze g mode = .error e → d.restorePosition g mode = d := by
  refine ⟨fun a active inside fits fitsVi => ?_, fun d g mode e => Deck.restorePosition_of_error⟩
  have hcheck : a.position.check a.header.uid = .ok () := Freeze.check_ofInputs fits inside
  refine ⟨a.position, freeze_of_isActive active,
    fun out rest => Freeze.get_put (Freeze.size_inputs_ofInputs fits) out rest, hcheck,
    fun b active' same => ?_⟩
  have hu := unfreeze_of_check active' (same ▸ hcheck)
  have hcursor := currentSample_position inside fits
  have hkeeps (mode : RestoreMode) (hm : mode ≠ .rerecord) : b.unfreeze a.position mode =
      if a.currentSample ≤ b.length then .ok (b.restore a.position mode)
      else .error .invalidFrame := by
    rw [hu, hcursor]
    by_cases hle : a.currentSample ≤ b.length
    · rw [if_pos hle, if_neg fun h => Nat.not_lt.2 hle h.2]
    · rw [if_neg hle, if_pos ⟨hm, Nat.not_le.1 hle⟩]
  refine ⟨?_, ?_, ?_⟩
  · rw [hu, if_neg fun h => h.1 rfl, restore_position_rerecord inside fits fitsVi]
  · rw [hkeeps .readOnly nofun, restore_position_readOnly inside fits fitsVi]
  · rw [hkeeps .reposition nofun, restore_position_reposition inside fits fitsVi]

/-- A movie of three samples that plays back, with two of them consumed. -/
def partway : Log :=
  { task := .playback, header.uid := 7, inputs := #[⟨1, 0, 0⟩, ⟨2, 0, 0⟩, ⟨3, 0, 0⟩],
    currentSample := 2, currentVi := 5 }

/-- The same movie as it is recorded anew from its first sample, and has counted all the rerecords
that it can count. -/
def begunAnew : Log :=
  { task := .recording, header.uid := 7, header.rerecordCount := 0xffffffffffffffff,
    inputs := #[⟨1, 0, 0⟩] }

/-- The end of a movie can be restored in one that is shorter only by a rerecord, whose count wraps
around. -/
theorem unfreeze_freeze_partway :
    ∃ f, partway.freeze = some f ∧ f.check 7 = .ok () ∧
      begunAnew.unfreeze f .rerecord =
        .ok { task := .recording, inputs := #[⟨1, 0, 0⟩, ⟨2, 0, 0⟩], currentSample := 2,
              currentVi := 5,
              header := { uid := 7, lengthSamples := 2, lengthVis := 5, rerecordCount := 0 } } ∧
      begunAnew.unfreeze f .readOnly = .error .invalidFrame ∧
      begunAnew.unfreeze f .reposition = .error .invalidFrame ∧
      ∀ d : Deck Unit Journal Storage.Sink, d.movie = begunAnew →
        d.restorePosition f .readOnly = d := by
  obtain ⟨htravel, hrefused⟩ := unfreeze_freeze (M := Unit) (H := Journal) (D := Storage.Sink)
  obtain ⟨f, hf, -, hcheck, hback⟩ := htravel partway rfl (by decide) (by decide) (by decide)
  obtain ⟨hrerecord, hreadOnly, hreposition⟩ := hback begunAnew rfl rfl
  exact ⟨f, hf, hcheck, hrerecord, hreadOnly, hreposition,
    fun d hd => hrefused d f .readOnly .invalidFrame (hd ▸ hreadOnly)⟩

end Movie.Log

end Rewind
