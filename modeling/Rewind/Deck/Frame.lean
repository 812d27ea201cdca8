import Rewind.Deck.Drain

/-!
Frames: what one turn of an emulator's loop does with a deck. What is pending is carried out first,
so the machine never runs past a state that was asked for.
-/

namespace Rewind.Deck

variable {M H D : Type} [Core M] [Frontend H] [Storage D]

/-- What came of a frame. -/
structure Frame where
  /-- The requests of callers that were carried out in it. -/
  outcomes : List Savestate.Outcome
  poll : Movie.PollOutcome

/--
One frame: what is pending is carried out, controller 0 is polled, the machine runs on what it sees
of the live state, and a vertical interrupt passes.
-/
def frame (step : M → Sample → M) (live : Sample) (d : Deck M H D) : Frame × Deck M H D :=
  let (outcomes, d) := d.drain
  let ((poll, seen), d) := d.poll 0 live
  (⟨outcomes, poll⟩, { d with machine := step d.machine seen }.vi)

/-- One frame for each live state. -/
def frames (step : M → Sample → M) : List Sample → Deck M H D → List Frame × Deck M H D
  | [], d => ([], d)
  | live :: lives, d =>
    let (frame, d) := d.frame step live
    let (frames, d) := frames step lives d
    (frame :: frames, d)

/-- Frames with nothing held while a seek is under way, at most `limit` of them. -/
def framesOfSeek (step : M → Sample → M) : (limit : Nat) → Deck M H D → List Frame × Deck M H D
  | 0, d => ([], d)
  | limit + 1, d =>
    if d.seek.isSeeking then
      let (frame, d) := d.frame step .neutral
      let (frames, d) := framesOfSeek step limit d
      (frame :: frames, d)
    else ([], d)

end Rewind.Deck
