import Rewind.Proofs.Deck.Requests

/-!
What an accumulator runs between frames: any program that looks at the machine and at what it saw
at the polls, but not at the copy that its state may hold of the cartridge's hash. Main statement:
states that differ in nothing else are saved alike (`encode_alike`).
-/

namespace Rewind

open Machine Savestate

namespace Machine

/-- The state without the copy of the cartridge's hash. -/
def Snapshot.anonymous (s : Snapshot) : Snapshot := { s with romHash := .zero _ }

theorem Snapshot.interrupts_of_bare {s s' : Snapshot} (h : s'.bare = s.bare) :
    s'.interrupts = s.interrupts := by
  have hi := congrArg Snapshot.interrupts h
  exact hi

theorem Snapshot.bare_of_anonymous {s s' : Snapshot} (h : s'.anonymous = s.anonymous) :
    s'.bare = s.bare := by
  have hb := congrArg Snapshot.bare h
  exact hb

theorem Snapshot.HasSi.of_anonymous {s s' : Snapshot} (h : s.HasSi)
    (he : s'.anonymous = s.anonymous) : s'.HasSi := by
  rwa [HasSi, interrupts_of_bare (bare_of_anonymous he)]

/-- How an accumulator's state changes from frame to frame. -/
structure Program where
  /-- The state after a frame in which samples were seen. -/
  step : Snapshot → List Sample → Snapshot
  step_congr : ∀ {s s' : Snapshot} (seen), s'.anonymous = s.anonymous →
    (step s' seen).anonymous = (step s seen).anonymous

namespace Program

/-- Runs one frame. -/
def run (p : Program) (m : Accumulator) (seen : List Sample) : Accumulator :=
  { m with state := p.step m.state seen }

/-- No frame takes the interrupt off the queue that ends a transfer. -/
def KeepsSi (p : Program) : Prop := ∀ (s : Snapshot) (seen), s.HasSi → (p.step s seen).HasSi

end Program

/-- The accumulator's own program, which takes one step on each sample that was seen. -/
def Accumulator.program : Program where
  step := List.foldl advance
  step_congr {s s'} seen h := by
    induction seen generalizing s s' with
    | nil => exact h
    | cons sample seen ih =>
      have hs : (advance s' sample).anonymous = (advance s sample).anonymous :=
        congrArg (advance · sample) h
      exact ih hs

theorem Accumulator.keepsSi_program : program.KeepsSi := by
  intro s seen h
  induction seen generalizing s with
  | nil => exact h
  | cons sample seen ih =>
    have hs : (advance s sample).HasSi := h
    exact ih _ hs

end Machine

namespace Savestate

theorem finishTransfer_bare (s : Snapshot) :
    finishTransfer s.bare = ((finishTransfer s).1.bare, (finishTransfer s).2) := by
  by_cases h : s.interrupts.has Interrupt.si = true
  · have hb : s.bare.interrupts.has Interrupt.si = true := h
    rw [finishTransfer, finishTransfer, if_pos h, if_pos hb]
  · have hb : ¬s.bare.interrupts.has Interrupt.si = true := h
    rw [finishTransfer, finishTransfer, if_neg h, if_neg hb]
    rfl

/-- Without a screen, only too many interrupts keep a machine from being saved. -/
theorem write_of_noScreen {s : Snapshot} (h : s.screenshot = none) (marked : Bool) :
    (maxEvents < s.interrupts.events.length ∧ ∃ e, write s marked = .error e) ∨
      (¬maxEvents < s.interrupts.events.length ∧ ∃ bytes, write s marked = .ok bytes) := by
  unfold write
  by_cases hl : maxEvents < s.interrupts.events.length
  · rw [if_pos hl]
    exact .inl ⟨hl, _, rfl⟩
  · rw [if_neg hl, h]
    exact .inr ⟨hl, _, rfl⟩

/-- A machine without a screen can be saved while there is room for another interrupt. -/
theorem encode_of_noScreen {s : Snapshot} (h : s.screenshot = none)
    (hl : s.interrupts.events.length < maxEvents) : ∃ encoded, encode s = .ok encoded := by
  have hle := length_events_finishTransfer_le s
  have hw := write_of_noScreen ((screenshot_finishTransfer s).trans h) (finishTransfer s).2
  obtain ⟨-, bytes, hw⟩ := hw.resolve_left fun hr => by omega
  rw [encode_eq_map, hw]
  exact ⟨_, rfl⟩

/-- States that differ in cartridge and movie only are saved alike. -/
theorem encode_alike {s s' : Snapshot} (h : s'.bare = s.bare) (hs : s.screenshot = none)
    (hs' : s'.screenshot = none) :
    ((∃ e, encode s = .error e) ∧ ∃ e, encode s' = .error e) ∨
      ∃ encoded encoded', encode s = .ok encoded ∧ encode s' = .ok encoded' ∧
        encoded'.transferEnded = encoded.transferEnded ∧
        encoded'.snapshot.bare = encoded.snapshot.bare := by
  have hf := finishTransfer_bare s
  rw [← h, finishTransfer_bare s'] at hf
  obtain ⟨hbare, hended⟩ := Prod.mk.inj hf
  have hi := Snapshot.interrupts_of_bare hbare
  have hw := write_of_noScreen ((screenshot_finishTransfer s).trans hs) (finishTransfer s).2
  have hw' := write_of_noScreen ((screenshot_finishTransfer s').trans hs') (finishTransfer s').2
  rw [hi] at hw'
  rw [encode_eq_map, encode_eq_map]
  obtain ⟨hl, e, hw⟩ | ⟨hl, bytes, hw⟩ := hw
  · obtain ⟨-, e', hw'⟩ := hw'.resolve_right fun hr => hr.1 hl
    rw [hw, hw']
    exact .inl ⟨⟨e, rfl⟩, e', rfl⟩
  · obtain ⟨-, bytes', hw'⟩ := hw'.resolve_left fun hr => hl hr.1
    rw [hw, hw']
    exact .inr ⟨_, _, rfl, rfl, hended, hbare⟩

theorem romHash_finishTransfer (s : Snapshot) : (finishTransfer s).1.romHash = s.romHash := by
  unfold finishTransfer
  split <;> rfl

theorem decode_of_encode {s : Snapshot} (hs : s.WellFormed) {encoded : Encoded}
    (h : encode s = .ok encoded) :
    decode encoded.bytes = .ok ⟨encoded.snapshot, encoded.transferEnded⟩ := by
  obtain ⟨hwf, hl, hbytes⟩ := encode_eq_ok hs h
  rw [hbytes]
  exact decode_stateBytes hwf hl _

end Savestate

namespace Machine

/-- **A load brings an accumulator to where another one was saved**, but for the cartridge's hash,
and the interrupt is queued that ends a transfer. -/
theorem Accumulator.state_resume_saved {m : Accumulator} (hmovie : m.state.movie = none)
    (hscreen : m.state.screenshot = none) {s : Snapshot} (hs : s.bare = m.state.bare)
    {encoded : Encoded} (h : encode s = .ok encoded) (m' : Accumulator) :
    (encoded.resume m).state.HasSi ∧
      (Decoded.resume ⟨encoded.snapshot, encoded.transferEnded⟩ m').state.anonymous =
        (encoded.resume m).state.anonymous := by
  have hfinish := finishTransfer_of_encode h
  have hsi := finishTransfer_hasSi s
  rw [hfinish] at hsi
  have hresumed : (Decoded.resume ⟨encoded.snapshot, encoded.transferEnded⟩ m').state.anonymous =
      encoded.snapshot.bare := by
    rw [state_resume]
    rfl
  rw [hresumed]
  cases hended : encoded.transferEnded with
  | true =>
    have hsaved : encoded.resume m = Core.skipTransfer (Core.apply encoded.snapshot m) :=
      if_pos hended
    rw [hsaved]
    exact ⟨hsi, rfl⟩
  | false =>
    have hsaved : encoded.resume m = m := if_neg (by rw [hended]; nofun)
    have hsame : encoded.snapshot = s := snapshot_of_encode h (by rw [hended]; nofun)
    have hi := Snapshot.interrupts_of_bare hs
    rw [hsaved, hsame, hs]
    rw [hsame] at hsi
    refine ⟨?_, ?_⟩
    · rwa [Snapshot.HasSi, ← hi]
    · rw [Snapshot.bare, Snapshot.anonymous, ← hmovie, ← hscreen]

end Machine

end Rewind
