import Rewind.Machine.Accumulator
import Rewind.Proofs.Savestate.Loading
import Rewind.Proofs.Savestate.RoundTrip

/-!
Machines that can be replayed: they do the same on the same samples, and their savestates bring
them back. `Replayable` says what that takes, up to what `view` does not show of a machine. Main
statement: the accumulator is such a machine (`Accumulator.replayable`).
-/

namespace Rewind

open Machine Savestate

/-- The machine as it is saved at a movie position, without a screen. -/
def Core.captureAt {M : Type} [Core M] (freeze : Movie.Freeze) (m : M) : Snapshot :=
  { Core.capture m with movie := some freeze, screenshot := none }

/-- The machine after a load. -/
def Savestate.Decoded.resume {M : Type} [Core M] (decoded : Decoded) (m : M) : M :=
  if decoded.transferEnded then Core.skipTransfer (Core.apply decoded.snapshot m)
  else Core.apply decoded.snapshot m

/-- The machine after a save, which may have ended its transfer. -/
def Savestate.Encoded.resume {M : Type} [Core M] (encoded : Encoded) (m : M) : M :=
  if encoded.transferEnded then Core.skipTransfer (Core.apply encoded.snapshot m) else m

/-- How a kind of machine runs, and what makes its runs repeatable. -/
structure Replayable (M V : Type) [Core M] where
  step : M → Sample → M
  /-- What runs are compared by. -/
  view : M → V
  /-- The machines that a savestate can be loaded into, and that saving does not change. -/
  Ready : M → Prop
  /-- The machines that are run from power-on, and brought back by savestates. -/
  Sound : M → Prop
  ready_of_sound : ∀ {m}, Sound m → Ready m
  sound_step : ∀ {m} (s), Sound m → Sound (step m s)
  sound_noteEntry : ∀ {m} (legacy), Sound m → Sound (Core.noteEntry legacy m)
  view_step : ∀ {m m'} (s), view m = view m' → view (step m s) = view (step m' s)
  view_noteEntry : ∀ (legacy m), view (Core.noteEntry legacy m) = view m
  /-- No transfer is under way when the machine is saved. -/
  has_si : ∀ {m}, Ready m → (Core.capture m).interrupts.has Interrupt.si = true
  isAscii : ∀ {m}, Sound m → (Core.capture m).romHash.IsAscii
  survives : ∀ {m}, Sound m → ∀ freeze, freeze.inputs.size = freeze.lengthSamples.toNat + 1 →
    ∃ bytes, encode (Core.captureAt freeze m) = .ok ⟨bytes, Core.captureAt freeze m, false⟩ ∧
      decode bytes = .ok ⟨Core.captureAt freeze m, false⟩
  restores : ∀ {m m'}, Sound m → Ready m' → ∀ freeze,
    Sound (Core.apply (Core.captureAt freeze m) m') ∧
      view (Core.apply (Core.captureAt freeze m) m') = view m

namespace Replayable

variable {M V : Type} [Core M] (R : Replayable M V)

/-- The machine after consuming samples. -/
def replay (origin : M) (inputs : Array Sample) : M := inputs.foldl R.step origin

theorem replay_push (origin : M) (inputs : Array Sample) (s : Sample) :
    R.replay origin (inputs.push s) = R.step (R.replay origin inputs) s := by
  simp [replay]

variable {R} in
theorem sound_replay {origin : M} (h : R.Sound origin) (inputs : Array Sample) :
    R.Sound (R.replay origin inputs) :=
  Array.foldl_induction (fun _ m => R.Sound m) h fun _ _ hs => R.sound_step _ hs

end Replayable

/-! ## The accumulator -/

namespace Machine

/-- A machine that is saved as it is. -/
structure Snapshot.Savable (s : Snapshot) : Prop extends s.WellFormed where
  has_si : s.interrupts.has Interrupt.si = true
  length_le : s.interrupts.events.length ≤ maxEvents

theorem Snapshot.Savable.encode_eq {s : Snapshot} (h : s.Savable) :
    encode s = .ok ⟨stateBytes s false, s, false⟩ := by
  have hf : finishTransfer s = (s, false) := if_pos h.has_si
  rw [encode, hf]
  simp only [write_eq h.toWellFormed h.length_le]
  rfl

theorem Snapshot.Savable.decode_eq {s : Snapshot} (h : s.Savable) :
    decode (stateBytes s false) = .ok ⟨s, false⟩ :=
  decode_stateBytes h.toWellFormed h.length_le false

/-- The machine without the cartridge it ran on, the movie and the screen. -/
def Snapshot.bare (s : Snapshot) : Snapshot :=
  { s with romHash := .zero _, movie := none, screenshot := none }

/-- Saving takes place in the machine that is there without a movie and a screen. -/
theorem Snapshot.Savable.captured {s : Snapshot} (h : s.bare.Savable)
    (romHash : Wire.Block romHashSize) {freeze : Movie.Freeze}
    (hf : freeze.inputs.size = freeze.lengthSamples.toNat + 1) :
    ({ s with romHash, movie := some freeze, screenshot := none } : Snapshot).Savable :=
  { h with
    movie := by rintro f ⟨⟩; exact hf
    screenshot := by rintro _ ⟨⟩ }

theorem blank_wellFormed : Snapshot.blank.WellFormed where
  rdram := Bytes.size_zeros _
  spDmem := Bytes.size_zeros _
  spImem := Bytes.size_zeros _
  tlbLutR := LookupTable.length_zero _
  tlbLutW := LookupTable.length_zero _
  unmarked := by decide
  events := by rintro _ ⟨⟩
  movie := by rintro _ ⟨⟩
  screenshot := by rintro _ ⟨⟩

namespace Accumulator

theorem powerOn_savable : powerOn.Savable :=
  { blank_wellFormed with
    events := by decide
    has_si := rfl
    length_le := by decide }

/-- The accumulators that savestates bring back: they run a cartridge whose hash is text, and have
no movie or screen of their own. -/
structure Sound (m : Accumulator) : Prop where
  isAscii : m.rom.md5.IsAscii
  savable : m.state.bare.Savable
  movie : m.state.movie = none
  screenshot : m.state.screenshot = none

/-- After a reset, the cartridge is all that matters. -/
theorem Sound.of_reset {m : Accumulator} (h : m.rom.md5.IsAscii) :
    (Core.reset m : Accumulator).Sound := ⟨h, { powerOn_savable with }, rfl, rfl⟩

theorem Sound.savable_captureAt {m : Accumulator} (h : m.Sound) {freeze : Movie.Freeze}
    (hf : freeze.inputs.size = freeze.lengthSamples.toNat + 1) :
    (Core.captureAt freeze m : Snapshot).Savable :=
  h.savable.captured m.rom.md5 hf

theorem Sound.step {m : Accumulator} (h : m.Sound) (s : Sample) : (m.step s).Sound :=
  ⟨h.isAscii, { h.savable with }, h.movie, h.screenshot⟩

theorem Sound.noteEntry {m : Accumulator} (h : m.Sound) (legacy : Bool) :
    (Core.noteEntry legacy m : Accumulator).Sound := by
  have hs : ∀ e, Sound { m with legacyEntry := e } :=
    fun e => ⟨h.isAscii, h.savable, h.movie, h.screenshot⟩
  change Sound (if m.tracksEntry then { m with legacyEntry := some legacy } else m)
  split
  · exact hs _
  · exact h

/-- What is replayed of a sound accumulator is all of its state but what movies and screens add. -/
theorem Sound.bare_eq {m : Accumulator} (h : m.Sound) :
    m.state.bare = { m.state with romHash := .zero _ } := by
  rw [Snapshot.bare, ← h.movie, ← h.screenshot]

theorem state_noteEntry (legacy : Bool) (m : Accumulator) :
    (Core.noteEntry legacy m : Accumulator).state = m.state := by
  change (if m.tracksEntry then { m with legacyEntry := some legacy } else m).state = m.state
  split <;> rfl

theorem rom_noteEntry (legacy : Bool) (m : Accumulator) :
    (Core.noteEntry legacy m : Accumulator).rom = m.rom := by
  change (if m.tracksEntry then { m with legacyEntry := some legacy } else m).rom = m.rom
  split <;> rfl

theorem rom_resume (decoded : Decoded) (m : Accumulator) : (decoded.resume m).rom = m.rom := by
  unfold Decoded.resume
  split <;> rfl

theorem state_resume (decoded : Decoded) (m : Accumulator) :
    (decoded.resume m).state = { decoded.snapshot with movie := none, screenshot := none } := by
  unfold Decoded.resume
  split <;> rfl

/-- An accumulator that takes over the state of a sound one is sound. -/
theorem Sound.apply {m m' : Accumulator} (h : m.Sound) (h' : m'.rom.md5.IsAscii)
    (freeze : Movie.Freeze) :
    (Core.apply (Core.captureAt freeze m) m' : Accumulator).Sound :=
  ⟨h', { h.savable with }, rfl, rfl⟩

/-- An accumulator is replayed up to the copy that its state may hold of the cartridge's hash. -/
def replayable : Replayable Accumulator Snapshot where
  step := step
  view m := { m.state with romHash := .zero _ }
  Ready m := m.rom.md5.IsAscii ∧ m.state.interrupts.has Interrupt.si = true
  Sound := Sound
  ready_of_sound h := ⟨h.isAscii, h.savable.has_si⟩
  sound_step s h := h.step s
  sound_noteEntry legacy h := h.noteEntry legacy
  view_step s h := congrArg (advance · s) h
  view_noteEntry legacy m := by rw [state_noteEntry]
  has_si h := h.2
  isAscii h := h.isAscii
  survives := by
    intro m h freeze hf
    have hs := h.savable_captureAt hf
    exact ⟨_, hs.encode_eq, hs.decode_eq⟩
  restores := by
    intro m m' h h' freeze
    exact ⟨h.apply h'.1 freeze, h.bare_eq⟩

theorem frame_step (m : Accumulator) (s : Sample) : (m.step s).frame = m.frame + 1 := by
  simp [frame, step, advance, Cpu.later, frameRegister, mixRegister]

theorem frame_of_view {m m' : Accumulator} (h : replayable.view m = replayable.view m') :
    m.frame = m'.frame := congrArg (·.cpu.gpr[frameRegister]) h

/-- A replay counts its samples. -/
theorem frame_replay (m : Accumulator) (inputs : Array Sample) :
    (replayable.replay m inputs).frame = m.frame + UInt64.ofNat inputs.size := by
  obtain ⟨inputs⟩ := inputs
  induction inputs generalizing m with
  | nil => simp [Replayable.replay]
  | cons s inputs ih =>
    have hcons : replayable.replay m ⟨s :: inputs⟩ = replayable.replay (m.step s) ⟨inputs⟩ := by
      simp [Replayable.replay, replayable]
    have hsize : UInt64.ofNat (inputs.length + 1) = UInt64.ofNat inputs.length + 1 :=
      UInt64.ofNat_add _ _
    rw [hcons, ih, frame_step, UInt64.add_assoc, UInt64.add_comm 1]
    exact congrArg (m.frame + ·) hsize.symm

end Accumulator

end Machine

end Rewind
