import Rewind.Machine.Core

/-!
The accumulator: a machine whose whole behaviour is in two registers, one that counts frames and
one that mixes in every sample it is given. Two runs agree on the registers exactly as far as they
agree on the samples, so it shows whether a machine was replayed as it was recorded.
-/

namespace Rewind.Machine

/-- The register that counts frames. -/
def frameRegister : Fin 32 := ⟨1, by decide⟩

/-- The register that mixes the samples. -/
def mixRegister : Fin 32 := ⟨2, by decide⟩

/-- The cycles that a frame takes. -/
def cyclesPerFrame : UInt32 := 1000

/-- The mixing register after one more sample. -/
def mixIn (acc : UInt64) (input : Sample) : UInt64 := acc * 31 + input.toRaw.toUInt64

/-- An accumulator, and a count of what it was told. -/
structure Accumulator where
  rom : RomIdentity
  state : Snapshot
  resets : Nat := 0
  /-- The transfers it was told to skip. -/
  skips : Nat := 0
  /-- Whether the machine takes an interest in the address that a load goes on from. -/
  tracksEntry : Bool := true
  /-- What it was last told about that address. -/
  legacyEntry : Option Bool := none
  controllerFlags : UInt32 := Controller.present 0
  pluginNames : PluginNames := {}

namespace Accumulator

/-- The state after power-on, with the first interrupt queued. -/
def powerOn : Snapshot :=
  { Snapshot.blank with
    cpu.pc := 0x80000400
    interrupts := Interrupts.add {} Interrupt.si 0 0x900 }

/-- The state after one more frame. -/
def advance (s : Snapshot) (input : Sample) : Snapshot :=
  let cpu := s.cpu.later cyclesPerFrame
  let gpr := (cpu.gpr.set frameRegister (cpu.gpr[frameRegister] + 1)).set mixRegister
    (mixIn cpu.gpr[mixRegister] input)
  { s with cpu := { cpu with gpr } }

/-- Runs one frame. -/
def step (m : Accumulator) (input : Sample) : Accumulator :=
  { m with state := advance m.state input }

/-- The frames run since power-on. -/
def frame (m : Accumulator) : UInt64 := m.state.cpu.gpr[frameRegister]

/-- The mix of the samples since power-on. -/
def mixed (m : Accumulator) : UInt64 := m.state.cpu.gpr[mixRegister]

instance : Core Accumulator where
  rom m := m.rom
  capture m := { m.state with romHash := m.rom.md5 }
  apply s m := { m with state := { s with movie := none, screenshot := none } }
  skipTransfer m := { m with skips := m.skips + 1 }
  reset m := { m with state := powerOn, resets := m.resets + 1 }
  programCounter m := m.state.cpu.pc
  noteEntry legacy m := if m.tracksEntry then { m with legacyEntry := some legacy } else m
  controllerFlags m := m.controllerFlags
  pluginNames m := m.pluginNames

end Accumulator

end Rewind.Machine
