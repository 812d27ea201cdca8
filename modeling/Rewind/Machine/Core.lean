import Rewind.Machine.Snapshot
import Rewind.Movie.Header
import Rewind.Rom

/-!
What is asked of a machine: to hand out and take over its whole state, and to be told what a load
means for the transfer and the address it goes on from.
-/

namespace Rewind

open Machine (Snapshot)

/-- Where savestates of the old format go on: the address of the exception handler. -/
def legacyEntry : UInt32 := 0x80000180

/-- A machine whose state can be captured and replaced. -/
class Core (M : Type) where
  /-- The cartridge it runs. -/
  rom : M → RomIdentity
  /-- A copy of the whole machine, without movie and screenshot. -/
  capture : M → Snapshot
  /-- The machine with its state replaced. -/
  apply : Snapshot → M → M
  /-- The next transfer with the controllers is done already and is to be skipped. -/
  skipTransfer : M → M
  /-- The machine after power-on. -/
  reset : M → M
  programCounter : M → UInt32
  /-- Whether the machine goes on from `legacyEntry`; said after every load. -/
  noteEntry : Bool → M → M := fun _ m => m
  controllerFlags : M → UInt32 := fun _ => Controller.present 0
  pluginNames : M → PluginNames := fun _ => {}

end Rewind
