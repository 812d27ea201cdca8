/-!
Pending interrupts. Times are values of a 32-bit cycle counter that wraps around, so what is sooner
depends on the present count: the distance from now is the wrapped difference. Main statement: an
added event goes behind those that are not later, and changes nothing else (`Interrupts.add`).
-/

namespace Rewind.Machine

/-- The kind of a video interrupt. -/
def Interrupt.vi : UInt32 := 0x001

/-- The kind of a timer interrupt. -/
def Interrupt.compare : UInt32 := 0x002

/-- The kind of the interrupt that ends a transfer with the controllers. -/
def Interrupt.si : UInt32 := 0x008

/-- An interrupt that will fire. -/
structure Interrupt where
  kind : UInt32
  /-- The cycle count at which it fires. -/
  count : UInt32
deriving DecidableEq, Inhabited

/-- The pending interrupts and the counters beside them. -/
structure Interrupts where
  next : UInt32 := 0
  nextVi : UInt32 := 0
  viField : UInt32 := 0
  /-- Soonest first. -/
  events : List Interrupt := []
deriving DecidableEq, Inhabited

namespace Interrupts

/-- Whether an event of this kind is pending. -/
def has (irq : Interrupts) (kind : UInt32) : Bool := irq.events.any (·.kind == kind)

/-- Adds an event `delay` cycles from `now`, behind those that are not later. -/
def add (irq : Interrupts) (kind now delay : UInt32) : Interrupts :=
  let notLater (e : Interrupt) : Bool := e.count - now ≤ delay
  let events := irq.events.takeWhile notLater ++
    ⟨kind, now + delay⟩ :: irq.events.dropWhile notLater
  { irq with events, next := (events.head?.map (·.count)).getD irq.next }

end Interrupts

end Rewind.Machine
