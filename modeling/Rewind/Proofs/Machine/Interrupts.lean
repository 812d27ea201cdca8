import Mathlib.Data.List.TakeWhile
import Mathlib.Data.UInt
import Mathlib.Logic.Relation
import Rewind.Machine.Interrupts

/-!
The order of the pending interrupts. It is relative to a counter that wraps around, so the counts
themselves are in no order; what stays in order, as the counter goes on and events are added, are
the distances from it (`Timeline.soonestFirst_of_run`).
-/

namespace Rewind.Machine

/-- The cycles from `now` until the event fires. -/
def Interrupt.distance (e : Interrupt) (now : UInt32) : UInt32 := e.count - now

theorem Interrupt.distance_added (kind now delay : UInt32) :
    (⟨kind, now + delay⟩ : Interrupt).distance now = delay :=
  add_sub_cancel_left now delay

theorem Interrupt.distance_advanced (e : Interrupt) (now cycles : UInt32) :
    e.distance (now + cycles) = e.distance now - cycles :=
  sub_add_eq_sub_sub e.count now cycles

namespace Interrupts

/-- No event is farther from `now` than one behind it. -/
def SoonestFirst (now : UInt32) (events : List Interrupt) : Prop :=
  events.Pairwise fun e f => e.distance now ≤ f.distance now

variable {now delay cycles : UInt32} {events : List Interrupt}

theorem SoonestFirst.le_of_head (h : SoonestFirst now events)
    (hcycles : ∀ e ∈ events.head?, cycles ≤ e.distance now) :
    ∀ e ∈ events, cycles ≤ e.distance now := by
  cases h with
  | nil => exact nofun
  | cons hfirst _ =>
    have hle := hcycles _ rfl
    intro e he
    obtain rfl | he := List.mem_cons.mp he
    · exact hle
    · exact UInt32.le_trans hle (hfirst e he)

/-- Time that passes no event takes the same from every distance. -/
theorem SoonestFirst.advance (h : SoonestFirst now events)
    (hcycles : ∀ e ∈ events.head?, cycles ≤ e.distance now) :
    SoonestFirst (now + cycles) events := by
  have hle := h.le_of_head hcycles
  refine h.imp_of_mem fun {e f} he hf hef => ?_
  rw [e.distance_advanced, f.distance_advanced, UInt32.le_iff_toNat_le,
    UInt32.toNat_sub_of_le _ _ (hle e he), UInt32.toNat_sub_of_le _ _ (hle f hf)]
  exact Nat.sub_le_sub_right (UInt32.le_iff_toNat_le.mp hef) _

/-- Whether an event fires no later than `delay` cycles from `now`. -/
def notLater (now delay : UInt32) (e : Interrupt) : Bool := e.distance now ≤ delay

/-- Behind the first later event all are later. -/
theorem SoonestFirst.later_of_mem_dropWhile (h : SoonestFirst now events) {e : Interrupt}
    (he : e ∈ events.dropWhile (notLater now delay)) : delay < e.distance now := by
  induction h with
  | nil => cases he
  | @cons f events hfirst _ ih =>
    by_cases hf : notLater now delay f
    · rw [List.dropWhile_cons_of_pos hf] at he
      exact ih he
    · rw [List.dropWhile_cons_of_neg hf] at he
      have hlater : delay < f.distance now := by simpa [notLater] using hf
      obtain rfl | he := List.mem_cons.mp he
      · exact hlater
      · exact UInt32.lt_of_lt_of_le hlater (hfirst e he)

/-- The count to wait for is that of the first event, of which there is one. -/
theorem next_add (irq : Interrupts) (kind now delay : UInt32) :
    (irq.add kind now delay).events.head?.map (·.count) = some (irq.add kind now delay).next := by
  unfold add
  simp only
  generalize irq.events.takeWhile _ = front
  cases front <;> rfl

/-- Where an event that is added goes, and that nothing else happens to the others. -/
structure Adds (irq : Interrupts) (e : Interrupt) (now : UInt32) (after : Interrupts) : Prop where
  inserted : ∃ front back, irq.events = front ++ back ∧ after.events = front ++ e :: back ∧
    (∀ f ∈ front, f.distance now ≤ e.distance now) ∧ ∀ f ∈ back, e.distance now < f.distance now
  next : after.events.head?.map (·.count) = some after.next
  others : { after with events := irq.events, next := irq.next } = irq

theorem adds_add {irq : Interrupts} (h : SoonestFirst now irq.events) (kind delay : UInt32) :
    irq.Adds ⟨kind, now + delay⟩ now (irq.add kind now delay) where
  inserted := by
    refine ⟨irq.events.takeWhile (notLater now delay), irq.events.dropWhile (notLater now delay),
      List.takeWhile_append_dropWhile.symm, rfl, fun f hf => ?_, fun f hf => ?_⟩
    · rw [Interrupt.distance_added]
      simpa [notLater] using List.mem_takeWhile_imp hf
    · rw [Interrupt.distance_added]
      exact h.later_of_mem_dropWhile hf
  next := next_add irq kind now delay
  others := rfl

theorem Adds.soonestFirst {irq after : Interrupts} {e : Interrupt} (hadds : irq.Adds e now after)
    (h : SoonestFirst now irq.events) : SoonestFirst now after.events := by
  obtain ⟨front, back, hevents, hafter, hfront, hback⟩ := hadds.inserted
  unfold SoonestFirst at *
  rw [hevents, List.pairwise_append] at h
  obtain ⟨hf, hb, hfb⟩ := h
  rw [hafter, List.pairwise_append, List.pairwise_cons]
  refine ⟨hf, ⟨fun f hmem => UInt32.le_of_lt (hback f hmem), hb⟩, fun f hmem g hg => ?_⟩
  obtain rfl | hg := List.mem_cons.mp hg
  · exact hfront f hmem
  · exact hfb f hmem g hg

end Interrupts

/-- The pending interrupts and the counter that they are relative to. -/
structure Timeline where
  now : UInt32
  irq : Interrupts

namespace Timeline

open Interrupts

/-- The counter goes on, past no pending event, or an event is added. -/
inductive Step (t : Timeline) : Timeline → Prop
  | advance (cycles : UInt32) (h : ∀ e ∈ t.irq.events.head?, cycles ≤ e.distance t.now) :
    Step t { t with now := t.now + cycles }
  | add (kind delay : UInt32) : Step t { t with irq := t.irq.add kind t.now delay }

variable {t u : Timeline}

theorem Step.soonestFirst (step : Step t u) (h : SoonestFirst t.now t.irq.events) :
    SoonestFirst u.now u.irq.events := by
  cases step with
  | advance cycles hcycles => exact h.advance hcycles
  | add kind delay => exact (adds_add h kind delay).soonestFirst h

/--
Whatever passes and is added, the events stay in the order of their distances, so an event that is
added goes behind those at its own distance and in front of all that are farther, and the count to
wait for is that of the first.
-/
theorem soonestFirst_of_run (start : SoonestFirst t.now t.irq.events)
    (run : Relation.ReflTransGen Step t u) :
    SoonestFirst u.now u.irq.events ∧
    ∀ kind delay, u.irq.Adds ⟨kind, u.now + delay⟩ u.now (u.irq.add kind u.now delay) := by
  have sorted : SoonestFirst u.now u.irq.events := by
    induction run with
    | refl => exact start
    | tail _ step ih => exact step.soonestFirst ih
  exact ⟨sorted, adds_add sorted⟩

/-- An event is added, the counter wraps around, and the next one goes behind it at its distance. -/
theorem soonestFirst_across_wrap :
    let irq : Interrupts :=
      { next := 0x700, events := [⟨Interrupt.vi, 0x700⟩, ⟨Interrupt.compare, 0xFFFFFEFF⟩] }
    SoonestFirst 0x100 irq.events ∧
    irq.Adds ⟨Interrupt.si, 0x700⟩ 0x100 (irq.add Interrupt.si 0x100 0x600) := by
  intro irq
  let start : Timeline := ⟨0xFFFFFF00, { events := [⟨Interrupt.compare, 0xFFFFFEFF⟩] }⟩
  have hirq : start.irq.add Interrupt.vi start.now 0x800 = irq := by decide
  have hnow : start.now + 0x200 = 0x100 := by decide
  have hkind : (0x100 : UInt32) + 0x600 = 0x700 := by decide
  have added : Step start { start with irq } := hirq ▸ .add Interrupt.vi 0x800
  have advanced : Step { start with irq } ⟨0x100, irq⟩ := hnow ▸ .advance 0x200 (by decide)
  have h := soonestFirst_of_run (t := start) (List.pairwise_singleton _ _)
    (.tail (.single added) advanced)
  exact ⟨h.1, hkind ▸ h.2 Interrupt.si 0x600⟩

end Timeline

end Rewind.Machine
