import Rewind.Proofs.Wire.LayoutLaws
import Rewind.Savestate.Encoding

/-!
What the fixed block of a savestate reads back as. The registers of each block cover it, so that
taking over all of them gives the whole block (`Register.Covers`), however the blank one looks.
Main statement: the fixed block reads back as the machine it was written from, up to the parts that
stand elsewhere in a savestate (`fixedLayout_readsAs`).
-/

namespace Rewind

open Wire

/-! ## Registers of one block -/

namespace Wire

/-- Taking over the registers gives the whole block, whatever it is put into. -/
def Register.Covers (registers : List (Register R)) : Prop :=
  ∀ source target, Member.copy (registers.map toMember) source target = source

theorem Register.Covers.readsAs {registers : List (Register R)} (h : Register.Covers registers)
    (blank r : R) : (Register.layout blank registers).ReadsAs r r := by
  have hr := Register.layout_readsAs blank registers r
  rwa [h r blank] at hr

theorem Member.copy_append (ms ns : List (Member R)) (source target : R) :
    Member.copy (ms ++ ns) source target = Member.copy ns source (Member.copy ms source target) :=
  List.foldl_append

/-- The registers of an inner block change that block and nothing else. -/
theorem Register.copy_within {registers : List (Register R)} (h : Register.Covers registers)
    {outer : String} {get : S → R} {set : R → S → S} (hget : ∀ v s, get (set v s) = v)
    (hset : ∀ v w s, set v (set w s) = set v s) (hself : ∀ s, set (get s) s = s)
    (source target : S) :
    Member.copy ((registers.map (.within outer get set)).map toMember) source target =
      set (get source) target := by
  suffices hall : ∀ target, Member.copy ((registers.map (.within outer get set)).map toMember)
      source target = set (Member.copy (registers.map toMember) (get source) (get target)) target by
    rw [hall, h]
  clear h
  induction registers with
  | nil => exact fun target => (hself target).symm
  | cons r rs ih =>
    intro target
    simp only [List.map_cons, Member.copy, List.foldl_cons] at ih ⊢
    rw [ih]
    simp [toMember, Register.within, hget, hset]

end Wire

namespace Machine

theorem Rdram.registers_cover : Register.Covers Rdram.registers := by
  intro s t
  simp [Member.copy, registers, Register.toMember, Register.word]

theorem Mi.registers_cover : Register.Covers Mi.registers := by
  intro s t
  simp [Member.copy, registers, Register.toMember, Register.word, Register.bytes]

theorem Pi.registers_cover : Register.Covers Pi.registers := by
  intro s t
  simp [Member.copy, registers, Register.toMember, Register.word]

theorem Sp.registers_cover : Register.Covers Sp.registers := by
  intro s t
  simp [Member.copy, registers, Register.toMember, Register.word, Register.bytes]

theorem Rsp.registers_cover : Register.Covers Rsp.registers := by
  intro s t
  simp [Member.copy, registers, Register.toMember, Register.word]

theorem Si.registers_cover : Register.Covers Si.registers := by
  intro s t
  simp [Member.copy, registers, Register.toMember, Register.word]

theorem Vi.registers_cover : Register.Covers Vi.registers := by
  intro s t
  simp [Member.copy, registers, Register.toMember, Register.word]

theorem Ri.registers_cover : Register.Covers Ri.registers := by
  intro s t
  simp [Member.copy, registers, Register.toMember, Register.word]

theorem Ai.registers_cover : Register.Covers Ai.registers := by
  intro s t
  simp [Member.copy, registers, Register.toMember, Register.word]

theorem Dpc.registers_cover : Register.Covers Dpc.registers := by
  intro s t
  simp [Member.copy, registers, Register.toMember, Register.word, Register.bytes]

theorem Dps.registers_cover : Register.Covers Dps.registers := by
  intro s t
  simp [Member.copy, registers, Register.toMember, Register.word]

theorem Peripherals.registers_cover : Register.Covers Peripherals.registers := by
  intro s t
  simp only [registers, List.map_append, Member.copy_append]
  simp only [Register.copy_within Rdram.registers_cover,
    Register.copy_within Mi.registers_cover, Register.copy_within Pi.registers_cover,
    Register.copy_within Sp.registers_cover, Register.copy_within Rsp.registers_cover,
    Register.copy_within Si.registers_cover, Register.copy_within Vi.registers_cover,
    Register.copy_within Ri.registers_cover, Register.copy_within Ai.registers_cover,
    Register.copy_within Dpc.registers_cover, Register.copy_within Dps.registers_cover,
    implies_true]

theorem TlbEntry.registers_cover : Register.Covers TlbEntry.registers := by
  intro s t
  simp [Member.copy, registers, Register.toMember, Register.byte, Register.half, Register.word,
    Register.bytes]

/-! ## The processor -/

/-- A coprocessor register and the one after it, as they stand on the wire. -/
def cop0Slot : Layout (UInt32 × UInt32) :=
  .record (0, 0)
    [⟨.u32, (·.1), fun v slot => (v, slot.2)⟩, ⟨.u32, (·.2), fun v slot => (slot.1, v)⟩]

/-- Every coprocessor register with the one after it, or zero after the last. -/
def cop0Slots (regs : Vector UInt32 32) : Vector (UInt32 × UInt32) 32 :=
  (Vector.range 32).map fun i => (regs[i]?.getD 0, regs[i + 1]?.getD 0)

theorem cop0Slot_readsAs (slot : UInt32 × UInt32) : cop0Slot.ReadsAs slot slot := by
  have h : Member.ReadAs
      [⟨.u32, (·.1), fun v slot => (v, slot.2)⟩, ⟨.u32, (·.2), fun v slot => (slot.1, v)⟩]
      slot slot := by
    intro m hm
    rcases List.mem_cons.mp hm with rfl | hm
    · exact Layout.u32_readsAs _
    · obtain rfl := List.mem_singleton.mp hm
      exact Layout.u32_readsAs _
  exact Layout.record_readsAs h (0, 0)

/-- Only the first half of a slot counts. -/
theorem cop0Layout_eq :
    cop0Layout = (Layout.vector 32 cop0Slot).map (·.map (·.1)) cop0Slots := by
  simp only [cop0Layout, Layout.map, Layout.vector, Layout.mk.injEq]
  refine ⟨rfl, ?_, ?_⟩
  · funext regs out
    simp only [cop0Slots, Vector.foldl_map]
    rfl
  · funext data i
    rw [Vector.map_ofFn]
    rfl

theorem cop0Layout_readsAs (regs : Vector UInt32 32) : cop0Layout.ReadsAs regs regs := by
  have hv : (cop0Slots regs).map (·.1) = regs := by
    apply Vector.ext
    intro k hk
    simp [cop0Slots, hk]
  have h : ((Layout.vector 32 cop0Slot).map (·.map (·.1)) cop0Slots).ReadsAs regs
      ((cop0Slots regs).map (·.1)) :=
    Layout.map_readsAs (Layout.vector_readsAs _ fun slot _ => cop0Slot_readsAs slot)
  rwa [hv, ← cop0Layout_eq] at h

theorem Cpu.layout_readsAs (c : Cpu) : Cpu.layout.ReadsAs c c := by
  have h : Member.ReadAs members c c := by
    simp only [Member.ReadAs, members, List.forall_mem_cons, List.not_mem_nil, false_implies,
      implies_true, and_true]
    exact ⟨Layout.u32_readsAs _, Layout.vector_readsAs _ fun _ _ => Layout.u64_readsAs _,
      cop0Layout_readsAs _, Layout.u64_readsAs _, Layout.u64_readsAs _,
      Layout.vector_readsAs _ fun _ _ => Layout.u64_readsAs _, Layout.u32_readsAs _,
      Layout.u32_readsAs _,
      Layout.vector_readsAs _ fun _ _ => TlbEntry.registers_cover.readsAs _ _,
      Layout.u32_readsAs _⟩
  have hc : Member.copy members c {} = c := by simp [Member.copy, members]
  have hr := Layout.record_readsAs h {}
  rwa [hc] at hr

/-! ## The whole block -/

theorem LookupTable.layout_readsAs (n : Nat) (t : LookupTable) :
    (LookupTable.layout n).ReadsAs t (t.resize n) := by
  have h : (LookupTable.layout n).ReadsAs t _ :=
    Layout.map_readsAs (Layout.region_readsAs (4 * n) t.bytes)
  have hf : Bytes.fit (4 * n / 4 * 4) (Bytes.fit (4 * n) t.bytes) = Bytes.fit (4 * n) t.bytes := by
    apply Bytes.fit_of_size
    rw [Bytes.size_fit]; omega
  simp only [Bytes.size_fit, hf] at h
  exact h

/-- The machine with every memory cut, or extended with zeros, to its size on the wire. -/
def Snapshot.fitted (s : Snapshot) : Snapshot :=
  { s with
    rdram := Bytes.fit rdramSize s.rdram
    spDmem := Bytes.fit spMemSize s.spDmem
    spImem := Bytes.fit spMemSize s.spImem
    tlbLutR := s.tlbLutR.resize lookupTableLength
    tlbLutW := s.tlbLutW.resize lookupTableLength }

/-- The part of a machine that stands in the fixed block; the rest is blank. -/
def Snapshot.fixedPart (s : Snapshot) : Snapshot :=
  { s with romHash := .zero _, movie := none, screenshot := none, interrupts.events := [] }

end Machine

open Machine

theorem Savestate.fixedLayout_readsAs (s : Snapshot) :
    fixedLayout.ReadsAs s s.fitted.fixedPart := by
  have h : Member.ReadAs fixedMembers s s.fitted := by
    simp only [Member.ReadAs, fixedMembers, List.forall_mem_cons, List.not_mem_nil, false_implies,
      implies_true, and_true]
    exact ⟨Peripherals.registers_cover.readsAs _ _, Layout.region_readsAs _ _,
      Layout.region_readsAs _ _, Layout.region_readsAs _ _, Layout.block_readsAs _,
      Layout.block_readsAs _, LookupTable.layout_readsAs _ _, LookupTable.layout_readsAs _ _,
      Cpu.layout_readsAs _, Layout.u32_readsAs _, Layout.u32_readsAs _, Layout.u32_readsAs _⟩
  have hc : Member.copy fixedMembers s.fitted Snapshot.blank = s.fitted.fixedPart := by
    simp only [Member.copy, fixedMembers, List.foldl_cons, List.foldl_nil]
    rfl
  have hr := Layout.record_readsAs h Snapshot.blank
  rwa [hc] at hr

end Rewind
