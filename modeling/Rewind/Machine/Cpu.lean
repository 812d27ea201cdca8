import Rewind.Wire.Register

/-!
The processor: general and floating-point registers, the system coprocessor, and the TLB, which
maps virtual addresses.
-/

namespace Rewind.Machine

open Wire (Block Register Layout Member)

/-- One entry of the TLB, decoded. -/
structure TlbEntry where
  mask : UInt16 := 0
  pad0 : Block 2 := .zero _
  vpn2 : UInt32 := 0
  (g asid : UInt8 := 0)
  pad1 : Block 2 := .zero _
  pfnEven : UInt32 := 0
  (cEven dEven vEven : UInt8 := 0)
  pad2 : Block 1 := .zero _
  pfnOdd : UInt32 := 0
  (cOdd dOdd vOdd r : UInt8 := 0)
  (startEven endEven physEven startOdd endOdd physOdd : UInt32 := 0)
deriving DecidableEq, Inhabited

/-- The registers of `TlbEntry` in wire order. -/
def TlbEntry.registers : List (Register TlbEntry) :=
  [ .half "mask" (·.mask) (fun v r => { r with mask := v }),
    .bytes "_pad0" 2 (·.pad0) (fun v r => { r with pad0 := v }),
    .word "vpn2" (·.vpn2) (fun v r => { r with vpn2 := v }),
    .byte "g" (·.g) (fun v r => { r with g := v }),
    .byte "asid" (·.asid) (fun v r => { r with asid := v }),
    .bytes "_pad1" 2 (·.pad1) (fun v r => { r with pad1 := v }),
    .word "pfn_even" (·.pfnEven) (fun v r => { r with pfnEven := v }),
    .byte "c_even" (·.cEven) (fun v r => { r with cEven := v }),
    .byte "d_even" (·.dEven) (fun v r => { r with dEven := v }),
    .byte "v_even" (·.vEven) (fun v r => { r with vEven := v }),
    .bytes "_pad2" 1 (·.pad2) (fun v r => { r with pad2 := v }),
    .word "pfn_odd" (·.pfnOdd) (fun v r => { r with pfnOdd := v }),
    .byte "c_odd" (·.cOdd) (fun v r => { r with cOdd := v }),
    .byte "d_odd" (·.dOdd) (fun v r => { r with dOdd := v }),
    .byte "v_odd" (·.vOdd) (fun v r => { r with vOdd := v }),
    .byte "r" (·.r) (fun v r => { r with r := v }),
    .word "start_even" (·.startEven) (fun v r => { r with startEven := v }),
    .word "end_even" (·.endEven) (fun v r => { r with endEven := v }),
    .word "phys_even" (·.physEven) (fun v r => { r with physEven := v }),
    .word "start_odd" (·.startOdd) (fun v r => { r with startOdd := v }),
    .word "end_odd" (·.endOdd) (fun v r => { r with endOdd := v }),
    .word "phys_odd" (·.physOdd) (fun v r => { r with physOdd := v }) ]

/-- A TLB entry on the wire. -/
def TlbEntry.layout : Layout TlbEntry := Register.layout {} registers

/-- The number of the coprocessor register that counts cycles. -/
def countRegister : Fin 32 := ⟨9, by decide⟩

/--
The coprocessor's registers on the wire. Each takes eight bytes: its value, then the value of the
register after it, or zero after the last. Reading takes only the value.
-/
def cop0Layout : Layout (Vector UInt32 32) where
  size := 32 * 8
  put regs out :=
    (Vector.range 32).foldl
      (fun out i => Layout.u32.put (regs[i + 1]?.getD 0) (Layout.u32.put (regs[i]?.getD 0) out)) out
  get data i := Vector.ofFn fun k => Layout.u32.get data (i + k * 8)

/-- The processor's state. -/
structure Cpu where
  /-- Whether a load was linked and not yet broken. -/
  llbit : UInt32 := 0
  gpr : Vector UInt64 32 := .replicate 32 0
  cop0 : Vector UInt32 32 := .replicate 32 0
  lo : UInt64 := 0
  hi : UInt64 := 0
  fgr : Vector UInt64 32 := .replicate 32 0
  fcr0 : UInt32 := 0
  fcr31 : UInt32 := 0
  tlb : Vector TlbEntry 32 := .replicate 32 {}
  /-- The address of the next instruction. -/
  pc : UInt32 := 0
deriving DecidableEq, Inhabited

namespace Cpu

/-- The value of the cycle counter. -/
def count (c : Cpu) : UInt32 := c.cop0[countRegister]

/-- The processor some cycles later. -/
def later (c : Cpu) (cycles : UInt32) : Cpu :=
  { c with cop0 := c.cop0.set countRegister (c.count + cycles) }

/-- The processor's members in wire order. -/
def members : List (Member Cpu) :=
  [ ⟨.u32, (·.llbit), fun v c => { c with llbit := v }⟩,
    ⟨.vector 32 .u64, (·.gpr), fun v c => { c with gpr := v }⟩,
    ⟨cop0Layout, (·.cop0), fun v c => { c with cop0 := v }⟩,
    ⟨.u64, (·.lo), fun v c => { c with lo := v }⟩,
    ⟨.u64, (·.hi), fun v c => { c with hi := v }⟩,
    ⟨.vector 32 .u64, (·.fgr), fun v c => { c with fgr := v }⟩,
    ⟨.u32, (·.fcr0), fun v c => { c with fcr0 := v }⟩,
    ⟨.u32, (·.fcr31), fun v c => { c with fcr31 := v }⟩,
    ⟨.vector 32 TlbEntry.layout, (·.tlb), fun v c => { c with tlb := v }⟩,
    ⟨.u32, (·.pc), fun v c => { c with pc := v }⟩ ]

/-- The processor on the wire. -/
def layout : Layout Cpu := .record {} members

theorem layout_size : layout.size = 2464 := rfl

end Cpu

end Rewind.Machine
