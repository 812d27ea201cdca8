import Rewind.Wire.Register

/-!
The register blocks of the console's peripherals. Each block is a structure and the list of its
registers in wire order; bytes that only keep the registers aligned are registers as well, because
a savestate carries them.
-/

namespace Rewind.Machine

open Wire (Block Register Layout)

/-- The memory modules. -/
structure Rdram where
  (config deviceId delay mode refInterval refRow rasInterval minInterval addrSelect : UInt32 := 0)
  /-- Its highest bit is free in the machine; a savestate marks a finished transfer there. -/
  deviceManuf : UInt32 := 0
deriving DecidableEq, Inhabited

/-- The registers of `Rdram` in wire order. -/
def Rdram.registers : List (Register Rdram) :=
  [ .word "config" (·.config) (fun v r => { r with config := v }),
    .word "device_id" (·.deviceId) (fun v r => { r with deviceId := v }),
    .word "delay" (·.delay) (fun v r => { r with delay := v }),
    .word "mode" (·.mode) (fun v r => { r with mode := v }),
    .word "ref_interval" (·.refInterval) (fun v r => { r with refInterval := v }),
    .word "ref_row" (·.refRow) (fun v r => { r with refRow := v }),
    .word "ras_interval" (·.rasInterval) (fun v r => { r with rasInterval := v }),
    .word "min_interval" (·.minInterval) (fun v r => { r with minInterval := v }),
    .word "addr_select" (·.addrSelect) (fun v r => { r with addrSelect := v }),
    .word "device_manuf" (·.deviceManuf) (fun v r => { r with deviceManuf := v }) ]

/-- The interface of the processor: interrupts and their masks. -/
structure Mi where
  (wInitMode initMode : UInt32 := 0)
  /-- Init length, init mode, test mode and register mode. -/
  initFlags : Block 4 := .zero _
  (version intr intrMask wIntrMask : UInt32 := 0)
  /-- The mask bits for SP, SI, AI, VI, PI and DP. -/
  intrMaskFlags : Block 6 := .zero _
  pad : Block 2 := .zero _
deriving DecidableEq, Inhabited

/-- The registers of `Mi` in wire order. -/
def Mi.registers : List (Register Mi) :=
  [ .word "w_init_mode" (·.wInitMode) (fun v r => { r with wInitMode := v }),
    .word "init_mode" (·.initMode) (fun v r => { r with initMode := v }),
    .bytes "init_flags" 4 (·.initFlags) (fun v r => { r with initFlags := v }),
    .word "version" (·.version) (fun v r => { r with version := v }),
    .word "intr" (·.intr) (fun v r => { r with intr := v }),
    .word "intr_mask" (·.intrMask) (fun v r => { r with intrMask := v }),
    .word "w_intr_mask" (·.wIntrMask) (fun v r => { r with wIntrMask := v }),
    .bytes "intr_mask_flags" 6 (·.intrMaskFlags) (fun v r => { r with intrMaskFlags := v }),
    .bytes "_pad" 2 (·.pad) (fun v r => { r with pad := v }) ]

/-- The interface to the cartridge. -/
structure Pi where
  (dramAddr cartAddr rdLen wrLen status dom1Lat dom1Pwd dom1Pgs dom1Rls dom2Lat dom2Pwd
    : UInt32 := 0)
  (dom2Pgs dom2Rls : UInt32 := 0)
deriving DecidableEq, Inhabited

/-- The registers of `Pi` in wire order. -/
def Pi.registers : List (Register Pi) :=
  [ .word "dram_addr" (·.dramAddr) (fun v r => { r with dramAddr := v }),
    .word "cart_addr" (·.cartAddr) (fun v r => { r with cartAddr := v }),
    .word "rd_len" (·.rdLen) (fun v r => { r with rdLen := v }),
    .word "wr_len" (·.wrLen) (fun v r => { r with wrLen := v }),
    .word "status" (·.status) (fun v r => { r with status := v }),
    .word "dom1_lat" (·.dom1Lat) (fun v r => { r with dom1Lat := v }),
    .word "dom1_pwd" (·.dom1Pwd) (fun v r => { r with dom1Pwd := v }),
    .word "dom1_pgs" (·.dom1Pgs) (fun v r => { r with dom1Pgs := v }),
    .word "dom1_rls" (·.dom1Rls) (fun v r => { r with dom1Rls := v }),
    .word "dom2_lat" (·.dom2Lat) (fun v r => { r with dom2Lat := v }),
    .word "dom2_pwd" (·.dom2Pwd) (fun v r => { r with dom2Pwd := v }),
    .word "dom2_pgs" (·.dom2Pgs) (fun v r => { r with dom2Pgs := v }),
    .word "dom2_rls" (·.dom2Rls) (fun v r => { r with dom2Rls := v }) ]

/-- The signal processor. -/
structure Sp where
  (memAddr dramAddr rdLen wrLen wStatus status : UInt32 := 0)
  /-- Halt, broke, DMA busy, DMA full, IO full, single step, break on interrupt, signals 0 to 7. -/
  statusFlags : Block 15 := .zero _
  pad : Block 1 := .zero _
  (dmaFull dmaBusy semaphore : UInt32 := 0)
deriving DecidableEq, Inhabited

/-- The registers of `Sp` in wire order. -/
def Sp.registers : List (Register Sp) :=
  [ .word "mem_addr" (·.memAddr) (fun v r => { r with memAddr := v }),
    .word "dram_addr" (·.dramAddr) (fun v r => { r with dramAddr := v }),
    .word "rd_len" (·.rdLen) (fun v r => { r with rdLen := v }),
    .word "wr_len" (·.wrLen) (fun v r => { r with wrLen := v }),
    .word "w_status" (·.wStatus) (fun v r => { r with wStatus := v }),
    .word "status" (·.status) (fun v r => { r with status := v }),
    .bytes "status_flags" 15 (·.statusFlags) (fun v r => { r with statusFlags := v }),
    .bytes "_pad" 1 (·.pad) (fun v r => { r with pad := v }),
    .word "dma_full" (·.dmaFull) (fun v r => { r with dmaFull := v }),
    .word "dma_busy" (·.dmaBusy) (fun v r => { r with dmaBusy := v }),
    .word "semaphore" (·.semaphore) (fun v r => { r with semaphore := v }) ]

/-- The signal processor's program counter and self test. -/
structure Rsp where
  (pc ibist : UInt32 := 0)
deriving DecidableEq, Inhabited

/-- The registers of `Rsp` in wire order. -/
def Rsp.registers : List (Register Rsp) :=
  [ .word "pc" (·.pc) (fun v r => { r with pc := v }),
    .word "ibist" (·.ibist) (fun v r => { r with ibist := v }) ]

/-- The serial interface, which the controllers hang on. -/
structure Si where
  (dramAddr pifAddrRd64b pifAddrWr64b status : UInt32 := 0)
deriving DecidableEq, Inhabited

/-- The registers of `Si` in wire order. -/
def Si.registers : List (Register Si) :=
  [ .word "dram_addr" (·.dramAddr) (fun v r => { r with dramAddr := v }),
    .word "pif_addr_rd64b" (·.pifAddrRd64b) (fun v r => { r with pifAddrRd64b := v }),
    .word "pif_addr_wr64b" (·.pifAddrWr64b) (fun v r => { r with pifAddrWr64b := v }),
    .word "status" (·.status) (fun v r => { r with status := v }) ]

/-- The video interface. -/
structure Vi where
  (status origin width vIntr current burst vSync hSync leap hStart vStart vBurst xScale
    : UInt32 := 0)
  (yScale delay : UInt32 := 0)
deriving DecidableEq, Inhabited

/-- The registers of `Vi` in wire order. -/
def Vi.registers : List (Register Vi) :=
  [ .word "status" (·.status) (fun v r => { r with status := v }),
    .word "origin" (·.origin) (fun v r => { r with origin := v }),
    .word "width" (·.width) (fun v r => { r with width := v }),
    .word "v_intr" (·.vIntr) (fun v r => { r with vIntr := v }),
    .word "current" (·.current) (fun v r => { r with current := v }),
    .word "burst" (·.burst) (fun v r => { r with burst := v }),
    .word "v_sync" (·.vSync) (fun v r => { r with vSync := v }),
    .word "h_sync" (·.hSync) (fun v r => { r with hSync := v }),
    .word "leap" (·.leap) (fun v r => { r with leap := v }),
    .word "h_start" (·.hStart) (fun v r => { r with hStart := v }),
    .word "v_start" (·.vStart) (fun v r => { r with vStart := v }),
    .word "v_burst" (·.vBurst) (fun v r => { r with vBurst := v }),
    .word "x_scale" (·.xScale) (fun v r => { r with xScale := v }),
    .word "y_scale" (·.yScale) (fun v r => { r with yScale := v }),
    .word "delay" (·.delay) (fun v r => { r with delay := v }) ]

/-- The interface to the memory modules. -/
structure Ri where
  (mode config currentLoad select refresh latency error werror : UInt32 := 0)
deriving DecidableEq, Inhabited

/-- The registers of `Ri` in wire order. -/
def Ri.registers : List (Register Ri) :=
  [ .word "mode" (·.mode) (fun v r => { r with mode := v }),
    .word "config" (·.config) (fun v r => { r with config := v }),
    .word "current_load" (·.currentLoad) (fun v r => { r with currentLoad := v }),
    .word "select" (·.select) (fun v r => { r with select := v }),
    .word "refresh" (·.refresh) (fun v r => { r with refresh := v }),
    .word "latency" (·.latency) (fun v r => { r with latency := v }),
    .word "error" (·.error) (fun v r => { r with error := v }),
    .word "werror" (·.werror) (fun v r => { r with werror := v }) ]

/-- The audio interface. -/
structure Ai where
  (dramAddr len control status dacrate bitrate nextDelay nextLen currentDelay : UInt32 := 0)
  currentLen : UInt32 := 0
deriving DecidableEq, Inhabited

/-- The registers of `Ai` in wire order. -/
def Ai.registers : List (Register Ai) :=
  [ .word "dram_addr" (·.dramAddr) (fun v r => { r with dramAddr := v }),
    .word "len" (·.len) (fun v r => { r with len := v }),
    .word "control" (·.control) (fun v r => { r with control := v }),
    .word "status" (·.status) (fun v r => { r with status := v }),
    .word "dacrate" (·.dacrate) (fun v r => { r with dacrate := v }),
    .word "bitrate" (·.bitrate) (fun v r => { r with bitrate := v }),
    .word "next_delay" (·.nextDelay) (fun v r => { r with nextDelay := v }),
    .word "next_len" (·.nextLen) (fun v r => { r with nextLen := v }),
    .word "current_delay" (·.currentDelay) (fun v r => { r with currentDelay := v }),
    .word "current_len" (·.currentLen) (fun v r => { r with currentLen := v }) ]

/-- The command side of the display processor. -/
structure Dpc where
  (startAddr endAddr currentAddr wStatus status : UInt32 := 0)
  /-- The bits of the status register, one a byte. -/
  statusFlags : Block 11 := .zero _
  pad : Block 1 := .zero _
  (clock bufbusy pipebusy tmem : UInt32 := 0)
deriving DecidableEq, Inhabited

/-- The registers of `Dpc` in wire order. -/
def Dpc.registers : List (Register Dpc) :=
  [ .word "start" (·.startAddr) (fun v r => { r with startAddr := v }),
    .word "end" (·.endAddr) (fun v r => { r with endAddr := v }),
    .word "current" (·.currentAddr) (fun v r => { r with currentAddr := v }),
    .word "w_status" (·.wStatus) (fun v r => { r with wStatus := v }),
    .word "status" (·.status) (fun v r => { r with status := v }),
    .bytes "status_flags" 11 (·.statusFlags) (fun v r => { r with statusFlags := v }),
    .bytes "_pad" 1 (·.pad) (fun v r => { r with pad := v }),
    .word "clock" (·.clock) (fun v r => { r with clock := v }),
    .word "bufbusy" (·.bufbusy) (fun v r => { r with bufbusy := v }),
    .word "pipebusy" (·.pipebusy) (fun v r => { r with pipebusy := v }),
    .word "tmem" (·.tmem) (fun v r => { r with tmem := v }) ]

/-- The test side of the display processor. -/
structure Dps where
  (tbist testMode buftestAddr buftestData : UInt32 := 0)
deriving DecidableEq, Inhabited

/-- The registers of `Dps` in wire order. -/
def Dps.registers : List (Register Dps) :=
  [ .word "tbist" (·.tbist) (fun v r => { r with tbist := v }),
    .word "test_mode" (·.testMode) (fun v r => { r with testMode := v }),
    .word "buftest_addr" (·.buftestAddr) (fun v r => { r with buftestAddr := v }),
    .word "buftest_data" (·.buftestData) (fun v r => { r with buftestData := v }) ]

/-- Every peripheral. -/
structure Peripherals where
  rdram : Rdram := {}
  mi : Mi := {}
  pi : Pi := {}
  sp : Sp := {}
  rsp : Rsp := {}
  si : Si := {}
  vi : Vi := {}
  ri : Ri := {}
  ai : Ai := {}
  dpc : Dpc := {}
  dps : Dps := {}
deriving DecidableEq, Inhabited

/-- The registers of all peripherals in wire order, named after their block. -/
def Peripherals.registers : List (Register Peripherals) :=
  Rdram.registers.map (.within "rdram" (·.rdram) fun v p => { p with rdram := v }) ++
  Mi.registers.map (.within "mi" (·.mi) fun v p => { p with mi := v }) ++
  Pi.registers.map (.within "pi" (·.pi) fun v p => { p with pi := v }) ++
  Sp.registers.map (.within "sp" (·.sp) fun v p => { p with sp := v }) ++
  Rsp.registers.map (.within "rsp" (·.rsp) fun v p => { p with rsp := v }) ++
  Si.registers.map (.within "si" (·.si) fun v p => { p with si := v }) ++
  Vi.registers.map (.within "vi" (·.vi) fun v p => { p with vi := v }) ++
  Ri.registers.map (.within "ri" (·.ri) fun v p => { p with ri := v }) ++
  Ai.registers.map (.within "ai" (·.ai) fun v p => { p with ai := v }) ++
  Dpc.registers.map (.within "dpc" (·.dpc) fun v p => { p with dpc := v }) ++
  Dps.registers.map (.within "dps" (·.dps) fun v p => { p with dps := v })

/-- The peripherals on the wire. -/
def Peripherals.layout : Layout Peripherals := Register.layout {} registers

theorem Peripherals.layout_size : Peripherals.layout.size = 400 := rfl

end Rewind.Machine
