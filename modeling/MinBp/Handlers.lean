import MinBp.VCpu
import Mathlib.Data.List.AList

/-!
# Exit handlers

`CpuidHandler`, `IoPortHandler`, `MmioHandler` and `MsrHandler` look up a callback for the exit at
hand and carry the value between the callback and the guest. A callback is a function of its context
and of the device state `δ` its closure refers to, which it may change.

The host's `cpuid` instruction is a parameter. The run page is passed in and out, since the handlers
overwrite the data bytes of a read.
-/

open Bytes

namespace MinBp

/-- `std::unordered_map` from keys to callbacks. -/
abbrev CallbackTable (κ α : Type) := AList fun _ : κ => α

variable {δ : Type}

/-! ## CPUID -/

/-- `CpuidHandler::LeafResult`. -/
structure LeafResult where
  (eax ebx ecx edx : UInt32 := 0)
  deriving DecidableEq, Repr

/-- The `cpuid` instruction of the host, by leaf and subleaf. It is one function throughout. Answers
that vary by core or over time are outside of the model. -/
abbrev HostCpuid := UInt32 → UInt32 → LeafResult

/-- `CpuidHandler`. -/
structure CpuidHandler (δ : Type) where
  leafCallbacks : CallbackTable UInt32 (UInt32 → UInt32 → δ → LeafResult × δ) := ∅
  handledCount : UInt64 := 0

namespace CpuidHandler

/-- `CpuidHandler::registerLeaf`. -/
def registerLeaf (leaf : UInt32) (callback : UInt32 → UInt32 → δ → LeafResult × δ)
    (h : CpuidHandler δ) : CpuidHandler δ :=
  { h with leafCallbacks := h.leafCallbacks.insert leaf callback }

/-- The answer to a request : the callback's, or the host's where there is none. -/
def answer (host : HostCpuid) (leaf subleaf : UInt32) (h : CpuidHandler δ) (dev : δ) :
    LeafResult × δ :=
  match h.leafCallbacks.lookup leaf with
  | some callback => callback leaf subleaf dev
  | none => (host leaf subleaf, dev)

/-- The register file with an answer injected. -/
def inject (result : LeafResult) (regs : KvmRegs) : KvmRegs :=
  { regs with
    rax := result.eax.toUInt64
    rbx := result.ebx.toUInt64
    rcx := result.ecx.toUInt64
    rdx := result.edx.toUInt64 }

/-- `CpuidHandler::handle`. It returns `false` if the registers cannot be read or written. -/
def handle (host : HostCpuid) (vcpu : VCpu) (h : CpuidHandler δ) (dev : δ) :
    Bool × CpuidHandler δ × VCpu × δ :=
  match vcpu.getRegs .cpuidHandler with
  | .error _ => (false, h, vcpu, dev)
  | .ok regs =>
    let (result, dev') := h.answer host regs.rax.toUInt32 regs.rcx.toUInt32 dev
    match vcpu.setRegs .cpuidHandler (inject result regs) with
    | (some _, vcpu') => (false, h, vcpu', dev')
    | (none, vcpu') => (true, { h with handledCount := h.handledCount + 1 }, vcpu', dev')

/-- The three ways of a request. -/
theorem handle_eq (host : HostCpuid) (vcpu : VCpu) (h : CpuidHandler δ) (dev : δ) :
    h.handle host vcpu dev =
      let (result, dev') := h.answer host vcpu.regs.rax.toUInt32 vcpu.regs.rcx.toUInt32 dev
      if (vcpu.faults .cpuidHandler .getRegs).isSome then (false, h, vcpu, dev)
      else if (vcpu.faults .cpuidHandler .setRegs).isSome then (false, h, vcpu, dev')
      else
        (true, { h with handledCount := h.handledCount + 1 },
          { vcpu with regs := inject result vcpu.regs }, dev') := by
  rcases hg : vcpu.faults .cpuidHandler .getRegs with _ | e
  · rcases hs : vcpu.faults .cpuidHandler .setRegs with _ | e
    · simp [handle, VCpu.getRegs_ok hg, VCpu.setRegs_ok hs]
    · simp [handle, VCpu.getRegs_ok hg, VCpu.setRegs, hs]
  · simp [handle, VCpu.getRegs, hg]

/-- Exactly the requests that are served are counted. -/
theorem handledCount_handle (host : HostCpuid) (vcpu : VCpu) (h : CpuidHandler δ) (dev : δ) :
    (h.handle host vcpu dev).2.1.handledCount =
      h.handledCount + if (h.handle host vcpu dev).1 then 1 else 0 := by
  rw [handle_eq]
  rcases vcpu.faults .cpuidHandler .getRegs with _ | e <;>
    rcases vcpu.faults .cpuidHandler .setRegs with _ | e' <;> simp

/-- The table stays as it is. -/
theorem leafCallbacks_handle (host : HostCpuid) (vcpu : VCpu) (h : CpuidHandler δ) (dev : δ) :
    (h.handle host vcpu dev).2.1.leafCallbacks = h.leafCallbacks := by
  rw [handle_eq]
  rcases vcpu.faults .cpuidHandler .getRegs with _ | e <;>
    rcases vcpu.faults .cpuidHandler .setRegs with _ | e' <;> simp

end CpuidHandler

/-! ## Port I/O -/

/-- `IoPortHandler::InContext`. -/
structure InContext where
  port : UInt16 := 0
  size : UInt8 := 0
  count : UInt32 := 0
  deriving DecidableEq, Repr

/-- `IoPortHandler::OutContext`. -/
structure OutContext where
  port : UInt16 := 0
  size : UInt8 := 0
  value : UInt32 := 0
  count : UInt32 := 0
  deriving DecidableEq, Repr

/-- `IoPortHandler`. -/
structure IoPortHandler (δ : Type) where
  inCallbacks : CallbackTable UInt16 (InContext → δ → UInt32 × δ) := ∅
  outCallbacks : CallbackTable UInt16 (OutContext → δ → δ) := ∅
  inCount : UInt64 := 0
  outCount : UInt64 := 0

/-- The `uint32_t` that `memcpy` of `min(io.size, 4)` bytes at `io.data_offset` fills. -/
def KvmRun.ioValue (run : KvmRun) : UInt32 :=
  UInt32.ofNat (value (load run.page run.io.dataOffset.toNat (min run.io.size.toNat 4)))

namespace IoPortHandler

/-- `IoPortHandler::registerInPort`. -/
def registerInPort (port : UInt16) (cb : InContext → δ → UInt32 × δ) (h : IoPortHandler δ) :
    IoPortHandler δ :=
  { h with inCallbacks := h.inCallbacks.insert port cb }

/-- `IoPortHandler::registerOutPort`. -/
def registerOutPort (port : UInt16) (cb : OutContext → δ → δ) (h : IoPortHandler δ) :
    IoPortHandler δ :=
  { h with outCallbacks := h.outCallbacks.insert port cb }

/-- The context of an `OUT`. -/
def outContext (run : KvmRun) : OutContext where
  port := run.io.port
  size := run.io.size
  value := run.ioValue
  count := run.io.count

/-- The context of an `IN`. -/
def inContext (run : KvmRun) : InContext where
  port := run.io.port
  size := run.io.size
  count := run.io.count

/-- What the callback for an `OUT` does to the devices. -/
def output (ctx : OutContext) (h : IoPortHandler δ) (dev : δ) : δ :=
  match h.outCallbacks.lookup ctx.port with
  | some cb => cb ctx dev
  | none => dev

/-- What an `IN` delivers, all ones where no callback is registered. -/
def input (ctx : InContext) (h : IoPortHandler δ) (dev : δ) : UInt32 × δ :=
  match h.inCallbacks.lookup ctx.port with
  | some cb => cb ctx dev
  | none => (0xFFFFFFFF, dev)

/-- `IoPortHandler::handle`. -/
def handle (run : KvmRun) (h : IoPortHandler δ) (dev : δ) :
    Bool × IoPortHandler δ × KvmRun × δ :=
  if run.io.direction = KVM_EXIT_IO_OUT then
    (true, { h with outCount := h.outCount + 1 }, run, h.output (outContext run) dev)
  else
    let (result, dev') := h.input (inContext run) dev
    let bytes := encode (min run.io.size.toNat 4) result.toNat
    (true, { h with inCount := h.inCount + 1 },
      { run with page := store run.page run.io.dataOffset.toNat bytes }, dev')

end IoPortHandler

/-! ## MMIO -/

/-- `MmioHandler::ReadContext`. -/
structure ReadContext where
  addr : UInt64 := 0
  size : UInt8 := 0
  deriving DecidableEq, Repr

/-- `MmioHandler::WriteContext`. -/
structure WriteContext where
  addr : UInt64 := 0
  size : UInt8 := 0
  value : UInt64 := 0
  deriving DecidableEq, Repr

/-- `MmioHandler`. -/
structure MmioHandler (δ : Type) where
  readCallbacks : CallbackTable UInt64 (ReadContext → δ → UInt64 × δ) := ∅
  writeCallbacks : CallbackTable UInt64 (WriteContext → δ → δ) := ∅
  readCount : UInt64 := 0
  writeCount : UInt64 := 0

/-- The `uint64_t` that `memcpy` of `min(len, 8)` bytes of `mmio.data` fills. The length is cut to
eight bits first. -/
def KvmRun.mmioValue (run : KvmRun) : UInt64 :=
  UInt64.ofNat (value (load run.mmio.data 0 (min run.mmio.len.toUInt8.toNat 8)))

namespace MmioHandler

/-- `MmioHandler::registerRead`. -/
def registerRead (addr : UInt64) (cb : ReadContext → δ → UInt64 × δ) (h : MmioHandler δ) :
    MmioHandler δ :=
  { h with readCallbacks := h.readCallbacks.insert addr cb }

/-- `MmioHandler::registerWrite`. -/
def registerWrite (addr : UInt64) (cb : WriteContext → δ → δ) (h : MmioHandler δ) :
    MmioHandler δ :=
  { h with writeCallbacks := h.writeCallbacks.insert addr cb }

/-- The context of a write. -/
def writeContext (run : KvmRun) : WriteContext where
  addr := run.mmio.physAddr
  size := run.mmio.len.toUInt8
  value := run.mmioValue

/-- The context of a read. -/
def readContext (run : KvmRun) : ReadContext where
  addr := run.mmio.physAddr
  size := run.mmio.len.toUInt8

/-- What the callback for a write does to the devices. -/
def write (ctx : WriteContext) (h : MmioHandler δ) (dev : δ) : δ :=
  match h.writeCallbacks.lookup ctx.addr with
  | some cb => cb ctx dev
  | none => dev

/-- What a read delivers, all ones where no callback is registered. -/
def read (ctx : ReadContext) (h : MmioHandler δ) (dev : δ) : UInt64 × δ :=
  match h.readCallbacks.lookup ctx.addr with
  | some cb => cb ctx dev
  | none => (0xFFFFFFFFFFFFFFFF, dev)

/-- `MmioHandler::handle`. Lengths other than one to eight are refused. -/
def handle (run : KvmRun) (h : MmioHandler δ) (dev : δ) : Bool × MmioHandler δ × KvmRun × δ :=
  let size := run.mmio.len.toUInt8
  if size = 0 ∨ size > 8 then (false, h, run, dev)
  else if run.mmio.isWrite ≠ 0 then
    (true, { h with writeCount := h.writeCount + 1 }, run, h.write (writeContext run) dev)
  else
    let (result, dev') := h.read (readContext run) dev
    let data := store run.mmio.data 0 (encode size.toNat result.toNat)
    (true, { h with readCount := h.readCount + 1 },
      { run with mmio := { run.mmio with data } }, dev')

end MmioHandler

/-! ## MSRs -/

/-- `MsrHandler`. -/
structure MsrHandler (δ : Type) where
  readCallbacks : CallbackTable UInt32 (UInt32 → δ → UInt64 × δ) := ∅
  writeCallbacks : CallbackTable UInt32 (UInt32 → UInt64 → δ → δ) := ∅
  readCount : UInt64 := 0
  writeCount : UInt64 := 0

namespace MsrHandler

/-- `MsrHandler::registerRead`. -/
def registerRead (msrIndex : UInt32) (cb : UInt32 → δ → UInt64 × δ) (h : MsrHandler δ) :
    MsrHandler δ :=
  { h with readCallbacks := h.readCallbacks.insert msrIndex cb }

/-- `MsrHandler::registerWrite`. -/
def registerWrite (msrIndex : UInt32) (cb : UInt32 → UInt64 → δ → δ) (h : MsrHandler δ) :
    MsrHandler δ :=
  { h with writeCallbacks := h.writeCallbacks.insert msrIndex cb }

/-- What the callback for a write does to the devices. -/
def write (idx : UInt32) (value : UInt64) (h : MsrHandler δ) (dev : δ) : δ :=
  match h.writeCallbacks.lookup idx with
  | some cb => cb idx value dev
  | none => dev

/-- What a read delivers, zero where no callback is registered. -/
def read (idx : UInt32) (h : MsrHandler δ) (dev : δ) : UInt64 × δ :=
  match h.readCallbacks.lookup idx with
  | some cb => cb idx dev
  | none => (0, dev)

/-- The register file with the result of a read injected. -/
def inject (result : UInt64) (regs : KvmRegs) : KvmRegs :=
  { regs with
    rax := result &&& 0xFFFFFFFF
    rdx := (result >>> 32) &&& 0xFFFFFFFF }

/-- `MsrHandler::handle`. An exit counts as a write if all bits of its reason are set. -/
def handle (vcpu : VCpu) (run : KvmRun) (h : MsrHandler δ) (dev : δ) :
    Bool × MsrHandler δ × VCpu × δ :=
  if run.msr.reason = KVM_MSR_EXIT_REASON_VALID_MASK then
    (true, { h with writeCount := h.writeCount + 1 }, vcpu,
      h.write run.msr.index run.msr.data dev)
  else
    let (result, dev') := h.read run.msr.index dev
    match vcpu.getRegs .msrHandler with
    | .error _ => (false, h, vcpu, dev')
    | .ok regs =>
      match vcpu.setRegs .msrHandler (inject result regs) with
      | (some _, vcpu') => (false, h, vcpu', dev')
      | (none, vcpu') => (true, { h with readCount := h.readCount + 1 }, vcpu', dev')

end MsrHandler

end MinBp
