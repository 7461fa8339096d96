import MinBp.Bytes

/-!
# The vCPU and its run page

The records of `linux/kvm.h` that the hypervisor reads and writes (`KvmRegs`, `KvmSregs`, `KvmRun`)
and the class `VCpu` over them. KVM keeps one register store per vCPU, so a `VCpu` carries the
registers next to the run page that the host has mapped.

KVM itself is outside the repository. `KvmExit` is what one `KVM_RUN` leaves behind : its return
code, new registers, a new run page, new guest memory, and which register ioctls fail until the next
`KVM_RUN`. The failures are told apart by the function that issues the ioctl (`Caller`), so within
one exit every pattern of failing ioctls can occur.

The members of the union in `kvm_run` are separate fields here. The code only reads the member that
belongs to the exit reason. The bytes behind `io.data_offset` are `KvmRun.page`. It has no end :
that KVM hands out offsets inside the mapping is assumed.
-/

open Bytes

namespace MinBp

/-- A value of `errno`. Zero is never a failure. -/
abbrev Errno := ℕ

/-- Interrupted system call. -/
def EINTR : Errno := 4

/-- Out of memory. -/
def ENOMEM : Errno := 12

/-- File exists. KVM gives it for a slot that overlaps another. -/
def EEXIST : Errno := 17

/-- Invalid argument. -/
def EINVAL : Errno := 22

/-- Machine is not on the network. The loader uses it where a file or a region is missing. -/
def ENONET : Errno := 64

/-! ## Register files -/

/-- `kvm_regs`. -/
structure KvmRegs where
  (rax rbx rcx rdx : UInt64 := 0)
  (rsi rdi rsp rbp : UInt64 := 0)
  (r8 r9 r10 r11 : UInt64 := 0)
  (r12 r13 r14 r15 : UInt64 := 0)
  (rip rflags : UInt64 := 0)
  deriving DecidableEq, Repr

/-- `kvm_segment`, without its padding byte. -/
structure KvmSegment where
  base : UInt64 := 0
  limit : UInt32 := 0
  selector : UInt16 := 0
  (type present dpl db s l g avl unusable : UInt8 := 0)
  deriving DecidableEq, Repr

/-- `kvm_dtable`, without its padding. -/
structure KvmDtable where
  base : UInt64 := 0
  limit : UInt16 := 0
  deriving DecidableEq, Repr

/-- `kvm_sregs`. -/
structure KvmSregs where
  (cs ds es fs gs ss tr ldt : KvmSegment := {})
  (gdt idt : KvmDtable := {})
  (cr0 cr2 cr3 cr4 cr8 efer apicBase : UInt64 := 0)
  (interruptBitmap0 interruptBitmap1 interruptBitmap2 interruptBitmap3 : UInt64 := 0)
  deriving DecidableEq, Repr

/-! ## Run page -/

/-- The member `io` of `kvm_run`. -/
structure KvmIo where
  direction : UInt8 := 0
  size : UInt8 := 0
  port : UInt16 := 0
  count : UInt32 := 0
  dataOffset : UInt64 := 0

/-- The member `mmio` of `kvm_run`. The source's `data` is an array of eight bytes. -/
structure KvmMmio where
  physAddr : UInt64 := 0
  data : Buffer := fun _ => 0
  len : UInt32 := 0
  isWrite : UInt8 := 0

/-- The member `msr` of `kvm_run`, without its padding. -/
structure KvmMsr where
  error : UInt8 := 0
  reason : UInt32 := 0
  index : UInt32 := 0
  data : UInt64 := 0

/-- The run page shared with KVM. -/
structure KvmRun where
  exitReason : UInt32 := 0
  hardwareExitReason : UInt64 := 0
  io : KvmIo := {}
  mmio : KvmMmio := {}
  msr : KvmMsr := {}
  suberror : UInt32 := 0
  /-- The bytes of the mapping, by offset from its start. The mapping has no size here, so that an
  access at `data_offset` is never outside of it. -/
  page : Buffer := fun _ => 0

/-- `KVM_EXIT_IO_OUT`. -/
def KVM_EXIT_IO_OUT : UInt8 := 1

/-- `KVM_EXIT_X86_RDMSR`. -/
def KVM_EXIT_X86_RDMSR : UInt32 := 29

/-- `KVM_EXIT_X86_WRMSR`. -/
def KVM_EXIT_X86_WRMSR : UInt32 := 30

/-- `KVM_MSR_EXIT_REASON_INVAL`. -/
def KVM_MSR_EXIT_REASON_INVAL : UInt32 := 1

/-- `KVM_MSR_EXIT_REASON_UNKNOWN`. -/
def KVM_MSR_EXIT_REASON_UNKNOWN : UInt32 := 2

/-- `KVM_MSR_EXIT_REASON_FILTER`. -/
def KVM_MSR_EXIT_REASON_FILTER : UInt32 := 4

/-- `KVM_MSR_EXIT_REASON_VALID_MASK`, all three reasons at once. -/
def KVM_MSR_EXIT_REASON_VALID_MASK : UInt32 := 7

/-- `KVM_INTERNAL_ERROR_EMULATION`. -/
def KVM_INTERNAL_ERROR_EMULATION : UInt32 := 1

/-- The exit reasons `VCpu.h` names, and every other number the cast lets through. -/
inductive ExitReason where
  | unknown | io | hypercall | debug | hlt | mmio | irqWindowOpen | shutdown | failEntry | intr
  | setTpr | tprAccess | s390Sieic | s390Reset | dcr | nmi | internalError | osi | paprHcall
  | systemEvent
  | other (raw : UInt32)
  deriving DecidableEq, Repr

/-- `static_cast<ExitReason>` of the raw number in the run page. -/
def ExitReason.ofRaw (raw : UInt32) : ExitReason :=
  match raw.toNat with
  | 0 => .unknown
  | 2 => .io
  | 3 => .hypercall
  | 4 => .debug
  | 5 => .hlt
  | 6 => .mmio
  | 7 => .irqWindowOpen
  | 8 => .shutdown
  | 9 => .failEntry
  | 10 => .intr
  | 11 => .setTpr
  | 12 => .tprAccess
  | 13 => .s390Sieic
  | 14 => .s390Reset
  | 15 => .dcr
  | 16 => .nmi
  | 17 => .internalError
  | 18 => .osi
  | 19 => .paprHcall
  | 24 => .systemEvent
  | _ => .other raw

/-! ## Register ioctls -/

/-- The four register ioctls. -/
inductive RegIoctl where
  | getRegs | setRegs | getSregs | setSregs
  deriving DecidableEq, Repr

/-- The places in the source that issue a register ioctl. `eventRip` and `eventPayload` are the two
reads of `dispatchExit`. -/
inductive Caller where
  | cpuidHandler | msrHandler | eventRip | eventPayload | vmiAgent | takeSnapShot | restoreSnapshot
  | guestLoader
  deriving DecidableEq, Repr

/-- Which register ioctls fail, and with what `errno`. -/
abbrev Faults := Caller → RegIoctl → Option Errno

/-- What one `KVM_RUN` leaves behind. -/
structure KvmExit where
  /-- `errno` if the ioctl fails. -/
  errno : Option Errno := none
  regs : KvmRegs := {}
  sregs : KvmSregs := {}
  run : KvmRun := {}
  /-- The register ioctls that fail until the next `KVM_RUN`. -/
  faults : Faults := fun _ _ => none
  /-- The new byte at each offset of each memory region. -/
  ram : ℕ → Buffer := fun _ _ => 0

/-- A vCPU : the members of the class and the registers KVM keeps for its descriptor. -/
structure VCpu where
  id : UInt32 := 0
  regs : KvmRegs := {}
  sregs : KvmSregs := {}
  faults : Faults := fun _ _ => none
  kvmRun : KvmRun := {}

/-- The outcome of the two system calls of `VCpu::create`, and what KVM sets up for the vCPU. -/
structure VCpuOutcome where
  createVcpu : Option Errno := none
  mmap : Option Errno := none
  regs : KvmRegs := {}
  sregs : KvmSregs := {}
  faults : Faults := fun _ _ => none
  kvmRun : KvmRun := {}

namespace VCpu

/-- `VCpu::create`. -/
def create (os : VCpuOutcome) (vcpuId : UInt32) : Except Errno VCpu :=
  match os.createVcpu with
  | some e => .error e
  | none =>
    match os.mmap with
    | some e => .error e
    | none =>
      .ok { id := vcpuId, regs := os.regs, sregs := os.sregs, faults := os.faults,
            kvmRun := os.kvmRun }

/-- `VCpu::run`. An interrupted `KVM_RUN` counts as the exit `intr`. -/
def run (x : KvmExit) (v : VCpu) : Except Errno ExitReason × VCpu :=
  let v' : VCpu :=
    { v with regs := x.regs, sregs := x.sregs, faults := x.faults, kvmRun := x.run }
  match x.errno with
  | some e => (if e = EINTR then .ok .intr else .error e, v')
  | none => (.ok (.ofRaw x.run.exitReason), v')

@[simp] theorem run_snd (x : KvmExit) (v : VCpu) :
    (v.run x).2 =
      { v with regs := x.regs, sregs := x.sregs, faults := x.faults, kvmRun := x.run } := by
  unfold run
  split <;> rfl

/-- `VCpu::getRegs`. -/
def getRegs (c : Caller) (v : VCpu) : Except Errno KvmRegs :=
  match v.faults c .getRegs with
  | some e => .error e
  | none => .ok v.regs

/-- `VCpu::setRegs`. A failing ioctl changes nothing. -/
def setRegs (c : Caller) (regs : KvmRegs) (v : VCpu) : Option Errno × VCpu :=
  match v.faults c .setRegs with
  | some e => (some e, v)
  | none => (none, { v with regs })

/-- `VCpu::getSregs`. -/
def getSregs (c : Caller) (v : VCpu) : Except Errno KvmSregs :=
  match v.faults c .getSregs with
  | some e => .error e
  | none => .ok v.sregs

/-- `VCpu::setSregs`. A failing ioctl changes nothing. -/
def setSregs (c : Caller) (sregs : KvmSregs) (v : VCpu) : Option Errno × VCpu :=
  match v.faults c .setSregs with
  | some e => (some e, v)
  | none => (none, { v with sregs })

/-- The two register ioctls of a caller that reads the registers and writes them back succeed. -/
def RegsOk (c : Caller) (v : VCpu) : Prop :=
  v.faults c .getRegs = none ∧ v.faults c .setRegs = none

instance (c : Caller) (v : VCpu) : Decidable (v.RegsOk c) :=
  inferInstanceAs (Decidable (_ ∧ _))

theorem getRegs_ok {c : Caller} {v : VCpu} (h : v.faults c .getRegs = none) :
    v.getRegs c = .ok v.regs := by
  simp [getRegs, h]

theorem setRegs_ok {c : Caller} {v : VCpu} (h : v.faults c .setRegs = none) (r : KvmRegs) :
    v.setRegs c r = (none, { v with regs := r }) := by
  simp [setRegs, h]

theorem getSregs_ok {c : Caller} {v : VCpu} (h : v.faults c .getSregs = none) :
    v.getSregs c = .ok v.sregs := by
  simp [getSregs, h]

end VCpu

/-- The exit a `KVM_RUN` reports, `none` if it failed. -/
def KvmExit.reason (x : KvmExit) : Option ExitReason :=
  match x.errno with
  | some e => if e = EINTR then some .intr else none
  | none => some (.ofRaw x.run.exitReason)

end MinBp
