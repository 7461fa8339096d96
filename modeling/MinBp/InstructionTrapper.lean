import MinBp.EventDispatcher
import MinBp.Handlers
import MinBp.VirtualMachine

/-!
# The run loop

`Machine` is what the run loop of one vCPU works on : the virtual machine, the handlers, the devices
behind their callbacks, and `exitCount`. `World` adds what event subscribers can reach, a clock and
their own state. `Hypervisor` adds the dispatcher, which may be missing, and a record of the
publications made so far (`published`) that the code does not have. No definition reads the record.
It lets statements speak about the events of a run.

`dispatchExit` follows the source's switch. `serve` is the same switch without the bus : the
result of an exit, the machine it leaves, and the event to publish, if any. `dispatchExit_eq`
states once and for all that `dispatchExit` is `serve` followed by at most one publication. Every
later property of the run loop is read off `serve`.
-/

open Bytes

namespace MinBp

variable {δ ω : Type}

/-- What the run loop of one vCPU works on. A handler of `none` is a null pointer. -/
structure Machine (δ : Type) where
  vm : VirtualMachine
  /-- The position in `vm.vcpus()` of the vCPU that `m_vcpu` points to. -/
  vcpuIndex : ℕ := 0
  vcpuIndex_lt : vcpuIndex < vm.vcpus.length
  cpuid : Option (CpuidHandler δ) := none
  io : Option (IoPortHandler δ) := none
  mmio : Option (MmioHandler δ) := none
  /-- `m_msr`, which no function of the run loop uses. -/
  msr : Option (MsrHandler δ) := none
  /-- The devices the callbacks refer to. -/
  dev : δ
  exitCount : UInt64 := 0

namespace Machine

/-- The vCPU under control. -/
def vcpu (m : Machine δ) : VCpu :=
  m.vm.vcpus.get ⟨m.vcpuIndex, m.vcpuIndex_lt⟩

/-- The machine with the vCPU under control replaced. -/
def setVCpu (v : VCpu) (m : Machine δ) : Machine δ :=
  { m with
    vm := { m.vm with vcpus := m.vm.vcpus.set m.vcpuIndex v }
    vcpuIndex_lt := by simpa using m.vcpuIndex_lt }

/-- The machine after a `KVM_RUN`. -/
def afterRun (x : KvmExit) (m : Machine δ) : Machine δ :=
  { m with
    vm := m.vm.runVCpu m.vcpuIndex x
    vcpuIndex_lt := by simpa [VirtualMachine.runVCpu] using m.vcpuIndex_lt }

@[simp] theorem vcpu_setVCpu (v : VCpu) (m : Machine δ) : (m.setVCpu v).vcpu = v := by
  simp [vcpu, setVCpu]

@[simp] theorem vcpu_afterRun (x : KvmExit) (m : Machine δ) :
    (m.afterRun x).vcpu = (m.vcpu.run x).2 := by
  simp [vcpu, afterRun, VirtualMachine.runVCpu]

/-- `m_io && !m_io->handle(..)`, negated : `true` if there is no handler or it succeeds. -/
def serveIo (m : Machine δ) : Bool × Machine δ :=
  match m.io with
  | none => (true, m)
  | some h =>
    let (ok, h', run, dev) := h.handle m.vcpu.kvmRun m.dev
    (ok, { m.setVCpu { m.vcpu with kvmRun := run } with io := some h', dev })

/-- `m_mmio && !m_mmio->handle(..)`, negated. -/
def serveMmio (m : Machine δ) : Bool × Machine δ :=
  match m.mmio with
  | none => (true, m)
  | some h =>
    let (ok, h', run, dev) := h.handle m.vcpu.kvmRun m.dev
    (ok, { m.setVCpu { m.vcpu with kvmRun := run } with mmio := some h', dev })

/-- `m_cpuid && !m_cpuid->handle(..)`, negated. -/
def serveCpuid (host : HostCpuid) (m : Machine δ) : Bool × Machine δ :=
  match m.cpuid with
  | none => (true, m)
  | some h =>
    let (ok, h', v, dev) := h.handle host m.vcpu m.dev
    (ok, { m.setVCpu v with cpuid := some h', dev })

end Machine

/-! ## Subscribers' world -/

/-- A clock, by the number of readings taken. -/
structure Clock where
  ticks : ℕ := 0
  time : ℕ → TimePoint := fun _ => 0

/-- `std::chrono::steady_clock::now`. -/
def Clock.now (c : Clock) : TimePoint × Clock :=
  (c.time c.ticks, { c with ticks := c.ticks + 1 })

/-- What an event handler can read and write. -/
structure World (δ ω : Type) where
  machine : Machine δ
  clock : Clock := {}
  /-- The first undefined behaviour a handler ran into. -/
  fault : Option Fault := none
  /-- The subscribers' own state. -/
  obs : ω

/-- An event and the machine at the time it was published. -/
structure Publication (δ : Type) where
  event : HvEvent
  machine : Machine δ

/-- The run loop with its bus. -/
structure Hypervisor (δ ω : Type) where
  world : World δ ω
  /-- The dispatcher, `none` for a null pointer. -/
  dispatch : Option (EventDispatcher (World δ ω)) := none
  /-- The publications made so far. -/
  published : List (Publication δ) := []

/-- `InstructionTrapper::RunResult`. -/
inductive RunResult where
  /-- `Continue`. -/
  | cont
  | halt
  | shutdown
  | error
  deriving DecidableEq, Repr

namespace Hypervisor

/-- The machine under the bus. -/
def machine (s : Hypervisor δ ω) : Machine δ :=
  s.world.machine

/-- The state with another machine. -/
def setMachine (m : Machine δ) (s : Hypervisor δ ω) : Hypervisor δ ω :=
  { s with world := { s.world with machine := m } }

@[simp] theorem machine_setMachine (m : Machine δ) (s : Hypervisor δ ω) :
    (s.setMachine m).machine = m :=
  rfl

@[simp] theorem dispatch_setMachine (m : Machine δ) (s : Hypervisor δ ω) :
    (s.setMachine m).dispatch = s.dispatch :=
  rfl

@[simp] theorem published_setMachine (m : Machine δ) (s : Hypervisor δ ω) :
    (s.setMachine m).published = s.published :=
  rfl

end Hypervisor

/-! ## Events of the exits -/

/-- An event of the vCPU at a time. -/
abbrev EventMaker := VCpu → TimePoint → HvEvent

/-- `ev.rip` : zero if the registers cannot be read. -/
def eventRip (v : VCpu) : UInt64 :=
  match v.getRegs .eventRip with
  | .ok regs => regs.rip
  | .error _ => 0

/-- The event of a `HLT`. -/
def haltEvent : EventMaker := fun v t =>
  { type := .guestHalt, vcpuId := v.id, timestamp := t, payload := .monostate, rip := eventRip v }

/-- The event of a shutdown. The source assigns neither `payload` nor `rip`. -/
def shutdownEvent : EventMaker := fun v t =>
  { type := .guestShutdown, vcpuId := v.id, timestamp := t }

/-- The payload of a port access, read from the run page after the handler. -/
def ioPayload (run : KvmRun) : IoEvent where
  size := run.io.size
  port := run.io.port
  isWrite := run.io.direction == KVM_EXIT_IO_OUT
  value := run.ioValue

/-- The event of a port access. -/
def ioEvent : EventMaker := fun v t =>
  { type := if (ioPayload v.kvmRun).isWrite then .ioWrite else .ioRead
    vcpuId := v.id, payload := .io (ioPayload v.kvmRun), timestamp := t, rip := eventRip v }

/-- The payload of an MMIO access, read from the run page after the handler. -/
def mmioPayload (run : KvmRun) : MmioEvent where
  guestPhysAddr := run.mmio.physAddr
  size := run.mmio.len.toUInt8
  isWrite := run.mmio.isWrite != 0
  value := run.mmioValue

/-- The event of an MMIO access. -/
def mmioEvent : EventMaker := fun v t =>
  { type := .memAccess, vcpuId := v.id, payload := .mmio (mmioPayload v.kvmRun), timestamp := t
    rip := eventRip v }

/-- The payload of a CPUID, read from the registers after the handler. -/
def cpuidPayload (v : VCpu) : CpuidEvent :=
  match v.getRegs .eventPayload with
  | .error _ => {}
  | .ok regs =>
    { leaf := regs.rax.toUInt32, subleaf := regs.rcx.toUInt32, eax := regs.rax.toUInt32
      ebx := regs.rbx.toUInt32, ecx := regs.rcx.toUInt32, edx := regs.rdx.toUInt32 }

/-- The event of a CPUID. -/
def cpuidEvent : EventMaker := fun v t =>
  { type := .cpuidAccess, vcpuId := v.id, payload := .cpuid (cpuidPayload v), timestamp := t
    rip := eventRip v }

/-! ## The trapper -/

namespace Hypervisor

/-- `if (m_dispatch) { .. m_dispatch->publish(ev); }`. -/
def emit (mk : EventMaker) (s : Hypervisor δ ω) : Hypervisor δ ω :=
  match s.dispatch with
  | none => s
  | some d =>
    let (t, clock) := s.world.clock.now
    let ev := mk s.machine.vcpu t
    let (d', world) := d.publish ev { s.world with clock }
    { world, dispatch := some d', published := s.published ++ [⟨ev, s.machine⟩] }

/-- `InstructionTrapper::dispatchExit`. -/
def dispatchExit (host : HostCpuid) (reason : ExitReason) (s : Hypervisor δ ω) :
    RunResult × Hypervisor δ ω :=
  let run := s.machine.vcpu.kvmRun
  match reason with
  | .hlt => (.halt, s.emit haltEvent)
  | .shutdown => (.shutdown, s.emit shutdownEvent)
  | .io =>
    match s.machine.serveIo with
    | (false, m) => (.error, s.setMachine m)
    | (true, m) => (.cont, (s.setMachine m).emit ioEvent)
  | .unknown =>
    -- this path serves a CPUID too, and publishes nothing
    if run.hardwareExitReason = 0 then
      match s.machine.serveCpuid host with
      | (false, m) => (.error, s.setMachine m)
      | (true, m) => (.cont, s.setMachine m)
    else (.cont, s)
  | .intr => (.cont, s)
  | .mmio =>
    match s.machine.serveMmio with
    | (false, m) => (.error, s.setMachine m)
    | (true, m) => (.cont, (s.setMachine m).emit mmioEvent)
  | .internalError =>
    if run.suberror = KVM_INTERNAL_ERROR_EMULATION then
      match s.machine.serveCpuid host with
      | (false, m) => (.error, s.setMachine m)
      | (true, m) => (.cont, (s.setMachine m).emit cpuidEvent)
    else (.error, s)
  | _ => (.cont, s)

/-- `InstructionTrapper::step`, for the `KVM_RUN` that ends in `x`. -/
def step (host : HostCpuid) (x : KvmExit) (s : Hypervisor δ ω) : RunResult × Hypervisor δ ω :=
  let (exitResult, _) := s.machine.vcpu.run x
  let m := s.machine.afterRun x
  match exitResult with
  | .error _ => (.error, s.setMachine m)
  | .ok reason => dispatchExit host reason (s.setMachine { m with exitCount := m.exitCount + 1 })

end Hypervisor

/-! ## The switch without the bus -/

namespace Machine

/-- The event that `dispatchExit` publishes for an exit that does not end in an error. -/
def eventOf : ExitReason → Option EventMaker
  | .hlt => some haltEvent
  | .shutdown => some shutdownEvent
  | .io => some ioEvent
  | .mmio => some mmioEvent
  | .internalError => some cpuidEvent
  | _ => none

/-- The switch of `dispatchExit` : the result, the machine, and the event to publish. -/
def serve (host : HostCpuid) (reason : ExitReason) (m : Machine δ) :
    RunResult × Machine δ × Option EventMaker :=
  match reason with
  | .hlt => (.halt, m, some haltEvent)
  | .shutdown => (.shutdown, m, some shutdownEvent)
  | .io =>
    if m.serveIo.1 then (.cont, m.serveIo.2, some ioEvent) else (.error, m.serveIo.2, none)
  | .unknown =>
    if m.vcpu.kvmRun.hardwareExitReason = 0 then
      if (m.serveCpuid host).1 then (.cont, (m.serveCpuid host).2, none)
      else (.error, (m.serveCpuid host).2, none)
    else (.cont, m, none)
  | .intr => (.cont, m, none)
  | .mmio =>
    if m.serveMmio.1 then (.cont, m.serveMmio.2, some mmioEvent) else (.error, m.serveMmio.2, none)
  | .internalError =>
    if m.vcpu.kvmRun.suberror = KVM_INTERNAL_ERROR_EMULATION then
      if (m.serveCpuid host).1 then (.cont, (m.serveCpuid host).2, some cpuidEvent)
      else (.error, (m.serveCpuid host).2, none)
    else (.error, m, none)
  | _ => (.cont, m, none)

/-- The machine a `KVM_RUN` hands to `dispatchExit`. -/
def entered (x : KvmExit) (m : Machine δ) : Machine δ :=
  { m.afterRun x with exitCount := m.exitCount + 1 }

/-- `step` without the bus. -/
def step (host : HostCpuid) (x : KvmExit) (m : Machine δ) :
    RunResult × Machine δ × Option EventMaker :=
  match x.reason with
  | none => (.error, m.afterRun x, none)
  | some reason => (m.entered x).serve host reason

@[simp] theorem vcpu_entered (x : KvmExit) (m : Machine δ) :
    (m.entered x).vcpu = (m.vcpu.run x).2 :=
  m.vcpu_afterRun x

theorem serveIo_fst (m : Machine δ) : m.serveIo.1 = true := by
  unfold serveIo
  split
  · rfl
  · simp only [IoPortHandler.handle]
    split <;> rfl

theorem serveMmio_fst (m : Machine δ) :
    m.serveMmio.1 = !(m.mmio.isSome && decide
      (m.vcpu.kvmRun.mmio.len.toUInt8 = 0 ∨ m.vcpu.kvmRun.mmio.len.toUInt8 > 8)) := by
  unfold serveMmio
  split
  · simp_all
  · rename_i h hmmio
    by_cases hsize : m.vcpu.kvmRun.mmio.len.toUInt8 = 0 ∨ m.vcpu.kvmRun.mmio.len.toUInt8 > 8
    · simp [MmioHandler.handle, hsize, hmmio]
    · by_cases hw : m.vcpu.kvmRun.mmio.isWrite = 0 <;>
        simp [MmioHandler.handle, hsize, hw]

theorem serveCpuid_fst_eq (host : HostCpuid) (m : Machine δ) :
    (m.serveCpuid host).1 = !(m.cpuid.isSome &&
      ((m.vcpu.faults .cpuidHandler .getRegs).isSome ||
        (m.vcpu.faults .cpuidHandler .setRegs).isSome)) := by
  unfold serveCpuid
  split
  · simp_all
  · rename_i h hcpuid
    rcases hg : m.vcpu.faults .cpuidHandler .getRegs with _ | e <;>
      rcases hs : m.vcpu.faults .cpuidHandler .setRegs with _ | e' <;>
      simp [CpuidHandler.handle_eq, hg, hs, hcpuid]

/-- An exit is published by its reason alone, unless it ends in an error. -/
theorem serve_event (host : HostCpuid) (reason : ExitReason) (m : Machine δ) :
    (m.serve host reason).2.2 =
      if (m.serve host reason).1 = .error then none else eventOf reason := by
  cases reason <;> simp only [serve] <;> (try split) <;> (try split) <;> simp_all [eventOf]

theorem step_event (host : HostCpuid) (x : KvmExit) (m : Machine δ) :
    (m.step host x).2.2 =
      if (m.step host x).1 = .error then none else x.reason.bind eventOf := by
  unfold step
  split
  · rfl
  · rename_i reason hreason
    rw [serve_event, hreason]
    rfl

/-- The event of a step is the event of its reason. -/
theorem exists_eventOf {host : HostCpuid} {x : KvmExit} {m : Machine δ} {mk : EventMaker}
    (h : (m.step host x).2.2 = some mk) :
    ∃ reason, x.reason = some reason ∧ eventOf reason = some mk := by
  rw [step_event] at h
  split at h
  · cases h
  · exact Option.bind_eq_some_iff.1 h

/-- What the handlers keep, the switch keeps. -/
theorem serve_inv {P : Machine δ → Prop} {host : HostCpuid} {m : Machine δ} (h : P m)
    (hio : P m.serveIo.2) (hmmio : P m.serveMmio.2) (hcpuid : P (m.serveCpuid host).2)
    (reason : ExitReason) : P (m.serve host reason).2.1 := by
  cases reason <;> simp only [serve] <;> (try split) <;> (try split) <;> assumption

theorem memoryRegions_serveIo (m : Machine δ) :
    m.serveIo.2.vm.memoryRegions = m.vm.memoryRegions := by
  unfold serveIo
  split <;> rfl

theorem memoryRegions_serveMmio (m : Machine δ) :
    m.serveMmio.2.vm.memoryRegions = m.vm.memoryRegions := by
  unfold serveMmio
  split <;> rfl

theorem memoryRegions_serveCpuid (host : HostCpuid) (m : Machine δ) :
    (m.serveCpuid host).2.vm.memoryRegions = m.vm.memoryRegions := by
  unfold serveCpuid
  split <;> rfl

/-- Serving an exit leaves guest memory alone. -/
theorem memoryRegions_serve (host : HostCpuid) (reason : ExitReason) (m : Machine δ) :
    (m.serve host reason).2.1.vm.memoryRegions = m.vm.memoryRegions :=
  serve_inv (P := fun m' => m'.vm.memoryRegions = m.vm.memoryRegions) rfl
    m.memoryRegions_serveIo m.memoryRegions_serveMmio (m.memoryRegions_serveCpuid host) reason

/-- A step changes guest memory only through the guest's own stores. -/
theorem memoryRegions_step (host : HostCpuid) (x : KvmExit) (m : Machine δ) :
    (m.step host x).2.1.vm.memoryRegions = (m.vm.setRam x.ram).memoryRegions := by
  unfold step
  split
  · rfl
  · exact memoryRegions_serve host _ _

end Machine

namespace Hypervisor

/-- `emit`, if there is an event. -/
def emit? (mk : Option EventMaker) (s : Hypervisor δ ω) : Hypervisor δ ω :=
  match mk with
  | none => s
  | some mk => s.emit mk

/-- `dispatchExit` serves the exit and then publishes at most one event. -/
theorem dispatchExit_eq (host : HostCpuid) (reason : ExitReason) (s : Hypervisor δ ω) :
    s.dispatchExit host reason =
      ((s.machine.serve host reason).1,
        (s.setMachine (s.machine.serve host reason).2.1).emit?
          (s.machine.serve host reason).2.2) := by
  cases reason with
  | io =>
    simp only [dispatchExit, Machine.serve]
    rcases s.machine.serveIo with ⟨_ | _, m⟩ <;> rfl
  | unknown =>
    simp only [dispatchExit, Machine.serve]
    split
    · rcases s.machine.serveCpuid host with ⟨_ | _, m⟩ <;> rfl
    · rfl
  | mmio =>
    simp only [dispatchExit, Machine.serve]
    rcases s.machine.serveMmio with ⟨_ | _, m⟩ <;> rfl
  | internalError =>
    simp only [dispatchExit, Machine.serve]
    split
    · rcases s.machine.serveCpuid host with ⟨_ | _, m⟩ <;> rfl
    · rfl
  | _ => rfl

/-- `step` is the step of the machine followed by at most one publication. -/
theorem step_eq (host : HostCpuid) (x : KvmExit) (s : Hypervisor δ ω) :
    s.step host x =
      ((s.machine.step host x).1,
        (s.setMachine (s.machine.step host x).2.1).emit? (s.machine.step host x).2.2) := by
  unfold step Machine.step VCpu.run KvmExit.reason
  cases x.errno with
  | none => exact dispatchExit_eq host _ _
  | some e =>
    by_cases he : e = EINTR
    · simp only [he, if_true]
      exact dispatchExit_eq host _ _
    · simp only [he, if_false]
      rfl

/-! ## What a publication changes -/

/-- The publication `emit?` makes : none without a dispatcher or without an event. -/
def publication (mk : Option EventMaker) (s : Hypervisor δ ω) : List (Publication δ) :=
  match s.dispatch, mk with
  | some _, some mk => [⟨mk s.machine.vcpu s.world.clock.now.1, s.machine⟩]
  | _, _ => []

theorem emit_of_none {mk : EventMaker} {s : Hypervisor δ ω} (h : s.dispatch = none) :
    s.emit mk = s := by
  simp [emit, h]

theorem emit_of_some {mk : EventMaker} {s : Hypervisor δ ω} {d : EventDispatcher (World δ ω)}
    (h : s.dispatch = some d) :
    s.emit mk =
      { world := EventDispatcher.deliver d.subscriptions (mk s.machine.vcpu s.world.clock.now.1)
          { s.world with clock := s.world.clock.now.2 }
        dispatch := some { d with publishedCount := d.publishedCount + 1 }
        published := s.published ++ [⟨mk s.machine.vcpu s.world.clock.now.1, s.machine⟩] } := by
  simp [emit, h, EventDispatcher.publish]

/-- What holds of the world, whatever its clock, and what every subscriber keeps, holds after a
publication. -/
theorem emit?_inv {P : World δ ω → Prop} {s : Hypervisor δ ω} (mk : Option EventMaker)
    (h : ∀ clock, P { s.world with clock })
    (hsub : ∀ d ∈ s.dispatch, ∀ sub ∈ d.subscriptions, ∀ ev w, P w → P (sub.handler ev w)) :
    P (s.emit? mk).world := by
  rcases mk with _ | mk
  · exact h _
  · rcases hd : s.dispatch with _ | d
    · rw [emit?, emit_of_none hd]
      exact h _
    · rw [emit?, emit_of_some hd]
      refine EventDispatcher.deliver_inv (fun sub hmem w hw => hsub d hd sub hmem _ w hw) ?_
      exact h _

/-- What holds of the served machine, and what every subscriber keeps, holds after the step. -/
theorem step_inv {P : World δ ω → Prop} {host : HostCpuid} {x : KvmExit} {s : Hypervisor δ ω}
    (h : ∀ clock, P { s.world with machine := (s.machine.step host x).2.1, clock })
    (hsub : ∀ d ∈ s.dispatch, ∀ sub ∈ d.subscriptions, ∀ ev w, P w → P (sub.handler ev w)) :
    P (s.step host x).2.world := by
  rw [step_eq]
  exact emit?_inv _ h hsub

theorem published_emit? (mk : Option EventMaker) (s : Hypervisor δ ω) :
    (s.emit? mk).published = s.published ++ s.publication mk := by
  cases mk with
  | none => cases hd : s.dispatch <;> simp [emit?, publication, hd]
  | some mk =>
    cases hd : s.dispatch with
    | none => simp [emit?, publication, hd, emit_of_none hd]
    | some d => simp [emit?, publication, hd, emit_of_some hd]

/-- A step keeps the subscriptions, and counts its publication. -/
theorem dispatch_emit? (mk : Option EventMaker) (s : Hypervisor δ ω) :
    (s.emit? mk).dispatch = s.dispatch.map fun d =>
      { d with publishedCount := d.publishedCount + UInt64.ofNat (s.publication mk).length } := by
  cases mk with
  | none => cases hd : s.dispatch <;> simp [emit?, publication, hd]
  | some mk =>
    cases hd : s.dispatch with
    | none => simp [emit?, publication, hd, emit_of_none hd]
    | some d => simp [emit?, publication, hd, emit_of_some hd]

/-- The publication of a step. -/
def stepPublication (host : HostCpuid) (x : KvmExit) (s : Hypervisor δ ω) :
    List (Publication δ) :=
  (s.setMachine (s.machine.step host x).2.1).publication (s.machine.step host x).2.2

theorem published_step (host : HostCpuid) (x : KvmExit) (s : Hypervisor δ ω) :
    (s.step host x).2.published = s.published ++ s.stepPublication host x := by
  rw [step_eq, published_emit?, published_setMachine, stepPublication]

theorem dispatch_step (host : HostCpuid) (x : KvmExit) (s : Hypervisor δ ω) :
    (s.step host x).2.dispatch = s.dispatch.map fun d =>
      { d with publishedCount :=
          d.publishedCount + UInt64.ofNat (s.stepPublication host x).length } := by
  rw [step_eq, dispatch_emit?, dispatch_setMachine, stepPublication]

/-- A dispatcher stays, with its subscriptions. -/
theorem exists_dispatch_step {s : Hypervisor δ ω} {d : EventDispatcher (World δ ω)}
    (h : s.dispatch = some d) (host : HostCpuid) (x : KvmExit) :
    ∃ d', (s.step host x).2.dispatch = some d' ∧ d'.subscriptions = d.subscriptions :=
  ⟨{ d with publishedCount := d.publishedCount + UInt64.ofNat (s.stepPublication host x).length },
    by rw [dispatch_step, h, Option.map_some], rfl⟩

end Hypervisor

/-! ## Subscribers that only observe -/

/-- No handler writes the machine. -/
def EventDispatcher.Observing (d : EventDispatcher (World δ ω)) : Prop :=
  ∀ s ∈ d.subscriptions, ∀ ev w, (s.handler ev w).machine = w.machine

/-- The dispatcher is missing, or its subscribers only observe. -/
def Hypervisor.Passive (s : Hypervisor δ ω) : Prop :=
  ∀ d ∈ s.dispatch, d.Observing

namespace Hypervisor

/-- No subscriber changes what `f` reads of the machine. -/
def Leaves {α : Type} (f : Machine δ → α) (s : Hypervisor δ ω) : Prop :=
  ∀ d ∈ s.dispatch, ∀ sub ∈ d.subscriptions, ∀ ev w, f (sub.handler ev w).machine = f w.machine

/-- What no subscriber changes, a step leaves as the machine's own step does. -/
theorem Leaves.read_step {α : Type} {f : Machine δ → α} {s : Hypervisor δ ω} (h : s.Leaves f)
    (host : HostCpuid) (x : KvmExit) :
    f (s.step host x).2.machine = f (s.machine.step host x).2.1 :=
  step_inv (P := fun w => f w.machine = f (s.machine.step host x).2.1) (fun _ => rfl)
    fun d hd sub hsub ev w hw => (h d hd sub hsub ev w).trans hw

theorem Leaves.step {α : Type} {f : Machine δ → α} {s : Hypervisor δ ω} (h : s.Leaves f)
    (host : HostCpuid) (x : KvmExit) : (s.step host x).2.Leaves f := by
  intro d hd
  rw [dispatch_step] at hd
  obtain ⟨d', hd', rfl⟩ := Option.mem_map.1 hd
  exact h d' hd'

/-- Observers change nothing of the machine. -/
theorem Passive.leaves {s : Hypervisor δ ω} (h : s.Passive) : s.Leaves id :=
  h

/-- Under observers a step does to the machine what the machine's own step does. -/
theorem Passive.machine_step {s : Hypervisor δ ω} (h : s.Passive) (host : HostCpuid)
    (x : KvmExit) : (s.step host x).2.machine = (s.machine.step host x).2.1 :=
  h.leaves.read_step host x

/-- Under observers `dispatchExit` leaves the machine that the switch leaves. -/
theorem Passive.machine_dispatchExit {s : Hypervisor δ ω} (h : s.Passive) (host : HostCpuid)
    (reason : ExitReason) :
    (s.dispatchExit host reason).2.machine = (s.machine.serve host reason).2.1 := by
  rw [dispatchExit_eq]
  exact emit?_inv (P := fun w => w.machine = (s.machine.serve host reason).2.1) _ (fun _ => rfl)
    fun d hd sub hsub ev w hw => (h d hd sub hsub ev w).trans hw

theorem Passive.step {s : Hypervisor δ ω} (h : s.Passive) (host : HostCpuid) (x : KvmExit) :
    (s.step host x).2.Passive :=
  h.leaves.step host x

end Hypervisor

/-! ## Deterministic guests and the loop -/

/-- An access the guest waits for, completed at the next `KVM_RUN` from the run page. -/
inductive Completion where
  | io (io : KvmIo) (page : Buffer)
  | mmio (mmio : KvmMmio)

/-- The completion that is pending after an exit. -/
def KvmRun.completion (run : KvmRun) : Option Completion :=
  match ExitReason.ofRaw run.exitReason with
  | .io => some (.io run.io run.page)
  | .mmio => some (.mmio run.mmio)
  | _ => none

/-- What decides how a deterministic guest goes on. -/
structure GuestState where
  regs : KvmRegs
  sregs : KvmSregs
  memoryRegions : List MemoryRegion
  completion : Option Completion

/-- The part of the machine that a deterministic guest can depend on. -/
def Machine.guestState (m : Machine δ) : GuestState where
  regs := m.vcpu.regs
  sregs := m.vcpu.sregs
  memoryRegions := m.vm.memoryRegions
  completion := m.vcpu.kvmRun.completion

/-- A deterministic guest : what `KVM_RUN` does next. -/
abbrev Guest := GuestState → KvmExit

namespace Hypervisor

/-- `step` under a deterministic guest. -/
def stepGuest (guest : Guest) (host : HostCpuid) (s : Hypervisor δ ω) :
    RunResult × Hypervisor δ ω :=
  s.step host (guest s.machine.guestState)

/-- The loop of `runLoop`. It may never end, so it takes fuel and gives `none` if that runs out. -/
def runLoopFrom (guest : Guest) (host : HostCpuid) (maxIterations : UInt64) :
    ℕ → UInt64 → Hypervisor δ ω → Option (RunResult × Hypervisor δ ω)
  | 0, _, _ => none
  | fuel + 1, iterations, s =>
    if maxIterations = 0 ∨ iterations < maxIterations then
      match s.stepGuest guest host with
      | (.cont, s') => runLoopFrom guest host maxIterations fuel (iterations + 1) s'
      | (result, s') => some (result, s')
    else some (.cont, s)

/-- `InstructionTrapper::runLoop`. -/
def runLoop (guest : Guest) (host : HostCpuid) (maxIterations : UInt64) (fuel : ℕ)
    (s : Hypervisor δ ω) : Option (RunResult × Hypervisor δ ω) :=
  runLoopFrom guest host maxIterations fuel 0 s

end Hypervisor

end MinBp
