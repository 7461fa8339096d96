import MinBp.Components
import MinBp.Events
import MinBp.Fuzz

/-!
# Devices do not interfere

All callbacks of a hypervisor share one state, the devices. A device is a part of that state with
callbacks of its own, at ports, addresses and CPUID leaves that belong to it : these work on its
part, and no other callback does (`Device`). `Tables.respond` says what a request of the guest does
to the devices, and `dev_step` that a step does this and nothing else to them.

So over every run a device goes through the requests addressed to it, in order, as if there were no
other device, and gives the guest the same answers (`device_isolated`).
-/

open Bytes Components

namespace MinBp

variable {δ ω σ : Type}

/-! ## Requests -/

/-- A request of the guest that a callback serves. -/
inductive Request where
  | input (ctx : InContext)
  | output (ctx : OutContext)
  | read (ctx : ReadContext)
  | write (ctx : WriteContext)
  | leaf (l subleaf : UInt32)
  deriving DecidableEq, Repr

/-- Where a callback is registered. -/
inductive Place where
  | inPort (port : UInt16)
  | outPort (port : UInt16)
  | readAddr (addr : UInt64)
  | writeAddr (addr : UInt64)
  | leaf (l : UInt32)
  deriving DecidableEq, Repr

/-- Where the callback for a request is looked up. -/
def Request.place : Request → Place
  | .input ctx => .inPort ctx.port
  | .output ctx => .outPort ctx.port
  | .read ctx => .readAddr ctx.addr
  | .write ctx => .writeAddr ctx.addr
  | .leaf l _ => .leaf l

/-- The request of an exit. A CPUID whose registers cannot be read, and an MMIO access of a length
that is refused, are none. -/
def KvmExit.request (x : KvmExit) : Option Request :=
  match x.reason with
  | some .io =>
    if x.run.io.direction = KVM_EXIT_IO_OUT then some (.output (IoPortHandler.outContext x.run))
    else some (.input (IoPortHandler.inContext x.run))
  | some .mmio =>
    if x.run.mmio.Accepted then
      if x.run.mmio.isWrite ≠ 0 then some (.write (MmioHandler.writeContext x.run))
      else some (.read (MmioHandler.readContext x.run))
    else none
  | some .unknown =>
    if x.run.hardwareExitReason = 0 ∧ x.faults .cpuidHandler .getRegs = none then
      some (.leaf x.regs.rax.toUInt32 x.regs.rcx.toUInt32)
    else none
  | some .internalError =>
    if x.run.suberror = KVM_INTERNAL_ERROR_EMULATION ∧
        x.faults .cpuidHandler .getRegs = none then
      some (.leaf x.regs.rax.toUInt32 x.regs.rcx.toUInt32)
    else none
  | _ => none

namespace Tables

/-- What the callbacks do with a request : what the guest is handed, and the devices after it. -/
def respond (host : HostCpuid) (T : Tables δ) : Request → δ → Option Handed × δ
  | .input ctx, dev =>
    match T.inPort with
    | none => (none, dev)
    | some table =>
      let (result, dev') := ({ inCallbacks := table } : IoPortHandler δ).input ctx dev
      (some (.bytes (encode (min ctx.size.toNat 4) result.toNat)), dev')
  | .output ctx, dev =>
    match T.outPort with
    | none => (none, dev)
    | some table => (none, ({ outCallbacks := table } : IoPortHandler δ).output ctx dev)
  | .read ctx, dev =>
    match T.read with
    | none => (none, dev)
    | some table =>
      let (result, dev') := ({ readCallbacks := table } : MmioHandler δ).read ctx dev
      (some (.bytes (encode ctx.size.toNat result.toNat)), dev')
  | .write ctx, dev =>
    match T.write with
    | none => (none, dev)
    | some table => (none, ({ writeCallbacks := table } : MmioHandler δ).write ctx dev)
  | .leaf l subleaf, dev =>
    match T.leaf with
    | none => (none, dev)
    | some table =>
      let (result, dev') :=
        ({ leafCallbacks := table } : CpuidHandler δ).answer host l subleaf dev
      (some (.leaf result), dev')

end Tables

namespace Machine

variable {m : Machine δ}

/-- What the step that takes an exit hands to the guest. The answer to a `CPUID` counts as handed
also when the ioctl fails that would write it to the registers. -/
def answered (host : HostCpuid) (x : KvmExit) (m : Machine δ) : Option Handed :=
  x.reason.bind fun reason => (m.entered x).handed host reason

theorem dev_serveIo (host : HostCpuid) (m : Machine δ) :
    m.serveIo.2.dev =
      (m.tables.respond host
        (if m.vcpu.kvmRun.io.direction = KVM_EXIT_IO_OUT then
          .output (IoPortHandler.outContext m.vcpu.kvmRun)
        else .input (IoPortHandler.inContext m.vcpu.kvmRun)) m.dev).2 := by
  unfold serveIo tables
  cases hio : m.io with
  | none => split_ifs <;> rfl
  | some h =>
    unfold IoPortHandler.handle
    split_ifs <;> rfl

theorem dev_serveMmio (host : HostCpuid) (hacc : m.vcpu.kvmRun.mmio.Accepted) :
    m.serveMmio.2.dev =
      (m.tables.respond host
        (if m.vcpu.kvmRun.mmio.isWrite ≠ 0 then .write (MmioHandler.writeContext m.vcpu.kvmRun)
        else .read (MmioHandler.readContext m.vcpu.kvmRun)) m.dev).2 := by
  unfold serveMmio tables
  cases hmmio : m.mmio with
  | none => split_ifs <;> rfl
  | some h =>
    unfold MmioHandler.handle
    dsimp only
    rw [if_neg hacc]
    split_ifs <;> rfl

theorem dev_serveMmio_refused (hacc : ¬m.vcpu.kvmRun.mmio.Accepted) :
    m.serveMmio.2.dev = m.dev := by
  unfold serveMmio
  cases hmmio : m.mmio with
  | none => rfl
  | some h =>
    unfold MmioHandler.handle
    dsimp only
    rw [if_pos (not_not.1 hacc)]

theorem dev_serveCpuid (host : HostCpuid) (m : Machine δ) :
    (m.serveCpuid host).2.dev =
      if m.vcpu.faults .cpuidHandler .getRegs = none then
        (m.tables.respond host
          (.leaf m.vcpu.regs.rax.toUInt32 m.vcpu.regs.rcx.toUInt32) m.dev).2
      else m.dev := by
  unfold serveCpuid tables
  cases hcpuid : m.cpuid with
  | none => split_ifs <;> rfl
  | some h =>
    dsimp only
    rw [CpuidHandler.handle_eq]
    dsimp only
    cases hget : m.vcpu.faults .cpuidHandler .getRegs with
    | none =>
      rw [if_neg (by simp), if_pos rfl]
      split_ifs <;> rfl
    | some e => rfl

/-- The machine after the switch is the one that the handler of the exit leaves. -/
theorem serve_machine (host : HostCpuid) (reason : ExitReason) (m : Machine δ) :
    (m.serve host reason).2.1 =
      match reason with
      | .io => m.serveIo.2
      | .mmio => m.serveMmio.2
      | .unknown =>
        if m.vcpu.kvmRun.hardwareExitReason = 0 then (m.serveCpuid host).2 else m
      | .internalError =>
        if m.vcpu.kvmRun.suberror = KVM_INTERNAL_ERROR_EMULATION then (m.serveCpuid host).2 else m
      | _ => m := by
  cases reason
  case io | mmio | unknown | internalError =>
    dsimp only [serve]
    split_ifs <;> rfl
  all_goals rfl

/-- The devices after a CPUID, on an exit that serves one under the condition `c`. -/
theorem dev_entered_serveCpuid (host : HostCpuid) (x : KvmExit) (m : Machine δ) {c : Prop}
    [Decidable c] :
    (if c then ((m.entered x).serveCpuid host).2 else m.entered x).dev =
      match (if c ∧ x.faults .cpuidHandler .getRegs = none then
        some (Request.leaf x.regs.rax.toUInt32 x.regs.rcx.toUInt32) else none) with
      | none => m.dev
      | some r => (m.tables.respond host r m.dev).2 := by
  by_cases hc : c
  · rw [if_pos hc, dev_serveCpuid, vcpu_entered, VCpu.run_snd]
    by_cases hget : x.faults .cpuidHandler .getRegs = none
    · rw [if_pos hget, if_pos ⟨hc, hget⟩]
      rfl
    · rw [if_neg hget, if_neg fun h => hget h.2]
      rfl
  · rw [if_neg hc, if_neg fun h => hc h.1]
    rfl

/-- A step does to the devices what its request does, and nothing if it has none. -/
theorem dev_step (host : HostCpuid) (x : KvmExit) (m : Machine δ) :
    (m.step host x).2.1.dev =
      match x.request with
      | none => m.dev
      | some r => (m.tables.respond host r m.dev).2 := by
  have hrun : (m.entered x).vcpu.kvmRun = x.run := by rw [vcpu_entered, VCpu.run_snd]
  unfold step KvmExit.request
  cases x.reason with
  | none => rfl
  | some reason =>
    dsimp only
    rw [serve_machine, hrun]
    cases reason
    case io =>
      dsimp only
      rw [dev_serveIo host, hrun]
      split_ifs <;> rfl
    case mmio =>
      dsimp only
      split_ifs with hacc hwrite
      · rw [dev_serveMmio host (by rwa [hrun]), hrun, if_pos hwrite]
        rfl
      · rw [dev_serveMmio host (by rwa [hrun]), hrun, if_neg hwrite]
        rfl
      · exact dev_serveMmio_refused (by rwa [hrun])
    case unknown => exact dev_entered_serveCpuid host x m
    case internalError => exact dev_entered_serveCpuid host x m
    all_goals rfl

/-- The answer to a request is what the callbacks make of it. -/
theorem answered_eq {x : KvmExit} {r : Request} (hr : x.request = some r) (host : HostCpuid)
    (m : Machine δ) : m.answered host x = (m.tables.respond host r m.dev).1 := by
  have hrun : (m.entered x).vcpu.kvmRun = x.run := by rw [vcpu_entered, VCpu.run_snd]
  have hregs : (m.entered x).vcpu.regs = x.regs := by rw [vcpu_entered, VCpu.run_snd]
  unfold KvmExit.request at hr
  unfold answered
  cases hreason : x.reason with
  | none => simp [hreason] at hr
  | some reason =>
    rw [hreason] at hr
    rw [Option.bind_some]
    cases reason
    case io =>
      dsimp only [handed] at hr ⊢
      rw [hrun]
      split_ifs at hr ⊢ <;> cases hr <;> unfold Tables.respond tables
      · cases m.io <;> rfl
      · show Option.map _ m.io = _
        cases m.io <;> rfl
    case mmio =>
      dsimp only [handed] at hr ⊢
      rw [hrun]
      split_ifs at hr with hacc hwrite <;> cases hr <;> unfold Tables.respond tables
      · rw [if_pos (.inr (.inr hwrite))]
        cases m.mmio <;> rfl
      · rw [if_neg fun h => hacc (h.imp_right fun h => h.resolve_right hwrite)]
        show Option.map _ m.mmio = _
        cases m.mmio <;> rfl
    case unknown | internalError =>
      dsimp only [handed] at hr ⊢
      rw [hregs]
      split_ifs at hr
      cases hr
      unfold Tables.respond tables
      show Option.map _ m.cpuid = _
      cases m.cpuid <;> rfl
    all_goals cases hr

end Machine

/-! ## Devices -/

/-- A device among the callbacks `T` : a part of the devices' state, the places that belong to it,
and what it does with a request. Its callbacks work on its part only, and no other callback
does. -/
structure Device (host : HostCpuid) (T : Tables δ) (σ : Type) where
  view : δ → σ
  owns : Place → Bool
  machine : Transducer σ Request (Option Handed)
  next : ∀ r dev, owns r.place = true →
    view (T.respond host r dev).2 = machine.next (view dev) r
  answer : ∀ r dev, owns r.place = true → (T.respond host r dev).1 = machine.answer (view dev) r
  other : ∀ r dev, owns r.place = false → view (T.respond host r dev).2 = view dev

namespace Device

variable {host : HostCpuid} {T : Tables δ}

/-- The request of an exit, if it is addressed to the device. -/
def request (D : Device host T σ) (x : KvmExit) : Option Request :=
  x.request.filter fun r => D.owns r.place

/-- The device is a component of the run loop. -/
theorem embeds (D : Device host T σ) :
    Embeds D.machine (fun (s : Hypervisor δ ω) x => (s.step host x).2)
      (fun s => s.Passive ∧ s.machine.tables = T) (fun s => D.view s.machine.dev) D.request
      fun s x => s.machine.answered host x where
  inv s x h := by
    refine ⟨h.1.step host x, ?_⟩
    rw [h.1.machine_step, Machine.tables_step]
    exact h.2
  next s x r h hr := by
    obtain ⟨hreq, howns⟩ := Option.filter_eq_some_iff.1 hr
    rw [h.1.machine_step, Machine.dev_step, hreq, h.2]
    exact D.next r _ howns
  answer s x r h hr := by
    obtain ⟨hreq, howns⟩ := Option.filter_eq_some_iff.1 hr
    rw [Machine.answered_eq hreq, h.2]
    exact D.answer r _ howns
  other s x h hr := by
    rw [h.1.machine_step, Machine.dev_step]
    cases hreq : x.request with
    | none => rfl
    | some r =>
      have howns : D.owns r.place = false := by
        rw [request, hreq, Option.filter_some, ite_eq_right_iff] at hr
        exact Bool.eq_false_iff.2 fun h => nomatch hr h
      dsimp only
      rw [h.2]
      exact D.other r _ howns

end Device

/-- Devices do not interfere. Over every sequence of exits, under subscribers that only observe, the
state of a device is what the requests addressed to it make of it, in order, and what the guest is
handed on these requests is what the device alone would answer. Requests to other devices, however
they are mixed in, make no difference. -/
theorem device_isolated {host : HostCpuid} {T : Tables δ} (D : Device host T σ)
    (xs : List KvmExit) {s : Hypervisor δ ω} (hp : s.Passive) (ht : s.machine.tables = T) :
    D.view (s.run host xs).machine.dev =
        D.machine.run (D.view s.machine.dev) (xs.filterMap D.request) ∧
      (s.steps host xs).filterMap
          (fun p => (D.request p.2).map fun _ => p.1.machine.answered host p.2) =
        D.machine.answers (D.view s.machine.dev) (xs.filterMap D.request) :=
  D.embeds.run xs ⟨hp, ht⟩

namespace Main

/-- What the callbacks of `main` do to the devices : only a write to the input register changes
them. -/
theorem respond_snd (host : HostCpuid) (r : Request) (dev : MmioDeviceState) :
    (tables.respond host r dev).2 =
      match r with
      | .write ctx => if ctx.addr = kRegInput then dev.input ctx.value else dev
      | _ => dev := by
  cases r with
  | input ctx => exact congrArg Prod.snd (input_eq (h := { inCallbacks := _ }) rfl ctx dev)
  | output ctx => exact output_eq (h := { outCallbacks := _ }) rfl ctx dev
  | read ctx => exact congrArg Prod.snd (read_eq (h := { readCallbacks := _ }) rfl ctx dev)
  | write ctx => exact write_eq (h := { writeCallbacks := _ }) rfl ctx dev
  | leaf l subleaf =>
    exact congrArg Prod.snd (answer_eq (h := { leafCallbacks := _ }) rfl host l subleaf dev)

/-- The input and the status register. -/
def registers (host : HostCpuid) : Device host tables MmioDeviceState where
  view := id
  owns p := p = .writeAddr kRegInput ∨ p = .readAddr kRegStatus
  machine :=
    { next := fun dev r =>
        match r with
        | .write ctx => dev.input ctx.value
        | _ => dev
      answer := fun dev r =>
        match r with
        | .read ctx => some (.bytes (encode ctx.size.toNat dev.status.toNat))
        | _ => none }
  next r dev h := by
    rw [id, respond_snd]
    cases r with
    | write ctx =>
      have haddr : ctx.addr = kRegInput := by simpa [Request.place] using h
      dsimp only
      rw [if_pos haddr]
      rfl
    | _ => rfl
  answer r dev h := by
    cases r with
    | write ctx => rfl
    | read ctx =>
      have haddr : ctx.addr = kRegStatus := by simpa [Request.place] using h
      have hread := read_eq (h := { readCallbacks := mmioHandler.readCallbacks }) rfl ctx dev
      show some (Handed.bytes (encode ctx.size.toNat (({ readCallbacks := _ } :
        MmioHandler MmioDeviceState).read ctx dev).1.toNat)) = _
      rw [hread, haddr]
      rfl
    | _ => simp [Request.place] at h
  other r dev h := by
    rw [respond_snd]
    cases r with
    | write ctx =>
      have haddr : ctx.addr ≠ kRegInput := by simpa [Request.place] using h
      dsimp only
      rw [if_neg haddr]
    | _ => rfl

/-- A key, a write of the input register, the magic number, and the status. -/
def mixedExits : List KvmExit :=
  [{ run := { exitReason := 2, io := { port := 0x60, size := 1 } } }, Hypervisor.inputWrite,
    { run := { exitReason := 6, mmio := { physAddr := kRegMagic, len := 4 } } },
    Hypervisor.statusRead]

/-- Between the key and the magic number the registers take one write and one read. -/
theorem device_isolated_mixedExits :
    (Hypervisor.launch.run (fun _ _ => {}) mixedExits).machine.dev =
        { lastWriteValue := 7, writeCount := 1 } ∧
      (Hypervisor.launch.steps (fun _ _ => {}) mixedExits).filterMap
          (fun p => ((registers fun _ _ => {}).request p.2).map fun _ =>
            p.1.machine.answered (fun _ _ => {}) p.2) =
        [none, some (.bytes [7, 0, 0, 0, 1, 0, 0, 0])] := by
  have hrequests : mixedExits.filterMap (registers fun _ _ => {}).request =
      [.write { addr := kRegInput, size := 8, value := 7 },
        .read { addr := kRegStatus, size := 8 }] := by
    decide
  obtain ⟨hdev, hanswers⟩ := device_isolated (registers fun _ _ => {}) mixedExits
    Hypervisor.launched_launch.passive Hypervisor.launched_launch.wired
  rw [hrequests] at hdev hanswers
  exact ⟨hdev, hanswers.trans (by decide)⟩

end Main

end MinBp
