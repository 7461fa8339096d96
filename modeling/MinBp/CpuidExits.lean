import MinBp.GuestLoader
import MinBp.MmioDevice

/-!
# Trapped CPUID instructions

With `KVM_CAP_EXIT_ON_EMULATION_FAILURE` a `CPUID` of the guest comes back as an internal error
whose suberror is an emulation failure. `dispatchExit` passes every such exit to `CpuidHandler`,
reads the registers back and publishes them.

Three things go wrong on the way. The event takes the request from the registers after the answer
has been written over it (`cpuidEvent_exact_iff`). Nothing looks at the instruction that failed and
nothing moves `RIP` past it, so other instructions are answered too and a `CPUID` traps forever
(`emulatesCpuid_iff`, `runLoopFrom_of_trapsAt`). And the callback of `main` for leaf one masks a
result it never filled in (`leafCallbacks_mask_iff`).

How the processor finds the bytes at `RIP` depends on its paging mode. It is a parameter
(`InstructionFetch`), and what is proved holds for each.
-/

open Paging

namespace MinBp

variable {δ ω : Type}

/-! ## The exit -/

namespace Machine

/-- The answer to the request in the registers. -/
def cpuidAnswer (host : HostCpuid) (h : CpuidHandler δ) (m : Machine δ) : LeafResult :=
  (h.answer host m.vcpu.regs.rax.toUInt32 m.vcpu.regs.rcx.toUInt32 m.dev).1

/-- The registers with the answer to their request. -/
def answeredRegs (host : HostCpuid) (h : CpuidHandler δ) (m : Machine δ) : KvmRegs :=
  CpuidHandler.inject (m.cpuidAnswer host h) m.vcpu.regs

variable {m : Machine δ} {h : CpuidHandler δ}

theorem serveCpuid_fst_of_some (hc : m.cpuid = some h) (host : HostCpuid) :
    (m.serveCpuid host).1 = decide (m.vcpu.RegsOk .cpuidHandler) := by
  rcases hg : m.vcpu.faults .cpuidHandler .getRegs with _ | e <;>
    rcases hs : m.vcpu.faults .cpuidHandler .setRegs with _ | e' <;>
    simp [serveCpuid_fst_eq, hc, VCpu.RegsOk, hg, hs]

/-- The vCPU after the handler. -/
theorem vcpu_serveCpuid_of_some (hc : m.cpuid = some h) (host : HostCpuid) :
    (m.serveCpuid host).2.vcpu =
      if m.vcpu.RegsOk .cpuidHandler then { m.vcpu with regs := m.answeredRegs host h }
      else m.vcpu := by
  have hv : (m.serveCpuid host).2.vcpu = (h.handle host m.vcpu m.dev).2.2.1 := by
    simp only [serveCpuid, hc]
    exact vcpu_setVCpu _ m
  rw [hv, CpuidHandler.handle_eq]
  rcases hg : m.vcpu.faults .cpuidHandler .getRegs with _ | e <;>
    rcases hs : m.vcpu.faults .cpuidHandler .setRegs with _ | e' <;>
    simp [VCpu.RegsOk, hg, hs, answeredRegs, cpuidAnswer]

end Machine

namespace Hypervisor

/-- What `dispatchExit` publishes for an exit. -/
def exitPublished (host : HostCpuid) (reason : ExitReason) (s : Hypervisor δ ω) :
    List (Publication δ) :=
  (s.dispatchExit host reason).2.published.drop s.published.length

/-- The registers that `dispatchExit` leaves. -/
def exitRegs (host : HostCpuid) (reason : ExitReason) (s : Hypervisor δ ω) : KvmRegs :=
  (s.dispatchExit host reason).2.machine.vcpu.regs

theorem exitPublished_eq (host : HostCpuid) (reason : ExitReason) (s : Hypervisor δ ω) :
    s.exitPublished host reason =
      (s.setMachine (s.machine.serve host reason).2.1).publication
        (s.machine.serve host reason).2.2 := by
  rw [exitPublished, dispatchExit_eq, published_emit?, published_setMachine, List.drop_left]

variable {s : Hypervisor δ ω} {h : CpuidHandler δ}

/-- An emulation failure publishes one event, unless the handler fails. -/
theorem exitPublished_emulation
    (hsub : s.machine.vcpu.kvmRun.suberror = KVM_INTERNAL_ERROR_EMULATION)
    (hc : s.machine.cpuid = some h) (hd : s.dispatch.isSome) (host : HostCpuid) :
    s.exitPublished host .internalError =
      if s.machine.vcpu.RegsOk .cpuidHandler then
        [⟨cpuidEvent { s.machine.vcpu with regs := s.machine.answeredRegs host h }
            s.world.clock.now.1, (s.machine.serveCpuid host).2⟩]
      else [] := by
  obtain ⟨d, hd⟩ := Option.isSome_iff_exists.1 hd
  have hv := Machine.vcpu_serveCpuid_of_some hc host
  rw [exitPublished_eq, Machine.serve, if_pos hsub, Machine.serveCpuid_fst_of_some hc]
  by_cases hok : s.machine.vcpu.RegsOk .cpuidHandler
  · rw [if_pos hok] at hv ⊢
    simp only [hok, decide_true, if_true, publication, dispatch_setMachine, hd,
      machine_setMachine, hv]
    rfl
  · rw [if_neg hok]
    simp only [hok, decide_false, publication, dispatch_setMachine, hd]
    rfl

/-- The registers after an emulation failure, under observers. -/
theorem exitRegs_emulation (hsub : s.machine.vcpu.kvmRun.suberror = KVM_INTERNAL_ERROR_EMULATION)
    (hc : s.machine.cpuid = some h) (hp : s.Passive) (host : HostCpuid) :
    s.exitRegs host .internalError =
      if s.machine.vcpu.RegsOk .cpuidHandler then s.machine.answeredRegs host h
      else s.machine.vcpu.regs := by
  have hm : (s.machine.serve host .internalError).2.1 = (s.machine.serveCpuid host).2 := by
    rw [Machine.serve, if_pos hsub]
    split_ifs <;> rfl
  rw [exitRegs, hp.machine_dispatchExit, hm, Machine.vcpu_serveCpuid_of_some hc]
  split_ifs <;> rfl

end Hypervisor

/-! ## The event -/

/-- The request as it was when the instruction trapped, and the answer to it. -/
def cpuidReport (host : HostCpuid) (h : CpuidHandler δ) (m : Machine δ) : CpuidEvent where
  leaf := m.vcpu.regs.rax.toUInt32
  subleaf := m.vcpu.regs.rcx.toUInt32
  eax := (m.cpuidAnswer host h).eax
  ebx := (m.cpuidAnswer host h).ebx
  ecx := (m.cpuidAnswer host h).ecx
  edx := (m.cpuidAnswer host h).edx

/-- The payload of the published event : the answer, twice. -/
theorem cpuidPayload_answered {m : Machine δ} (host : HostCpuid) (h : CpuidHandler δ) :
    cpuidPayload { m.vcpu with regs := m.answeredRegs host h } =
      if m.vcpu.faults .eventPayload .getRegs = none then
        { cpuidReport host h m with
          leaf := (m.cpuidAnswer host h).eax
          subleaf := (m.cpuidAnswer host h).ecx }
      else {} := by
  rcases hg : m.vcpu.faults .eventPayload .getRegs with _ | e
  · simp [cpuidPayload, VCpu.getRegs, hg, Machine.answeredRegs, CpuidHandler.inject, cpuidReport]
  · simp [cpuidPayload, VCpu.getRegs, hg]

namespace Hypervisor

/-- Every event that `dispatchExit` publishes for an emulation failure is a `CpuidAccess` with the
request and the answer. -/
def ReportsCpuid (host : HostCpuid) (h : CpuidHandler δ) (s : Hypervisor δ ω) : Prop :=
  ∀ p ∈ s.exitPublished host .internalError,
    p.event.type = .cpuidAccess ∧ p.event.payload = .cpuid (cpuidReport host h s.machine)

/-- The answer repeats the request : the leaf is in `EAX` and the subleaf in `ECX`. Where the
registers cannot be read for the event, request and answer are zero. -/
def Echoes (host : HostCpuid) (h : CpuidHandler δ) (m : Machine δ) : Prop :=
  (m.vcpu.faults .eventPayload .getRegs = none →
    (m.cpuidAnswer host h).eax = m.vcpu.regs.rax.toUInt32 ∧
      (m.cpuidAnswer host h).ecx = m.vcpu.regs.rcx.toUInt32) ∧
  (m.vcpu.faults .eventPayload .getRegs ≠ none → cpuidReport host h m = {})

instance (host : HostCpuid) (h : CpuidHandler δ) (m : Machine δ) : Decidable (Echoes host h m) :=
  inferInstanceAs (Decidable ((_ → _ ∧ _) ∧ (_ → _)))

variable {s : Hypervisor δ ω} {h : CpuidHandler δ}

/-- The payload is right exactly if the answer repeats the request. -/
theorem cpuidPayload_eq_iff (host : HostCpuid) (h : CpuidHandler δ) (m : Machine δ) :
    cpuidPayload { m.vcpu with regs := m.answeredRegs host h } = cpuidReport host h m ↔
      Echoes host h m := by
  rw [cpuidPayload_answered, Echoes]
  split_ifs with hread
  · simp [cpuidReport, hread]
  · simp [hread, eq_comm]

/-- The event of an emulation failure reports the request and the answer if and only if the handler
fails, so that there is no event, or the answer repeats the request. -/
theorem cpuidEvent_exact_iff
    (hsub : s.machine.vcpu.kvmRun.suberror = KVM_INTERNAL_ERROR_EMULATION)
    (hc : s.machine.cpuid = some h) (hd : s.dispatch.isSome) (host : HostCpuid) :
    s.ReportsCpuid host h ↔
      (s.machine.vcpu.RegsOk .cpuidHandler → Echoes host h s.machine) := by
  rw [ReportsCpuid, exitPublished_emulation hsub hc hd, ← cpuidPayload_eq_iff]
  split_ifs with hok
  · simp [hok, cpuidEvent]
  · simp [hok]

/-- A hypervisor whose vCPU has trapped at `0x1000` with a request for leaf `7`. -/
def trapped (memoryRegions : List MemoryRegion) : Hypervisor Unit Unit where
  world :=
    { machine :=
        { vm :=
            { memoryRegions
              vcpus :=
                [{ regs := { rax := 7, rcx := 0, rdx := 9, rip := 0x1000 }
                   kvmRun := { exitReason := 17, suberror := KVM_INTERNAL_ERROR_EMULATION } }] }
          vcpuIndex_lt := Nat.one_pos
          cpuid := some {}
          dev := () }
      obs := () }
  dispatch := some {}

/-- On a host that answers leaf `7` with `EAX = 7`, the event is right. -/
theorem cpuidEvent_exact_echo :
    (trapped []).ReportsCpuid (fun leaf _ => { eax := leaf, ebx := 0x20 }) {} :=
  (cpuidEvent_exact_iff rfl rfl rfl _).2 fun _ => by decide

/-- On a host that answers leaf `7` with `EAX = 2`, the event reports a request for leaf `2`. -/
theorem cpuidEvent_wrong_leaf :
    ((trapped []).exitPublished (fun _ _ => { eax := 2, ebx := 0x20 }) .internalError).map
        (·.event.payload) = [.cpuid { leaf := 2, eax := 2, ebx := 0x20 }] ∧
      cpuidReport (fun _ _ => { eax := 2, ebx := 0x20 }) {} (trapped []).machine =
        { leaf := 7, eax := 2, ebx := 0x20 } ∧
      ¬(trapped []).ReportsCpuid (fun _ _ => { eax := 2, ebx := 0x20 }) {} := by
  refine ⟨by decide, by decide, fun h => ?_⟩
  have hpayload := (h _ (List.mem_singleton.2 rfl)).2
  exact absurd hpayload (by decide)

end Hypervisor

/-! ## The instruction -/

/-- How the processor fetches byte `i` of the instruction at `RIP`. -/
abbrev InstructionFetch := VCpu → Memory → ℕ → Option UInt8

/-- The fetch of a processor in real mode. -/
def realModeFetch : InstructionFetch := fun v mem i =>
  mem (v.realModeRip + i)

/-- The instruction at `RIP` is a `CPUID`. -/
def Machine.AtCpuid (fetch : InstructionFetch) (m : Machine δ) : Prop :=
  fetch m.vcpu (guestByte m.vm.memoryRegions) 0 = some 0x0F ∧
    fetch m.vcpu (guestByte m.vm.memoryRegions) 1 = some 0xA2

instance (fetch : InstructionFetch) (m : Machine δ) : Decidable (m.AtCpuid fetch) :=
  inferInstanceAs (Decidable (_ ∧ _))

namespace Hypervisor

/-- An emulation failure at a `CPUID` puts the answer into the registers and goes on behind the
instruction. At any other instruction it changes no register and publishes no `CpuidAccess`. -/
structure EmulatesCpuid (fetch : InstructionFetch) (host : HostCpuid) (h : CpuidHandler δ)
    (s : Hypervisor δ ω) : Prop where
  cpuid : s.machine.AtCpuid fetch → s.exitRegs host .internalError =
    { s.machine.answeredRegs host h with rip := s.machine.vcpu.regs.rip + 2 }
  other : ¬s.machine.AtCpuid fetch → s.exitRegs host .internalError = s.machine.vcpu.regs ∧
    ∀ p ∈ s.exitPublished host .internalError, p.event.type ≠ .cpuidAccess

variable {s : Hypervisor δ ω} {h : CpuidHandler δ}

/-- `RIP` stays where it is. -/
theorem rip_exitRegs (hsub : s.machine.vcpu.kvmRun.suberror = KVM_INTERNAL_ERROR_EMULATION)
    (hc : s.machine.cpuid = some h) (hp : s.Passive) (host : HostCpuid) :
    (s.exitRegs host .internalError).rip = s.machine.vcpu.regs.rip := by
  rw [exitRegs_emulation hsub hc hp]
  split_ifs <;> rfl

theorem exitPublished_of_none (hd : s.dispatch = none) (host : HostCpuid) (reason : ExitReason) :
    s.exitPublished host reason = [] := by
  rw [exitPublished_eq]
  simp [publication, hd]

/-- Under observers an emulation failure is handled as it should be if and only if the instruction
is no `CPUID` and either the handler fails, or there is no dispatcher and the registers hold the
answer already. -/
theorem emulatesCpuid_iff (hsub : s.machine.vcpu.kvmRun.suberror = KVM_INTERNAL_ERROR_EMULATION)
    (hc : s.machine.cpuid = some h) (hp : s.Passive) (fetch : InstructionFetch)
    (host : HostCpuid) :
    s.EmulatesCpuid fetch host h ↔ ¬s.machine.AtCpuid fetch ∧
      (s.machine.vcpu.RegsOk .cpuidHandler →
        s.dispatch = none ∧ s.machine.answeredRegs host h = s.machine.vcpu.regs) := by
  have hregs := exitRegs_emulation hsub hc hp host
  constructor
  · intro he
    have hat : ¬s.machine.AtCpuid fetch := by
      intro hat
      have hrip := congrArg KvmRegs.rip (he.cpuid hat)
      rw [rip_exitRegs hsub hc hp] at hrip
      simp at hrip
    refine ⟨hat, fun hok => ?_⟩
    obtain ⟨hsame, hevents⟩ := he.other hat
    rw [if_pos hok] at hregs
    refine ⟨?_, hregs.symm.trans hsame⟩
    by_contra hd
    rw [exitPublished_emulation hsub hc (Option.isSome_iff_ne_none.2 hd), if_pos hok] at hevents
    exact hevents _ (List.mem_singleton.2 rfl) rfl
  · rintro ⟨hat, hcond⟩
    refine ⟨fun h' => absurd h' hat, fun _ => ?_⟩
    by_cases hok : s.machine.vcpu.RegsOk .cpuidHandler
    · obtain ⟨hd, hans⟩ := hcond hok
      rw [hregs, if_pos hok, exitPublished_of_none hd]
      exact ⟨hans, fun p hp => by cases hp⟩
    · refine ⟨by rw [hregs, if_neg hok], fun p hmem => ?_⟩
      rcases hd : s.dispatch with _ | d
      · rw [exitPublished_of_none hd] at hmem
        cases hmem
      · rw [exitPublished_emulation hsub hc (by simp [hd]), if_neg hok] at hmem
        cases hmem

theorem length_codePage (b b' : UInt8) :
    (b :: b' :: List.replicate 0xFFE 0).length = (0x1000 : UInt64).toNat := by
  rw [List.length_cons, List.length_cons, List.length_replicate]
  rfl

/-- The page of `pageVm`, starting with two bytes of code. -/
def codeRegion (b b' : UInt8) : MemoryRegion :=
  VirtualMachine.onesPage.setHost (b :: b' :: List.replicate 0xFFE 0) (length_codePage b b')

/-- `trapped` with the two bytes at `RIP`. -/
def trappedAt (b b' : UInt8) : Hypervisor Unit Unit :=
  trapped [codeRegion b b']

theorem passive_trappedAt (b b' : UInt8) : (trappedAt b b').Passive := by
  rintro d ⟨⟩ sub hsub
  cases hsub

/-- A `0F C7` without a dispatcher, on a host whose answer is in the registers already. -/
theorem emulatesCpuid_unobserved :
    ({ trappedAt 0x0F 0xC7 with dispatch := none } : Hypervisor Unit Unit).EmulatesCpuid
      realModeFetch (fun leaf _ => { eax := leaf, edx := 9 }) {} :=
  (emulatesCpuid_iff rfl rfl (by rintro d ⟨⟩) _ _).2 ⟨by decide, fun _ => ⟨rfl, by decide⟩⟩

end Hypervisor

/-! ## A trap that repeats -/

/-- The exit is an emulation failure at `a`, and the ioctls of the CPUID handler succeed. -/
structure KvmExit.FailsAt (x : KvmExit) (a : UInt64) : Prop where
  reason : x.reason = some .internalError
  suberror : x.run.suberror = KVM_INTERNAL_ERROR_EMULATION
  rip : x.regs.rip = a
  getRegs : x.faults .cpuidHandler .getRegs = none
  setRegs : x.faults .cpuidHandler .setRegs = none

/-- A guest with an instruction at `a` that traps whenever it gets there. -/
def Guest.TrapsAt (guest : Guest) (a : UInt64) : Prop :=
  ∀ g : GuestState, g.regs.rip = a → (guest g).FailsAt a

namespace Machine

/-- The CPUID handler does not move `RIP`. -/
theorem rip_serveCpuid (host : HostCpuid) (m : Machine δ) :
    (m.serveCpuid host).2.vcpu.regs.rip = m.vcpu.regs.rip := by
  rcases hc : m.cpuid with _ | h
  · simp [serveCpuid, hc]
  · rw [vcpu_serveCpuid_of_some hc]
    split_ifs <;> rfl

/-- The step at such an instruction goes on, with `RIP` where it was. -/
theorem step_of_failsAt {x : KvmExit} {a : UInt64} (hx : x.FailsAt a) (host : HostCpuid)
    (m : Machine δ) :
    (m.step host x).1 = .cont ∧ (m.step host x).2.1.vcpu.regs.rip = a := by
  have hv : (m.entered x).vcpu.regs.rip = a := by
    rw [vcpu_entered, VCpu.run_snd]
    exact hx.rip
  have hok : ((m.entered x).serveCpuid host).1 = true := by
    rw [serveCpuid_fst_eq, vcpu_entered, VCpu.run_snd]
    simp [hx.getRegs, hx.setRegs]
  have hsub : (m.entered x).vcpu.kvmRun.suberror = KVM_INTERNAL_ERROR_EMULATION := by
    rw [vcpu_entered, VCpu.run_snd]
    exact hx.suberror
  have hstep : m.step host x =
      (.cont, ((m.entered x).serveCpuid host).2, some cpuidEvent) := by
    simp only [step, hx.reason, serve, hsub, if_true, hok]
  rw [hstep]
  exact ⟨rfl, ((m.entered x).rip_serveCpuid host).trans hv⟩

end Machine

namespace Hypervisor

/-- Under observers the loop without a bound never returns once the guest is at an instruction that
traps. -/
theorem runLoopFrom_of_trapsAt {guest : Guest} {a : UInt64} (hg : guest.TrapsAt a)
    (host : HostCpuid) (fuel : ℕ) (iterations : UInt64) {s : Hypervisor δ ω} (hp : s.Passive)
    (hrip : s.machine.vcpu.regs.rip = a) :
    runLoopFrom guest host 0 fuel iterations s = none := by
  induction fuel generalizing iterations s with
  | zero => rfl
  | succ fuel ih =>
    obtain ⟨hcont, hrip'⟩ :=
      Machine.step_of_failsAt (hg s.machine.guestState hrip) host s.machine
    have hstep : s.stepGuest guest host =
        (.cont, (s.step host (guest s.machine.guestState)).2) := by
      refine Prod.ext ?_ rfl
      rw [stepGuest, step_eq]
      exact hcont
    rw [runLoopFrom, if_pos (.inl rfl), hstep]
    refine ih (iterations + 1) (hp.step host _) ?_
    rw [hp.machine_step]
    exact hrip'

/-- A guest whose code at `0x1000` is a `CPUID`, which traps and changes nothing. -/
def cpuidGuest : Guest := fun g =>
  { regs := g.regs
    sregs := g.sregs
    run := { exitReason := 17, suberror := KVM_INTERNAL_ERROR_EMULATION }
    ram := fun _ i => if i = 0 then 0x0F else 0xA2 }

theorem trapsAt_cpuidGuest (a : UInt64) : cpuidGuest.TrapsAt a := fun _ hrip =>
  ⟨rfl, rfl, hrip, rfl, rfl⟩

/-- At a `CPUID` the vCPU stays at `0x1000`, and the loop never returns. A `0F C7`, which is no
`CPUID`, has its registers overwritten and is published. -/
theorem emulation_misserved :
    ((trappedAt 0x0F 0xA2).machine.AtCpuid realModeFetch ∧
      ((trappedAt 0x0F 0xA2).exitRegs (fun _ _ => { ebx := 0x20 }) .internalError).rip = 0x1000 ∧
      ¬(trappedAt 0x0F 0xA2).EmulatesCpuid realModeFetch (fun _ _ => { ebx := 0x20 }) {} ∧
      ∀ fuel,
        (trappedAt 0x0F 0xA2).runLoop cpuidGuest (fun _ _ => { ebx := 0x20 }) 0 fuel = none) ∧
    ¬(trappedAt 0x0F 0xC7).machine.AtCpuid realModeFetch ∧
      ((trappedAt 0x0F 0xC7).exitRegs (fun _ _ => { ebx := 0x20 }) .internalError).rdx = 0 ∧
      ((trappedAt 0x0F 0xC7).exitPublished (fun _ _ => { ebx := 0x20 }) .internalError).map
        (·.event.type) = [.cpuidAccess] ∧
      ¬(trappedAt 0x0F 0xC7).EmulatesCpuid realModeFetch (fun _ _ => { ebx := 0x20 }) {} := by
  refine ⟨⟨by decide, by decide, fun he => ?_, fun fuel => ?_⟩, by decide, by decide, by decide,
    fun he => ?_⟩
  · have hrip := congrArg KvmRegs.rip (he.cpuid (by decide))
    exact absurd hrip (by decide)
  · exact runLoopFrom_of_trapsAt (trapsAt_cpuidGuest 0x1000) _ fuel 0 (passive_trappedAt _ _) rfl
  · have hregs := congrArg KvmRegs.rdx (he.other (by decide)).1
    exact absurd hregs (by decide)

end Hypervisor

/-! ## The leaf callback of `main` -/

namespace Main

/-- What a guest should get for a leaf : the host's answer, with the hypervisor-present bit of leaf
one cleared. -/
def hiddenHost (host : HostCpuid) : HostCpuid := fun leaf subleaf =>
  if leaf = 0x01 then
    { host leaf subleaf with ecx := (host leaf subleaf).ecx &&& ~~~((1 : UInt32) <<< 31) }
  else host leaf subleaf

/-- Different answers give different registers. -/
theorem inject_inj {r r' : LeafResult} {regs : KvmRegs}
    (h : CpuidHandler.inject r regs = CpuidHandler.inject r' regs) : r = r' := by
  simp only [CpuidHandler.inject, KvmRegs.mk.injEq, UInt32.toUInt64_inj] at h
  obtain ⟨ha, hb, hc, hd, -⟩ := h
  cases r
  cases r'
  simp_all

/-- A handler with the callbacks of `main`, whose ioctls succeed, injects the host's answer with the
one bit cleared, and leaves the other registers alone, if and only if the leaf is not one or the
host's answer to it has no other bit than that one. -/
theorem leafCallbacks_mask_iff {h : CpuidHandler MmioDeviceState}
    (ht : h.leafCallbacks = cpuidHandler.leafCallbacks) {vcpu : VCpu}
    (hok : vcpu.RegsOk .cpuidHandler) (host : HostCpuid) (dev : MmioDeviceState) :
    (h.handle host vcpu dev).2.2.1.regs =
        CpuidHandler.inject
          (hiddenHost host vcpu.regs.rax.toUInt32 vcpu.regs.rcx.toUInt32) vcpu.regs ↔
      (vcpu.regs.rax.toUInt32 = 0x01 → hiddenHost host 0x01 vcpu.regs.rcx.toUInt32 = {}) := by
  obtain ⟨hg, hs⟩ := hok
  have hregs : (h.handle host vcpu dev).2.2.1.regs = CpuidHandler.inject
      (if vcpu.regs.rax.toUInt32 = 0x01 then {}
        else host vcpu.regs.rax.toUInt32 vcpu.regs.rcx.toUInt32) vcpu.regs := by
    rw [CpuidHandler.handle_eq, answer_eq ht]
    simp [hg, hs]
  rw [hregs]
  by_cases hleaf : vcpu.regs.rax.toUInt32 = 0x01
  · rw [if_pos hleaf, hleaf]
    refine ⟨fun h _ => (inject_inj h).symm, fun h => ?_⟩
    rw [h rfl]
  · rw [if_neg hleaf, hiddenHost, if_neg hleaf]
    exact ⟨fun _ h => absurd h hleaf, fun _ => rfl⟩

/-- A request for leaf zero is answered by the host. -/
theorem leafCallbacks_mask_zero :
    (cpuidHandler.handle (fun _ _ => { eax := 0x16, ebx := 1 }) {} {}).2.2.1.regs =
      CpuidHandler.inject (hiddenHost (fun _ _ => { eax := 0x16, ebx := 1 }) 0 0) {} :=
  (leafCallbacks_mask_iff rfl (by decide) _ _).2 (by decide)

/-- A request for leaf one is answered with zeros, whatever the host says. -/
theorem leafOne_zeros :
    (cpuidHandler.handle (fun _ _ => { eax := 0x906EA, ecx := 0x80000001 })
        { regs := { rax := 1 } } {}).2.2.1.regs = {} ∧
      (cpuidHandler.handle (fun _ _ => { eax := 0x906EA, ecx := 0x80000001 })
          { regs := { rax := 1 } } {}).2.2.1.regs ≠
        CpuidHandler.inject (hiddenHost (fun _ _ => { eax := 0x906EA, ecx := 0x80000001 }) 1 0)
          { rax := 1 } := by
  exact ⟨by decide, by decide⟩

end Main

end MinBp
