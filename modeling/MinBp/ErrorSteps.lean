import MinBp.Events

/-!
# What an error leaves behind

A step ends in `Error` after a failed `KVM_RUN`, after an MMIO access of a bad length, after a
register ioctl of the CPUID handler that failed, or at an internal error that is no emulation
failure. Each of these comes before the first effect that the guest or the counters could show : the
VM is as `KVM_RUN` left it (`Untouched`). The devices are another matter. A CPUID callback has
already run when `KVM_SET_REGS` fails.

A handler adds at most one to at most one counter (`OneUp`), so a step does.
-/

namespace MinBp

variable {δ ω : Type}

namespace Machine

/-- Same VM, same counters. -/
structure Untouched (m m' : Machine δ) : Prop where
  vm : m'.vm = m.vm
  counter : ∀ c, m'.counter c = m.counter c

theorem Untouched.refl (m : Machine δ) : Untouched m m :=
  ⟨rfl, fun _ => rfl⟩

/-- Some counter may have gone up by one, the others are as they were. -/
def OneUp (m m' : Machine δ) : Prop :=
  ∃ one : Option Counter, ∀ c, m'.counter c = m.counter c + if one = some c then 1 else 0

theorem OneUp.refl (m : Machine δ) : OneUp m m :=
  ⟨none, fun c => by simp⟩

theorem vm_setVCpu_vcpu (m : Machine δ) : (m.setVCpu m.vcpu).vm = m.vm := by
  simp [setVCpu, vcpu]

/-! ## Handlers -/

/-- An MMIO access of a bad length does nothing. -/
theorem untouched_serveMmio {m : Machine δ} (h : m.serveMmio.1 = false) :
    Untouched m m.serveMmio.2 := by
  rw [serveMmio_fst, Bool.not_eq_false', Bool.and_eq_true, decide_eq_true_eq] at h
  obtain ⟨hsome, hsize⟩ := h
  refine ⟨?_, fun c => ?_⟩
  · obtain ⟨hd, hmmio⟩ := Option.isSome_iff_exists.1 hsome
    simp only [serveMmio, hmmio, MmioHandler.handle, hsize, if_true]
    exact m.vm_setVCpu_vcpu
  · rw [counter_serveMmio]
    cases c <;> simp [mmioGrowth, hsize]

/-- A CPUID whose registers cannot be read or written does nothing but call back. -/
theorem untouched_serveCpuid {host : HostCpuid} {m : Machine δ}
    (h : (m.serveCpuid host).1 = false) : Untouched m (m.serveCpuid host).2 := by
  rw [serveCpuid_fst_eq, Bool.not_eq_false', Bool.and_eq_true, Bool.or_eq_true] at h
  obtain ⟨hsome, hfault⟩ := h
  refine ⟨?_, fun c => ?_⟩
  · obtain ⟨hd, hcpuid⟩ := Option.isSome_iff_exists.1 hsome
    simp only [serveCpuid, hcpuid, CpuidHandler.handle_eq]
    rcases hfault with hget | hset
    · simp only [hget, if_true]
      exact m.vm_setVCpu_vcpu
    · by_cases hget : (m.vcpu.faults .cpuidHandler .getRegs).isSome <;>
        simp only [hget, hset, if_true, Bool.false_eq_true, if_false] <;>
        exact m.vm_setVCpu_vcpu
  · rw [counter_serveCpuid]
    cases c <;> simp [cpuidGrowth]
    intro _ hget hset
    simp [hget, hset] at hfault

theorem oneUp_serveIo (m : Machine δ) : OneUp m m.serveIo.2 := by
  simp only [OneUp, counter_serveIo]
  by_cases hio : m.io.isSome
  · by_cases hdir : m.vcpu.kvmRun.io.direction = KVM_EXIT_IO_OUT
    · exact ⟨some .outCount, fun c => by cases c <;> simp [ioGrowth, hio, hdir]⟩
    · exact ⟨some .inCount, fun c => by cases c <;> simp [ioGrowth, hio, hdir]⟩
  · exact ⟨none, fun c => by cases c <;> simp [ioGrowth, hio]⟩

theorem oneUp_serveMmio (m : Machine δ) : OneUp m m.serveMmio.2 := by
  simp only [OneUp, counter_serveMmio]
  by_cases hok : m.mmio.isSome ∧
      ¬(m.vcpu.kvmRun.mmio.len.toUInt8 = 0 ∨ m.vcpu.kvmRun.mmio.len.toUInt8 > 8)
  · by_cases hw : m.vcpu.kvmRun.mmio.isWrite = 0
    · exact ⟨some .readCount, fun c => by cases c <;> simp [mmioGrowth, hok, hw]⟩
    · exact ⟨some .writeCount, fun c => by cases c <;> simp [mmioGrowth, hok, hw]⟩
  · refine ⟨none, fun c => ?_⟩
    cases c <;> simp only [mmioGrowth, ← and_assoc, hok, false_and] <;> rfl

theorem oneUp_serveCpuid (host : HostCpuid) (m : Machine δ) : OneUp m (m.serveCpuid host).2 := by
  simp only [OneUp, counter_serveCpuid]
  by_cases hok : m.cpuid.isSome ∧ m.vcpu.faults .cpuidHandler .getRegs = none ∧
      m.vcpu.faults .cpuidHandler .setRegs = none
  · exact ⟨some .handledCount, fun c => by cases c <;> simp [cpuidGrowth, hok]⟩
  · refine ⟨none, fun c => ?_⟩
    cases c <;> simp only [cpuidGrowth, hok] <;> rfl

/-! ## The switch and the step -/

/-- An exit that ends in an error is not served at all. -/
theorem untouched_serve {host : HostCpuid} {reason : ExitReason} {m : Machine δ}
    (h : (m.serve host reason).1 = .error) : Untouched m (m.serve host reason).2.1 := by
  cases reason
  case io => simp [serve, serveIo_fst] at h
  case mmio =>
    simp only [serve] at h ⊢
    split at h
    · cases h
    · rename_i hno
      rw [if_neg hno]
      exact untouched_serveMmio (Bool.not_eq_true _ ▸ hno)
  case unknown =>
    simp only [serve] at h ⊢
    split at h
    · rename_i hhw
      split at h
      · cases h
      · rename_i hno
        rw [if_pos hhw, if_neg hno]
        exact untouched_serveCpuid (Bool.not_eq_true _ ▸ hno)
    · cases h
  case internalError =>
    simp only [serve] at h ⊢
    split at h
    · rename_i hsub
      split at h
      · cases h
      · rename_i hno
        rw [if_pos hsub, if_neg hno]
        exact untouched_serveCpuid (Bool.not_eq_true _ ▸ hno)
    · rename_i hsub
      rw [if_neg hsub]
      exact .refl m
  all_goals cases h

theorem oneUp_serve (host : HostCpuid) (reason : ExitReason) (m : Machine δ) :
    OneUp m (m.serve host reason).2.1 :=
  serve_inv (P := OneUp m) (.refl m) m.oneUp_serveIo m.oneUp_serveMmio (m.oneUp_serveCpuid host)
    reason

theorem counter_entered (x : KvmExit) (m : Machine δ) {c : Counter} (hc : c ≠ .exitCount) :
    (m.entered x).counter c = m.counter c := by
  cases c with
  | exitCount => exact absurd rfl hc
  | _ => rfl

/-- A step that ends in an error leaves the VM as `KVM_RUN` did, and counts the exit at most. -/
theorem untouched_step {host : HostCpuid} {x : KvmExit} {m : Machine δ}
    (h : (m.step host x).1 = .error) :
    (m.step host x).2.1.vm = (m.afterRun x).vm ∧
      ∀ c ≠ .exitCount, (m.step host x).2.1.counter c = m.counter c := by
  unfold step at h ⊢
  rcases hr : x.reason with _ | reason
  · exact ⟨rfl, fun _ _ => rfl⟩
  · rw [hr] at h
    have hleft := untouched_serve h
    exact ⟨hleft.vm, fun c hc => (hleft.counter c).trans (m.counter_entered x hc)⟩

/-- A step adds at most one to at most one counter of a handler. -/
theorem oneUp_step (host : HostCpuid) (x : KvmExit) (m : Machine δ) :
    ∃ one : Option Counter, ∀ c ≠ .exitCount,
      (m.step host x).2.1.counter c = m.counter c + if one = some c then 1 else 0 := by
  unfold step
  rcases x.reason with _ | reason
  · exact ⟨none, fun c _ => (UInt64.add_zero _).symm⟩
  · obtain ⟨one, hone⟩ := oneUp_serve host reason (m.entered x)
    exact ⟨one, fun c hc => (hone c).trans (by rw [m.counter_entered x hc])⟩

end Machine

namespace Hypervisor

/-- Nothing was published, the VM is as `KVM_RUN` left it, and no handler counted anything. -/
structure NoEffect (x : KvmExit) (s s' : Hypervisor δ ω) : Prop where
  published : s'.published = s.published
  dispatch : s'.dispatch = s.dispatch
  vm : s'.machine.vm = (s.machine.afterRun x).vm
  counter : ∀ c ≠ .exitCount, s'.machine.counter c = s.machine.counter c

/-- A step that ends in an error has no effect on the guest, the bus and the handlers' counters. Any
other step adds one to at most one of these counters before it publishes, and all counters that no
subscriber changes stay so. -/
theorem step_effects (host : HostCpuid) (x : KvmExit) (s : Hypervisor δ ω) :
    ((s.step host x).1 = .error → NoEffect x s (s.step host x).2) ∧
      ((s.step host x).1 ≠ .error → ∃ one : Option Counter, ∀ c ≠ .exitCount,
        (s.machine.step host x).2.1.counter c =
            s.machine.counter c + (if one = some c then 1 else 0) ∧
          (s.Leaves (·.counter c) → (s.step host x).2.machine.counter c =
            s.machine.counter c + if one = some c then 1 else 0)) := by
  constructor
  · intro herr
    have hmach : (s.machine.step host x).1 = .error := by rw [← herr, step_eq]
    have hevent : (s.machine.step host x).2.2 = none := by
      rw [Machine.step_event, if_pos hmach]
    have hstep : (s.step host x).2 = s.setMachine (s.machine.step host x).2.1 := by
      rw [step_eq, hevent]
      rfl
    rw [hstep]
    exact ⟨rfl, rfl, (Machine.untouched_step hmach).1, (Machine.untouched_step hmach).2⟩
  · intro _
    obtain ⟨one, hone⟩ := s.machine.oneUp_step host x
    exact ⟨one, fun c hc => ⟨hone c hc, fun hleaves =>
      (hleaves.read_step host x).trans (hone c hc)⟩⟩

/-- The exit of a CPUID whose results cannot be written back. -/
def unwritableCpuid : KvmExit where
  faults := fun c i => if c = .cpuidHandler ∧ i = .setRegs then some EINVAL else none

/-- A CPUID whose results cannot be written back has no effect, and a port read counts once, also
after the subscribers have run. -/
theorem step_effects_bareHypervisor :
    NoEffect unwritableCpuid bareHypervisor
        (bareHypervisor.step (fun _ _ => {}) unwritableCpuid).2 ∧
      ∃ one : Option Counter, ∀ c ≠ .exitCount,
        (bareHypervisor.step (fun _ _ => {}) { run := { exitReason := 2 } }).2.machine.counter c =
          bareHypervisor.machine.counter c + if one = some c then 1 else 0 := by
  refine ⟨(step_effects _ _ _).1 rfl, ?_⟩
  obtain ⟨one, hone⟩ := (step_effects (fun _ _ => {}) { run := { exitReason := 2 } }
    bareHypervisor).2 (by decide)
  refine ⟨one, fun c hc => (hone c hc).2 ?_⟩
  rintro d ⟨⟩ sub hsub
  cases hsub

end Hypervisor

end MinBp
