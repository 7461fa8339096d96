import MinBp.Events

/-!
# MSR exits

`InstructionTrapper` is given a `MsrHandler`, but its switch has no case for the two MSR exits.
Their numbers are not in the enumeration `ExitReason` either, so they pass the cast as other numbers
and reach the default case.

`MsrServed` says that an MSR exit reaches the handler and is published. In a run this holds of every
MSR exit, and the handler's counts grow by their number, exactly if the run has none
(`msr_exits_iff`).

The second part is about the handler itself. `MsrHandler::handle` takes an exit for a write if all
three reasons are set, and KVM sets one, so it takes every exit for a read (`handled_iff_rdmsr`).
The value of a read goes into the registers, while KVM completes an `RDMSR` from the run page on the
next entry, so the guest gets what the run page already held (`delivered_iff_data`).
-/

namespace MinBp

variable {δ ω : Type}

/-- The exit is a trapped `RDMSR` or `WRMSR`. -/
def KvmExit.IsMsr (x : KvmExit) : Prop :=
  x.errno = none ∧
    (x.run.exitReason = KVM_EXIT_X86_RDMSR ∨ x.run.exitReason = KVM_EXIT_X86_WRMSR)

instance (x : KvmExit) : Decidable x.IsMsr :=
  inferInstanceAs (Decidable (_ ∧ _))

/-- The numbers of the MSR exits are not in the enumeration. -/
theorem KvmExit.IsMsr.reason {x : KvmExit} (h : x.IsMsr) :
    x.reason = some (.other x.run.exitReason) := by
  obtain ⟨herr, h | h⟩ := h <;> simp only [KvmExit.reason, herr, h] <;> rfl

/-- `readCount() + writeCount()` of the handler. -/
def Machine.msrCount (m : Machine δ) : UInt64 :=
  m.msr.elim 0 fun h => h.readCount + h.writeCount

/-- The event an MSR exit should give : the index, and the value written or delivered. -/
def msrEvent (x : KvmExit) (h : MsrHandler δ) (dev : δ) : EventType × EventPayload :=
  if x.run.exitReason = KVM_EXIT_X86_WRMSR then
    (.msrWrite, .msr { index := x.run.msr.index, value := x.run.msr.data, isWrite := true })
  else
    (.msrRead, .msr { index := x.run.msr.index, value := (h.read x.run.msr.index dev).1 })

namespace Hypervisor

/-- The exit is passed to the handler once and published once. -/
structure MsrServed (host : HostCpuid) (x : KvmExit) (s : Hypervisor δ ω) : Prop where
  handled : ∀ h ∈ s.machine.msr, (s.step host x).2.machine.msr =
    some (h.handle (s.machine.vcpu.run x).2 x.run s.machine.dev).2.1
  published : ∃ p, (s.step host x).2.published = s.published ++ [p] ∧
    ∀ h ∈ s.machine.msr, (p.event.type, p.event.payload) = msrEvent x h s.machine.dev

end Hypervisor

/-- No subscriber serves an MSR exit itself. -/
def EventDispatcher.KeepsMsr (d : EventDispatcher (World δ ω)) : Prop :=
  ∀ s ∈ d.subscriptions, ∀ ev w, (s.handler ev w).machine.msrCount = w.machine.msrCount

namespace Machine

theorem msr_serveIo (m : Machine δ) : m.serveIo.2.msr = m.msr := by
  unfold serveIo
  split <;> rfl

theorem msr_serveMmio (m : Machine δ) : m.serveMmio.2.msr = m.msr := by
  unfold serveMmio
  split <;> rfl

theorem msr_serveCpuid (host : HostCpuid) (m : Machine δ) : (m.serveCpuid host).2.msr = m.msr := by
  unfold serveCpuid
  split <;> rfl

/-- No exit touches the MSR handler. -/
theorem msr_step (host : HostCpuid) (x : KvmExit) (m : Machine δ) :
    (m.step host x).2.1.msr = m.msr := by
  unfold step
  split
  · rfl
  · exact serve_inv (P := fun n => n.msr = m.msr) (m := m.entered x) rfl
      (m.entered x).msr_serveIo (m.entered x).msr_serveMmio ((m.entered x).msr_serveCpuid host) _

end Machine

namespace Hypervisor

/-- An MSR exit publishes nothing. -/
theorem published_step_of_isMsr {x : KvmExit} (hx : x.IsMsr) (host : HostCpuid)
    (s : Hypervisor δ ω) (hd : s.dispatch.isSome) :
    (s.step host x).2.published = s.published := by
  rw [published_step, stepPublication_eq hd, hx.reason]
  simp [Machine.eventOf]

/-- No step changes the handler's counts, if no subscriber does. -/
theorem msrCount_step {s : Hypervisor δ ω} {d : EventDispatcher (World δ ω)}
    (hd : s.dispatch = some d) (hk : d.KeepsMsr) (host : HostCpuid) (x : KvmExit) :
    (s.step host x).2.machine.msrCount = s.machine.msrCount := by
  refine step_inv (P := fun w => w.machine.msrCount = s.machine.msrCount) (fun _ => ?_)
    fun d' hd' sub hsub ev w hw => ?_
  · simp only [Machine.msrCount, Machine.msr_step]
  · obtain rfl : d = d' := by simpa [hd] using hd'
    exact (hk sub hsub ev w).trans hw

/-- No run changes the handler's counts, if no subscriber does. -/
theorem msrCount_run {s : Hypervisor δ ω} {d : EventDispatcher (World δ ω)}
    (hd : s.dispatch = some d) (hk : d.KeepsMsr) (host : HostCpuid) (xs : List KvmExit) :
    (s.run host xs).machine.msrCount = s.machine.msrCount := by
  induction xs generalizing s d with
  | nil => rfl
  | cons x xs ih =>
    obtain ⟨d', hd', hsub⟩ := exists_dispatch_step hd host x
    have hk' : d'.KeepsMsr := fun sub hmem => hk sub (hsub ▸ hmem)
    exact (ih hd' hk').trans (msrCount_step hd hk host x)

end Hypervisor

/-- In a run under a dispatcher whose subscribers leave the MSR handler alone, every MSR exit is
served and the handler's counts grow by their number if and only if there is no MSR exit. -/
theorem msr_exits_iff (host : HostCpuid) (xs : List KvmExit) {s : Hypervisor δ ω}
    {d : EventDispatcher (World δ ω)} (hd : s.dispatch = some d) (hk : d.KeepsMsr) :
    ((∀ p ∈ s.steps host xs, p.2.IsMsr → p.1.MsrServed host p.2) ∧
      (s.run host xs).machine.msrCount =
        s.machine.msrCount + UInt64.ofNat (xs.countP fun x => x.IsMsr)) ↔
    ∀ x ∈ xs, ¬ x.IsMsr := by
  constructor
  · rintro ⟨hserved, -⟩ x hx hmsr
    obtain ⟨t, ht⟩ := Runs.exists_mem_along (f := fun s x => (Hypervisor.step host x s).2) s hx
    have hdt := Hypervisor.isSome_dispatch_of_mem_steps (by simp [hd]) ht
    obtain ⟨p, hp, -⟩ := (hserved (t, x) ht hmsr).published
    rw [Hypervisor.published_step_of_isMsr hmsr host t hdt] at hp
    simp at hp
  · intro h
    refine ⟨fun p hp hmsr => absurd hmsr (h p.2 (Runs.snd_mem_of_mem_along hp)), ?_⟩
    have hzero : xs.countP (fun x => x.IsMsr) = 0 :=
      List.countP_eq_zero.2 fun x hx => by simpa using h x hx
    rw [hzero, Hypervisor.msrCount_run hd hk host xs]
    simp

/-- A hypervisor with a dispatcher and a handler with callbacks for the time-stamp counter. -/
def msrGuest : Hypervisor Unit Unit where
  world := {
    machine := {
      vm := { vcpus := [{}] }
      vcpuIndex_lt := Nat.one_pos
      msr := some (({} : MsrHandler Unit).registerRead 0x10 fun _ dev => (0x1234, dev))
      dev := () }
    obs := () }
  dispatch := some {}

/-- A halt is no MSR exit. -/
theorem msr_exits_iff_halt :
    (msrGuest.run (fun _ _ => {}) [{ run := { exitReason := 5 } }]).machine.msrCount =
      msrGuest.machine.msrCount + 0 :=
  ((msr_exits_iff (fun _ _ => {}) [{ run := { exitReason := 5 } }] (s := msrGuest) (d := {}) rfl
    (fun _ hs => by cases hs)).2 (by decide)).2

/-- A trapped `RDMSR` of the time-stamp counter goes back to the guest without the handler or the
dispatcher seeing it. -/
theorem rdmsr_ignored :
    let x : KvmExit := { run := { exitReason := 29, msr := { reason := 4, index := 0x10 } } }
    x.IsMsr ∧ (msrGuest.step (fun _ _ => {}) x).1 = .cont ∧
      (msrGuest.step (fun _ _ => {}) x).2.published.length = 0 ∧
      (msrGuest.step (fun _ _ => {}) x).2.machine.msrCount = 0 ∧
      ¬msrGuest.MsrServed (fun _ _ => {}) x := by
  refine ⟨by decide, rfl, rfl, rfl, fun h => ?_⟩
  obtain ⟨p, hp, -⟩ := h.published
  rw [Hypervisor.published_step_of_isMsr (by decide) _ _ rfl] at hp
  simp at hp

/-! ## The handler -/

/-- The run page of a trapped `RDMSR` or `WRMSR`. KVM sets one of the three reasons. -/
structure KvmRun.MsrExit (run : KvmRun) : Prop where
  exit : run.exitReason = KVM_EXIT_X86_RDMSR ∨ run.exitReason = KVM_EXIT_X86_WRMSR
  reason : run.msr.reason ∈
    [KVM_MSR_EXIT_REASON_INVAL, KVM_MSR_EXIT_REASON_UNKNOWN, KVM_MSR_EXIT_REASON_FILTER]

/-- A single reason is not the mask of all. -/
theorem KvmRun.MsrExit.reason_ne {run : KvmRun} (h : run.MsrExit) :
    run.msr.reason ≠ KVM_MSR_EXIT_REASON_VALID_MASK := by
  obtain hr | hr | hr : run.msr.reason = KVM_MSR_EXIT_REASON_INVAL ∨
      run.msr.reason = KVM_MSR_EXIT_REASON_UNKNOWN ∨
      run.msr.reason = KVM_MSR_EXIT_REASON_FILTER := by
    simpa using h.reason
  all_goals
    rw [hr]
    decide

namespace MsrHandler

/-- Every MSR exit goes down the path of a read. -/
theorem handle_eq_read {run : KvmRun} (hx : run.MsrExit) (vcpu : VCpu) (h : MsrHandler δ)
    (dev : δ) :
    h.handle vcpu run dev =
      if vcpu.RegsOk .msrHandler then
        (true, { h with readCount := h.readCount + 1 },
          { vcpu with regs := inject (h.read run.msr.index dev).1 vcpu.regs },
          (h.read run.msr.index dev).2)
      else (false, h, vcpu, (h.read run.msr.index dev).2) := by
  rw [handle, if_neg hx.reason_ne]
  rcases hg : vcpu.faults .msrHandler .getRegs with _ | e
  · rcases hs : vcpu.faults .msrHandler .setRegs with _ | e
    · simp [VCpu.RegsOk, VCpu.getRegs_ok hg, VCpu.setRegs_ok hs, hg, hs]
    · simp [VCpu.RegsOk, VCpu.getRegs_ok hg, VCpu.setRegs, hs]
  · simp [VCpu.RegsOk, VCpu.getRegs, hg]

/-- A `WRMSR` is handled as a write : the write callback gets the index and the value, and nothing
else is called. No register changes, and only the count of writes goes up. -/
structure WriteHandled (h : MsrHandler δ) (vcpu : VCpu) (run : KvmRun) (dev : δ) : Prop where
  called : (h.handle vcpu run dev).2.2.2 = h.write run.msr.index run.msr.data dev
  untouched : (h.handle vcpu run dev).2.2.1 = vcpu
  counted : (h.handle vcpu run dev).2.1 = { h with writeCount := h.writeCount + 1 }

/-- An `RDMSR` is handled as a read : the read callback gets the index, and nothing else is called.
Only the count of reads goes up. -/
structure ReadHandled (h : MsrHandler δ) (vcpu : VCpu) (run : KvmRun) (dev : δ) : Prop where
  called : (h.handle vcpu run dev).2.2.2 = (h.read run.msr.index dev).2
  counted : (h.handle vcpu run dev).2.1 = { h with readCount := h.readCount + 1 }

/-- An MSR exit is handled as what it is. -/
def Handled (h : MsrHandler δ) (vcpu : VCpu) (run : KvmRun) (dev : δ) : Prop :=
  (run.exitReason = KVM_EXIT_X86_WRMSR → h.WriteHandled vcpu run dev) ∧
    (run.exitReason = KVM_EXIT_X86_RDMSR → h.ReadHandled vcpu run dev)

/-- No `WRMSR` is handled as a write. -/
theorem not_writeHandled {run : KvmRun} (hx : run.MsrExit) (vcpu : VCpu) (h : MsrHandler δ)
    (dev : δ) : ¬h.WriteHandled vcpu run dev := by
  intro hw
  have hcount := congrArg MsrHandler.writeCount hw.counted
  rw [handle_eq_read hx] at hcount
  split_ifs at hcount <;> simp at hcount

theorem readHandled_iff {run : KvmRun} (hx : run.MsrExit) (vcpu : VCpu) (h : MsrHandler δ)
    (dev : δ) : h.ReadHandled vcpu run dev ↔ vcpu.RegsOk .msrHandler := by
  constructor
  · intro hr
    by_contra hok
    have hcount := congrArg MsrHandler.readCount hr.counted
    rw [handle_eq_read hx, if_neg hok] at hcount
    simp at hcount
  · intro hok
    constructor <;> rw [handle_eq_read hx, if_pos hok]

/-- An MSR exit is handled as what it is if and only if it is an `RDMSR` and the register ioctls of
the handler succeed. -/
theorem handled_iff_rdmsr {run : KvmRun} (hx : run.MsrExit) (vcpu : VCpu) (h : MsrHandler δ)
    (dev : δ) :
    h.Handled vcpu run dev ↔ run.exitReason = KVM_EXIT_X86_RDMSR ∧ vcpu.RegsOk .msrHandler := by
  constructor
  · rintro ⟨hw, hr⟩
    rcases hx.exit with hread | hwrite
    · exact ⟨hread, (readHandled_iff hx vcpu h dev).1 (hr hread)⟩
    · exact absurd (hw hwrite) (not_writeHandled hx vcpu h dev)
  · rintro ⟨hread, hok⟩
    refine ⟨fun hwrite => ?_, fun _ => (readHandled_iff hx vcpu h dev).2 hok⟩
    rw [hread] at hwrite
    exact absurd hwrite (by decide)

/-- A filtered access to the time-stamp counter that writes `5`, or reads. -/
def tscExit (exitReason : UInt32) : KvmRun where
  exitReason := exitReason
  msr := { reason := KVM_MSR_EXIT_REASON_FILTER, index := 0x10, data := 5 }

/-- A device that remembers what is written to the time-stamp counter. -/
def tscHandler : MsrHandler (List UInt64) :=
  (({} : MsrHandler (List UInt64)).registerRead 0x10 fun _ dev => (0x1234, dev))
    |>.registerWrite 0x10 fun _ value dev => dev ++ [value]

/-- The `RDMSR` is handled. -/
theorem handled_iff_rdmsr_tsc :
    tscHandler.Handled {} (tscExit KVM_EXIT_X86_RDMSR) [] :=
  (handled_iff_rdmsr ⟨.inl rfl, by decide⟩ _ _ _).2 ⟨rfl, by decide⟩

/-- The `WRMSR` is counted as a read, its value is dropped, and the registers are overwritten. -/
theorem wrmsr_read :
    (tscHandler.handle {} (tscExit KVM_EXIT_X86_WRMSR) []).2.2.2 = [] ∧
      (tscHandler.handle {} (tscExit KVM_EXIT_X86_WRMSR) []).2.2.1.regs.rax = 0x1234 ∧
      (tscHandler.handle {} (tscExit KVM_EXIT_X86_WRMSR) []).2.1.readCount = 1 ∧
      (tscHandler.handle {} (tscExit KVM_EXIT_X86_WRMSR) []).2.1.writeCount = 0 ∧
      ¬tscHandler.Handled {} (tscExit KVM_EXIT_X86_WRMSR) [] := by
  refine ⟨by decide, by decide, by decide, by decide, fun h => ?_⟩
  exact not_writeHandled ⟨.inr rfl, by decide⟩ _ _ _ (h.1 rfl)

/-! ## What the guest gets -/

end MsrHandler

/-- `EDX:EAX`. -/
def KvmRegs.edxEax (regs : KvmRegs) : ℕ :=
  regs.rdx.toUInt32.toNat * 2 ^ 32 + regs.rax.toUInt32.toNat

/-- KVM completes an `RDMSR` on the next entry : it loads the two halves of `msr.data`, unless
`msr.error` asks for a fault. -/
def VCpu.completeRdmsr (v : VCpu) : KvmRegs :=
  if v.kvmRun.exitReason = KVM_EXIT_X86_RDMSR ∧ v.kvmRun.msr.error = 0 then
    { v.regs with
      rax := v.kvmRun.msr.data.toUInt32.toUInt64
      rdx := (v.kvmRun.msr.data >>> 32).toUInt32.toUInt64 }
  else v.regs

namespace MsrHandler

/-- After the handler and the completion the guest has the value of the read in `EDX:EAX`, and its
other registers as they were. -/
structure Delivered (h : MsrHandler δ) (vcpu : VCpu) (dev : δ) : Prop where
  value : (h.handle vcpu vcpu.kvmRun dev).2.2.1.completeRdmsr.edxEax =
    (h.read vcpu.kvmRun.msr.index dev).1.toNat
  others :
    { (h.handle vcpu vcpu.kvmRun dev).2.2.1.completeRdmsr with
      rax := vcpu.regs.rax, rdx := vcpu.regs.rdx } = vcpu.regs

/-- The two halves of a word make up the word. -/
theorem halves_toNat (x : UInt64) :
    (x >>> 32).toUInt32.toUInt64.toUInt32.toNat * 2 ^ 32 + x.toUInt32.toUInt64.toUInt32.toNat =
      x.toNat := by
  have hx := x.toNat_lt
  have hshift : (x >>> 32).toNat = x.toNat / 2 ^ 32 := by
    rw [UInt64.toNat_shiftRight, Nat.shiftRight_eq_div_pow]
    rfl
  simp only [UInt32.toUInt32_toUInt64, UInt64.toNat_toUInt32, hshift]
  omega

/-- The registers after the completion, whether the handler succeeded or not : it changes no other
registers than the completion does. -/
theorem completeRdmsr_handle {vcpu : VCpu} (hx : vcpu.kvmRun.MsrExit)
    (hread : vcpu.kvmRun.exitReason = KVM_EXIT_X86_RDMSR) (herr : vcpu.kvmRun.msr.error = 0)
    (h : MsrHandler δ) (dev : δ) :
    (h.handle vcpu vcpu.kvmRun dev).2.2.1.completeRdmsr =
      { vcpu.regs with
        rax := vcpu.kvmRun.msr.data.toUInt32.toUInt64
        rdx := (vcpu.kvmRun.msr.data >>> 32).toUInt32.toUInt64 } := by
  rw [handle_eq_read hx]
  split_ifs <;> simp [VCpu.completeRdmsr, hread, herr, inject]

/-- An `RDMSR` that KVM completes delivers the value of its callback, or zero where there is none,
if and only if the run page holds that value already. -/
theorem delivered_iff_data {vcpu : VCpu} (hx : vcpu.kvmRun.MsrExit)
    (hread : vcpu.kvmRun.exitReason = KVM_EXIT_X86_RDMSR) (herr : vcpu.kvmRun.msr.error = 0)
    (h : MsrHandler δ) (dev : δ) :
    h.Delivered vcpu dev ↔ vcpu.kvmRun.msr.data = (h.read vcpu.kvmRun.msr.index dev).1 := by
  have hvalue : (h.handle vcpu vcpu.kvmRun dev).2.2.1.completeRdmsr.edxEax =
      vcpu.kvmRun.msr.data.toNat := by
    rw [completeRdmsr_handle hx hread herr, KvmRegs.edxEax, halves_toNat]
  constructor
  · intro hd
    exact UInt64.toNat_inj.1 (hvalue.symm.trans hd.value)
  · intro hdata
    refine ⟨by rw [hvalue, hdata], ?_⟩
    rw [completeRdmsr_handle hx hread herr]

/-- A vCPU at a filtered `RDMSR` of the time-stamp counter, with a run page that holds `data`. -/
def tscRead (data : UInt64) : VCpu where
  regs := { rax := 1, rcx := 0x10, rip := 0x1000 }
  kvmRun :=
    { exitReason := KVM_EXIT_X86_RDMSR
      msr := { reason := KVM_MSR_EXIT_REASON_FILTER, index := 0x10, data } }

/-- A value that the run page holds is delivered. -/
theorem delivered_iff_data_tsc : tscHandler.Delivered (tscRead 0x1234) [] :=
  (delivered_iff_data ⟨.inl rfl, by decide⟩ rfl rfl _ _).2 (by decide)

/-- With the zero that KVM leaves in the run page, the guest gets zero, though the handler has put
the value of the callback into the registers. -/
theorem rdmsr_zero :
    (tscHandler.handle (tscRead 0) (tscRead 0).kvmRun []).2.2.1.regs.rax = 0x1234 ∧
      (tscHandler.handle (tscRead 0) (tscRead 0).kvmRun []).2.2.1.completeRdmsr.edxEax = 0 ∧
      ¬tscHandler.Delivered (tscRead 0) [] := by
  refine ⟨by decide, by decide, fun h => ?_⟩
  have hdata : (tscHandler.handle (tscRead 0) (tscRead 0).kvmRun []).2.2.1.completeRdmsr.edxEax =
      0x1234 := h.value
  exact absurd hdata (by decide)

end MsrHandler

end MinBp
