import MinBp.Twins

/-!
# Repeatable execution

A run from a snapshot and a run after `restoreSnapshot` start from machines that agree on all that
a deterministic guest can depend on (`Machine.Alike`). With pure callbacks they stay side by side
(`Hypervisor.Beside`) : same results, same events apart from their time, and the counters go up
alike. Whatever else survives the restore, counters, subscriptions, logs and devices, does not
come back to the guest.
-/

namespace MinBp

variable {δ ω : Type}

namespace Machine

/-! ## Restoring -/

/-- `VirtualMachine::restoreSnapshot` on the machine's VM. -/
def restoreSnapshot (m : Machine δ) (snap : VmSnapShot) : Except Fault (Machine δ) :=
  match h : m.vm.restoreSnapshot snap with
  | .error f => .error f
  | .ok vm =>
    .ok { m with
      vm
      vcpuIndex_lt := by
        have hlt := m.vcpuIndex_lt
        unfold VirtualMachine.restoreSnapshot at h
        split at h
        · cases h
        · rename_i v vs hv
          split at h
          · cases h
          · cases h
            simpa [hv] using hlt }

theorem exists_vcpus_eq_cons (m : Machine δ) : ∃ v vs, m.vm.vcpus = v :: vs := by
  have hlt := m.vcpuIndex_lt
  rcases hv : m.vm.vcpus with _ | ⟨v, vs⟩
  · rw [hv] at hlt
    exact absurd hlt (Nat.not_lt_zero _)
  · exact ⟨v, vs, rfl⟩

theorem vcpu_eq_of_index {m : Machine δ} (h : m.vcpuIndex = 0) {v : VCpu} {vs : List VCpu}
    (hv : m.vm.vcpus = v :: vs) : m.vcpu = v := by
  have hget : m.vm.vcpus[m.vcpuIndex]? = some m.vcpu :=
    List.getElem?_eq_getElem m.vcpuIndex_lt
  rw [h, hv] at hget
  exact (Option.some.inj hget).symm

/-- Restoring a snapshot of `m₀` in a machine that follows it brings back registers and memory. -/
theorem exists_restoreSnapshot {m₀ m : Machine δ} {snap : VmSnapShot} (h : Follows m₀ m)
    (hindex : m₀.vcpuIndex = 0) (htake : m₀.vm.takeSnapShot = .ok snap)
    (hget : m₀.vcpu.faults .takeSnapShot .getRegs = none)
    (hgetS : m₀.vcpu.faults .takeSnapShot .getSregs = none)
    (hset : m.vcpu.faults .restoreSnapshot .setRegs = none)
    (hsetS : m.vcpu.faults .restoreSnapshot .setSregs = none) :
    ∃ m', m.restoreSnapshot snap = .ok m' ∧
      m'.vcpu = { m.vcpu with regs := m₀.vcpu.regs, sregs := m₀.vcpu.sregs } ∧
      m'.vm.memoryRegions = m₀.vm.memoryRegions ∧ m'.tables = m.tables ∧
      m'.vcpuIndex = m.vcpuIndex ∧ m'.dev = m.dev ∧ ∀ c, m'.counter c = m.counter c := by
  obtain ⟨v, vs, hv⟩ := exists_vcpus_eq_cons m
  obtain ⟨v₀, vs₀, hv₀⟩ := exists_vcpus_eq_cons m₀
  rw [vcpu_eq_of_index hindex hv₀] at hget hgetS ⊢
  rw [vcpu_eq_of_index (h.index.trans hindex) hv] at hset hsetS ⊢
  obtain rfl : snap = ⟨v₀.regs, v₀.sregs, m₀.vm.memoryRegions.map VirtualMachine.saveRegion⟩ := by
    simpa [VirtualMachine.takeSnapShot, hv₀, VCpu.getRegs_ok hget, VCpu.getSregs_ok hgetS,
      Except.toOption, eq_comm] using htake
  have hcopy := VirtualMachine.restoreRegions_saveRegion _ _ h.regions
  rw [← h.length, List.drop_length, List.append_nil] at hcopy
  have hres : m.vm.restoreSnapshot
      ⟨v₀.regs, v₀.sregs, m₀.vm.memoryRegions.map VirtualMachine.saveRegion⟩ =
      .ok { m.vm with
        vcpus := { v with regs := v₀.regs, sregs := v₀.sregs } :: vs
        memoryRegions := m₀.vm.memoryRegions } := by
    simp [VirtualMachine.restoreSnapshot, hv, hcopy, VCpu.setRegs, VCpu.setSregs, hset, hsetS]
  unfold restoreSnapshot
  split
  · rename_i f hf
    rw [hres] at hf
    cases hf
  · rename_i vm hvm
    obtain rfl := Except.ok.inj (hres.symm.trans hvm)
    refine ⟨_, rfl, ?_, rfl, rfl, rfl, rfl, fun c => ?_⟩
    · exact vcpu_eq_of_index (by exact h.index.trans hindex) rfl
    · cases c <;> rfl

end Machine

/-! ## Hypervisors side by side -/

/-- The event without its time. -/
def HvEvent.untimed (ev : HvEvent) : HvEvent :=
  { ev with timestamp := 0 }

theorem untimed_eventOf {reason : ExitReason} {mk : EventMaker}
    (h : Machine.eventOf reason = some mk) (v : VCpu) (t t' : TimePoint) :
    (mk v t).untimed = (mk v t').untimed := by
  cases reason <;> simp only [Machine.eventOf, Option.some.injEq, reduceCtorEq] at h <;>
    subst h <;> rfl

namespace Hypervisor

/-- The events published so far, times aside. -/
def events (s : Hypervisor δ ω) : List HvEvent :=
  s.published.map (·.event.untimed)

/-- `s` and `t`, reached from `s₀` and `t₀`, are side by side : nothing the guest or an event
depends on differs, and they have published and counted the same since. -/
structure Beside (s₀ s t₀ t : Hypervisor δ ω) : Prop where
  alike : s.machine.Alike t.machine
  passive : s.Passive ∧ t.Passive
  dispatch : s.dispatch.isSome = t.dispatch.isSome
  events : ∃ new, s.events = s₀.events ++ new ∧ t.events = t₀.events ++ new
  growth : Machine.SameGrowth s₀.machine s.machine t₀.machine t.machine

/-- The events of a step. -/
theorem events_step (host : HostCpuid) (x : KvmExit) (s : Hypervisor δ ω) :
    (s.step host x).2.events = s.events ++
      if s.dispatch.isSome then
        (s.machine.step host x).2.2.toList.map fun mk =>
          (mk (s.machine.step host x).2.1.vcpu 0).untimed
      else [] := by
  rw [events, published_step, List.map_append, events, List.append_cancel_left_eq]
  simp only [stepPublication, publication, dispatch_setMachine]
  rcases s.dispatch with _ | d
  · rfl
  · rcases hmk : (s.machine.step host x).2.2 with _ | mk
    · rfl
    · obtain ⟨reason, -, hevent⟩ := Machine.exists_eventOf hmk
      simpa using untimed_eventOf hevent _ _ _

/-- One step side by side. -/
theorem Beside.step {s₀ s t₀ t : Hypervisor δ ω} (h : Beside s₀ s t₀ t) (host : HostCpuid)
    {x : KvmExit}
    (hh : ∀ reason ∈ x.reason, (s.machine.entered x).handed host reason =
      (t.machine.entered x).handed host reason) :
    (s.step host x).1 = (t.step host x).1 ∧
      Beside s₀ (s.step host x).2 t₀ (t.step host x).2 := by
  have hs := h.alike.step hh
  have hms := h.passive.1.machine_step host x
  have hmt := h.passive.2.machine_step host x
  refine ⟨by rw [step_eq, step_eq]; exact hs.result, ?_, ⟨h.passive.1.step host x,
    h.passive.2.step host x⟩, ?_, ?_, ?_⟩
  · rw [hms, hmt]
    exact hs.twin.alike
  · rw [dispatch_step, dispatch_step, Option.isSome_map, Option.isSome_map, h.dispatch]
  · obtain ⟨new, hnew, hnew'⟩ := h.events
    rw [events_step, events_step, hnew, hnew', h.dispatch, hs.event, hs.twin.vcpu]
    exact ⟨_, List.append_assoc _ _ _, List.append_assoc _ _ _⟩
  · rw [hms, hmt]
    exact h.growth.trans hs.growth

/-- A relation that steps keep, with equal results, relates the ends of two loops. The second loop
ends if the first one does. -/
theorem runLoopFrom_rel (guest : Guest) (host : HostCpuid)
    {R : Hypervisor δ ω → Hypervisor δ ω → Prop}
    (hstep : ∀ s t, R s t → (s.stepGuest guest host).1 = (t.stepGuest guest host).1 ∧
      R (s.stepGuest guest host).2 (t.stepGuest guest host).2) (maxIterations : UInt64) :
    ∀ (fuel : ℕ) (iterations : UInt64) {s t s' : Hypervisor δ ω} {result : RunResult}, R s t →
      runLoopFrom guest host maxIterations fuel iterations s = some (result, s') →
      ∃ t', runLoopFrom guest host maxIterations fuel iterations t = some (result, t') ∧ R s' t'
  | 0, _, _, _, _, _, _, h => by cases h
  | fuel + 1, iterations, s, t, s', result, hR, h => by
    obtain ⟨hres, hR'⟩ := hstep s t hR
    rw [runLoopFrom] at h ⊢
    by_cases hgo : maxIterations = 0 ∨ iterations < maxIterations
    · rw [if_pos hgo] at h ⊢
      rcases hs : s.stepGuest guest host with ⟨r, s₁⟩
      rcases ht : t.stepGuest guest host with ⟨r', t₁⟩
      rw [hs, ht] at hres hR'
      rw [hs] at h
      obtain rfl : r = r' := hres
      cases r with
      | cont => exact runLoopFrom_rel guest host hstep maxIterations fuel _ hR' h
      | _ =>
        cases h
        exact ⟨t₁, rfl, hR'⟩
    · rw [if_neg hgo] at h ⊢
      cases h
      exact ⟨t, rfl, hR⟩

/-- What every step keeps, the loop keeps. -/
theorem runLoop_inv {guest : Guest} {host : HostCpuid} {P : Hypervisor δ ω → Prop}
    (hstep : ∀ s, P s → P (s.stepGuest guest host).2) {maxIterations : UInt64} {fuel : ℕ}
    {s s' : Hypervisor δ ω} {result : RunResult} (hs : P s)
    (h : s.runLoop guest host maxIterations fuel = some (result, s')) : P s' := by
  obtain ⟨t, ht, hst, hP⟩ := runLoopFrom_rel guest host (R := fun s t => s = t ∧ P s)
    (fun s t hst => ⟨by rw [hst.1], by rw [hst.1], hstep s hst.2⟩) maxIterations fuel 0 ⟨rfl, hs⟩ h
  exact hP

/-- `s` can be reached from `s₀` under observers. -/
structure Continues (s₀ s : Hypervisor δ ω) : Prop where
  passive : s.Passive
  dispatch : s.dispatch.isSome = s₀.dispatch.isSome
  follows : s₀.machine.Follows s.machine

theorem Passive.continues {s : Hypervisor δ ω} (h : s.Passive) : Continues s s :=
  ⟨h, rfl, .refl _⟩

theorem Continues.stepGuest {s₀ s : Hypervisor δ ω} (h : Continues s₀ s) (guest : Guest)
    (host : HostCpuid) : Continues s₀ (s.stepGuest guest host).2 where
  passive := h.passive.step host _
  dispatch := by rw [Hypervisor.stepGuest, dispatch_step, Option.isSome_map, h.dispatch]
  follows := by
    rw [Hypervisor.stepGuest, h.passive.machine_step]
    exact h.follows.step host _

/-- Pure callbacks keep two hypervisors side by side. -/
theorem Beside.stepGuest {s₀ s t₀ t : Hypervisor δ ω} (h : Beside s₀ s t₀ t)
    (hpure : s.machine.tables.Pure) (guest : Guest) (host : HostCpuid) :
    (s.stepGuest guest host).1 = (t.stepGuest guest host).1 ∧
      Beside s₀ (s.stepGuest guest host).2 t₀ (t.stepGuest guest host).2 ∧
      (s.stepGuest guest host).2.machine.tables.Pure := by
  obtain ⟨hres, hbeside⟩ := h.step host (x := guest s.machine.guestState)
    fun reason _ => (h.alike.twin_entered _).handed_of_pure hpure reason
  have hsame : t.stepGuest guest host = t.step host (guest s.machine.guestState) := by
    rw [Hypervisor.stepGuest, h.alike.guestState]
  rw [hsame]
  refine ⟨hres, hbeside, ?_⟩
  rw [Hypervisor.stepGuest, h.passive.1.machine_step, Machine.tables_step]
  exact hpure

end Hypervisor

/-- Repeatable execution. If callbacks are pure and no access is pending at the snapshot and at the
restore, then a run from the snapshot that ends, `restoreSnapshot` and a second run give the same
result, the same events apart from their time, the same increase of every counter, and the same
registers and memory. -/
theorem repeatable_execution (guest : Guest) (host : HostCpuid) (maxIterations : UInt64) (fuel : ℕ)
    {s s₁ : Hypervisor δ ω} {snap : VmSnapShot} {result : RunResult} (hpassive : s.Passive)
    (hpure : s.machine.tables.Pure) (hindex : s.machine.vcpuIndex = 0)
    (htake : s.machine.vm.takeSnapShot = .ok snap)
    (hget : s.machine.vcpu.faults .takeSnapShot .getRegs = none)
    (hgetS : s.machine.vcpu.faults .takeSnapShot .getSregs = none)
    (hpending : s.machine.vcpu.kvmRun.completion = none)
    (hrun : s.runLoop guest host maxIterations fuel = some (result, s₁))
    (hset : s₁.machine.vcpu.faults .restoreSnapshot .setRegs = none)
    (hsetS : s₁.machine.vcpu.faults .restoreSnapshot .setSregs = none)
    (hpending₁ : s₁.machine.vcpu.kvmRun.completion = none) :
    ∃ m s₂, s₁.machine.restoreSnapshot snap = .ok m ∧
      (s₁.setMachine m).runLoop guest host maxIterations fuel = some (result, s₂) ∧
      (∃ new, s₁.events = s.events ++ new ∧ s₂.events = s₁.events ++ new) ∧
      (∀ c, s₁.machine.counter c - s.machine.counter c =
        s₂.machine.counter c - s₁.machine.counter c) ∧
      s₂.machine.vcpu.regs = s₁.machine.vcpu.regs ∧
      s₂.machine.vcpu.sregs = s₁.machine.vcpu.sregs ∧
      s₂.machine.vm.memoryRegions = s₁.machine.vm.memoryRegions := by
  obtain ⟨hpassive₁, hdispatch, hfollows⟩ := Hypervisor.runLoop_inv
    (fun t ht => ht.stepGuest guest host) hpassive.continues hrun
  obtain ⟨m, hm, hvcpu, hregions, htables, -, -, hcount⟩ :=
    Machine.exists_restoreSnapshot hfollows hindex htake hget hgetS hset hsetS
  -- the restored machine is like the one of the snapshot
  have halike : s.machine.Alike m := by
    refine ⟨?_, ?_, ?_⟩
    · rw [hvcpu]
      exact hfollows.id.symm
    · rw [Machine.guestState, Machine.guestState, hvcpu, hregions, hpending, hpending₁]
    · rw [htables, hfollows.tables]
  have hbeside : Hypervisor.Beside s s (s₁.setMachine m) (s₁.setMachine m) :=
    ⟨halike, ⟨hpassive, hpassive₁⟩, hdispatch.symm, ⟨[], by simp, by simp⟩, .refl _ _⟩
  obtain ⟨s₂, hrun₂, hend, -⟩ := Hypervisor.runLoopFrom_rel guest host
    (R := fun t t' => Hypervisor.Beside s t (s₁.setMachine m) t' ∧ t.machine.tables.Pure)
    (fun t t' ht => ht.1.stepGuest ht.2 guest host) maxIterations fuel 0 ⟨hbeside, hpure⟩ hrun
  have hguest := hend.alike.guestState
  refine ⟨m, s₂, hm, hrun₂, hend.events, fun c => ?_, ?_, ?_, ?_⟩
  · obtain ⟨k, hk, hk'⟩ := hend.growth c
    rw [Hypervisor.machine_setMachine, hcount c] at hk'
    rw [hk', UInt64.add_comm, UInt64.add_sub_cancel]
    rw [hk, UInt64.add_comm, UInt64.add_sub_cancel]
  · exact (congrArg GuestState.regs hguest).symm
  · exact (congrArg GuestState.sregs hguest).symm
  · exact (congrArg GuestState.memoryRegions hguest).symm

/-- `pageVm` with a keyboard at port 0x60, under a dispatcher. -/
def keyboardHypervisor : Hypervisor Unit Unit where
  world :=
    { machine :=
        { vm := VirtualMachine.pageVm
          vcpuIndex_lt := VirtualMachine.length_vcpus_pageVm
          io := some (({} : IoPortHandler Unit).registerInPort 0x60 fun _ dev => (0x1A, dev))
          dev := () }
      obs := () }
  dispatch := some {}

/-- A guest that reads its keyboard, stores what it got and halts. -/
def keyboardGuest : Guest := fun g =>
  match g.completion with
  | some (.io _ page) =>
    { run := { exitReason := 5 }, regs := { rip := 0x1003 }, ram := fun _ _ => page 0 }
  | _ =>
    { run := { exitReason := 2, io := { size := 1, port := 0x60 } }, regs := { rip := 0x1002 }
      ram := fun _ _ => 0 }

theorem pure_keyboardHypervisor : keyboardHypervisor.machine.tables.Pure where
  leaf := by
    rintro table ⟨⟩
  inPort := by
    rintro table ⟨⟩ k cb hcb ctx dev dev'
    rfl
  read := by
    rintro table ⟨⟩

/-- Two runs of `keyboardGuest`, with a restore in between. -/
theorem repeatable_keyboardGuest :
    ∃ snap s₁ m s₂, keyboardHypervisor.machine.vm.takeSnapShot = .ok snap ∧
      keyboardHypervisor.runLoop keyboardGuest (fun _ _ => {}) 0 5 = some (.halt, s₁) ∧
      s₁.machine.vm.memoryRegions.map (·.host) = [some (List.replicate 0x1000 0x1A)] ∧
      s₁.machine.restoreSnapshot snap = .ok m ∧
      (s₁.setMachine m).runLoop keyboardGuest (fun _ _ => {}) 0 5 = some (.halt, s₂) ∧
      s₂.machine.vm.memoryRegions = s₁.machine.vm.memoryRegions := by
  have hpassive : keyboardHypervisor.Passive := by
    simp [Hypervisor.Passive, EventDispatcher.Observing, keyboardHypervisor]
  obtain ⟨m, s₂, hm, hrun, -, -, -, -, hregions⟩ := repeatable_execution keyboardGuest
    (fun _ _ => {}) 0 5 hpassive pure_keyboardHypervisor rfl rfl rfl rfl rfl rfl rfl rfl rfl
  refine ⟨_, _, m, s₂, rfl, rfl, ?_, hm, hrun, hregions⟩
  -- the guest fills its memory with zeros first
  change [((VirtualMachine.onesPage.setRam fun _ => 0).setRam fun _ => 0x1A).host] = _
  rw [MemoryRegion.host_setRam_const]
  rfl

end MinBp
