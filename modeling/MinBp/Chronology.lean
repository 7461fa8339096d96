import MinBp.MainProgram
import MinBp.VCpuIds

/-!
# The order of time stamps

Two places read the clock : the trapper when it publishes an event, and the agent when it takes the
registers for its entry. So the time stamps of the log, read entry by entry, the event before the
registers, are the readings of the clock in order, and none is left out (`main_chronological`). An
entry whose registers could not be read has no second time stamp.
-/

namespace MinBp

/-! ## Memory stays mapped -/

namespace VirtualMachine

theorem isSome_host_restoreRegion {r r' : MemoryRegion} {saved : Option (List UInt8)}
    (h : restoreRegion r saved = .ok r') (hr : r.host.isSome) : r'.host.isSome := by
  unfold restoreRegion at h
  split at h
  · cases h
    exact hr
  · cases h
    exact hr
  · cases h
    exact hr
  · split at h
    · cases h
    · cases h
      rfl

theorem mapped_restoreRegions : ∀ {rs rs' : List MemoryRegion} {saved : List (List UInt8)},
    restoreRegions rs saved = .ok rs' → (∀ r ∈ rs, r.host.isSome) → ∀ r ∈ rs', r.host.isSome
  | [], rs', saved, h, _ => by
    cases h
    exact fun r hr => absurd hr List.not_mem_nil
  | r :: rs, rs', saved, h, hmapped => by
    unfold restoreRegions at h
    split at h
    · cases h
    · rename_i r' hr'
      split at h
      · cases h
      · rename_i rs'' hrs
        cases h
        intro u hu
        rcases List.mem_cons.1 hu with rfl | hu
        · exact isSome_host_restoreRegion hr' (hmapped r List.mem_cons_self)
        · exact mapped_restoreRegions hrs (fun v hv => hmapped v (List.mem_cons_of_mem _ hv)) u hu

end VirtualMachine

namespace Machine

variable {δ : Type} {m m' : Machine δ}

theorem mapped_restoreSnapshot {snap : VmSnapShot} (h : m.restoreSnapshot snap = .ok m')
    (hm : m.vm.Mapped) : m'.vm.Mapped := by
  unfold restoreSnapshot at h
  split at h
  · cases h
  · rename_i vm hvm
    cases h
    unfold VirtualMachine.restoreSnapshot at hvm
    split at hvm
    · cases hvm
    · split at hvm
      · cases hvm
      · rename_i hrs
        cases hvm
        exact VirtualMachine.mapped_restoreRegions hrs hm

theorem mapped_injectScancode {i : ℕ} (h : m.injectScancode i = .ok m') (hm : m.vm.Mapped) :
    m'.vm.Mapped := by
  unfold injectScancode at h
  split at h
  · cases h
  · rename_i r rs hrs
    split at h
    · cases h
    · rename_i r' hpoke
      cases h
      have hr' : r'.host.isSome := by
        unfold MemoryRegion.poke at hpoke
        split at hpoke
        · cases hpoke
        · split at hpoke
          · cases hpoke
            rfl
          · cases hpoke
      intro u hu
      rcases List.mem_cons.1 hu with rfl | hu
      · exact hr'
      · exact hm u (by rw [hrs]; exact List.mem_cons_of_mem _ hu)

end Machine

/-- The start of an iteration keeps the machine regular. -/
theorem Machine.Regular.startIteration {δ ω : Type} {s s' : Hypervisor δ ω} {snap : VmSnapShot}
    {i : ℕ} (h : s.machine.Regular) (hs : s.startIteration snap i = .ok s') :
    s'.machine.Regular := by
  obtain ⟨m, rfl, hsame⟩ := Hypervisor.startIteration_frame hs
  refine h.of_ids hsame.ids ?_
  have hinject : ∀ {t : Hypervisor δ ω}, t.injectScancode i = .ok (s.setMachine m) →
      t.machine.vm.Mapped → m.vm.Mapped := by
    intro t ht hmapped
    unfold Hypervisor.injectScancode at ht
    rcases hm : t.machine.injectScancode i with f | m'
    · rw [hm] at ht
      cases ht
    · rw [hm] at ht
      have hm' : m' = m := congrArg Hypervisor.machine (Except.ok.inj ht)
      exact hm' ▸ mapped_injectScancode hm hmapped
  unfold Hypervisor.startIteration at hs
  split at hs
  · split at hs
    · cases hs
    · rename_i m' hrestore
      exact hinject hs (mapped_restoreSnapshot hrestore h.mapped)
  · exact hinject hs h.mapped

/-- What steps of the run loop and starts of iterations keep holds throughout the loop of `main`. -/
theorem Program.run_inv {δ ω : Type} {host : HostCpuid} {snap : VmSnapShot}
    {I : Hypervisor δ ω → Prop} (hstep : ∀ s x, I s → I (s.step host x).2)
    (hstart : ∀ s s' i, I s → s.startIteration snap i = .ok s' → I s') :
    ∀ (hs : List Happening) {p : Program δ ω}, I p.hv → I (p.run host snap hs).hv := by
  have henter : ∀ {p : Program δ ω} (i : ℕ), I p.hv → I (p.enter snap i).hv := by
    intro p i h
    unfold Program.enter
    split
    · exact h
    · rename_i hv hhv
      exact hstart _ _ _ h hhv
  intro hs
  induction hs with
  | nil => exact id
  | cons ev hs ih =>
    intro p h
    refine ih (p := p.exec host snap ev) ?_
    cases ev with
    | sigint => exact h
    | exit x =>
      by_cases hrun : p.status = .running
      · rw [Program.exec_exit_of_running hrun]
        have hx := hstep p.hv x h
        unfold Program.afterKvmRun
        split
        · rename_i hv hres
          rwa [hres] at hx
        · rename_i hv hres
          rwa [hres] at hx
        · rename_i result hv hres
          rw [hres] at hx
          split
          · exact henter _ hx
          · exact hx
      · rw [Program.exec_exit_of_ended hrun]
        exact h

namespace Main

/-! ## Time stamps -/

instance (v : VCpu) : Decidable v.Readable :=
  inferInstanceAs (Decidable (_ ∧ _))

/-- The time stamps in the entry of a publication : that of the event and, if the registers could be
read, that of the registers. -/
def stamps (p : Publication MmioDeviceState) (ie : IntrospectionEvent) : List TimePoint :=
  if p.machine.vcpu.Readable then [ie.base.timestamp, ie.snapshot.timestamp]
  else [ie.base.timestamp]

/-- The time stamps of the log, entry by entry. -/
def allStamps (s : Hv) : List TimePoint :=
  (List.zipWith stamps s.published s.agent.eventLog).flatten

/-- The time stamps are the readings of the clock so far, in order. -/
structure Stamped (env : Environment) (s : Hv) : Prop where
  reports : Reports s
  time : s.world.clock.time = env.time
  stamps : allStamps s = (List.range s.world.clock.ticks).map env.time

/-- The clock after the agent's turn, and the registers it takes. It reads the clock exactly if it
can take them. -/
def taken (v : VCpu) (clock : Clock) : GuestSnapshot × Clock :=
  if v.Readable then (VmiAgent.snapshotOf v.regs v.sregs clock.now.1, clock.now.2) else ({}, clock)

/-- The agent's turn in a publication about `v`, without dumps. -/
theorem handler_eq_taken {κ δ : Type} {ev : HvEvent} {w : World δ (Observed κ)} {v : VCpu}
    (ha : w.obs.agent.hasVm) (hdump : w.obs.agent.memDumpEnabled = false)
    (hv : w.machine.vm.vcpus[v.id.toNat]? = some v) (hid : ev.vcpuId = v.id) :
    VmiAgent.handler ev w = w.record
      { base := ev, snapshot := (taken v w.clock).1, memDump := none
        summary := buildSummary ev (taken v w.clock).1 } (taken v w.clock).2 := by
  have hsnap : ((w.obs.agent.snapshotRegisters w.machine.vm ev.vcpuId w.clock).1.getD {},
      (w.obs.agent.snapshotRegisters w.machine.vm ev.vcpuId w.clock).2) = taken v w.clock := by
    rcases hregs : v.faults .vmiAgent .getRegs with _ | e <;>
      rcases hsregs : v.faults .vmiAgent .getSregs with _ | e' <;>
      simp [hid, VmiAgent.snapshotRegisters, ha, hv, taken, VCpu.Readable, VCpu.getRegs,
        VCpu.getSregs, hregs, hsregs]
  rw [← hsnap]
  simp only [VmiAgent.handler, VmiAgent.handleHvEvent, VmiAgent.dump, hdump, World.record,
    Bool.false_eq_true, if_false]

namespace Stamped

variable {env : Environment} {s : Hv}

theorem setMachine (h : Stamped env s) {m : Machine MmioDeviceState} (hm : m.Regular) :
    Stamped env (s.setMachine m) :=
  ⟨h.reports.setMachine hm, h.time, h.stamps⟩

/-- A publication about the vCPU takes the next readings of the clock. -/
theorem emit (h : Stamped env s) {mk : EventMaker}
    (hid : ∀ t, (mk s.machine.vcpu t).vcpuId = s.machine.vcpu.id)
    (ht : ∀ t, (mk s.machine.vcpu t).timestamp = t) : Stamped env (s.emit mk) := by
  let v := s.machine.vcpu
  let ev := mk v s.world.clock.now.1
  let w : World MmioDeviceState (Observed Printed) := { s.world with clock := s.world.clock.now.2 }
  let ie : IntrospectionEvent :=
    { base := ev, snapshot := (taken v w.clock).1, memDump := none
      summary := buildSummary ev (taken v w.clock).1 }
  have hhandler : VmiAgent.handler ev w = w.record ie (taken v w.clock).2 :=
    handler_eq_taken (congrArg VmiAgent.hasVm h.reports.agent)
      (congrArg VmiAgent.memDumpEnabled h.reports.agent)
      (h.reports.regular.getElem? (List.get_mem _ _)) (hid _)
  have hemit : s.emit mk =
      { world := logger ev (w.record ie (taken v w.clock).2)
        dispatch := some (bus (s.published.length + 1))
        published := s.published ++ [⟨ev, s.machine⟩] } := by
    rw [Hypervisor.emit_of_some h.reports.dispatch, ← hhandler, bus, bus, UInt64.ofNat_add]
    rfl
  refine ⟨(h.reports.emit hid).1, ?_, ?_⟩
  · rw [hemit]
    show (taken v w.clock).2.time = env.time
    rw [taken]
    split <;> exact h.time
  · have hbase : ev.timestamp = env.time s.world.clock.ticks :=
      (ht _).trans (congrFun h.time _)
    have hall : allStamps (s.emit mk) = allStamps s ++ Main.stamps ⟨ev, s.machine⟩ ie := by
      rw [hemit]
      show (List.zipWith Main.stamps (s.published ++ [⟨ev, s.machine⟩])
        (s.agent.eventLog ++ [ie])).flatten = _
      rw [List.zipWith_append h.reports.entries.length_eq, List.flatten_append, allStamps,
        List.zipWith_cons_cons, List.zipWith_nil_left, List.flatten_singleton]
    have hticks : (s.emit mk).world.clock.ticks = (taken v w.clock).2.ticks := by rw [hemit]; rfl
    rw [hall, hticks, h.stamps, Main.stamps, taken]
    -- the agent reads the clock once more if the registers can be read
    by_cases hr : v.Readable
    · have hsnap : ie.snapshot.timestamp = env.time (s.world.clock.ticks + 1) := by
        show (taken v w.clock).1.timestamp = _
        rw [taken, if_pos hr]
        exact congrFun h.time _
      rw [if_pos hr, if_pos hr, hsnap, hbase]
      show _ = (List.range (s.world.clock.ticks + 1 + 1)).map env.time
      rw [List.range_succ, List.range_succ, List.map_append, List.map_append, List.append_assoc]
      rfl
    · rw [if_neg hr, if_neg hr, hbase]
      show _ = (List.range (s.world.clock.ticks + 1)).map env.time
      rw [List.range_succ, List.map_append]
      rfl

theorem timestamp_eventOf {reason : ExitReason} {mk : EventMaker}
    (h : Machine.eventOf reason = some mk) (v : VCpu) (t : TimePoint) :
    (mk v t).timestamp = t := by
  cases reason <;> cases h <;> rfl

/-- A step of the run loop. -/
theorem step (h : Stamped env s) (host : HostCpuid) (x : KvmExit) :
    Stamped env (s.step host x).2 := by
  rw [Hypervisor.step_eq]
  have hserved : Stamped env (s.setMachine (s.machine.step host x).2.1) :=
    h.setMachine (h.reports.regular.step host x)
  rcases hmk : (s.machine.step host x).2.2 with _ | mk
  · exact hserved
  · obtain ⟨reason, -, hreason⟩ := Machine.exists_eventOf hmk
    exact hserved.emit (fun t => vcpuId_eventOf hreason _ t) fun t => timestamp_eventOf hreason _ t

/-- The start of an iteration. -/
theorem startIteration (h : Stamped env s) {snap : VmSnapShot} {i : ℕ} {s' : Hv}
    (hs : s.startIteration snap i = .ok s') : Stamped env s' := by
  have hregular := h.reports.regular.startIteration hs
  obtain ⟨m, rfl, -⟩ := Hypervisor.startIteration_frame hs
  exact h.setMachine hregular

/-- The loop over the CPUID leaves. -/
theorem foldl_cpuidRound (host : HostCpuid) : ∀ (leaves : List UInt32) (es : List KvmCpuidEntry2)
    {s : Hv}, Stamped env s → s.machine.vcpu.id = 0 →
    Stamped env (leaves.foldl (cpuidRound host) (es, s)).2
  | [], _, _, h, _ => h
  | leaf :: leaves, es, s, h, hid => by
    have hmachine : (s.emit (leafEvent host leaf)).machine = s.machine :=
      (h.reports.emit fun _ => hid.symm).2
    have hone : Stamped env (s.emit (leafEvent host leaf)) :=
      h.emit (fun _ => hid.symm) fun _ => rfl
    exact foldl_cpuidRound host leaves (es ++ [hostEntry host leaf]) hone
      ((congrArg (fun m : Machine MmioDeviceState => m.vcpu.id) hmachine).trans hid)

end Stamped

theorem stamped_prepare {env : Environment} {snap : VmSnapShot} {s : Hv}
    (h : prepare env = .ok (some (snap, s))) : Stamped env s := by
  obtain ⟨vm, hpos, hloaded, rfl⟩ := exists_of_prepare h
  exact Stamped.foldl_cpuidRound env.host cpuidLeaves [] ⟨reports_wire hloaded hpos, rfl, rfl⟩
    (hloaded.id (m := (wire env vm hpos).machine))

/-- In every run of `main` the time stamps of the log, entry by entry and the event before the
registers, are the readings of the clock, from the first on and without a gap. An entry whose
registers could not be read has one stamp. If the clock does not go back, they are in order. -/
theorem main_chronological (env : Environment) (hs : List Happening) {p : Loop}
    (hrun : run env hs = .ok (some p)) :
    allStamps p.hv = (List.range p.hv.world.clock.ticks).map env.time ∧
      (Monotone env.time → (allStamps p.hv).Pairwise (· ≤ ·)) := by
  have hstamped : Stamped env p.hv := by
    unfold run at hrun
    split at hrun
    · cases hrun
    · cases hrun
    · rename_i snap s hprepare
      cases hrun
      have hs₀ := stamped_prepare hprepare
      refine Program.run_inv (fun s x h => h.step env.host x)
        (fun s s' i h hs' => h.startIteration hs') hs (p := Program.start snap s) ?_
      unfold Program.start Program.enter
      split
      · exact hs₀
      · rename_i hv hhv
        exact hs₀.startIteration hhv
  refine ⟨hstamped.stamps, fun hmono => ?_⟩
  rw [hstamped.stamps, List.pairwise_map]
  exact List.pairwise_le_range.imp fun hle => hmono hle

/-- `hltEnvironment` with a clock that ticks. -/
def tickingEnvironment : Environment :=
  { hltEnvironment with time := fun n => 10 * n }

theorem boots_tickingEnvironment : Boots tickingEnvironment :=
  ⟨boots_hltEnvironment.newVm, boots_hltEnvironment.image,
    ⟨by decide, by decide, rfl, rfl, rfl, rfl, rfl⟩, rfl⟩

/-- Three halts leave a log in order of time, the CPUID leaves included. -/
theorem main_chronological_threeHalts :
    ∃ p, run tickingEnvironment threeHalts = .ok (some p) ∧ 9 ≤ p.hv.published.length ∧
      Monotone tickingEnvironment.time ∧ (allStamps p.hv).Pairwise (· ≤ ·) := by
  rcases run_cases tickingEnvironment threeHalts with
    ⟨-, snap, s₀, ys, zs, p, h₀, hrun, -, hgoing, -⟩ | ⟨hboots, -⟩
  swap
  · exact absurd boots_tickingEnvironment hboots
  have hmono : Monotone tickingEnvironment.time := fun _ _ h => Nat.mul_le_mul_left 10 h
  refine ⟨p, hrun, ?_, hmono, (main_chronological _ _ hrun).2 hmono⟩
  have hleaves : s₀.published.length = 9 := by
    have := congrArg List.length h₀.payloads
    rwa [List.length_map] at this
  rw [← hleaves]
  exact hgoing.carried.published.length_le

end Main

end MinBp
