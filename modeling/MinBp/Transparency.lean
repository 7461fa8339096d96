import MinBp.VmiAgent

/-!
# Monitoring is transparent

A run without a dispatcher and a run under subscribers that only observe go through the same
machines and the same results, however long they are. `step_eq` reduces this to one fact : what is
published after an exit is served does not change the machine (`Passive.machine_step`).

It is not enough that they leave the VM alone. A subscriber that writes a device is seen through the
callback that reads it (`turnDial_visible`).

An agent of `VmiAgent` only observes. It also reads guest memory, through a window its user
chooses. If that window lies in guest memory, no read of the agent leaves a mapping, at any point of
any run (`World.Safe`).
-/

namespace MinBp

variable {δ ω κ : Type}

namespace Hypervisor

/-- The state after `n` steps. -/
def after (guest : Guest) (host : HostCpuid) (n : ℕ) (s : Hypervisor δ ω) : Hypervisor δ ω :=
  (fun s => (s.stepGuest guest host).2)^[n] s

/-- After `n` steps the two have the same machine, and their next step has the same result. -/
def AgreeAfter {ω' : Type} (guest : Guest) (host : HostCpuid) (n : ℕ) (a : Hypervisor δ ω)
    (b : Hypervisor δ ω') : Prop :=
  (a.after guest host n).machine = (b.after guest host n).machine ∧
    ((a.after guest host n).stepGuest guest host).1 =
      ((b.after guest host n).stepGuest guest host).1

/-- Two passive states with the same machine agree on one step. -/
theorem Passive.stepGuest_congr {ω' : Type} {a : Hypervisor δ ω} {b : Hypervisor δ ω'}
    (ha : a.Passive) (hb : b.Passive) (h : a.machine = b.machine) (guest : Guest)
    (host : HostCpuid) :
    (a.stepGuest guest host).1 = (b.stepGuest guest host).1 ∧
      (a.stepGuest guest host).2.machine = (b.stepGuest guest host).2.machine := by
  constructor
  · rw [stepGuest, stepGuest, step_eq, step_eq, h]
  · rw [stepGuest, stepGuest, ha.machine_step, hb.machine_step, h]

/-- Two passive states with the same machine agree after every number of steps. -/
theorem Passive.agreeAfter {ω' : Type} {a : Hypervisor δ ω} {b : Hypervisor δ ω'}
    (ha : a.Passive) (hb : b.Passive) (h : a.machine = b.machine) (guest : Guest)
    (host : HostCpuid) (n : ℕ) : a.AgreeAfter guest host n b := by
  have hrel := Runs.iterate_rel
    (R := fun (a : Hypervisor δ ω) (b : Hypervisor δ ω') =>
      a.Passive ∧ b.Passive ∧ a.machine = b.machine)
    (f := fun s => (s.stepGuest guest host).2) (g := fun s => (s.stepGuest guest host).2)
    (fun a b hab =>
      ⟨hab.1.step host _, hab.2.1.step host _, (hab.1.stepGuest_congr hab.2.1 hab.2.2 _ _).2⟩)
    ⟨ha, hb, h⟩ n
  exact ⟨hrel.2.2, (hrel.1.stepGuest_congr hrel.2.1 hrel.2.2 guest host).1⟩

theorem passive_of_none {s : Hypervisor δ ω} (h : s.dispatch = none) : s.Passive := by
  intro d hd
  simp [h] at hd

end Hypervisor

/-! ## The agent on the bus -/

/-- The subscriber writes neither the machine nor the agent, and runs into no fault. -/
def Subscription.Harmless (s : Subscription (World δ (Observed κ))) : Prop :=
  ∀ ev w, (s.handler ev w).machine = w.machine ∧ (s.handler ev w).fault = w.fault ∧
    (s.handler ev w).obs.agent = w.obs.agent

/-- Every subscriber is the agent or harmless. -/
def EventDispatcher.Watched (d : EventDispatcher (World δ (Observed κ))) : Prop :=
  ∀ s ∈ d.subscriptions, s.handler = VmiAgent.handler ∨ s.Harmless

/-- If dumping is enabled, the window lies in a region of guest memory. -/
def VmiAgent.WindowIn (a : VmiAgent κ) (vm : VirtualMachine) : Prop :=
  a.memDumpEnabled → ∃ r ∈ vm.memoryRegions, r.Contains a.memDumpAddr a.memDumpSize

/-- No fault so far, and none in the agent's next read. -/
structure World.Safe (w : World δ (Observed κ)) : Prop where
  fault : w.fault = none
  mapped : w.machine.vm.Mapped
  window : w.obs.agent.WindowIn w.machine.vm

theorem EventDispatcher.Watched.observing {d : EventDispatcher (World δ (Observed κ))}
    (h : d.Watched) : d.Observing := by
  intro s hs ev w
  rcases h s hs with hagent | hharmless
  · rw [hagent, VmiAgent.machine_handler]
  · exact (hharmless ev w).1

/-- The constructor puts the agent on the bus. -/
theorem VmiAgent.watched_construct {d : EventDispatcher (World δ (Observed κ))} (h : d.Watched)
    (hasVm : Bool) : (VmiAgent.construct hasVm d).2.Watched := by
  intro s hs
  rcases List.mem_append.1 hs with hs | hs
  · exact h s hs
  · rw [List.mem_singleton.1 hs]
    exact .inl rfl

namespace VmiAgent

/-- A window in guest memory is dumped without a fault. -/
theorem WindowIn.dump_ok {a : VmiAgent κ} {vm : VirtualMachine} (hw : a.WindowIn vm)
    (hm : vm.Mapped) : ∃ d, a.dump vm = .ok d := by
  by_cases he : a.memDumpEnabled
  · obtain ⟨r, -, hr⟩ := hw he
    exact ⟨_, dump_eq (hr.2.trans_lt r.no_wrap) hm⟩
  · exact ⟨none, by simp [dump, he]⟩

/-- The agent's handler keeps `Safe`. -/
theorem safe_handler {w : World δ (Observed κ)} (h : w.Safe) (ev : HvEvent) :
    (handler ev w).Safe := by
  obtain ⟨d, hd⟩ := h.window.dump_ok h.mapped
  simp only [handler, handleHvEvent, hd]
  exact ⟨h.fault, h.mapped, h.window⟩

end VmiAgent

theorem Subscription.Harmless.safe {s : Subscription (World δ (Observed κ))} (hs : s.Harmless)
    {w : World δ (Observed κ)} (h : w.Safe) (ev : HvEvent) : (s.handler ev w).Safe := by
  obtain ⟨hm, hf, ha⟩ := hs ev w
  exact ⟨hf.trans h.fault, by rw [hm]; exact h.mapped, by rw [hm, ha]; exact h.window⟩

/-- Guest stores keep the regions mapped and the window inside. -/
theorem World.Safe.of_keeps {w : World δ (Observed κ)} (h : w.Safe) {m : Machine δ}
    {ram : ℕ → Bytes.Buffer}
    (hm : m.vm.memoryRegions = (w.machine.vm.setRam ram).memoryRegions) :
    World.Safe { w with machine := m } := by
  refine ⟨h.fault, ?_, ?_⟩
  · intro r hr
    rw [hm] at hr
    obtain ⟨i, hi, rfl⟩ := List.mem_mapIdx.1 hr
    exact ((MemoryRegion.sameShape_setRam _ _).mapped).trans (h.mapped _ (List.getElem_mem hi))
  · intro he
    obtain ⟨r, hr, hc⟩ := h.window he
    obtain ⟨i, hi, rfl⟩ := List.mem_iff_getElem.1 hr
    refine ⟨(w.machine.vm.memoryRegions[i]).setRam (ram i), ?_, hc⟩
    rw [hm]
    exact List.mem_mapIdx.2 ⟨i, hi, rfl⟩

namespace Hypervisor

/-- A step under a watched bus keeps `Safe`. -/
theorem safe_step {s : Hypervisor δ (Observed κ)} (hd : ∀ d ∈ s.dispatch, d.Watched)
    (h : s.world.Safe) (host : HostCpuid) (x : KvmExit) : (s.step host x).2.world.Safe := by
  have hserved : World.Safe { s.world with machine := (s.machine.step host x).2.1 } :=
    h.of_keeps (s.machine.memoryRegions_step host x)
  refine step_inv (fun _ => ⟨hserved.fault, hserved.mapped, hserved.window⟩)
    fun d hmem sub hsub ev w hw => ?_
  rcases hd d hmem sub hsub with hagent | hharmless
  · rw [hagent]
    exact VmiAgent.safe_handler hw ev
  · exact hharmless.safe hw ev

theorem watched_step {s : Hypervisor δ (Observed κ)} (hd : ∀ d ∈ s.dispatch, d.Watched)
    (host : HostCpuid) (x : KvmExit) : ∀ d ∈ (s.step host x).2.dispatch, d.Watched := by
  intro d hd'
  rw [dispatch_step] at hd'
  obtain ⟨d₀, hd₀, rfl⟩ := Option.mem_map.1 hd'
  exact hd d₀ hd₀

/-- A run under a watched bus runs into no fault. -/
theorem safe_after {s : Hypervisor δ (Observed κ)} (hd : ∀ d ∈ s.dispatch, d.Watched)
    (h : s.world.Safe) (guest : Guest) (host : HostCpuid) (n : ℕ) :
    (s.after guest host n).world.Safe := by
  have hinv := Runs.iterate_rel
    (R := fun (s _ : Hypervisor δ (Observed κ)) =>
      (∀ d ∈ s.dispatch, d.Watched) ∧ s.world.Safe)
    (f := fun s => (s.stepGuest guest host).2) (g := id)
    (fun s _ hs => ⟨watched_step hs.1 host _, safe_step hs.1 hs.2 host _⟩)
    (t := s) ⟨hd, h⟩ n
  exact hinv.2

end Hypervisor

/-! ## Transparency -/

/-- For every guest, every machine with its handlers, and every number of steps, a run without a
dispatcher and a run under subscribers that do not write the machine agree on the machine
(registers, memory, run page, handlers with their counters, the devices behind their callbacks,
`exitCount`) and on the next result. This covers a `VmiAgent` next to harmless subscribers, and if
its window lies in guest memory the agent also never reads outside a mapping. -/
theorem monitoring_transparent (guest : Guest) (host : HostCpuid) {a : Hypervisor δ ω}
    (ha : a.dispatch = none) :
    (∀ (ω' : Type) (b : Hypervisor δ ω'), b.Passive → a.machine = b.machine →
      ∀ n, a.AgreeAfter guest host n b) ∧
    ∀ (κ : Type) (b : Hypervisor δ (Observed κ)) (d : EventDispatcher (World δ (Observed κ)))
      (hasVm : Bool), d.Watched → b.dispatch = some (VmiAgent.construct hasVm d).2 →
      a.machine = b.machine →
      (∀ n, a.AgreeAfter guest host n b) ∧
        (b.world.Safe → ∀ n, (b.after guest host n).world.fault = none) := by
  refine ⟨fun ω' b hb hm n => (Hypervisor.passive_of_none ha).agreeAfter hb hm guest host n,
    fun κ b d hasVm hd hb hm => ?_⟩
  have hwatched : ∀ d' ∈ b.dispatch, d'.Watched := by
    intro d' hd'
    obtain rfl : (VmiAgent.construct hasVm d).2 = d' := by simpa [hb] using hd'
    exact VmiAgent.watched_construct hd hasVm
  have hpassive : b.Passive := fun d' hd' => (hwatched d' hd').observing
  exact ⟨fun n => (Hypervisor.passive_of_none ha).agreeAfter hpassive hm guest host n,
    fun hsafe n => (Hypervisor.safe_after hwatched hsafe guest host n).fault⟩

/-- `pageVm` with an `IoPortHandler`. -/
def pageMachine : Machine Unit where
  vm := VirtualMachine.pageVm
  vcpuIndex_lt := VirtualMachine.length_vcpus_pageVm
  io := some {}
  dev := ()

/-- `pageMachine` under an agent that dumps the first two bytes of its page. -/
def watchedPage : Hypervisor Unit (Observed Unit) where
  world :=
    { machine := pageMachine
      obs := ⟨(VmiAgent.construct (δ := Unit) true {}).1.enableMemoryDump 0x1000 2, ()⟩ }
  dispatch := some (VmiAgent.construct true {}).2

/-- A guest that writes port 0 over and over. -/
def outGuest : Guest :=
  fun _ => { run := { exitReason := 2, io := { direction := 1, size := 1 } } }

/-- Transparency of the dumping agent, on a bus that has something to publish. -/
theorem monitoring_transparent_pageMachine :
    (∀ n, Hypervisor.AgreeAfter outGuest (fun _ _ => {}) n
      { world := { machine := pageMachine, obs := () } } watchedPage) ∧
    (∀ n, (watchedPage.after outGuest (fun _ _ => {}) n).world.fault = none) ∧
    (watchedPage.after outGuest (fun _ _ => {}) 1).published.length = 1 := by
  have h := (monitoring_transparent (a := { world := { machine := pageMachine, obs := () } })
    outGuest (fun _ _ => {}) rfl).2 Unit watchedPage {} true (by simp [EventDispatcher.Watched])
    rfl rfl
  have hmapped : pageMachine.vm.Mapped := by
    intro r hr
    rw [List.mem_singleton.1 hr]
    rfl
  have hwindow : watchedPage.world.obs.agent.WindowIn pageMachine.vm := by
    intro _
    exact ⟨_, List.mem_singleton.2 rfl, by decide⟩
  exact ⟨h.1, h.2 ⟨rfl, hmapped, hwindow⟩, rfl⟩

/-! ## Subscribers that write devices -/

/-- A device whose value the guest reads at port `0x60`. -/
def dialMachine : Machine UInt32 where
  vm := VirtualMachine.pageVm
  vcpuIndex_lt := VirtualMachine.length_vcpus_pageVm
  io := some (({} : IoPortHandler UInt32).registerInPort 0x60 fun _ dev => (dev, dev))
  dev := 0

/-- A subscriber that turns the dial at every event. -/
def turnDial (_ : HvEvent) (w : World UInt32 Unit) : World UInt32 Unit :=
  { w with machine := { w.machine with dev := w.machine.dev + 1 } }

/-- `dialMachine` under this subscriber. -/
def turnedDial : Hypervisor UInt32 Unit where
  world := { machine := dialMachine, obs := () }
  dispatch := some (({} : EventDispatcher (World UInt32 Unit)).subscribeAll turnDial).2

/-- A guest that reads port `0x60` over and over. -/
def dialGuest : Guest :=
  fun _ => { run := { exitReason := 2, io := { size := 1, port := 0x60 } } }

/-- It is not enough that subscribers leave the VM alone. `turnDial` writes a device only, which the
callback of the port reads, and after two steps the guest finds another value in its run page. -/
theorem turnDial_visible :
    (∀ d ∈ turnedDial.dispatch, ∀ sub ∈ d.subscriptions, ∀ ev w,
        (sub.handler ev w).machine.vm = w.machine.vm) ∧
      (({ turnedDial with dispatch := none } : Hypervisor UInt32 Unit).after dialGuest
        (fun _ _ => {}) 2).machine.vcpu.kvmRun.page 0 = 0 ∧
      (turnedDial.after dialGuest (fun _ _ => {}) 2).machine.vcpu.kvmRun.page 0 = 1 := by
  refine ⟨?_, rfl, rfl⟩
  rintro d ⟨⟩ sub hsub ev w
  rw [List.mem_singleton.1 hsub]
  rfl

end MinBp
