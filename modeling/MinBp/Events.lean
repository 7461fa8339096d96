import MinBp.Twins
import MinBp.VmiAgent

/-!
# Published events

What a run of `step` publishes, over any exits and under any subscribers.

The first part is about the events themselves. An event is well typed if its payload is the one
its type announces and it carries the id and the instruction pointer of the vCPU. Every branch of
`dispatchExit` builds its event by hand, and the one of `Shutdown` assigns neither payload nor
`rip`, so the event keeps the first alternative of the variant. All events of a run are well typed
exactly if no exit of the run is a shutdown (`published_wellTyped_iff`).

The second part counts. `eventOf` is the event of each exit reason. It is missing for `Unknown`,
where a CPUID can be served, and for the reasons without a case of their own. An exit is accounted
for in all runs exactly if it is not one of these (`exits_accounted_iff`).
-/

namespace MinBp

variable {δ ω : Type}

namespace Hypervisor

/-- The state after the exits `xs`. -/
def run (host : HostCpuid) (xs : List KvmExit) (s : Hypervisor δ ω) : Hypervisor δ ω :=
  xs.foldl (fun s x => (s.step host x).2) s

/-- The steps of a run, each with the state it starts from. -/
def steps (host : HostCpuid) (xs : List KvmExit) (s : Hypervisor δ ω) :
    List (Hypervisor δ ω × KvmExit) :=
  Runs.along (fun s x => (s.step host x).2) s xs

/-- What a run publishes. -/
def newlyPublished (host : HostCpuid) (xs : List KvmExit) (s : Hypervisor δ ω) :
    List (Publication δ) :=
  (s.run host xs).published.drop s.published.length

theorem published_run (host : HostCpuid) (xs : List KvmExit) (s : Hypervisor δ ω) :
    (s.run host xs).published =
      s.published ++ (s.steps host xs).flatMap fun p => p.1.stepPublication host p.2 :=
  Runs.log_foldl (l := published) (o := fun s x => s.stepPublication host x) xs
    fun p _ => p.1.published_step host p.2

theorem newlyPublished_eq (host : HostCpuid) (xs : List KvmExit) (s : Hypervisor δ ω) :
    s.newlyPublished host xs =
      (s.steps host xs).flatMap fun p => p.1.stepPublication host p.2 := by
  rw [newlyPublished, published_run, List.drop_left]

/-- A dispatcher stays where it is. -/
theorem isSome_dispatch_of_mem_steps {host : HostCpuid} {xs : List KvmExit} {s : Hypervisor δ ω}
    (h : s.dispatch.isSome) {p : Hypervisor δ ω × KvmExit} (hp : p ∈ s.steps host xs) :
    p.1.dispatch.isSome := by
  refine Runs.along_inv (I := fun s : Hypervisor δ ω => s.dispatch.isSome) xs
    (fun s x _ hs => ?_) h p hp
  rw [dispatch_step, Option.isSome_map]
  exact hs

/-- A step publishes the event of its reason, unless it ends in an error. -/
theorem stepPublication_eq {s : Hypervisor δ ω} (h : s.dispatch.isSome) (host : HostCpuid)
    (x : KvmExit) :
    s.stepPublication host x =
      (if (s.step host x).1 = .error then none else x.reason.bind Machine.eventOf).toList.map
        fun mk => ⟨mk (s.machine.step host x).2.1.vcpu s.world.clock.now.1,
          (s.machine.step host x).2.1⟩ := by
  obtain ⟨d, hd⟩ := Option.isSome_iff_exists.1 h
  have hfst : (s.step host x).1 = (s.machine.step host x).1 := by rw [step_eq]
  rw [hfst, ← Machine.step_event]
  simp only [stepPublication, publication, dispatch_setMachine, hd]
  rcases (s.machine.step host x).2.2 with _ | mk <;> rfl

end Hypervisor

/-! ## Well-typed events -/

/-- The payload is the alternative that the type announces. -/
def HvEvent.PayloadMatches (ev : HvEvent) : Prop :=
  match ev.type with
  | .cpuidAccess => ∃ e, ev.payload = .cpuid e
  | .ioRead => ∃ e, ev.payload = .io e ∧ e.isWrite = false
  | .ioWrite => ∃ e, ev.payload = .io e ∧ e.isWrite = true
  | .msrRead => ∃ e, ev.payload = .msr e ∧ e.isWrite = false
  | .msrWrite => ∃ e, ev.payload = .msr e ∧ e.isWrite = true
  | .memAccess => ∃ e, ev.payload = .mmio e
  | .guestHalt | .guestShutdown => ev.payload = .monostate

/-- A summary of the event with `text` after the registers. -/
def summaryWith (ev : HvEvent) (snap : GuestSnapshot) (text : String) : String :=
  String.ofList ("[VCPU".toList ++ hex ev.vcpuId.toNat ++ "] RIP=0x".toList ++
    hex snap.rip.toNat ++ " | ".toList ++ text.toList)

/-- An event that says what happened, on the vCPU it happened on. -/
structure Publication.WellTyped (p : Publication δ) : Prop where
  payload : p.event.PayloadMatches
  vcpuId : p.event.vcpuId = p.machine.vcpu.id
  rip : ∀ regs, p.machine.vcpu.getRegs .eventRip = .ok regs → p.event.rip = regs.rip
  halt : p.event.type = .guestHalt →
    ∀ snap, buildSummary p.event snap = summaryWith p.event snap "HLT"
  shutdown : p.event.type = .guestShutdown →
    ∀ snap, buildSummary p.event snap = summaryWith p.event snap "SHUTDOWN"

theorem eventRip_of_ok {v : VCpu} {regs : KvmRegs} (h : v.getRegs .eventRip = .ok regs) :
    eventRip v = regs.rip := by
  simp [eventRip, h]

/-- The events of all reasons but one are well typed. -/
theorem wellTyped_eventOf {reason : ExitReason} {mk : EventMaker}
    (h : Machine.eventOf reason = some mk) (hne : reason ≠ .shutdown) (m : Machine δ)
    (t : TimePoint) : Publication.WellTyped ⟨mk m.vcpu t, m⟩ := by
  cases reason <;> simp only [Machine.eventOf, Option.some.injEq, reduceCtorEq] at h <;> subst h
  case hlt => exact ⟨rfl, rfl, fun _ => eventRip_of_ok, fun _ _ => rfl, by simp [haltEvent]⟩
  case shutdown => exact absurd rfl hne
  case io =>
    refine ⟨?_, rfl, fun _ => eventRip_of_ok, ?_, ?_⟩
    · rcases hw : (ioPayload m.vcpu.kvmRun).isWrite <;> simp [HvEvent.PayloadMatches, ioEvent, hw]
    · intro htype
      rcases hw : (ioPayload m.vcpu.kvmRun).isWrite <;> simp [ioEvent, hw] at htype
    · intro htype
      rcases hw : (ioPayload m.vcpu.kvmRun).isWrite <;> simp [ioEvent, hw] at htype
  case mmio =>
    exact ⟨⟨_, rfl⟩, rfl, fun _ => eventRip_of_ok, by simp [mmioEvent], by simp [mmioEvent]⟩
  case internalError =>
    exact ⟨⟨_, rfl⟩, rfl, fun _ => eventRip_of_ok, by simp [cpuidEvent], by simp [cpuidEvent]⟩

/-- The event of a shutdown has a CPUID payload. -/
theorem not_wellTyped_shutdownEvent (m : Machine δ) (t : TimePoint) :
    ¬ Publication.WellTyped ⟨shutdownEvent m.vcpu t, m⟩ := by
  intro h
  have : shutdownEvent m.vcpu t = { type := .guestShutdown, vcpuId := m.vcpu.id, timestamp := t } :=
    rfl
  simpa [HvEvent.PayloadMatches, this] using h.payload

/-- A shutdown never ends in an error. -/
theorem Hypervisor.step_shutdown {x : KvmExit} (h : x.reason = some .shutdown) (host : HostCpuid)
    (s : Hypervisor δ ω) : (s.step host x).1 = .shutdown := by
  rw [Hypervisor.step_eq, Machine.step, h]
  rfl

/-- Under a dispatcher, the events of a run are all well typed if and only if no exit of the run is
a shutdown. -/
theorem published_wellTyped_iff (host : HostCpuid) (xs : List KvmExit) (s : Hypervisor δ ω)
    (hd : s.dispatch.isSome) :
    (∀ p ∈ s.newlyPublished host xs, p.WellTyped) ↔ ∀ x ∈ xs, x.reason ≠ some .shutdown := by
  rw [Hypervisor.newlyPublished_eq]
  constructor
  · intro h x hx hshut
    obtain ⟨t, ht⟩ := Runs.exists_mem_along (f := fun s x => (Hypervisor.step host x s).2) s hx
    have hpub := Hypervisor.stepPublication_eq
      (Hypervisor.isSome_dispatch_of_mem_steps (s := s) hd ht) host x
    rw [Hypervisor.step_shutdown hshut, hshut] at hpub
    have hmem : ⟨shutdownEvent (t.machine.step host x).2.1.vcpu t.world.clock.now.1,
        (t.machine.step host x).2.1⟩ ∈ t.stepPublication host x := by
      rw [hpub]
      exact List.mem_singleton.2 rfl
    exact not_wellTyped_shutdownEvent _ _ (h _ (List.mem_flatMap.2 ⟨(t, x), ht, hmem⟩))
  · intro h p hp
    obtain ⟨⟨t, x⟩, ht, hmem⟩ := List.mem_flatMap.1 hp
    have hx := h x (Runs.snd_mem_of_mem_along ht)
    rw [Hypervisor.stepPublication_eq (Hypervisor.isSome_dispatch_of_mem_steps (s := s) hd ht)]
      at hmem
    obtain ⟨mk, hmk, rfl⟩ := List.mem_map.1 hmem
    rw [Option.mem_toList] at hmk
    split at hmk
    · cases hmk
    · obtain ⟨reason, hreason, hevent⟩ := Option.bind_eq_some_iff.1 hmk
      exact wellTyped_eventOf hevent (fun hs => hx (by rw [hreason, hs])) _ _

/-- A machine with one vCPU and no memory, under a dispatcher without subscribers. -/
def bareHypervisor : Hypervisor Unit Unit where
  world :=
    { machine :=
        { vm := { vcpus := [{ regs := { rip := 0x1000 } }] }, vcpuIndex_lt := by decide
          cpuid := some {}, io := some {}, mmio := some {}, dev := () }
      obs := () }
  dispatch := some {}

/-- A guest that reads port 0x60 and halts publishes two well-typed events. -/
theorem published_wellTyped_in_hlt :
    (∀ p ∈ bareHypervisor.newlyPublished (fun _ _ => {})
      [{ run := { exitReason := 2, io := { size := 1, port := 0x60 } } },
        { run := { exitReason := 5 } }], p.WellTyped) ∧
    (bareHypervisor.newlyPublished (fun _ _ => {})
      [{ run := { exitReason := 2, io := { size := 1, port := 0x60 } } },
        { run := { exitReason := 5 } }]).length = 2 := by
  refine ⟨(published_wellTyped_iff _ _ bareHypervisor rfl).2 ?_, rfl⟩
  intro x hx
  simp only [List.mem_cons, List.not_mem_nil, or_false] at hx
  rcases hx with rfl | rfl <;> decide

/-- A shutdown with the instruction pointer at `0x1003` : its event carries `rip = 0` and a CPUID
payload, and its summary speaks of a CPUID. -/
theorem shutdown_published_as_cpuid :
    ∃ p ∈ bareHypervisor.newlyPublished (fun _ _ => {})
        [{ run := { exitReason := 8 }, regs := { rip := 0x1003 } }],
      ¬ p.WellTyped ∧ p.event.type = .guestShutdown ∧ p.event.payload = .cpuid {} ∧
        p.event.rip = 0 ∧ p.machine.vcpu.regs.rip = 0x1003 ∧
        buildSummary p.event {} = summaryWith p.event {}
          "CPUID leaf=0x0 sub=0x0 => EAX=0x0 EBX=0x0 ECX=0x0 EDX=0x0" := by
  have htext : payloadText .guestShutdown (.cpuid {}) =
      "CPUID leaf=0x0 sub=0x0 => EAX=0x0 EBX=0x0 ECX=0x0 EDX=0x0".toList := by
    decide
  exact ⟨_, List.mem_singleton.2 rfl, not_wellTyped_shutdownEvent _ _, rfl, rfl, rfl, rfl,
    congrArg (fun text => String.ofList (_ ++ text)) htext⟩

/-! ## Accounting for exits -/

/-- A `KVM_RUN` that `step` neither reports as an error nor publishes, though it was not
interrupted : a reason without an event of its own. For `Unknown` this includes a CPUID that is
served. -/
def KvmExit.Silent (x : KvmExit) : Prop :=
  ∃ reason ∈ x.reason, reason ≠ .intr ∧ (Machine.eventOf reason).isNone ∧
    (reason = .unknown → x.run.hardwareExitReason ≠ 0 ∨
      (x.faults .cpuidHandler .getRegs = none ∧ x.faults .cpuidHandler .setRegs = none))

instance (x : KvmExit) : Decidable x.Silent :=
  inferInstanceAs (Decidable (∃ reason ∈ x.reason, _))

namespace Machine

/-- The count of the CPUID handler. -/
def handledCount (m : Machine δ) : UInt64 :=
  m.cpuid.elim 0 (·.handledCount)

@[simp] theorem handledCount_afterRun (x : KvmExit) (m : Machine δ) :
    (m.afterRun x).handledCount = m.handledCount :=
  rfl

@[simp] theorem handledCount_entered (x : KvmExit) (m : Machine δ) :
    (m.entered x).handledCount = m.handledCount :=
  rfl

/-- With a CPUID handler, a request is served if both register ioctls succeed. -/
theorem serveCpuid_fst {m : Machine δ} (hc : m.cpuid.isSome) (host : HostCpuid) :
    (m.serveCpuid host).1 = true ↔
      m.vcpu.faults .cpuidHandler .getRegs = none ∧
        m.vcpu.faults .cpuidHandler .setRegs = none := by
  rw [serveCpuid_fst_eq]
  simp [hc]

theorem handledCount_serveCpuid {m : Machine δ} (hc : m.cpuid.isSome) (host : HostCpuid) :
    (m.serveCpuid host).2.handledCount =
      m.handledCount + if (m.serveCpuid host).1 then 1 else 0 := by
  obtain ⟨h, hh⟩ := Option.isSome_iff_exists.1 hc
  simp only [serveCpuid, handledCount, hh, Option.elim_some]
  exact CpuidHandler.handledCount_handle host m.vcpu h m.dev

theorem handledCount_serveIo (m : Machine δ) : m.serveIo.2.handledCount = m.handledCount := by
  unfold serveIo
  split <;> rfl

theorem handledCount_serveMmio (m : Machine δ) : m.serveMmio.2.handledCount = m.handledCount := by
  unfold serveMmio
  split <;> rfl

/-- The handler stays where it is. -/
theorem isSome_cpuid_step (host : HostCpuid) (x : KvmExit) (m : Machine δ) :
    (m.step host x).2.1.cpuid.isSome = m.cpuid.isSome := by
  have htables := congrArg (fun T => T.leaf.isSome) (m.tables_step host x)
  simpa [tables] using htables

/-- The silent exits are those that `step` neither reports nor publishes. -/
theorem silent_iff {m : Machine δ} (hc : m.cpuid.isSome) (host : HostCpuid) (x : KvmExit) :
    x.Silent ↔ (m.step host x).1 ≠ .error ∧ x.reason ≠ some .intr ∧
      x.reason.bind eventOf = none := by
  have hserved := serveCpuid_fst (m := m.entered x) hc host
  rw [vcpu_entered, VCpu.run_snd] at hserved
  unfold KvmExit.Silent Machine.step
  rcases x.reason with _ | reason
  · simp
  · cases reason <;> simp [eventOf, serve, ← hserved]
    by_cases hw : x.run.hardwareExitReason = 0 <;>
      by_cases hs : ((m.entered x).serveCpuid host).1 <;> simp [hw, hs]

/-- A CPUID is served on two paths. -/
theorem handledCount_serve {m : Machine δ} (hc : m.cpuid.isSome) (host : HostCpuid)
    (reason : ExitReason) :
    (m.serve host reason).2.1.handledCount = m.handledCount +
      if (m.serve host reason).1 ≠ .error ∧ (reason = .internalError ∨
        reason = .unknown ∧ m.vcpu.kvmRun.hardwareExitReason = 0) then 1 else 0 := by
  have hcount := handledCount_serveCpuid hc host
  cases reason
  case io => simp [serve, apply_ite, handledCount_serveIo]
  case mmio => simp [serve, apply_ite, handledCount_serveMmio]
  case unknown =>
    by_cases hw : m.vcpu.kvmRun.hardwareExitReason = 0 <;>
      by_cases hs : (m.serveCpuid host).1 <;> simp_all [serve]
  case internalError =>
    by_cases hw : m.vcpu.kvmRun.suberror = KVM_INTERNAL_ERROR_EMULATION <;>
      by_cases hs : (m.serveCpuid host).1 <;> simp_all [serve]
  all_goals simp [serve]

/-- Unless the exit is silent, a CPUID is served exactly by a successful `InternalError`. -/
theorem handledCount_step {m : Machine δ} (hc : m.cpuid.isSome) (host : HostCpuid) {x : KvmExit}
    (hx : ¬ x.Silent) :
    (m.step host x).2.1.handledCount = m.handledCount +
      if x.reason = some .internalError ∧ (m.step host x).1 ≠ .error then 1 else 0 := by
  have hsilent := mt (silent_iff hc host x).2 hx
  rcases hr : x.reason with _ | reason
  · simp only [Machine.step, hr]
    simp
  · have hserve := handledCount_serve (m := m.entered x) hc host reason
    simp only [Machine.step, hr] at hsilent ⊢
    rw [hserve]
    by_cases hu : reason = .unknown
    · subst hu
      have herr : ((m.entered x).serve host .unknown).1 = .error := by
        simpa [eventOf] using hsilent
      simp [herr]
    · simp [hu, and_comm]

end Machine

/-- No subscriber takes the CPUID handler away or serves a CPUID itself. -/
def EventDispatcher.KeepsCpuid (d : EventDispatcher (World δ ω)) : Prop :=
  ∀ s ∈ d.subscriptions, ∀ ev w,
    (s.handler ev w).machine.cpuid.isSome = w.machine.cpuid.isSome ∧
      (s.handler ev w).machine.handledCount = w.machine.handledCount

namespace Hypervisor

/-- The exit is one the monitor has to see : `step` returns something else than `Error`, and the
`KVM_RUN` was not interrupted. -/
def Monitored (host : HostCpuid) (x : KvmExit) (s : Hypervisor δ ω) : Prop :=
  (s.step host x).1 ≠ .error ∧ x.reason ≠ some .intr

instance (host : HostCpuid) (x : KvmExit) (s : Hypervisor δ ω) : Decidable (s.Monitored host x) :=
  inferInstanceAs (Decidable (_ ∧ _))

/-- The dispatcher's `publishedCount`. -/
def publishedCount (s : Hypervisor δ ω) : UInt64 :=
  s.dispatch.elim 0 (·.publishedCount)

/-- The number of `CpuidAccess` events published so far. -/
def cpuidEvents (s : Hypervisor δ ω) : ℕ :=
  s.published.countP fun p => p.event.type = .cpuidAccess

/-- The exit is published once if it is monitored and not at all otherwise, and it is published as a
`CpuidAccess` exactly if a CPUID is served. -/
structure Accounted (host : HostCpuid) (x : KvmExit) (s : Hypervisor δ ω) : Prop where
  published : (s.step host x).2.published.length =
    s.published.length + if s.Monitored host x then 1 else 0
  cpuid : ∃ k ≤ 1, (s.step host x).2.cpuidEvents = s.cpuidEvents + k ∧
    (s.step host x).2.machine.handledCount = s.machine.handledCount + UInt64.ofNat k

/-- The publication of a step leaves the CPUID handler as the step made it. -/
theorem cpuid_step_eq {s : Hypervisor δ ω} {d : EventDispatcher (World δ ω)}
    (hd : s.dispatch = some d) (hk : d.KeepsCpuid) (host : HostCpuid) (x : KvmExit) :
    (s.step host x).2.machine.cpuid.isSome = s.machine.cpuid.isSome ∧
      (s.step host x).2.machine.handledCount = (s.machine.step host x).2.1.handledCount := by
  rw [← Machine.isSome_cpuid_step host x s.machine]
  refine step_inv
    (P := fun w => w.machine.cpuid.isSome = (s.machine.step host x).2.1.cpuid.isSome ∧
      w.machine.handledCount = (s.machine.step host x).2.1.handledCount)
    (fun _ => ⟨rfl, rfl⟩) fun d' hd' sub hsub ev w hw => ?_
  obtain rfl : d = d' := by simpa [hd] using hd'
  obtain ⟨hsome, hcount⟩ := hk sub hsub ev w
  exact ⟨hsome.trans hw.1, hcount.trans hw.2⟩

theorem type_cpuid_iff {reason : ExitReason} {mk : EventMaker}
    (h : Machine.eventOf reason = some mk) (v : VCpu) (t : TimePoint) :
    (mk v t).type = .cpuidAccess ↔ reason = .internalError := by
  cases reason <;> simp only [Machine.eventOf, Option.some.injEq, reduceCtorEq] at h <;> subst h
  case io => rcases hw : (ioPayload v.kvmRun).isWrite <;> simp [ioEvent, hw]
  all_goals simp [haltEvent, shutdownEvent, mmioEvent, cpuidEvent]

theorem cpuidEvents_step {s : Hypervisor δ ω} (h : s.dispatch.isSome) (host : HostCpuid)
    (x : KvmExit) :
    (s.step host x).2.cpuidEvents = s.cpuidEvents +
      if x.reason = some .internalError ∧ (s.step host x).1 ≠ .error then 1 else 0 := by
  rw [cpuidEvents, published_step, List.countP_append, ← cpuidEvents, Nat.add_left_cancel_iff,
    stepPublication_eq h]
  by_cases herr : (s.step host x).1 = .error
  · simp [herr]
  · rcases hr : x.reason with _ | reason
    · simp
    · rcases hev : Machine.eventOf reason with _ | mk
      · have hne : reason ≠ .internalError := by
          rintro rfl
          simp [Machine.eventOf] at hev
        simp [herr, hev, hne]
      · have htype := type_cpuid_iff hev (s.machine.step host x).2.1.vcpu s.world.clock.now.1
        simp [herr, hev, List.countP_cons, htype]

theorem length_stepPublication {s : Hypervisor δ ω} (h : s.dispatch.isSome)
    (hc : s.machine.cpuid.isSome) (host : HostCpuid) (x : KvmExit) :
    (s.stepPublication host x).length =
      if s.Monitored host x ∧ ¬ x.Silent then 1 else 0 := by
  have hfst : (s.step host x).1 = (s.machine.step host x).1 := by rw [step_eq]
  rw [stepPublication_eq h]
  simp only [Machine.silent_iff hc host x, Monitored, hfst]
  by_cases herr : (s.machine.step host x).1 = .error
  · simp [herr]
  · by_cases hintr : x.reason = some .intr
    · simp [hintr, Machine.eventOf]
    · rcases hb : x.reason.bind Machine.eventOf with _ | mk <;> simp [herr, hintr]

/-- An exit is accounted for if and only if it is not silent. -/
theorem accounted_iff {s : Hypervisor δ ω} {d : EventDispatcher (World δ ω)}
    (hd : s.dispatch = some d) (hk : d.KeepsCpuid) (hc : s.machine.cpuid.isSome)
    (host : HostCpuid) (x : KvmExit) : s.Accounted host x ↔ ¬ x.Silent := by
  have hsome : s.dispatch.isSome := by simp [hd]
  have hlen := length_stepPublication hsome hc host x
  constructor
  · intro h hx
    have hmon : s.Monitored host x := by
      have hsil := (Machine.silent_iff hc host x).1 hx
      exact ⟨by rw [step_eq]; exact hsil.1, hsil.2.1⟩
    have hpub := h.published
    rw [published_step, List.length_append, hlen, if_neg fun hn => hn.2 hx, if_pos hmon] at hpub
    omega
  · intro hx
    refine ⟨by simp [published_step, hlen, hx], _, ?_, cpuidEvents_step hsome host x, ?_⟩
    · split <;> omega
    · rw [(cpuid_step_eq hd hk host x).2, Machine.handledCount_step hc host hx, step_eq]
      split <;> rfl

/-- A bus that keeps the CPUID handler, along a run. -/
theorem keepsCpuid_of_mem_steps {s : Hypervisor δ ω} {d : EventDispatcher (World δ ω)}
    (hd : s.dispatch = some d) (hk : d.KeepsCpuid) (hc : s.machine.cpuid.isSome)
    {host : HostCpuid} {xs : List KvmExit} {p : Hypervisor δ ω × KvmExit}
    (hp : p ∈ s.steps host xs) :
    (∃ d', p.1.dispatch = some d' ∧ d'.KeepsCpuid) ∧ p.1.machine.cpuid.isSome := by
  refine Runs.along_inv
    (I := fun s : Hypervisor δ ω =>
      (∃ d', s.dispatch = some d' ∧ d'.KeepsCpuid) ∧ s.machine.cpuid.isSome)
    xs (fun s x _ hs => ?_) ⟨⟨d, hd, hk⟩, hc⟩ p hp
  obtain ⟨⟨d', hd', hk'⟩, hc'⟩ := hs
  obtain ⟨d'', hd'', hsub⟩ := exists_dispatch_step hd' host x
  refine ⟨⟨d'', hd'', fun sub hmem => hk' sub (hsub ▸ hmem)⟩, ?_⟩
  · rw [(cpuid_step_eq hd' hk' host x).1]
    exact hc'

/-- `publishedCount` follows the publications. -/
theorem publishedCount_run (host : HostCpuid) (xs : List KvmExit) (s : Hypervisor δ ω)
    (h : s.dispatch.isSome) :
    Runs.Tracks (fun s : Hypervisor δ ω => s.published.length) publishedCount s
      (s.run host xs) := by
  refine Runs.tracks_foldl xs fun p hp => ⟨(p.1.stepPublication host p.2).length, ?_, ?_⟩
  · simp [published_step]
  · obtain ⟨d, hd⟩ := Option.isSome_iff_exists.1 (isSome_dispatch_of_mem_steps h hp)
    simp [publishedCount, dispatch_step, hd]

end Hypervisor

/-- In a run under a dispatcher and with a CPUID handler, every exit is accounted for if and only if
no exit is silent. Then `publishedCount` grows by the number of monitored exits, and `handledCount`
by the number of `CpuidAccess` events. Both are `uint64_t` sums. -/
theorem exits_accounted_iff (host : HostCpuid) (xs : List KvmExit) {s : Hypervisor δ ω}
    {d : EventDispatcher (World δ ω)} (hd : s.dispatch = some d) (hk : d.KeepsCpuid)
    (hc : s.machine.cpuid.isSome) :
    ((∀ p ∈ s.steps host xs, p.1.Accounted host p.2) ↔ ∀ x ∈ xs, ¬ x.Silent) ∧
    ((∀ x ∈ xs, ¬ x.Silent) →
      (s.run host xs).publishedCount = s.publishedCount +
        UInt64.ofNat ((s.steps host xs).countP fun p => p.1.Monitored host p.2) ∧
      ∃ k, (s.run host xs).cpuidEvents = s.cpuidEvents + k ∧
        (s.run host xs).machine.handledCount = s.machine.handledCount + UInt64.ofNat k) := by
  have hone : ∀ p ∈ s.steps host xs, p.1.Accounted host p.2 ↔ ¬ p.2.Silent := by
    intro p hp
    obtain ⟨⟨d', hd', hk'⟩, hc'⟩ := Hypervisor.keepsCpuid_of_mem_steps hd hk hc hp
    exact Hypervisor.accounted_iff hd' hk' hc' host p.2
  have hall : (∀ p ∈ s.steps host xs, p.1.Accounted host p.2) ↔ ∀ x ∈ xs, ¬ x.Silent := by
    constructor
    · intro h x hx
      obtain ⟨t, ht⟩ := Runs.exists_mem_along (f := fun s x => (Hypervisor.step host x s).2) s hx
      exact (hone (t, x) ht).1 (h (t, x) ht)
    · intro h p hp
      exact (hone p hp).2 (h p.2 (Runs.snd_mem_of_mem_along hp))
  refine ⟨hall, fun h => ?_⟩
  have hacc := hall.2 h
  have hlen := Runs.countP_foldl (f := fun s x => (Hypervisor.step host x s).2)
    (c := fun s => s.published.length) (P := fun s x => s.Monitored host x) xs (s := s)
    fun p hp => by simpa using (hacc p hp).published
  obtain ⟨k, hk, hcount⟩ := Hypervisor.publishedCount_run host xs s (by simp [hd])
  obtain rfl := Nat.add_left_cancel (hlen.symm.trans hk)
  have htracks : Runs.Tracks Hypervisor.cpuidEvents (fun s => s.machine.handledCount) s
      (s.run host xs) := Runs.tracks_foldl xs fun p hp => by
    obtain ⟨k, -, hk⟩ := (hacc p hp).cpuid
    exact ⟨k, hk⟩
  exact ⟨hcount, htracks⟩

/-- A CPUID that reaches user space as an emulation failure, and a halt. -/
def cpuidThenHlt : List KvmExit :=
  [{ run := { exitReason := 17, suberror := 1 } }, { run := { exitReason := 5 } }]

/-- `cpuidThenHlt` makes two events, and one CPUID is counted. -/
theorem exits_accounted_cpuidThenHlt :
    (∀ p ∈ bareHypervisor.steps (fun _ _ => {}) cpuidThenHlt, p.1.Accounted (fun _ _ => {}) p.2) ∧
      (bareHypervisor.run (fun _ _ => {}) cpuidThenHlt).publishedCount = 2 ∧
      (bareHypervisor.run (fun _ _ => {}) cpuidThenHlt).machine.handledCount = 1 := by
  have h := exits_accounted_iff (fun _ _ => {}) cpuidThenHlt (s := bareHypervisor) (d := {}) rfl
    (by simp [EventDispatcher.KeepsCpuid]) rfl
  refine ⟨h.1.2 ?_, rfl, rfl⟩
  intro x hx
  simp only [cpuidThenHlt, List.mem_cons, List.not_mem_nil, or_false] at hx
  rcases hx with rfl | rfl <;> decide

/-- The same CPUID on the path of `Unknown` is served and not published. -/
theorem unknown_served_unpublished :
    ¬ bareHypervisor.Accounted (fun _ _ => {}) {} ∧
      (bareHypervisor.step (fun _ _ => {}) {}).1 = .cont ∧
      (bareHypervisor.step (fun _ _ => {}) {}).2.published = [] ∧
      (bareHypervisor.step (fun _ _ => {}) {}).2.machine.handledCount = 1 := by
  refine ⟨fun h => ?_, rfl, rfl, rfl⟩
  have hpub := h.published
  simp [show (bareHypervisor.step (fun _ _ => {}) {}).2.published = [] from rfl,
    show bareHypervisor.published = [] from rfl,
    show bareHypervisor.Monitored (fun _ _ => {}) {} from ⟨by decide, by decide⟩] at hpub

end MinBp
