import MinBp.AgentLog
import MinBp.Events

/-!
# The agent's log of a run

Between two publications of a run loop the machine goes on : a `KVM_RUN`, and a handler that serves
its exit. For an agent on the bus this is a history like any other, so every step of the loop that
publishes adds one entry to the log and no other step does (`Attended.step`). The entry holds the
event, the registers of the vCPU that the loop runs and the bytes of the dump window, all as of the
publication (`Logged`).

`runLog_complete` states this for whole runs. The log of a run is the record of its publications.
-/

namespace MinBp

variable {δ κ : Type}

/-! ## Machines stay regular -/

namespace Machine

/-- The ids of the vCPUs, in order. -/
def ids (m : Machine δ) : List UInt32 :=
  m.vm.vcpus.map (·.id)

theorem ids_setVCpu {m : Machine δ} {v : VCpu} (h : v.id = m.vcpu.id) :
    (m.setVCpu v).ids = m.ids := by
  refine List.ext_getElem? fun i => ?_
  simp only [ids, setVCpu, List.map_set, List.getElem?_set, List.length_map, List.getElem?_map]
  by_cases hi : m.vcpuIndex = i
  · subst hi
    rw [if_pos rfl, if_pos m.vcpuIndex_lt, h, vcpu, List.get_eq_getElem,
      List.getElem?_eq_getElem m.vcpuIndex_lt, Option.map_some]
  · rw [if_neg hi]

theorem ids_serveIo (m : Machine δ) : m.serveIo.2.ids = m.ids := by
  unfold serveIo
  split
  · rfl
  · exact ids_setVCpu rfl

theorem ids_serveMmio (m : Machine δ) : m.serveMmio.2.ids = m.ids := by
  unfold serveMmio
  split
  · rfl
  · exact ids_setVCpu rfl

theorem ids_serveCpuid (host : HostCpuid) (m : Machine δ) :
    (m.serveCpuid host).2.ids = m.ids := by
  unfold serveCpuid
  split
  · rfl
  · rename_i h _
    refine ids_setVCpu ?_
    rw [CpuidHandler.handle_eq]
    dsimp only
    split_ifs <;> rfl

theorem ids_afterRun (x : KvmExit) (m : Machine δ) : (m.afterRun x).ids = m.ids := by
  refine List.ext_getElem? fun i => ?_
  simp only [ids, afterRun, VirtualMachine.runVCpu, List.getElem?_map, List.getElem?_modify,
    VCpu.run_snd]
  cases m.vm.vcpus[i]? <;> split_ifs <;> rfl

/-- A step keeps the ids of the vCPUs. -/
theorem ids_step (host : HostCpuid) (x : KvmExit) (m : Machine δ) :
    (m.step host x).2.1.ids = m.ids := by
  unfold step
  cases x.reason with
  | none => exact ids_afterRun x m
  | some reason =>
    have hentered : (m.entered x).ids = m.ids := ids_afterRun x m
    exact serve_inv (P := fun m' => m'.ids = m.ids) hentered
      ((ids_serveIo _).trans hentered) ((ids_serveMmio _).trans hentered)
      ((ids_serveCpuid host _).trans hentered) reason

/-- A machine with the ids of a regular one is regular if its memory is mapped. -/
theorem Regular.of_ids {m m' : Machine δ} (h : m.Regular) (hids : m'.ids = m.ids)
    (hmapped : m'.vm.Mapped) : m'.Regular where
  ids i v hv := by
    have hid := congrArg (fun l : List UInt32 => l[i]?) hids
    simp only [Machine.ids, List.getElem?_map, hv, Option.map_some] at hid
    obtain ⟨v', hv', heq⟩ := Option.map_eq_some_iff.1 hid.symm
    rw [← heq]
    exact h.ids i v' hv'
  mapped := hmapped

/-- A step keeps a machine regular. -/
theorem Regular.step {m : Machine δ} (h : m.Regular) (host : HostCpuid) (x : KvmExit) :
    (m.step host x).2.1.Regular := by
  refine h.of_ids (m.ids_step host x) fun r hr => ?_
  rw [memoryRegions_step] at hr
  obtain ⟨i, hi⟩ := List.mem_iff_getElem?.1 hr
  simp only [VirtualMachine.setRam, List.getElem?_mapIdx] at hi
  obtain ⟨r', hr', rfl⟩ := Option.map_eq_some_iff.1 hi
  rw [(MemoryRegion.sameShape_setRam _ r').mapped]
  exact h.mapped r' (List.mem_of_getElem? hr')

end Machine

/-! ## Entries -/

/-- The registers can be read for the event and for the log. -/
structure VCpu.Legible (v : VCpu) : Prop where
  event : v.faults .eventRip .getRegs = none
  regs : v.faults .vmiAgent .getRegs = none
  sregs : v.faults .vmiAgent .getSregs = none

/-- The entry of a publication : the event, the registers of the vCPU, and the dump that the agent
`a` is set to, all as of the publication. -/
structure Logged (a : VmiAgent κ) (p : Publication δ) (ie : IntrospectionEvent) : Prop where
  base : ie.base = p.event
  snapshot : p.machine.vcpu.SnapshotIs ie.snapshot
  /-- Event and snapshot agree on the instruction pointer, where both could read it. The event of a
  shutdown has none. -/
  rip : p.event.type ≠ .guestShutdown → p.machine.vcpu.Legible → ie.snapshot.rip = p.event.rip
  present : ie.memDump.isSome ↔ a.memDumpEnabled ∧ a.memDumpSize ≠ 0 ∧
    ∃ r ∈ p.machine.vm.memoryRegions, r.Contains a.memDumpAddr a.memDumpSize
  bytes : ∀ bs ∈ ie.memDump, ∃ r ∈ p.machine.vm.memoryRegions,
    r.Contains a.memDumpAddr a.memDumpSize ∧ bs = r.window a.memDumpAddr a.memDumpSize
  summary : ie.summary = buildSummary p.event ie.snapshot

/-- The agent keeps what decides about its dumps. -/
def VmiAgent.SameDump (a a' : VmiAgent κ) : Prop :=
  a'.memDumpEnabled = a.memDumpEnabled ∧ a'.memDumpAddr = a.memDumpAddr ∧
    a'.memDumpSize = a.memDumpSize

theorem Logged.of_sameDump {a a' : VmiAgent κ} (h : a.SameDump a') {p : Publication δ}
    {ie : IntrospectionEvent} (hl : Logged a' p ie) : Logged a p ie := by
  obtain ⟨he, ha, hs⟩ := h
  obtain ⟨base, snapshot, rip, present, bytes, summary⟩ := hl
  rw [he, ha, hs] at present
  rw [ha, hs] at bytes
  exact ⟨base, snapshot, rip, present, bytes, summary⟩

/-- Every event names the vCPU that it is about. -/
theorem vcpuId_eventOf {reason : ExitReason} {mk : EventMaker}
    (h : Machine.eventOf reason = some mk) (v : VCpu) (t : TimePoint) :
    (mk v t).vcpuId = v.id := by
  cases reason <;> cases h <;> rfl

/-- Every event but that of a shutdown has the instruction pointer of its vCPU. -/
theorem rip_eventOf {reason : ExitReason} {mk : EventMaker}
    (h : Machine.eventOf reason = some mk) (v : VCpu) {t : TimePoint}
    (htype : (mk v t).type ≠ .guestShutdown) : (mk v t).rip = eventRip v := by
  cases reason <;> cases h
  case shutdown => exact absurd rfl htype
  all_goals rfl

theorem VCpu.Legible.rip_eq {v : VCpu} (h : v.Legible) {snap : GuestSnapshot}
    (hsnap : v.SnapshotIs snap) : snap.rip = eventRip v := by
  unfold SnapshotIs at hsnap
  rw [getRegs_ok h.regs, getSregs_ok h.sregs] at hsnap
  obtain ⟨t, rfl⟩ := hsnap
  unfold eventRip
  rw [getRegs_ok h.event]
  rfl

namespace Hypervisor

/-- The agent among the subscribers. -/
def agent (s : Hypervisor δ (Observed κ)) : VmiAgent κ :=
  s.world.obs.agent

/-- There is a dispatcher with an agent on it, ready for the next event. -/
def Attended (s : Hypervisor δ (Observed κ)) : Prop :=
  ∃ d, s.dispatch = some d ∧ Watch.Ready ⟨d, s.world⟩

/-- From `s` to `s'` the publications `ps` have been logged. -/
structure Logs (s s' : Hypervisor δ (Observed κ)) (ps : List (Publication δ)) : Prop where
  attended : s'.Attended
  sameDump : s.agent.SameDump s'.agent
  entries : ∃ new, s'.agent.eventLog = s.agent.eventLog ++ new ∧
    List.Forall₂ (Logged s.agent) ps new

theorem Logs.refl {s : Hypervisor δ (Observed κ)} (h : s.Attended) : Logs s s [] :=
  ⟨h, ⟨rfl, rfl, rfl⟩, [], (List.append_nil _).symm, .nil⟩

theorem Logs.trans {s s' s'' : Hypervisor δ (Observed κ)} {ps ps' : List (Publication δ)}
    (h : Logs s s' ps) (h' : Logs s' s'' ps') : Logs s s'' (ps ++ ps') := by
  obtain ⟨new, hnew, hps⟩ := h.entries
  obtain ⟨new', hnew', hps'⟩ := h'.entries
  refine ⟨h'.attended, ?_, new ++ new', ?_, ?_⟩
  · obtain ⟨he, ha, hs⟩ := h.sameDump
    obtain ⟨he', ha', hs'⟩ := h'.sameDump
    exact ⟨he'.trans he, ha'.trans ha, hs'.trans hs⟩
  · rw [hnew', hnew, List.append_assoc]
  · exact List.rel_append hps (hps'.imp fun _ _ hl => hl.of_sameDump h.sameDump)

/-- A publication is logged. -/
theorem Attended.emit {s : Hypervisor δ (Observed κ)} (h : s.Attended) {mk : EventMaker}
    {reason : ExitReason} (hmk : Machine.eventOf reason = some mk) :
    Logs s (s.emit mk) (s.publication (some mk)) := by
  obtain ⟨d, hd, hready⟩ := h
  let ev := mk s.machine.vcpu s.world.clock.now.1
  -- to the agent the reading of the clock and the publication are one publication
  let w : Watch δ κ := ⟨d, { s.world with clock := s.world.clock.now.2 }⟩
  have hw : w.Ready := ⟨hready.bus, hready.fault, hready.regular, hready.hasVm, hready.window⟩
  have hemit : s.emit mk = { world := (w.exec (.publish ev)).world
                             dispatch := some (w.exec (.publish ev)).bus
                             published := s.published ++ [⟨ev, s.machine⟩] } :=
    emit_of_some hd
  have hpub : s.publication (some mk) = [⟨ev, s.machine⟩] := by
    unfold publication
    rw [hd]
  obtain ⟨ie, hentry, ⟨_, _, _, _, -, -, -, hagent⟩, -, -⟩ := hw.publishes ev
  have hnew : (s.emit mk).agent = { s.agent with eventLog := s.agent.eventLog ++ [ie] } := by
    rw [hemit]
    exact hagent
  have hsnapshot : s.machine.vcpu.SnapshotIs ie.snapshot :=
    hentry.snapshot _ (List.get_mem _ _) (vcpuId_eventOf hmk _ _).symm
  refine ⟨?_, ?_, [ie], congrArg VmiAgent.eventLog hnew, ?_⟩
  · rw [hemit]
    exact ⟨_, rfl, hw.exec (show Watch.OpOk (.publish ev) from trivial)⟩
  · rw [hnew]
    exact ⟨rfl, rfl, rfl⟩
  · rw [hpub]
    refine .cons ?_ .nil
    exact
      { base := hentry.base
        snapshot := hsnapshot
        rip := fun htype hv => (hv.rip_eq hsnapshot).trans (rip_eventOf hmk _ htype).symm
        present := hentry.present
        bytes := hentry.bytes
        summary := hentry.summary }

/-- A step logs what it publishes. -/
theorem Attended.step {s : Hypervisor δ (Observed κ)} (h : s.Attended) (host : HostCpuid)
    (x : KvmExit) : Logs s (s.step host x).2 (s.stepPublication host x) := by
  obtain ⟨d, hd, hready⟩ := h
  have hserved : (s.setMachine (s.machine.step host x).2.1).Attended :=
    ⟨d, hd, hready.bus, hready.fault, hready.regular.step host x, hready.hasVm, hready.window⟩
  have hlogs : Logs (s.setMachine (s.machine.step host x).2.1)
      ((s.setMachine (s.machine.step host x).2.1).emit? (s.machine.step host x).2.2)
      (s.stepPublication host x) := by
    unfold stepPublication
    cases hmk : (s.machine.step host x).2.2 with
    | none =>
      unfold publication
      rw [dispatch_setMachine, hd]
      exact .refl hserved
    | some mk =>
      obtain ⟨reason, -, hreason⟩ := Machine.exists_eventOf hmk
      exact hserved.emit hreason
  rw [step_eq]
  exact ⟨hlogs.attended, hlogs.sameDump, hlogs.entries⟩

/-- A run logs what it publishes. -/
theorem Attended.run (host : HostCpuid) : ∀ (xs : List KvmExit) {s : Hypervisor δ (Observed κ)},
    s.Attended → Logs s (s.run host xs) (s.newlyPublished host xs)
  | [], s, h => by
    rw [newlyPublished_eq]
    exact .refl h
  | x :: xs, s, h => by
    have hone := h.step host x
    have hrest := Attended.run host xs hone.attended
    rw [newlyPublished_eq] at hrest ⊢
    exact hone.trans hrest

end Hypervisor

/-- The log of a run is the record of its publications. Let an agent be on the bus, among harmless
subscribers and ready. Over every sequence of exits its log grows by one entry for each event that
the run loop publishes, in order, with the registers of the vCPU and the bytes of the dump window at
the time of the publication. Nothing the agent reads lies outside a mapping. -/
theorem runLog_complete (host : HostCpuid) (xs : List KvmExit) {s : Hypervisor δ (Observed κ)}
    (h : s.Attended) :
    (∃ new, (s.run host xs).agent.eventLog = s.agent.eventLog ++ new ∧
      List.Forall₂ (Logged s.agent) (s.newlyPublished host xs) new) ∧
    (s.run host xs).world.fault = none := by
  have hlogs := h.run host xs
  obtain ⟨d, -, hready⟩ := hlogs.attended
  exact ⟨hlogs.entries, hready.fault⟩

theorem attended_watchedPage : watchedPage.Attended :=
  ⟨_, rfl, ⟨1, [], [], rfl, nofun, nofun⟩, rfl, regular_pageMachine, rfl, by decide⟩

/-- An exit in which the guest has filled its memory with `b`. -/
def fillExit (reason : UInt32) (b : UInt8) : KvmExit where
  run := { exitReason := reason, io := { direction := 1, size := 1 } }
  ram := fun _ _ => b

/-- The dump of an entry whose memory is one region, filled by the guest. -/
theorem Logged.memDump_of_filled {a : VmiAgent κ} {p : Publication δ} {ie : IntrospectionEvent}
    (h : Logged a p ie) (henabled : a.memDumpEnabled) (hsize : a.memDumpSize ≠ 0)
    {r : MemoryRegion} {b : UInt8} (hregions : p.machine.vm.memoryRegions = [r.setRam fun _ => b])
    (hmapped : r.host.isSome) (hcontains : r.Contains a.memDumpAddr a.memDumpSize) :
    ie.memDump = some (List.replicate a.memDumpSize.toNat b) := by
  obtain ⟨old, hold⟩ := Option.isSome_iff_exists.1 hmapped
  have hhost : (r.setRam fun _ => b).host = some (List.replicate r.size.toNat b) := by
    rw [MemoryRegion.host_setRam_const, hold, Option.map_some]
  exact MemoryRegion.dump_of_filled h.present h.bytes henabled hsize hregions hcontains hhost

/-- `watchedPage` publishes an `OUT` and a halt. The agent does not change the machine between
them. -/
theorem newlyPublished_watchedPage :
    ∃ ev ev', watchedPage.newlyPublished (fun _ _ => {}) [fillExit 2 7, fillExit 5 8] =
        [⟨ev, (pageMachine.step (fun _ _ => {}) (fillExit 2 7)).2.1⟩,
          ⟨ev', ((pageMachine.step (fun _ _ => {}) (fillExit 2 7)).2.1.step (fun _ _ => {})
            (fillExit 5 8)).2.1⟩] ∧
      ev.type = .ioWrite ∧ ev'.type = .guestHalt := by
  have hpassive : watchedPage.Passive := by
    intro d hd sub hsub ev w
    cases hd
    rw [List.mem_singleton.1 hsub]
    exact VmiAgent.machine_handler ev w
  obtain ⟨d, hd, -⟩ := Hypervisor.exists_dispatch_step (s := watchedPage) rfl (fun _ _ => {})
    (fillExit 2 7)
  rw [Hypervisor.newlyPublished_eq, Hypervisor.steps, Runs.along, Runs.along, Runs.along,
    List.flatMap_cons, List.flatMap_cons]
  unfold Hypervisor.stepPublication Hypervisor.publication
  rw [Hypervisor.dispatch_setMachine (s := (watchedPage.step _ _).2), hd, hpassive.machine_step]
  exact ⟨_, _, rfl, rfl, rfl⟩

/-- The log of an `OUT` and a halt has both events, each with the memory of its time. -/
theorem runLog_outThenHlt :
    (∃ new, (watchedPage.run (fun _ _ => {}) [fillExit 2 7, fillExit 5 8]).agent.eventLog =
        watchedPage.agent.eventLog ++ new ∧
      List.Forall₂ (Logged watchedPage.agent)
        (watchedPage.newlyPublished (fun _ _ => {}) [fillExit 2 7, fillExit 5 8]) new) ∧
    (watchedPage.run (fun _ _ => {}) [fillExit 2 7, fillExit 5 8]).agent.eventLog.map
      (fun ie => (ie.base.type, ie.memDump)) =
        [(.ioWrite, some [7, 7]), (.guestHalt, some [8, 8])] := by
  have h := (runLog_complete (fun _ _ => {}) [fillExit 2 7, fillExit 5 8] attended_watchedPage).1
  refine ⟨h, ?_⟩
  obtain ⟨new, hlog, hnew⟩ := h
  obtain ⟨ev, ev', hpublished, htype, htype'⟩ := newlyPublished_watchedPage
  rw [hpublished] at hnew
  obtain _ | ⟨hie, _ | ⟨hie', _ | _⟩⟩ := hnew
  have hdump := hie.memDump_of_filled rfl (by decide) (r := VirtualMachine.onesPage)
    (Machine.memoryRegions_step ..) rfl (by decide)
  have hdump' := hie'.memDump_of_filled rfl (by decide)
    (r := VirtualMachine.onesPage.setRam fun _ => 7)
    ((Machine.memoryRegions_step ..).trans
      (congrArg (List.mapIdx _) (Machine.memoryRegions_step ..))) rfl (by decide)
  rw [hlog]
  show [(_, _), (_, _)] = _
  rw [hie.base, hie'.base, hdump, hdump', htype, htype']
  rfl

end MinBp
