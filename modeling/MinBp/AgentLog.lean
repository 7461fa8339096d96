import MinBp.Transparency
import Mathlib.Data.List.Forall2

/-!
# The agent's log

A history (`AgentOp`) is what can happen between the construction of a `VmiAgent` and its
destruction : events are published, callbacks are added, the memory dump is switched on and off,
the guest goes on, and others subscribe. Every operation sees the state the earlier ones left.

`Entry` says what the log has to hold for a publication : the event, the registers of the vCPU
that the event names and the bytes of the dump window, all as of the publication.
`agentLog_complete` states that the log of every history consists of the entries of its
publications in order, and that each entry is handed to the callbacks registered so far.
-/

namespace MinBp

variable {δ κ : Type}

/-- What happens around an agent. -/
inductive AgentOp (δ κ : Type) where
  /-- `dispatcher.publish(event)`. -/
  | publish (event : HvEvent)
  /-- `agent.onEvent(cb)`. -/
  | onEvent (cb : IntrospectionEvent → κ → κ)
  /-- `agent.enableMemoryDump(addr, size)`. -/
  | enableMemoryDump (addr size : UInt64)
  /-- `agent.disableMemoryDump()`. -/
  | disableMemoryDump
  /-- The guest, or the host on its behalf, changes the machine. -/
  | guest (machine : Machine δ)
  /-- Someone else subscribes to all events. -/
  | subscribeAll (handler : HvEvent → World δ (Observed κ) → World δ (Observed κ))

/-- The bus with an agent on it. -/
structure Watch (δ κ : Type) where
  bus : EventDispatcher (World δ (Observed κ))
  world : World δ (Observed κ)

namespace Watch

/-- The agent. -/
def agent (s : Watch δ κ) : VmiAgent κ :=
  s.world.obs.agent

/-- The state with another agent. -/
def setAgent (a : VmiAgent κ) (s : Watch δ κ) : Watch δ κ :=
  { s with world := { s.world with obs := { s.world.obs with agent := a } } }

/-- One operation. -/
def exec (s : Watch δ κ) : AgentOp δ κ → Watch δ κ
  | .publish event =>
    { bus := (s.bus.publish event s.world).1, world := (s.bus.publish event s.world).2 }
  | .onEvent cb => s.setAgent (s.agent.onEvent cb)
  | .enableMemoryDump addr size => s.setAgent (s.agent.enableMemoryDump addr size)
  | .disableMemoryDump => s.setAgent s.agent.disableMemoryDump
  | .guest machine => { s with world := { s.world with machine } }
  | .subscribeAll handler => { s with bus := (s.bus.subscribeAll handler).2 }

/-- An agent for the machine of `world` on the bus. -/
def construct (bus : EventDispatcher (World δ (Observed κ))) (world : World δ (Observed κ)) :
    Watch δ κ where
  bus := (VmiAgent.construct true bus).2
  world :=
    { world with obs := { world.obs with agent := (VmiAgent.construct (δ := δ) true bus).1 } }

end Watch

/-! ## What an entry has to hold -/

/-- Ids of vCPUs are positions, and all memory is mapped. -/
structure Machine.Regular (m : Machine δ) : Prop where
  ids : ∀ (i : ℕ) (v : VCpu), m.vm.vcpus[i]? = some v → v.id.toNat = i
  mapped : m.vm.Mapped

/-- The snapshot of a vCPU at some time, zero if its registers cannot be read. -/
def VCpu.SnapshotIs (v : VCpu) (snap : GuestSnapshot) : Prop :=
  match v.getRegs .vmiAgent, v.getSregs .vmiAgent with
  | .ok regs, .ok sregs => ∃ t, snap = VmiAgent.snapshotOf regs sregs t
  | _, _ => snap = {}

/-- The log entry of a publication of `event` in the state `s`. -/
structure Entry (s : Watch δ κ) (event : HvEvent) (ie : IntrospectionEvent) : Prop where
  base : ie.base = event
  /-- The registers are those of the vCPU that the event names. -/
  snapshot : ∀ v ∈ s.world.machine.vm.vcpus, v.id = event.vcpuId → v.SnapshotIs ie.snapshot
  noVCpu : (∀ v ∈ s.world.machine.vm.vcpus, v.id ≠ event.vcpuId) → ie.snapshot = {}
  /-- There is a dump exactly if dumping is enabled, with a window that is not empty and lies in one
  region. -/
  present : ie.memDump.isSome ↔ s.agent.memDumpEnabled ∧ s.agent.memDumpSize ≠ 0 ∧
    ∃ r ∈ s.world.machine.vm.memoryRegions, r.Contains s.agent.memDumpAddr s.agent.memDumpSize
  /-- The dump holds the bytes of that window. -/
  bytes : ∀ bs ∈ ie.memDump, ∃ r ∈ s.world.machine.vm.memoryRegions,
    r.Contains s.agent.memDumpAddr s.agent.memDumpSize ∧
      bs = r.window s.agent.memDumpAddr s.agent.memDumpSize
  summary : ie.summary = buildSummary event ie.snapshot

/-- The world after the agent has logged `ie` and called its callbacks. -/
def World.record (ie : IntrospectionEvent) (clock : Clock) (w : World δ (Observed κ)) :
    World δ (Observed κ) :=
  { w with
    clock
    obs :=
      { agent := { w.obs.agent with eventLog := w.obs.agent.eventLog ++ [ie] }
        sink := w.obs.agent.callbacks.foldl (fun sink cb => cb ie sink) w.obs.sink } }

namespace Watch

/-- Invariant of a history : the agent is on the bus once, among harmless subscribers, and its
window does not wrap. -/
structure Ready (s : Watch δ κ) : Prop where
  bus : ∃ id before after,
    s.bus.subscriptions = before ++ ⟨id, none, VmiAgent.handler⟩ :: after ∧
      (∀ sub ∈ before, sub.Harmless) ∧ ∀ sub ∈ after, sub.Harmless
  fault : s.world.fault = none
  regular : s.world.machine.Regular
  hasVm : s.agent.hasVm
  window : s.agent.memDumpAddr.toNat + s.agent.memDumpSize.toNat < 2 ^ 64

/-- What the caller owes : windows that do not wrap, regular machines, harmless subscribers. -/
def OpOk : AgentOp δ κ → Prop
  | .enableMemoryDump addr size => addr.toNat + size.toNat < 2 ^ 64
  | .guest machine => machine.Regular
  | .subscribeAll handler => Subscription.Harmless ⟨0, none, handler⟩
  | _ => True

/-- The publication of `event` in `s` leads to `s'` : first the subscribers before the agent, then
the entry and the callbacks, then the subscribers after it. -/
def Publishes (s : Watch δ κ) (event : HvEvent) (ie : IntrospectionEvent) (s' : Watch δ κ) : Prop :=
  ∃ id before after clock,
    s.bus.subscriptions = before ++ ⟨id, none, VmiAgent.handler⟩ :: after ∧
      s'.world = EventDispatcher.deliver after event
        ((EventDispatcher.deliver before event s.world).record ie clock) ∧
      (EventDispatcher.deliver before event s.world).obs.agent = s.agent ∧
      s'.agent = { s.agent with eventLog := s.agent.eventLog ++ [ie] }

end Watch

/-! ## One publication -/

/-- With ids that are positions, `snapshotRegisters` finds the vCPU that the event names. -/
theorem Machine.Regular.getElem? {m : Machine δ} (h : m.Regular) {v : VCpu} (hv : v ∈ m.vm.vcpus) :
    m.vm.vcpus[v.id.toNat]? = some v := by
  obtain ⟨i, hi⟩ := List.mem_iff_getElem?.1 hv
  rw [h.ids i v hi, hi]

namespace VmiAgent

variable {a : VmiAgent κ} {m : Machine δ}

theorem snapshotRegisters_of_mem (ha : a.hasVm) (hm : m.Regular) {v : VCpu} (hv : v ∈ m.vm.vcpus)
    (clock : Clock) : v.SnapshotIs ((a.snapshotRegisters m.vm v.id clock).1.getD {}) := by
  unfold snapshotRegisters VCpu.SnapshotIs
  simp only [ha, if_true, hm.getElem? hv]
  rcases v.getRegs .vmiAgent with e | regs <;> rcases v.getSregs .vmiAgent with e' | sregs
  · rfl
  · rfl
  · rfl
  · exact ⟨_, rfl⟩

theorem snapshotRegisters_of_forall_ne (hm : m.Regular) {id : UInt32}
    (hid : ∀ v ∈ m.vm.vcpus, v.id ≠ id) (clock : Clock) :
    (a.snapshotRegisters m.vm id clock).1 = none := by
  have hnone : m.vm.vcpus[id.toNat]? = none := by
    rcases hv : m.vm.vcpus[id.toNat]? with _ | v
    · rfl
    · exact absurd (UInt32.toNat_inj.1 (hm.ids _ v hv)) (hid v (List.mem_of_getElem? hv))
  unfold snapshotRegisters
  split
  · simp [hnone]
  · rfl

/-- The dump of a window that does not wrap. -/
theorem exists_dump (ha : a.hasVm) (hm : m.Regular)
    (hw : a.memDumpAddr.toNat + a.memDumpSize.toNat < 2 ^ 64) :
    ∃ memDump, a.dump m.vm = .ok memDump ∧
      (memDump.isSome ↔ a.memDumpEnabled ∧ a.memDumpSize ≠ 0 ∧
        ∃ r ∈ m.vm.memoryRegions, r.Contains a.memDumpAddr a.memDumpSize) ∧
      ∀ bs ∈ memDump, ∃ r ∈ m.vm.memoryRegions, r.Contains a.memDumpAddr a.memDumpSize ∧
        bs = r.window a.memDumpAddr a.memDumpSize := by
  refine ⟨_, dump_eq hw hm.mapped, ?_, ?_⟩
  · by_cases hc : a.memDumpEnabled ∧ a.hasVm ∧ a.memDumpSize ≠ 0
    · rw [if_pos hc, Option.isSome_map, List.find?_isSome]
      simp [hc.1, hc.2.2]
    · rw [if_neg hc]
      simp only [Option.isSome_none, Bool.false_eq_true, false_iff]
      exact fun h => hc ⟨h.1, ha, h.2.1⟩
  · intro bs hbs
    split at hbs
    · obtain ⟨r, hr, rfl⟩ := Option.mem_map.1 hbs
      exact ⟨r, List.mem_of_find?_eq_some hr, by simpa using List.find?_some hr, rfl⟩
    · cases hbs

/-- The agent's turn in a publication : it logs an entry, and calls its callbacks with it. -/
theorem handler_eq {s : Watch δ κ} (hs : s.Ready) (event : HvEvent) {w : World δ (Observed κ)}
    (hmachine : w.machine = s.world.machine) (hagent : w.obs.agent = s.agent) :
    ∃ ie clock, Entry s event ie ∧ handler event w = w.record ie clock := by
  obtain ⟨memDump, hdump, hpresent, hbytes⟩ := exists_dump hs.hasVm hs.regular hs.window
  let snap := s.agent.snapshotRegisters s.world.machine.vm event.vcpuId w.clock
  refine ⟨⟨event, snap.1.getD {}, memDump, buildSummary event (snap.1.getD {})⟩, snap.2,
    ⟨rfl, ?_, ?_, hpresent, hbytes, rfl⟩, ?_⟩
  · intro v hv hid
    have := snapshotRegisters_of_mem hs.hasVm hs.regular hv w.clock
    rwa [hid] at this
  · intro hid
    have := snapshotRegisters_of_forall_ne (a := s.agent) hs.regular hid w.clock
    simp only [snap, this, Option.getD_none]
  · simp only [handler, handleHvEvent, hmachine, hagent, hdump, World.record, snap]

end VmiAgent

namespace Watch

/-- Harmless subscribers leave the machine, the agent and the fault as they are. -/
theorem deliver_harmless {subs : List (Subscription (World δ (Observed κ)))}
    (h : ∀ sub ∈ subs, sub.Harmless) (event : HvEvent) (w : World δ (Observed κ)) :
    (EventDispatcher.deliver subs event w).machine = w.machine ∧
      (EventDispatcher.deliver subs event w).fault = w.fault ∧
      (EventDispatcher.deliver subs event w).obs.agent = w.obs.agent := by
  refine EventDispatcher.deliver_inv
    (P := fun w' : World δ (Observed κ) =>
      w'.machine = w.machine ∧ w'.fault = w.fault ∧ w'.obs.agent = w.obs.agent)
    (fun sub hsub w' hw' => ?_) ⟨rfl, rfl, rfl⟩
  obtain ⟨hm, hf, ha⟩ := h sub hsub event w'
  exact ⟨hm.trans hw'.1, hf.trans hw'.2.1, ha.trans hw'.2.2⟩

/-- A publication adds an entry and calls the callbacks with it. -/
theorem Ready.publishes {s : Watch δ κ} (hs : s.Ready) (event : HvEvent) :
    ∃ ie, Entry s event ie ∧ s.Publishes event ie (s.exec (.publish event)) ∧
      (s.exec (.publish event)).world.machine = s.world.machine ∧
      (s.exec (.publish event)).world.fault = none := by
  obtain ⟨id, before, after, hsubs, hbefore, hafter⟩ := hs.bus
  obtain ⟨hm, hf, ha⟩ := deliver_harmless hbefore event s.world
  obtain ⟨ie, clock, hentry, hhandler⟩ := VmiAgent.handler_eq hs event hm ha
  have hworld : (s.exec (.publish event)).world = EventDispatcher.deliver after event
      ((EventDispatcher.deliver before event s.world).record ie clock) := by
    simp only [exec, EventDispatcher.publish, hsubs]
    rw [EventDispatcher.deliver, List.foldl_append, List.foldl_cons, ← hhandler]
    rfl
  obtain ⟨hm', hf', ha'⟩ := deliver_harmless hafter event
    ((EventDispatcher.deliver before event s.world).record ie clock)
  rw [← hworld] at hm' hf' ha'
  refine ⟨ie, hentry, ⟨id, before, after, clock, hsubs, hworld, ha, ?_⟩, hm'.trans hm,
    hf'.trans (hf.trans hs.fault)⟩
  rw [agent, ha', World.record, ha]
  rfl

/-! ## Histories -/

/-- The invariant holds throughout a history. -/
theorem Ready.exec {s : Watch δ κ} (hs : s.Ready) {op : AgentOp δ κ} (hop : OpOk op) :
    (s.exec op).Ready := by
  cases op with
  | publish event =>
    obtain ⟨ie, -, ⟨-, -, -, -, -, -, -, hagent⟩, hm, hf⟩ := hs.publishes event
    refine ⟨hs.bus, hf, by rw [hm]; exact hs.regular, by rw [hagent]; exact hs.hasVm, ?_⟩
    rw [hagent]
    exact hs.window
  | onEvent cb => exact ⟨hs.bus, hs.fault, hs.regular, hs.hasVm, hs.window⟩
  | enableMemoryDump addr size => exact ⟨hs.bus, hs.fault, hs.regular, hs.hasVm, hop⟩
  | disableMemoryDump => exact ⟨hs.bus, hs.fault, hs.regular, hs.hasVm, hs.window⟩
  | guest machine => exact ⟨hs.bus, hs.fault, hop, hs.hasVm, hs.window⟩
  | subscribeAll handler =>
    obtain ⟨id, before, after, hsubs, hbefore, hafter⟩ := hs.bus
    refine ⟨⟨id, before, after ++ [⟨s.bus.nextId, none, handler⟩], ?_, hbefore, fun sub hsub => ?_⟩,
      hs.fault, hs.regular, hs.hasVm, hs.window⟩
    · simp [Watch.exec, EventDispatcher.subscribeAll, hsubs]
    · rcases List.mem_append.1 hsub with hsub | hsub
      · exact hafter sub hsub
      · rw [List.mem_singleton.1 hsub]
        exact hop

/-- A fresh agent among harmless subscribers. -/
theorem ready_construct {bus : EventDispatcher (World δ (Observed κ))}
    {world : World δ (Observed κ)} (hbus : ∀ sub ∈ bus.subscriptions, sub.Harmless)
    (hfault : world.fault = none) (hreg : world.machine.Regular) : (construct bus world).Ready where
  bus := ⟨bus.nextId, bus.subscriptions, [], rfl, hbus, by simp⟩
  fault := hfault
  regular := hreg
  hasVm := rfl
  window := by
    show (0 : UInt64).toNat + (0 : UInt64).toNat < 2 ^ 64
    decide

/-- The state after a history. -/
def run (ops : List (AgentOp δ κ)) (s : Watch δ κ) : Watch δ κ :=
  ops.foldl exec s

@[simp] theorem run_cons (op : AgentOp δ κ) (ops : List (AgentOp δ κ)) (s : Watch δ κ) :
    s.run (op :: ops) = (s.exec op).run ops :=
  rfl

end Watch

/-- The callback of a registration. -/
def AgentOp.registered : AgentOp δ κ → Option (IntrospectionEvent → κ → κ)
  | .onEvent cb => some cb
  | _ => none

namespace Watch

/-- The publications of a history, each with the state it is made in. -/
def publications : List (AgentOp δ κ) → Watch δ κ → List (Watch δ κ × HvEvent)
  | [], _ => []
  | .publish event :: ops, s => (s, event) :: publications ops (s.exec (.publish event))
  | op :: ops, s => publications ops (s.exec op)

/-- The log and the callbacks after a history. -/
theorem log_run : ∀ (ops : List (AgentOp δ κ)) {s : Watch δ κ}, s.Ready → (∀ op ∈ ops, OpOk op) →
    (∃ new, (s.run ops).agent.eventLog = s.agent.eventLog ++ new ∧
      List.Forall₂
        (fun p ie => Entry p.1 p.2 ie ∧ p.1.Publishes p.2 ie (p.1.exec (.publish p.2)))
        (s.publications ops) new) ∧
    (s.run ops).agent.callbacks = s.agent.callbacks ++ ops.filterMap AgentOp.registered ∧
    (s.run ops).world.fault = none
  | [], s, hs, _ => ⟨⟨[], by simp [run], .nil⟩, by simp [run], hs.fault⟩
  | op :: ops, s, hs, hops => by
    have hop := hops op List.mem_cons_self
    obtain ⟨⟨new, hlog, hnew⟩, hcb, hfault⟩ :=
      log_run ops (hs.exec hop) fun op' hop' => hops op' (List.mem_cons_of_mem _ hop')
    refine ⟨?_, ?_, hfault⟩
    · cases op with
      | publish event =>
        obtain ⟨ie, hentry, hpub, -⟩ := hs.publishes event
        obtain ⟨-, -, -, -, -, -, -, hagent⟩ := id hpub
        rw [hagent] at hlog
        exact ⟨ie :: new, by simpa using hlog, .cons ⟨hentry, hpub⟩ hnew⟩
      | _ => exact ⟨new, hlog, hnew⟩
    · cases op with
      | publish event =>
        obtain ⟨ie, -, ⟨-, -, -, -, -, -, -, hagent⟩, -⟩ := hs.publishes event
        rw [hagent] at hcb
        exact hcb
      | onEvent cb =>
        rw [show (s.exec (.onEvent cb)).agent.callbacks = s.agent.callbacks ++ [cb] from rfl] at hcb
        simpa [AgentOp.registered] using hcb
      | _ => exact hcb

end Watch

/-- An event, and then a callback is added and a dump is enabled. -/
def armOps : List (AgentOp Unit (List (Option (List UInt8)))) :=
  [.publish { type := .guestHalt }, .onEvent fun ie sink => sink ++ [ie.memDump],
    .enableMemoryDump 0x1000 2]

theorem regular_pageMachine : pageMachine.Regular where
  ids := by
    rintro (_ | i) v hv
    · cases hv
      rfl
    · cases hv
  mapped := by
    intro r hr
    rw [List.mem_singleton.1 hr]
    rfl

/-- An agent on a bus of its own, next to `pageMachine`. -/
def pageWatch : Watch Unit (List (Option (List UInt8))) :=
  .construct {} ⟨pageMachine, {}, none, ⟨{}, []⟩⟩

theorem opOk_armOps : ∀ op ∈ armOps, Watch.OpOk op := by
  intro op hop
  simp only [armOps, List.mem_cons, List.not_mem_nil, or_false] at hop
  rcases hop with rfl | rfl | rfl
  · trivial
  · trivial
  · show (0x1000 : UInt64).toNat + (2 : UInt64).toNat < 2 ^ 64
    decide

theorem ready_armOps : (pageWatch.run armOps).Ready :=
  (((Watch.ready_construct (by simp) rfl regular_pageMachine).exec
    (opOk_armOps _ (.head _))).exec (opOk_armOps _ (.tail _ (.head _)))).exec
      (opOk_armOps _ (.tail _ (.tail _ (.head _))))

end MinBp
