import MinBp.VmiAgent
import MinBp.Runs

/-!
# Moved agents

The constructor of `VmiAgent` subscribes a handler that captures `this`. The move constructor is the
defaulted one, so it copies the dispatcher and the subscription id and takes over the callbacks and
the log, while the handler keeps calling the object that was constructed first. `Chain` is the list
of the objects that come from one agent by moves, and `Moving` the bus with such a chain on it.

Only the lifetimes of the objects matter for what goes wrong (`Lifetimes`), which a history fixes
without a bus. `moves_follow_iff` states exactly which histories the agent survives : nothing is
published after a move, no moved-from object is destroyed before the current one, and the
subscription id is not zero when the current one is destroyed.
-/

open Runs

namespace MinBp

variable {δ κ : Type}

/-- The agents that come from one by moves, in order of construction. A destroyed one is `none`, and
the last is the current one. -/
structure Chain (κ : Type) where
  agents : List (Option (VmiAgent κ)) := []
  /-- What the agents' callbacks work on. -/
  sink : κ
  /-- A handler has run on a destroyed agent. -/
  dangling : Bool := false

/-- What the defaulted move constructor leaves of its source : the vectors are moved, the rest is
copied. -/
def VmiAgent.movedFrom (a : VmiAgent κ) : VmiAgent κ :=
  { a with callbacks := [], eventLog := [] }

namespace Chain

/-- The current agent, `none` once it has been destroyed. -/
def current (c : Chain κ) : Option (VmiAgent κ) :=
  c.agents.getLast?.join

/-- The handler that the constructor of the agent at position `k` subscribes. -/
def handler (k : ℕ) (event : HvEvent) (w : World δ (Chain κ)) : World δ (Chain κ) :=
  match w.obs.agents[k]? with
  | some (some a) =>
    match a.handleHvEvent event w.machine.vm w.clock w.obs.sink with
    | .error f => { w with fault := w.fault.or (some f) }
    | .ok (a', clock, sink) =>
      { w with clock, obs := { w.obs with agents := w.obs.agents.set k (some a'), sink } }
  | _ => { w with obs := { w.obs with dangling := true } }

end Chain

/-- What happens to an agent and its moved-from objects. -/
inductive MoveOp where
  /-- `dispatcher.publish(event)`. -/
  | publish (event : HvEvent)
  /-- `VmiAgent next(std::move(current))`. -/
  | move
  /-- The agent at position `k` is destroyed. -/
  | destroy (k : ℕ)

/-- The bus with a chain of agents on it. -/
structure Moving (δ κ : Type) where
  bus : EventDispatcher (World δ (Chain κ))
  world : World δ (Chain κ)

/-- The subscription that the first agent of a chain makes. -/
def chainSubscription (id : UInt32) : Subscription (World δ (Chain κ)) :=
  ⟨id, none, Chain.handler 0⟩

/-- The handler does not touch the agents. -/
def Subscription.LeavesAgents (sub : Subscription (World δ (Chain κ))) : Prop :=
  ∀ event w, (sub.handler event w).obs.agents = w.obs.agents

namespace Moving

/-- The agents of the chain. -/
def agents (s : Moving δ κ) : List (Option (VmiAgent κ)) :=
  s.world.obs.agents

/-- The current agent. -/
def current (s : Moving δ κ) : Option (VmiAgent κ) :=
  s.world.obs.current

/-- The state with other agents. -/
def setAgents (agents : List (Option (VmiAgent κ))) (s : Moving δ κ) : Moving δ κ :=
  { s with world := { s.world with obs := { s.world.obs with agents } } }

/-- The constructor. -/
def construct (hasVm : Bool) (d : EventDispatcher (World δ (Chain κ)))
    (world : World δ (Chain κ)) : Moving δ κ :=
  let (subId, d') := d.subscribeAll (Chain.handler 0)
  setAgents [some { hasVm, subId }] ⟨d', world⟩

/-- The defaulted move constructor. -/
def move (s : Moving δ κ) : Moving δ κ :=
  match s.current with
  | some a => s.setAgents (s.agents.dropLast ++ [some a.movedFrom, some a])
  | none => s

/-- The destructor. -/
def destroy (k : ℕ) (s : Moving δ κ) : Moving δ κ :=
  match s.agents[k]? with
  | some (some a) =>
    { s.setAgents (s.agents.set k none) with
      bus := if a.subId ≠ 0 then s.bus.unsubscribe a.subId else s.bus }
  | _ => s

/-- One operation. -/
def exec (s : Moving δ κ) : MoveOp → Moving δ κ
  | .publish event =>
    { bus := (s.bus.publish event s.world).1, world := (s.bus.publish event s.world).2 }
  | .move => s.move
  | .destroy k => s.destroy k

/-- The subscription follows the moves in one operation. While the current agent lives, an event
goes to its log and to no other, and the destruction of another agent does not cancel the
subscription. After its destruction there is no subscription. -/
def StepOk (sub : Subscription (World δ (Chain κ))) (s : Moving δ κ) (op : MoveOp) : Prop :=
  match s.current, op with
  | none, op => sub ∉ (s.exec op).bus.subscriptions
  | some a, .publish event => ∃ ie : IntrospectionEvent, ie.base = event ∧
      (s.exec (.publish event)).agents =
        s.agents.dropLast ++ [some { a with eventLog := a.eventLog ++ [ie] }]
  | some a, .move => (s.exec .move).current = some a
  | some _, .destroy k =>
    if k + 1 = s.agents.length then sub ∉ (s.exec (.destroy k)).bus.subscriptions
    else sub ∈ s.bus.subscriptions → sub ∈ (s.exec (.destroy k)).bus.subscriptions

end Moving

/-! ## Lifetimes -/

namespace Lifetimes

/-- Which agents of the chain are alive after an operation. -/
def exec (l : List Bool) : MoveOp → List Bool
  | .publish _ => l
  | .move => if l.getLast? = some true then l ++ [true] else l
  | .destroy k => l.set k false

/-- The operation is harmless for an agent with this subscription id. -/
def Harmless (id : UInt32) (l : List Bool) (op : MoveOp) : Prop :=
  l.getLast? = some true →
    match op with
    | .publish _ => l.length = 1
    | .move => True
    | .destroy k => if k + 1 = l.length then id ≠ 0 else l[k]? = some true → id = 0

end Lifetimes

/-! ## One operation -/

theorem Chain.current_eq_some_iff {c : Chain κ} {a : VmiAgent κ} :
    c.current = some a ↔ ∃ moved, c.agents = moved ++ [some a] := by
  rw [current, Option.join_eq_some_iff, List.getLast?_eq_some_iff]

/-- The handler of an agent does not touch the others. -/
theorem Chain.getElem?_handler {k j : ℕ} (hj : j ≠ k) (event : HvEvent) (w : World δ (Chain κ)) :
    (handler k event w).obs.agents[j]? = w.obs.agents[j]? := by
  unfold handler
  split
  · split
    · rfl
    · exact List.getElem?_set_ne hj.symm
  · rfl

/-- The handler of a living agent without a memory dump adds to its log. -/
theorem Chain.agents_handler {k : ℕ} {a : VmiAgent κ} {w : World δ (Chain κ)}
    (hk : w.obs.agents[k]? = some (some a)) (hdump : a.memDumpEnabled = false) (event : HvEvent) :
    ∃ ie : IntrospectionEvent, ie.base = event ∧ (handler k event w).obs.agents =
      w.obs.agents.set k (some { a with eventLog := a.eventLog ++ [ie] }) := by
  have hnone : a.dump w.machine.vm = .ok none := by simp [VmiAgent.dump, hdump]
  obtain ⟨ie, clock, sink, hrun, hbase, -⟩ :=
    VmiAgent.handleHvEvent_eq hnone event w.clock w.obs.sink
  refine ⟨ie, hbase, ?_⟩
  simp only [handler, hk, hrun]

theorem deliver_leavesAgents {subs : List (Subscription (World δ (Chain κ)))}
    (h : ∀ sub ∈ subs, sub.LeavesAgents) (event : HvEvent) (w : World δ (Chain κ)) :
    (EventDispatcher.deliver subs event w).obs.agents = w.obs.agents :=
  EventDispatcher.deliver_inv (P := fun w' => w'.obs.agents = w.obs.agents)
    (fun sub hsub w' hw' => (h sub hsub event w').trans hw') rfl

namespace Moving

/-- Invariant of a history in which every operation so far was in order. -/
structure Inv (id : UInt32) (s : Moving δ κ) : Prop where
  members : ∀ a, some a ∈ s.agents → a.subId = id ∧ a.memDumpEnabled = false
  alive : s.current.isSome → ∃ before after,
    s.bus.subscriptions = before ++ chainSubscription id :: after ∧
      (∀ sub ∈ before, sub.LeavesAgents) ∧ ∀ sub ∈ after, sub.LeavesAgents
  dead : s.current = none → chainSubscription id ∉ s.bus.subscriptions ∧
    ∀ sub ∈ s.bus.subscriptions, sub.LeavesAgents

/-- Which agents are alive. -/
def lifetimes (s : Moving δ κ) : List Bool :=
  s.agents.map Option.isSome

theorem getLast?_lifetimes (s : Moving δ κ) :
    s.lifetimes.getLast? = some true ↔ s.current.isSome := by
  rw [lifetimes, List.getLast?_map, current, Chain.current, agents]
  rcases s.world.obs.agents.getLast? with _ | _ | a <;> simp

section Current

variable {s : Moving δ κ} {a : VmiAgent κ} {moved : List (Option (VmiAgent κ))}

theorem current_eq_some (h : s.current = some a) : ∃ moved, s.agents = moved ++ [some a] :=
  Chain.current_eq_some_iff.1 h

theorem current_of_agents (h : s.agents = moved ++ [some a]) : s.current = some a :=
  Chain.current_eq_some_iff.2 ⟨moved, h⟩

theorem mem_agents_of_current (h : s.current = some a) : some a ∈ s.agents := by
  obtain ⟨moved, hmoved⟩ := current_eq_some h
  rw [hmoved]
  exact List.mem_append_right _ List.mem_cons_self

/-- A move puts the moved-from agent in the place of the current one, and the new one after it. -/
theorem agents_move (h : s.agents = moved ++ [some a]) :
    s.move.agents = moved ++ [some a.movedFrom, some a] := by
  rw [move, current_of_agents h]
  simp only [h, List.dropLast_concat]
  rfl

theorem bus_move (s : Moving δ κ) : s.move.bus = s.bus := by
  unfold move
  split <;> rfl

end Current

section Step

variable {id : UInt32} {s : Moving δ κ}

/-- With the subscription in force a publication runs the handler of the first agent, on the agents
as they are. -/
theorem agents_publish (h : s.Inv id) (ha : s.current.isSome) (event : HvEvent) :
    ∃ w : World δ (Chain κ), w.obs.agents = s.agents ∧
      (s.exec (.publish event)).agents = (Chain.handler 0 event w).obs.agents := by
  obtain ⟨before, after, hsubs, hbefore, hafter⟩ := h.alive ha
  refine ⟨EventDispatcher.deliver before event s.world, deliver_leavesAgents hbefore _ _, ?_⟩
  simp only [exec, agents, EventDispatcher.publish, hsubs]
  rw [EventDispatcher.deliver, List.foldl_append, List.foldl_cons]
  exact deliver_leavesAgents hafter _ _

theorem agents_publish_of_none (h : s.Inv id) (hc : s.current = none) (event : HvEvent) :
    (s.exec (.publish event)).agents = s.agents :=
  deliver_leavesAgents (h.dead hc).2 event s.world

/-- An event goes to the log of the current agent if and only if it has not been moved. -/
theorem stepOk_publish_iff (h : s.Inv id) {a : VmiAgent κ} (hc : s.current = some a)
    (event : HvEvent) :
    s.StepOk (chainSubscription id) (.publish event) ↔ s.agents.length = 1 := by
  obtain ⟨w, hw, hagents⟩ := agents_publish h (Option.isSome_of_eq_some hc) event
  obtain ⟨moved, hmoved⟩ := current_eq_some hc
  simp only [StepOk, hc, hagents, hmoved, List.dropLast_concat]
  rcases moved with _ | ⟨first, moved⟩
  · simp only [List.nil_append, List.length_singleton, iff_true]
    have hfirst : w.obs.agents[0]? = some (some a) := by rw [hw, hmoved]; rfl
    obtain ⟨ie, hbase, hlog⟩ :=
      Chain.agents_handler hfirst (h.members a (mem_agents_of_current hc)).2 event
    exact ⟨ie, hbase, by rw [hlog, hw, hmoved]; rfl⟩
  · -- the last agent is not the first, so its log stays as it is
    have hlast : (Chain.handler 0 event w).obs.agents[moved.length + 1]? = some (some a) := by
      rw [Chain.getElem?_handler (Nat.succ_ne_zero _), hw, hmoved]
      simp
    refine ⟨?_, fun hlen => by simp at hlen⟩
    rintro ⟨ie, -, heq⟩
    rw [heq] at hlast
    simp only [List.cons_append, List.getElem?_cons_succ, List.getElem?_concat_length,
      Option.some.injEq] at hlast
    have hlog := congrArg VmiAgent.eventLog hlast
    simp at hlog

theorem Inv.mem_subscriptions (h : s.Inv id) (hc : s.current.isSome) :
    chainSubscription id ∈ s.bus.subscriptions := by
  obtain ⟨before, after, hsubs, -, -⟩ := h.alive hc
  rw [hsubs]
  exact List.mem_append_right _ List.mem_cons_self

/-- The destruction of any living agent cancels the subscription, unless its id is zero. -/
theorem mem_destroy (h : s.Inv id) (hc : s.current.isSome) (k : ℕ) :
    chainSubscription id ∈ (s.destroy k).bus.subscriptions ↔
      (s.lifetimes[k]? = some true → id = 0) := by
  have hmem := h.mem_subscriptions hc
  rw [lifetimes, List.getElem?_map]
  unfold destroy
  rcases hk : s.agents[k]? with _ | _ | a
  · simpa using hmem
  · simpa using hmem
  · have hid : a.subId = id := (h.members a (List.mem_of_getElem? hk)).1
    by_cases hzero : id = 0
    · simpa [hid, hzero] using hmem
    · simp [hid, hzero, EventDispatcher.unsubscribe, chainSubscription]

/-- An operation is in order if and only if the lifetimes of the agents make it harmless. -/
theorem stepOk_iff (h : s.Inv id) (op : MoveOp) :
    s.StepOk (chainSubscription id) op ↔ Lifetimes.Harmless id s.lifetimes op := by
  unfold Lifetimes.Harmless
  rw [getLast?_lifetimes]
  rcases hc : s.current with _ | a
  · simp only [StepOk, hc, Option.isSome_none, Bool.false_eq_true, false_imp_iff, iff_true]
    have hdead := (h.dead hc).1
    cases op with
    | publish event => exact hdead
    | move =>
      simp only [exec, move, hc]
      exact hdead
    | destroy k =>
      simp only [exec, destroy]
      split
      · simp only
        split
        · exact fun hmem => hdead (List.mem_of_mem_filter hmem)
        · exact hdead
      · exact hdead
  · simp only [Option.isSome_some, forall_const]
    cases op with
    | publish event =>
      rw [stepOk_publish_iff h hc, lifetimes, List.length_map]
    | move =>
      simp only [StepOk, hc, iff_true, exec, move]
      exact current_of_agents (List.append_cons _ _ _)
    | destroy k =>
      have hsome := Option.isSome_of_eq_some hc
      simp only [StepOk, hc, lifetimes, List.length_map]
      split
      · rename_i hk
        obtain ⟨moved, hmoved⟩ := current_eq_some hc
        have hlast : s.lifetimes[k]? = some true := by
          rw [hmoved, List.length_append] at hk
          obtain rfl : k = moved.length := by simpa using hk
          simp [lifetimes, hmoved]
        rw [show s.exec (.destroy k) = s.destroy k from rfl, mem_destroy h hsome, hlast]
        simp
      · rw [show s.exec (.destroy k) = s.destroy k from rfl, mem_destroy h hsome, lifetimes]
        exact ⟨fun hok => hok (h.mem_subscriptions hsome), fun hok _ => hok⟩

/-! ## Histories -/

theorem set_eq_self {α : Type} {l : List α} {k : ℕ} {x : α} (h : l[k]? = some x) :
    l.set k x = l := by
  obtain ⟨hlt, rfl⟩ := List.getElem?_eq_some_iff.1 h
  exact List.set_getElem_self hlt

/-- The handler of an agent keeps all lifetimes. -/
theorem map_isSome_handler (k : ℕ) (event : HvEvent) (w : World δ (Chain κ)) :
    (Chain.handler k event w).obs.agents.map Option.isSome = w.obs.agents.map Option.isSome := by
  unfold Chain.handler
  split
  · rename_i a hk
    split
    · rfl
    · rw [List.map_set]
      exact set_eq_self (by simp [hk])
  · rfl

/-- The lifetimes in a history are those that its operations say. -/
theorem lifetimes_exec (h : s.Inv id) (op : MoveOp) :
    (s.exec op).lifetimes = Lifetimes.exec s.lifetimes op := by
  cases op with
  | publish event =>
    rcases hc : s.current with _ | a
    · rw [lifetimes, agents_publish_of_none h hc]
      rfl
    · obtain ⟨w, hw, hagents⟩ := agents_publish h (Option.isSome_of_eq_some hc) event
      rw [lifetimes, hagents, map_isSome_handler, hw]
      rfl
  | move =>
    rcases hc : s.current with _ | a
    · have hlast : ¬s.lifetimes.getLast? = some true := by
        rw [getLast?_lifetimes, hc]
        simp
      rw [Lifetimes.exec, if_neg hlast, exec, move, hc]
    · have hlast : s.lifetimes.getLast? = some true := by
        rw [getLast?_lifetimes, hc]
        rfl
      obtain ⟨moved, hmoved⟩ := current_eq_some hc
      have hmove : (s.exec .move).agents = _ := agents_move hmoved
      rw [Lifetimes.exec, if_pos hlast, lifetimes, lifetimes, hmove, hmoved]
      simp
  | destroy k =>
    rw [Lifetimes.exec, exec, destroy]
    rcases hk : s.agents[k]? with _ | _ | a
    · exact (List.set_eq_of_length_le (by simpa [lifetimes] using hk)).symm
    · exact (set_eq_self (by simp [lifetimes, hk])).symm
    · exact List.map_set

/-- The current agent lives on after a destruction if it is not the one destroyed. -/
theorem isSome_current_destroy (h : s.Inv id) (k : ℕ) :
    (s.destroy k).current.isSome ↔ s.current.isSome ∧ k + 1 ≠ s.agents.length := by
  have hlife : (s.destroy k).lifetimes = s.lifetimes.set k false := lifetimes_exec h (.destroy k)
  have hlen : s.agents.length = s.lifetimes.length := by rw [lifetimes, List.length_map]
  rw [← getLast?_lifetimes, ← getLast?_lifetimes, hlife, hlen, List.getLast?_eq_getElem?,
    List.getLast?_eq_getElem?, List.length_set, List.getElem?_set]
  by_cases hk : k = s.lifetimes.length - 1
  · rw [if_pos hk]
    by_cases hlt : k < s.lifetimes.length
    · have heq : k + 1 = s.lifetimes.length := by omega
      simp [hlt, heq]
    · have hnil : s.lifetimes.length = 0 := by omega
      simp [List.length_eq_zero_iff.1 hnil]
  · rw [if_neg hk]
    have hne : k + 1 ≠ s.lifetimes.length := by omega
    simp [hne]

theorem mem_agents_destroy {k : ℕ} {a : VmiAgent κ}
    (h : some a ∈ (s.destroy k).agents) : some a ∈ s.agents := by
  unfold destroy at h
  split at h
  · rcases List.mem_or_eq_of_mem_set h with h | h
    · exact h
    · cases h
  · exact h

theorem mem_of_mem_destroy {k : ℕ} {sub : Subscription (World δ (Chain κ))}
    (h : sub ∈ (s.destroy k).bus.subscriptions) : sub ∈ s.bus.subscriptions := by
  unfold destroy at h
  split at h
  · simp only at h
    split at h
    · exact List.mem_of_mem_filter h
    · exact h
  · exact h

/-- A destruction that does not cancel the subscription leaves the bus alone. -/
theorem bus_destroy (h : s.Inv id) {k : ℕ}
    (hk : s.lifetimes[k]? = some true → id = 0) : (s.destroy k).bus = s.bus := by
  unfold destroy
  split
  · rename_i a ha
    have hzero : a.subId = 0 := by
      rw [(h.members a (List.mem_of_getElem? ha)).1]
      exact hk (by simp [lifetimes, ha])
    simp [hzero]
  · rfl

theorem Inv.publish (h : s.Inv id) {event : HvEvent}
    (hok : s.StepOk (chainSubscription id) (.publish event)) :
    (s.exec (.publish event)).Inv id := by
  rcases hc : s.current with _ | a
  · have hagents := agents_publish_of_none h hc event
    have hc' : (s.exec (.publish event)).current = none := by
      rw [← hc, current, current, Chain.current, Chain.current]
      exact congrArg (·.getLast?.join) hagents
    refine ⟨fun a ha => h.members a (hagents ▸ ha), fun hsome => ?_, fun _ => h.dead hc⟩
    rw [hc'] at hsome
    cases hsome
  · simp only [StepOk, hc] at hok
    obtain ⟨ie, -, hagents⟩ := hok
    obtain ⟨moved, hmoved⟩ := current_eq_some hc
    rw [hmoved, List.dropLast_concat] at hagents
    refine ⟨fun b hb => ?_, fun _ => h.alive (Option.isSome_of_eq_some hc), fun hnone => ?_⟩
    · rw [hagents] at hb
      rcases List.mem_append.1 hb with hb | hb
      · exact h.members b (by rw [hmoved]; exact List.mem_append_left _ hb)
      · cases List.mem_singleton.1 hb
        exact h.members a (mem_agents_of_current hc)
    · rw [current_of_agents hagents] at hnone
      cases hnone

theorem Inv.move (h : s.Inv id) : s.move.Inv id := by
  rcases hc : s.current with _ | a
  · rw [Moving.move, hc]
    exact h
  · obtain ⟨moved, hmoved⟩ := current_eq_some hc
    have hmember := h.members a (mem_agents_of_current hc)
    have hagents := agents_move hmoved
    refine ⟨fun b hb => ?_, fun _ => ?_, fun hnone => ?_⟩
    · rw [hagents] at hb
      rcases List.mem_append.1 hb with hb | hb
      · exact h.members b (by rw [hmoved]; exact List.mem_append_left _ hb)
      · rcases List.mem_pair.1 hb with hb | hb <;> cases hb <;> exact hmember
    · rw [bus_move]
      exact h.alive (Option.isSome_of_eq_some hc)
    · rw [current_of_agents (hagents.trans (List.append_cons _ _ _))] at hnone
      cases hnone

theorem Inv.destroy (h : s.Inv id) {k : ℕ}
    (hok : s.StepOk (chainSubscription id) (.destroy k)) : (s.destroy k).Inv id := by
  have hmembers : ∀ a, some a ∈ (s.destroy k).agents → a.subId = id ∧ a.memDumpEnabled = false :=
    fun a ha => h.members a (mem_agents_destroy ha)
  rcases hc : s.current with _ | a
  · refine ⟨hmembers, fun hsome => ?_, fun _ => ?_⟩
    · rw [isSome_current_destroy h, hc] at hsome
      cases hsome.1
    · exact ⟨fun hmem => (h.dead hc).1 (mem_of_mem_destroy hmem),
        fun sub hsub => (h.dead hc).2 sub (mem_of_mem_destroy hsub)⟩
  · have hsome := Option.isSome_of_eq_some hc
    obtain ⟨before, after, hsubs, hbefore, hafter⟩ := h.alive hsome
    simp only [StepOk, hc] at hok
    split at hok
    · rename_i hk
      refine ⟨hmembers, fun hsome' => ?_, fun _ => ⟨hok, fun sub hsub => ?_⟩⟩
      · exact absurd hk ((isSome_current_destroy h k).1 hsome').2
      · have hmem := mem_of_mem_destroy hsub
        rw [hsubs] at hmem
        rcases List.mem_append.1 hmem with hmem | hmem
        · exact hbefore sub hmem
        · rcases List.mem_cons.1 hmem with rfl | hmem
          · exact absurd hsub hok
          · exact hafter sub hmem
    · rename_i hk
      have hbus := bus_destroy h ((mem_destroy h hsome k).1 (hok (h.mem_subscriptions hsome)))
      refine ⟨hmembers, fun _ => ?_, fun hnone => ?_⟩
      · rw [hbus]
        exact ⟨before, after, hsubs, hbefore, hafter⟩
      · have hsome' := (isSome_current_destroy h k).2 ⟨hsome, hk⟩
        rw [hnone] at hsome'
        cases hsome'

/-- The invariant is kept by operations that are in order. -/
theorem Inv.exec (h : s.Inv id) {op : MoveOp}
    (hok : s.StepOk (chainSubscription id) op) : (s.exec op).Inv id := by
  cases op with
  | publish event => exact h.publish hok
  | move => exact h.move
  | destroy k => exact h.destroy hok

/-- The agent's operations are in order throughout a history if and only if the lifetimes make all
of them harmless. -/
theorem forall_stepOk_iff (ops : List MoveOp) (h : s.Inv id) :
    (∀ p ∈ along exec s ops, p.1.StepOk (chainSubscription id) p.2) ↔
      ∀ p ∈ along Lifetimes.exec s.lifetimes ops, Lifetimes.Harmless id p.1 p.2 := by
  induction ops generalizing s with
  | nil => simp [along]
  | cons op ops ih =>
    simp only [along, List.forall_mem_cons]
    rw [stepOk_iff h, ← lifetimes_exec h]
    refine and_congr_right fun hop => ih (h.exec ((stepOk_iff h op).2 hop))

end Step

theorem inv_construct {d : EventDispatcher (World δ (Chain κ))}
    (hd : ∀ sub ∈ d.subscriptions, sub.LeavesAgents) (hasVm : Bool) (world : World δ (Chain κ)) :
    (construct hasVm d world).Inv d.nextId where
  members a ha := by
    cases List.mem_singleton.1 ha
    exact ⟨rfl, rfl⟩
  alive _ := ⟨d.subscriptions, [], rfl, hd, by simp⟩
  dead hnone := by cases hnone

end Moving

/-- The subscription of an agent follows its moves if and only if nothing is published after a move,
no moved-from agent is destroyed before the current one (unless the subscription id is zero), and
the id is not zero when the current one is destroyed. -/
theorem moves_follow_iff {d : EventDispatcher (World δ (Chain κ))}
    (hd : ∀ sub ∈ d.subscriptions, sub.LeavesAgents) (hasVm : Bool) (world : World δ (Chain κ))
    (ops : List MoveOp) :
    (∀ p ∈ along Moving.exec (Moving.construct hasVm d world) ops,
        p.1.StepOk (chainSubscription d.nextId) p.2) ↔
      ∀ p ∈ along Lifetimes.exec [true] ops, Lifetimes.Harmless d.nextId p.1 p.2 :=
  Moving.forall_stepOk_iff ops (Moving.inv_construct hd hasVm world)

/-- A world around a machine with one vCPU. -/
def chainWorld : World Unit (Chain Unit) where
  machine := { vm := { vcpus := [{}] }, vcpuIndex_lt := Nat.one_pos, dev := () }
  obs := { sink := () }

/-- An agent that is moved after the last event and whose moved-from object is destroyed last. -/
theorem moves_follow_late :
    (([.publish { type := .guestHalt }, .move] : List MoveOp).foldl Moving.exec
        (Moving.construct true {} chainWorld)).agents.map (Option.map (·.eventLog.length)) =
          [some 0, some 1] ∧
      ∀ p ∈ along Moving.exec (Moving.construct true {} chainWorld)
          [.publish { type := .guestHalt }, .move, .destroy 1, .destroy 0],
        p.1.StepOk (chainSubscription 1) p.2 := by
  refine ⟨rfl, (moves_follow_iff (by simp) true chainWorld _).2 ?_⟩
  simp [along, Lifetimes.exec, Lifetimes.Harmless]

/-- After a move an event goes to the log of the moved-from agent, and the destruction of that agent
cancels the subscription of the current one. -/
theorem moved_agent_loses_events :
    ((([.move, .publish { type := .guestHalt }] : List MoveOp).foldl Moving.exec
        (Moving.construct true {} chainWorld)).agents.map
          (Option.map (·.eventLog.length)) = [some 1, some 0]) ∧
      ((([.move, .destroy 0] : List MoveOp).foldl Moving.exec
        (Moving.construct true {} chainWorld)).bus.subscriptions.length = 0) ∧
      ¬(∀ p ∈ along Moving.exec (Moving.construct true {} chainWorld)
          [.move, .publish { type := .guestHalt }], p.1.StepOk (chainSubscription 1) p.2) ∧
      ¬∀ p ∈ along Moving.exec (Moving.construct true {} chainWorld) [.move, .destroy 0],
          p.1.StepOk (chainSubscription 1) p.2 := by
  have hinv := Moving.inv_construct (d := ({} : EventDispatcher (World Unit (Chain Unit))))
    (by simp) true chainWorld
  refine ⟨rfl, rfl, fun h => ?_, fun h => ?_⟩
  · have hharmless : ∀ p ∈ along Lifetimes.exec [true] [.move, .publish { type := .guestHalt }],
        Lifetimes.Harmless 1 p.1 p.2 := (Moving.forall_stepOk_iff _ hinv).1 h
    simp [along, Lifetimes.exec, Lifetimes.Harmless] at hharmless
  · have hharmless : ∀ p ∈ along Lifetimes.exec [true] [.move, .destroy 0],
        Lifetimes.Harmless 1 p.1 p.2 := (Moving.forall_stepOk_iff _ hinv).1 h
    simp [along, Lifetimes.exec, Lifetimes.Harmless] at hharmless

end MinBp
