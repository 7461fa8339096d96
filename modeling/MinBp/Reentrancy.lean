import MinBp.EventDispatcher
import MinBp.Vectors
import Mathlib.Data.List.Nodup

/-!
# Handlers that call the dispatcher

`publish` is a range loop over the vector of subscriptions, and it calls the handlers from inside.
Here a handler may call `subscribe`, `subscribeAll` and `unsubscribe` on the same dispatcher while
the loop is running (`Calls`). The vector is the library's, so a call can move the elements to
another buffer or shift them down under the loop.

Every subscription carries a tag that the code does not have. The trace says in terms of the tags
which handlers were invoked and which subscriptions were removed, in order (`Visit`).

What matters is what the handlers invoked before the last position do with their calls
(`Harmless`). A subscription that does not fit into the buffer makes the loop read a buffer that is
gone. A removal makes the vector too short for the loop, unless new subscriptions make up for it,
and a removal at or before the loop's position shifts the next subscription out of its way.
`publish` is safe if and only if none of this happens (`safe_iff`), which is so if these handlers
remove nothing and their subscriptions fit (`safe_of_growing`).

Handlers that make no calls are what `EventDispatcher` models (`publish_ofDispatcher`).
-/

open Vectors

namespace MinBp

variable {W : Type}

/-- What a handler does : calls on the dispatcher, which may depend on the ids that earlier calls
returned, and in the end a new world. -/
inductive Calls (W : Type) where
  | done (w : W)
  /-- `subscribe`, or `subscribeAll` for a filter of `none`. -/
  | subscribe (filter : Option EventType) (handler : HvEvent → W → Calls W)
    (next : UInt32 → Calls W)
  | unsubscribe (id : UInt32) (next : Calls W)

/-- A step of `publish` : a handler is invoked, or a subscription is removed. -/
inductive Visit where
  | invoked (tag : ℕ)
  | removed (tag : ℕ)
  deriving DecidableEq, Repr

/-- A subscription whose handler can call the dispatcher. -/
structure CallingSubscription (W : Type) where
  tag : ℕ
  id : UInt32
  filter : Option EventType
  handler : HvEvent → W → Calls W

/-- The test `publish` makes before it calls the handler. -/
def passes (filter : Option EventType) (event : HvEvent) : Bool :=
  match filter with
  | none => true
  | some type => type == event.type

/-- The dispatcher, the world of its handlers, and the trace. -/
structure CallingBus (W : Type) where
  subscriptions : Vec (CallingSubscription W)
  nextId : UInt32 := 1
  publishedCount : UInt64 := 0
  world : W
  nextTag : ℕ := subscriptions.elems.length
  trace : List Visit := []

namespace CallingBus

/-- `subscribe` and `subscribeAll`. -/
def subscribe (filter : Option EventType) (handler : HvEvent → W → Calls W) (s : CallingBus W) :
    CallingBus W :=
  { s with
    nextId := s.nextId + 1
    subscriptions := s.subscriptions.push ⟨s.nextTag, s.nextId, filter, handler⟩
    nextTag := s.nextTag + 1 }

/-- `unsubscribe`. -/
def unsubscribe (id : UInt32) (s : CallingBus W) : CallingBus W :=
  { s with
    subscriptions := s.subscriptions.eraseIf fun sub => sub.id == id
    trace := s.trace ++
      (s.subscriptions.elems.filter fun sub => sub.id == id).map fun sub => .removed sub.tag }

/-- The calls of a handler. -/
def run : Calls W → CallingBus W → CallingBus W
  | .done w, s => { s with world := w }
  | .subscribe filter handler next, s => run (next s.nextId) (s.subscribe filter handler)
  | .unsubscribe id next, s => run next (s.unsubscribe id)

/-- The body of the loop of `publish`. -/
def visit (event : HvEvent) (sub : CallingSubscription W) (s : CallingBus W) : CallingBus W :=
  if passes sub.filter event then
    run (sub.handler event s.world) { s with trace := s.trace ++ [.invoked sub.tag] }
  else s

/-- `publish`. -/
def publish (event : HvEvent) (s : CallingBus W) : Except Vec.Stale (CallingBus W) :=
  Vec.rangeFor subscriptions (visit event) { s with publishedCount := s.publishedCount + 1 }

/-- A bus with these ids and filters, handlers by position, and room for `spare` more
subscriptions. -/
def start (keys : List (UInt32 × Option EventType)) (handlers : ℕ → HvEvent → W → Calls W)
    (spare : ℕ) (nextId : UInt32) (w : W) : CallingBus W where
  subscriptions :=
    { elems := keys.mapIdx fun k key => ⟨k, key.1, key.2, handlers k⟩
      capacity := keys.length + spare
      length_le := by simp }
  nextId := nextId
  world := w

/-- What `publish` owes its subscribers. -/
structure Delivered (event : HvEvent) (s s' : CallingBus W) : Prop where
  /-- A subscription that is never removed is invoked exactly once, if it accepts the event. -/
  once : ∀ sub ∈ s.subscriptions.elems, passes sub.filter event → .removed sub.tag ∉ s'.trace →
    s'.trace.count (.invoked sub.tag) = 1
  /-- A subscription is not invoked after it has been removed. -/
  notAfter : ∀ before tag after, s'.trace = before ++ .removed tag :: after → .invoked tag ∉ after

/-- The loop never leaves the vector, and every subscriber gets its due. -/
def Safe (event : HvEvent) (s : CallingBus W) : Prop :=
  ∃ s', s.publish event = .ok s' ∧ Delivered event s s'

/-- The state before position `p` of the loop, if it does not check the position. -/
def turn (event : HvEvent) (s : CallingBus W) (p : ℕ) : CallingBus W :=
  Vec.turns subscriptions (visit event) { s with publishedCount := s.publishedCount + 1 } p

/-- The subscription is removed while `publish` runs. -/
def RemovedIn (event : HvEvent) (s : CallingBus W) (sub : CallingSubscription W) : Prop :=
  .removed sub.tag ∈ (s.turn event s.subscriptions.elems.length).trace

/-- The calls that the handler at position `p` makes do no harm to the rest of the loop. -/
structure Harmless (event : HvEvent) (s : CallingBus W) (p : ℕ) : Prop where
  /-- New subscriptions fit into the buffer. -/
  fits : (s.turn event (p + 1)).subscriptions.buffer = (s.turn event p).subscriptions.buffer
  /-- They make up for removed ones as far as the next position needs it. -/
  enough : p + 1 < (s.turn event (p + 1)).subscriptions.elems.length
  /-- A subscription of the list that moves from behind the position to it or before it does not
  accept the event, or is removed. -/
  shifted : ∀ sub ∈ s.subscriptions.elems,
    sub ∈ (s.turn event p).subscriptions.elems.drop (p + 1) →
    sub ∈ (s.turn event (p + 1)).subscriptions.elems.take (p + 1) →
    passes sub.filter event → RemovedIn event s sub

/-! ## The trace -/

/-- One invocation for each subscription that accepts the event, in order. -/
def invocations (event : HvEvent) (subs : List (CallingSubscription W)) : List Visit :=
  (subs.filter fun sub => passes sub.filter event).map fun sub => .invoked sub.tag

/-- The calls of a handler only add removals to the trace. -/
theorem trace_run (c : Calls W) (s : CallingBus W) :
    ∃ removals, (∀ x ∈ removals, ∃ tag, x = .removed tag) ∧
      (run c s).trace = s.trace ++ removals := by
  induction c generalizing s with
  | done w => exact ⟨[], by simp, by simp [run]⟩
  | subscribe filter handler next _ ih => exact ih s.nextId (s.subscribe filter handler)
  | unsubscribe id next ih =>
    obtain ⟨removals, hrem, htrace⟩ := ih (s.unsubscribe id)
    rw [run, htrace, unsubscribe]
    refine ⟨_, ?_, List.append_assoc _ _ _⟩
    intro x hx
    rcases List.mem_append.1 hx with hx | hx
    · obtain ⟨sub, -, rfl⟩ := List.mem_map.1 hx
      exact ⟨_, rfl⟩
    · exact hrem x hx

/-- A visit adds the invocation, if the event is accepted, and removals. -/
theorem trace_visit (event : HvEvent) (sub : CallingSubscription W) (s : CallingBus W) :
    ∃ removals, (∀ x ∈ removals, ∃ tag, x = .removed tag) ∧
      (visit event sub s).trace = s.trace ++ (invocations event [sub] ++ removals) := by
  unfold visit invocations
  by_cases hpass : passes sub.filter event
  · obtain ⟨removals, hrem, htrace⟩ := trace_run (sub.handler event s.world)
      { s with trace := s.trace ++ [.invoked sub.tag] }
    refine ⟨removals, hrem, ?_⟩
    simp [hpass, htrace]
  · exact ⟨[], by simp, by simp [hpass]⟩

/-! ## What calls do to the list -/

/-- Tags tell the subscriptions apart, the trace has tags of subscriptions only, and what has been
removed does not come back. -/
structure Tagged (s : CallingBus W) : Prop where
  nodup : (s.subscriptions.elems.map CallingSubscription.tag).Nodup
  tag_lt : ∀ sub ∈ s.subscriptions.elems, sub.tag < s.nextTag
  invoked_lt : ∀ tag, .invoked tag ∈ s.trace → tag < s.nextTag
  removed_lt : ∀ tag, .removed tag ∈ s.trace → tag < s.nextTag
  gone : ∀ sub ∈ s.subscriptions.elems, .removed sub.tag ∉ s.trace
  /-- No invocation comes after the removal. -/
  order : s.trace.Pairwise fun x y => ∀ tag, x = .removed tag → y ≠ .invoked tag

/-- How the list can change from `s` to `t` : no old subscription moves up, and one that leaves is
in the trace. -/
structure Follows (s t : CallingBus W) : Prop where
  nextTag_le : s.nextTag ≤ t.nextTag
  trace : s.trace <+: t.trace
  down : ∀ k, ∀ sub ∈ t.subscriptions.elems.drop k, sub.tag < s.nextTag →
    sub ∈ s.subscriptions.elems.drop k
  stays : ∀ sub ∈ s.subscriptions.elems, .removed sub.tag ∉ t.trace →
    sub ∈ t.subscriptions.elems

theorem Follows.refl (s : CallingBus W) : Follows s s :=
  ⟨le_rfl, List.prefix_rfl, fun _ _ h _ => h, fun _ h _ => h⟩

theorem Follows.trans {s t u : CallingBus W} (h : Follows s t) (h' : Follows t u) :
    Follows s u where
  nextTag_le := h.nextTag_le.trans h'.nextTag_le
  trace := h.trace.trans h'.trace
  down k sub hsub hlt := h.down k sub (h'.down k sub hsub (hlt.trans_le h.nextTag_le)) hlt
  stays sub hsub hnot :=
    h'.stays sub (h.stays sub hsub fun hin => hnot (h'.trace.subset hin)) hnot

theorem elems_subscribe (filter : Option EventType) (handler : HvEvent → W → Calls W)
    (s : CallingBus W) :
    (s.subscribe filter handler).subscriptions.elems =
      s.subscriptions.elems ++ [⟨s.nextTag, s.nextId, filter, handler⟩] :=
  Vec.elems_push _ _

theorem follows_subscribe (filter : Option EventType) (handler : HvEvent → W → Calls W)
    (s : CallingBus W) : Follows s (s.subscribe filter handler) where
  nextTag_le := Nat.le_succ _
  trace := List.prefix_rfl
  down k sub hsub hlt := by
    rw [elems_subscribe, List.drop_append] at hsub
    rcases List.mem_append.1 hsub with hold | hnew
    · exact hold
    · -- the new subscription has a new tag
      obtain rfl := List.mem_singleton.1 (List.mem_of_mem_drop hnew)
      exact absurd hlt (lt_irrefl _)
  stays sub hsub _ := by
    rw [elems_subscribe]
    exact List.mem_append_left _ hsub

theorem follows_unsubscribe (id : UInt32) (s : CallingBus W) : Follows s (s.unsubscribe id) where
  nextTag_le := le_rfl
  trace := List.prefix_append _ _
  down k sub hsub _ := (List.filter_sublist.drop k).subset hsub
  stays sub hsub hnot := by
    refine List.mem_filter.2 ⟨hsub, ?_⟩
    by_contra hid
    simp only [Bool.not_eq_true', Bool.not_eq_false] at hid
    exact hnot (List.mem_append_right _ (List.mem_map_of_mem (List.mem_filter.2 ⟨hsub, hid⟩)))

theorem Tagged.subscribe {s : CallingBus W} (h : s.Tagged) (filter : Option EventType)
    (handler : HvEvent → W → Calls W) : (s.subscribe filter handler).Tagged where
  nodup := by
    rw [elems_subscribe, List.map_append]
    refine h.nodup.append (List.nodup_singleton _) fun tag hold hnew => ?_
    obtain ⟨sub, hsub, rfl⟩ := List.mem_map.1 hold
    have htag : sub.tag = s.nextTag := List.mem_singleton.1 hnew
    exact absurd (h.tag_lt sub hsub) (htag ▸ lt_irrefl _)
  tag_lt sub hsub := by
    rw [elems_subscribe] at hsub
    rcases List.mem_append.1 hsub with hold | hnew
    · exact Nat.lt_succ_of_lt (h.tag_lt sub hold)
    · obtain rfl := List.mem_singleton.1 hnew
      exact Nat.lt_succ_self _
  invoked_lt tag hin := Nat.lt_succ_of_lt (h.invoked_lt tag hin)
  removed_lt tag hin := Nat.lt_succ_of_lt (h.removed_lt tag hin)
  gone sub hsub hin := by
    rw [elems_subscribe] at hsub
    rcases List.mem_append.1 hsub with hold | hnew
    · exact h.gone sub hold hin
    · obtain rfl := List.mem_singleton.1 hnew
      exact absurd (h.removed_lt _ hin) (lt_irrefl _)
  order := h.order

theorem Tagged.unsubscribe {s : CallingBus W} (h : s.Tagged) (id : UInt32) :
    (s.unsubscribe id).Tagged where
  nodup := h.nodup.sublist (List.filter_sublist.map _)
  tag_lt sub hsub := h.tag_lt sub (List.mem_of_mem_filter hsub)
  invoked_lt tag hin := by
    rcases List.mem_append.1 hin with hold | hnew
    · exact h.invoked_lt tag hold
    · obtain ⟨sub, -, heq⟩ := List.mem_map.1 hnew
      cases heq
  removed_lt tag hin := by
    rcases List.mem_append.1 hin with hold | hnew
    · exact h.removed_lt tag hold
    · obtain ⟨sub, hsub, heq⟩ := List.mem_map.1 hnew
      cases heq
      exact h.tag_lt sub (List.mem_of_mem_filter hsub)
  gone sub hsub hin := by
    obtain ⟨hmem, hid⟩ := List.mem_filter.1 hsub
    rcases List.mem_append.1 hin with hold | hnew
    · exact h.gone sub hmem hold
    · obtain ⟨sub', hsub', heq⟩ := List.mem_map.1 hnew
      obtain ⟨hmem', hid'⟩ := List.mem_filter.1 hsub'
      rw [List.inj_on_of_nodup_map h.nodup hmem' hmem (Visit.removed.inj heq)] at hid'
      simp [hid'] at hid
  order := by
    refine List.pairwise_append.2 ⟨h.order, ?_, ?_⟩
    · refine List.pairwise_map.2 (List.pairwise_iff_forall_sublist.2 fun _ tag _ heq => ?_)
      cases heq
    · intro x _ y hy tag _ heq
      obtain ⟨sub, -, rfl⟩ := List.mem_map.1 hy
      cases heq

/-- The calls of a handler. -/
theorem Tagged.run (c : Calls W) {s : CallingBus W} (h : s.Tagged) :
    (run c s).Tagged ∧ Follows s (run c s) := by
  induction c generalizing s with
  | done w =>
    exact ⟨⟨h.nodup, h.tag_lt, h.invoked_lt, h.removed_lt, h.gone, h.order⟩,
      ⟨le_rfl, List.prefix_rfl, fun _ _ hsub _ => hsub, fun _ hsub _ => hsub⟩⟩
  | subscribe filter handler next _ ih =>
    obtain ⟨htagged, hfollows⟩ := ih s.nextId (h.subscribe filter handler)
    exact ⟨htagged, (follows_subscribe filter handler s).trans hfollows⟩
  | unsubscribe id next ih =>
    obtain ⟨htagged, hfollows⟩ := ih (h.unsubscribe id)
    exact ⟨htagged, (follows_unsubscribe id s).trans hfollows⟩

/-- The invocation itself. -/
theorem Tagged.invoke {s : CallingBus W} (h : s.Tagged) {sub : CallingSubscription W}
    (hsub : sub ∈ s.subscriptions.elems) :
    Tagged { s with trace := s.trace ++ [.invoked sub.tag] } where
  nodup := h.nodup
  tag_lt := h.tag_lt
  invoked_lt tag hin := by
    rcases List.mem_append.1 hin with hold | hnew
    · exact h.invoked_lt tag hold
    · cases List.mem_singleton.1 hnew
      exact h.tag_lt sub hsub
  removed_lt tag hin := by
    rcases List.mem_append.1 hin with hold | hnew
    · exact h.removed_lt tag hold
    · cases List.mem_singleton.1 hnew
  gone u hu hin := by
    rcases List.mem_append.1 hin with hold | hnew
    · exact h.gone u hu hold
    · cases List.mem_singleton.1 hnew
  order := by
    refine List.pairwise_append.2 ⟨h.order, List.pairwise_singleton _ _, ?_⟩
    rintro x hx y hy tag rfl heq
    rw [List.mem_singleton.1 hy] at heq
    rw [← Visit.invoked.inj heq] at hx
    exact h.gone sub hsub hx

/-- The body of the loop. -/
theorem Tagged.visit {s : CallingBus W} (h : s.Tagged) (event : HvEvent)
    {sub : CallingSubscription W} (hsub : sub ∈ s.subscriptions.elems) :
    (visit event sub s).Tagged ∧ Follows s (visit event sub s) := by
  unfold CallingBus.visit
  split
  · obtain ⟨htagged, hfollows⟩ := (h.invoke hsub).run (sub.handler event s.world)
    refine ⟨htagged, Follows.trans ?_ hfollows⟩
    exact ⟨le_rfl, List.prefix_append _ _, fun _ _ hu _ => hu, fun _ hu _ => hu⟩
  · exact ⟨h, .refl s⟩

/-! ## The turns of the loop -/

section Turns

variable {event : HvEvent} {s : CallingBus W} {p q : ℕ} {sub : CallingSubscription W}

theorem turn_succ_of_none (ha : (s.turn event p).subscriptions.elems[p]? = none) :
    s.turn event (p + 1) = s.turn event p :=
  Vec.turns_succ_of_none ha

theorem turn_succ_of_some {a : CallingSubscription W}
    (ha : (s.turn event p).subscriptions.elems[p]? = some a) :
    s.turn event (p + 1) = visit event a (s.turn event p) :=
  Vec.turns_succ_of_some ha

theorem Tagged.turn (h : s.Tagged) (event : HvEvent) (p : ℕ) : (s.turn event p).Tagged := by
  induction p with
  | zero => exact ⟨h.nodup, h.tag_lt, h.invoked_lt, h.removed_lt, h.gone, h.order⟩
  | succ p ih =>
    rcases ha : (s.turn event p).subscriptions.elems[p]? with _ | a
    · rw [turn_succ_of_none ha]
      exact ih
    · rw [turn_succ_of_some ha]
      exact (ih.visit event (List.mem_of_getElem? ha)).1

theorem Tagged.follows_succ (h : s.Tagged) (event : HvEvent) (p : ℕ) :
    Follows (s.turn event p) (s.turn event (p + 1)) := by
  rcases ha : (s.turn event p).subscriptions.elems[p]? with _ | a
  · rw [turn_succ_of_none ha]
    exact .refl _
  · rw [turn_succ_of_some ha]
    exact ((h.turn event p).visit event (List.mem_of_getElem? ha)).2

theorem Tagged.follows (h : s.Tagged) (event : HvEvent) (hpq : p ≤ q) :
    Follows (s.turn event p) (s.turn event q) := by
  induction q, hpq using Nat.le_induction with
  | base => exact .refl _
  | succ q _ ih => exact ih.trans (h.follows_succ event q)

/-- What a turn adds to the trace. -/
theorem trace_turn_succ (event : HvEvent) (s : CallingBus W) (p : ℕ) :
    ∃ removals, (∀ x ∈ removals, ∃ tag, x = .removed tag) ∧
      (s.turn event (p + 1)).trace = (s.turn event p).trace ++
        (invocations event (s.turn event p).subscriptions.elems[p]?.toList ++ removals) := by
  rcases ha : (s.turn event p).subscriptions.elems[p]? with _ | a
  · rw [turn_succ_of_none ha]
    exact ⟨[], by simp, by simp [invocations]⟩
  · rw [turn_succ_of_some ha]
    exact trace_visit event a _

theorem mem_drop_of_getElem? {α : Type*} {l : List α} {a : α} {i k : ℕ} (h : l[i]? = some a)
    (hk : k ≤ i) : a ∈ l.drop k := by
  refine List.mem_iff_getElem?.2 ⟨i - k, ?_⟩
  rw [List.getElem?_drop, Nat.add_sub_cancel' hk, h]

/-- Subscriptions before and behind a position have different tags. -/
theorem Tagged.tag_ne (h : s.Tagged) {a : CallingSubscription W} {k : ℕ}
    (ha : a ∈ s.subscriptions.elems.take k) (hsub : sub ∈ s.subscriptions.elems.drop k) :
    sub.tag ≠ a.tag := by
  have hnodup := h.nodup
  rw [← List.take_append_drop k s.subscriptions.elems, List.map_append] at hnodup
  exact ((List.nodup_append.1 hnodup).2.2 _ (List.mem_map_of_mem ha) _
    (List.mem_map_of_mem hsub)).symm

/-- The handler of `tag` is invoked at position `p`. -/
def InvokedAt (event : HvEvent) (s : CallingBus W) (p tag : ℕ) : Prop :=
  ∃ a, (s.turn event p).subscriptions.elems[p]? = some a ∧ passes a.filter event ∧ a.tag = tag

/-- A turn adds one invocation to the trace or none. -/
theorem count_turn_succ (event : HvEvent) (s : CallingBus W) (p tag : ℕ) :
    (InvokedAt event s p tag → (s.turn event (p + 1)).trace.count (.invoked tag) =
        (s.turn event p).trace.count (.invoked tag) + 1) ∧
      (¬InvokedAt event s p tag → (s.turn event (p + 1)).trace.count (.invoked tag) =
        (s.turn event p).trace.count (.invoked tag)) := by
  obtain ⟨removals, hrem, hsucc⟩ := trace_turn_succ event s p
  have hnone : removals.count (.invoked tag) = 0 := by
    refine List.count_eq_zero_of_not_mem fun hin => ?_
    obtain ⟨tag', heq⟩ := hrem _ hin
    cases heq
  rw [hsucc, List.count_append, List.count_append, hnone, Nat.add_zero]
  constructor
  · rintro ⟨a, ha, hpass, rfl⟩
    simp [ha, invocations, hpass]
  · intro hnot
    have hzero : .invoked tag ∉
        invocations event (s.turn event p).subscriptions.elems[p]?.toList := by
      intro hin
      obtain ⟨a, hmem, heq⟩ := List.mem_map.1 hin
      obtain ⟨ha, hpass⟩ := List.mem_filter.1 hmem
      exact hnot ⟨a, Option.mem_toList.1 ha, hpass, Visit.invoked.inj heq⟩
    rw [List.count_eq_zero_of_not_mem hzero, Nat.add_zero]

/-- The invocations in the trace come from the turns. -/
theorem invokedAt_of_mem (htrace : s.trace = []) {tag : ℕ} :
    .invoked tag ∈ (s.turn event p).trace → ∃ q < p, InvokedAt event s q tag := by
  induction p with
  | zero =>
    intro hin
    have hnil : (s.turn event 0).trace = [] := htrace
    rw [hnil] at hin
    cases hin
  | succ p ih =>
    intro hin
    by_cases hat : InvokedAt event s p tag
    · exact ⟨p, Nat.lt_succ_self p, hat⟩
    · have hpos := List.count_pos_iff.2 hin
      rw [(count_turn_succ event s p tag).2 hat] at hpos
      obtain ⟨q, hq, h⟩ := ih (List.count_pos_iff.1 hpos)
      exact ⟨q, Nat.lt_succ_of_lt hq, h⟩

/-- A handler at a position is not behind it, then or later. -/
theorem Tagged.tag_ne_of_invokedAt (h : s.Tagged) {tag : ℕ} (hat : InvokedAt event s p tag)
    (hpq : p ≤ q) (hsub : sub ∈ (s.turn event q).subscriptions.elems.drop (p + 1)) :
    sub.tag ≠ tag := by
  obtain ⟨a, ha, -, rfl⟩ := hat
  intro heq
  have hlt := (h.turn event p).tag_lt a (List.mem_of_getElem? ha)
  have hdrop := (h.follows event hpq).down _ sub hsub (heq ▸ hlt)
  have htake : a ∈ (s.turn event p).subscriptions.elems.take (p + 1) :=
    List.mem_of_getElem? (by rw [List.getElem?_take_of_lt p.lt_succ_self, ha])
  exact (h.turn event p).tag_ne htake hdrop heq

/-- No handler is invoked at two positions. -/
theorem Tagged.not_invokedAt (h : s.Tagged) {tag : ℕ} (hat : InvokedAt event s p tag)
    (hpq : p < q) : ¬InvokedAt event s q tag := by
  rintro ⟨b, hb, -, htag⟩
  exact h.tag_ne_of_invokedAt hat hpq.le (mem_drop_of_getElem? hb hpq) htag

/-- No subscription is invoked twice. -/
theorem Tagged.count_le_one (h : s.Tagged) (htrace : s.trace = []) (event : HvEvent)
    (tag p : ℕ) : (s.turn event p).trace.count (.invoked tag) ≤ 1 := by
  induction p with
  | zero =>
    have hnil : (s.turn event 0).trace = [] := htrace
    simp [hnil]
  | succ p ih =>
    by_cases hat : InvokedAt event s p tag
    · have hfirst : (s.turn event p).trace.count (.invoked tag) = 0 := by
        refine List.count_eq_zero_of_not_mem fun hin => ?_
        obtain ⟨q, hq, hat'⟩ := invokedAt_of_mem htrace hin
        exact h.not_invokedAt hat' hq hat
      rw [(count_turn_succ event s p tag).1 hat, hfirst]
    · rw [(count_turn_succ event s p tag).2 hat]
      exact ih

/-- No subscription is invoked after it has been removed. -/
theorem Tagged.notAfter (h : s.Tagged) {before after : List Visit} {tag : ℕ}
    (heq : s.trace = before ++ .removed tag :: after) : .invoked tag ∉ after := by
  intro hin
  have horder := h.order
  rw [heq] at horder
  exact (List.pairwise_cons.1 (List.pairwise_append.1 horder).2.1).1 _ hin tag rfl rfl

/-- A subscription of the list is never behind its end. -/
theorem Tagged.notMem_drop_length (h : s.Tagged) (event : HvEvent)
    (hsub : sub ∈ s.subscriptions.elems) (p : ℕ) :
    sub ∉ (s.turn event p).subscriptions.elems.drop s.subscriptions.elems.length := by
  intro hin
  have hdrop := (h.follows event p.zero_le).down _ sub hin (h.tag_lt sub hsub)
  have hnil : (s.turn event 0).subscriptions.elems.drop s.subscriptions.elems.length = [] :=
    List.drop_length
  rw [hnil] at hdrop
  cases hdrop

/-- If every turn before the last is harmless, a subscription that accepts the event and stays is
invoked, or it is at the position or behind it. -/
theorem Tagged.due (h : s.Tagged)
    (hharmless : ∀ p, p + 1 < s.subscriptions.elems.length → Harmless event s p)
    (hsub : sub ∈ s.subscriptions.elems) (hpass : passes sub.filter event)
    (hstays : ¬RemovedIn event s sub) (hp : p ≤ s.subscriptions.elems.length) :
    .invoked sub.tag ∈ (s.turn event p).trace ∨
      sub ∈ (s.turn event p).subscriptions.elems.drop p := by
  induction p with
  | zero => exact .inr hsub
  | succ p ih =>
    rcases ih (Nat.le_of_succ_le hp) with hin | hdrop
    · exact .inl ((h.follows_succ event p).trace.subset hin)
    · obtain ⟨k, hk⟩ := List.mem_iff_getElem?.1 hdrop
      rw [List.getElem?_drop] at hk
      rcases k with _ | k
      · -- it is at the position
        left
        have hcount := (count_turn_succ event s p sub.tag).1 ⟨sub, hk, hpass, rfl⟩
        exact List.count_pos_iff.1 (by omega)
      · right
        have hbehind := mem_drop_of_getElem? hk (Nat.add_le_add_left k.succ_pos p)
        rcases hp.lt_or_eq with hlt | heq
        · have hmem : sub ∈ (s.turn event (p + 1)).subscriptions.elems :=
            (h.follows event (p + 1).zero_le).stays sub hsub fun hin =>
              hstays ((h.follows event hp).trace.subset hin)
          rw [← List.take_append_drop (p + 1) (s.turn event (p + 1)).subscriptions.elems] at hmem
          refine (List.mem_append.1 hmem).resolve_left fun htake => ?_
          exact hstays ((hharmless p hlt).shifted sub hsub hbehind htake hpass)
        · rw [heq] at hbehind
          exact absurd hbehind (h.notMem_drop_length event hsub p)

/-- Harmless turns deliver the event. -/
theorem Tagged.delivered (h : s.Tagged) (htrace : s.trace = [])
    (hharmless : ∀ p, p + 1 < s.subscriptions.elems.length → Harmless event s p) :
    Delivered event s (s.turn event s.subscriptions.elems.length) where
  once sub hsub hpass hstays := by
    have hin := (h.due hharmless hsub hpass hstays le_rfl).resolve_right
      (h.notMem_drop_length event hsub _)
    exact le_antisymm (h.count_le_one htrace event _ _) (List.count_pos_iff.2 hin)
  notAfter _ _ _ heq := (h.turn event _).notAfter heq

/-- If the event is delivered, a subscription that a turn shifts past the position has no claim to
it. -/
theorem Tagged.removedIn_of_delivered (h : s.Tagged) (htrace : s.trace = [])
    (hdelivered : Delivered event s (s.turn event s.subscriptions.elems.length))
    (hsub : sub ∈ s.subscriptions.elems)
    (hbehind : sub ∈ (s.turn event p).subscriptions.elems.drop (p + 1))
    (htake : sub ∈ (s.turn event (p + 1)).subscriptions.elems.take (p + 1))
    (hpass : passes sub.filter event) : RemovedIn event s sub := by
  by_contra hstays
  have hcount := hdelivered.once sub hsub hpass hstays
  obtain ⟨q, -, hat⟩ := invokedAt_of_mem htrace (List.count_pos_iff.1 (hcount ▸ Nat.one_pos))
  rcases Nat.lt_or_ge p q with hpq | hqp
  · -- it is invoked later, but then it is still behind the position
    obtain ⟨b, hb, -, htag⟩ := hat
    have hlt := (h.turn event (p + 1)).tag_lt sub (List.mem_of_mem_take htake)
    have hdrop := (h.follows event hpq).down _ b (mem_drop_of_getElem? hb hpq) (htag ▸ hlt)
    exact (h.turn event (p + 1)).tag_ne htake hdrop htag
  · exact h.tag_ne_of_invokedAt hat hqp
      (List.drop_subset_drop_left _ (Nat.succ_le_succ hqp) hbehind) rfl

/-- `publish` is safe if and only if every turn before the last is harmless. -/
theorem Tagged.safe_iff_harmless (h : s.Tagged) (htrace : s.trace = []) (event : HvEvent) :
    Safe event s ↔ ∀ p, p + 1 < s.subscriptions.elems.length → Harmless event s p := by
  constructor
  · rintro ⟨s', hs', hdelivered⟩ p hp
    obtain ⟨hchecks, rfl⟩ := Vec.rangeFor_eq_ok_iff.1 hs'
    have hnow := hchecks p (Nat.lt_of_succ_lt hp)
    have hnext := hchecks (p + 1) hp
    exact ⟨hnext.1.trans hnow.1.symm, hnext.2, fun sub hsub hbehind htake hpass =>
      h.removedIn_of_delivered htrace hdelivered hsub hbehind htake hpass⟩
  · intro hharmless
    refine ⟨_, Vec.rangeFor_eq_ok_iff.2 ⟨fun p hp => ?_, rfl⟩, h.delivered htrace hharmless⟩
    induction p with
    | zero => exact ⟨rfl, hp⟩
    | succ p ih =>
      have hprev := hharmless p hp
      exact ⟨hprev.fits.trans (ih (Nat.lt_of_succ_lt hp)).1, hprev.enough⟩

end Turns

/-! ## Safety -/

theorem tagged_start (keys : List (UInt32 × Option EventType))
    (handlers : ℕ → HvEvent → W → Calls W) (spare : ℕ) (nextId : UInt32) (w : W) :
    (start keys handlers spare nextId w).Tagged where
  nodup := by
    have htags : (start keys handlers spare nextId w).subscriptions.elems.map
        CallingSubscription.tag = List.range keys.length :=
      List.ext_getElem (by simp [start]) fun k _ _ => by simp [start]
    rw [htags]
    exact List.nodup_range
  tag_lt sub hsub := by
    obtain ⟨k, hk, rfl⟩ := List.mem_mapIdx.1 hsub
    simpa [start] using hk
  invoked_lt _ hin := nomatch hin
  removed_lt _ hin := nomatch hin
  gone _ _ hin := nomatch hin
  order := .nil

/-- Handlers of which only the one at position `p` makes a call : it unsubscribes `id`. -/
def unsubscriber (p : ℕ) (id : UInt32) (k : ℕ) (_ : HvEvent) (w : W) : Calls W :=
  if k = p then .unsubscribe id (.done w) else .done w

/-- The first handler subscribes a handler that does nothing. -/
def subscriber (k : ℕ) (_ : HvEvent) (w : W) : Calls W :=
  if k = 0 then .subscribe none (fun _ w => .done w) fun _ => .done w else .done w

/-- Two subscriptions to all events. -/
def twoCatchAll : List (UInt32 × Option EventType) :=
  [(1, none), (2, none)]

/-- If the handlers invoked before the last position remove nothing, and what they add fits into the
buffer, `publish` is safe. -/
theorem Tagged.safe_of_growing {event : HvEvent} {s : CallingBus W} (h : s.Tagged)
    (htrace : s.trace = [])
    (hgrow : ∀ p, p + 1 < s.subscriptions.elems.length →
      (s.turn event p).subscriptions.elems <+: (s.turn event (p + 1)).subscriptions.elems ∧
        (s.turn event (p + 1)).subscriptions.buffer = (s.turn event p).subscriptions.buffer) :
    Safe event s := by
  have hlength : ∀ p, p < s.subscriptions.elems.length →
      s.subscriptions.elems.length ≤ (s.turn event p).subscriptions.elems.length := by
    intro p hp
    induction p with
    | zero => exact le_rfl
    | succ p ih => exact (ih (Nat.lt_of_succ_lt hp)).trans (hgrow p hp).1.length_le
  refine (h.safe_iff_harmless htrace event).2 fun p hp =>
    ⟨(hgrow p hp).2, hp.trans_le (hlength (p + 1) hp), fun sub _ hbehind htake _ => ?_⟩
  -- what stands before the position stays there, so nothing comes to it from behind
  obtain ⟨added, hadded⟩ := (hgrow p hp).1
  have hp' := hp.le.trans (hlength p (Nat.lt_of_succ_lt hp))
  rw [← hadded, List.take_append_of_le_length hp'] at htake
  exact absurd rfl ((h.turn event p).tag_ne htake hbehind)

-- an id that nobody has
example : Safe { type := .guestHalt } (start twoCatchAll (unsubscriber 0 7) 0 3 ()) := by
  refine (tagged_start _ _ _ _ _).safe_of_growing rfl fun p hp => ?_
  obtain rfl : p = 0 := Nat.lt_one_iff.1 (Nat.succ_lt_succ_iff.1 hp)
  exact ⟨List.prefix_rfl, rfl⟩

-- a buffer with room for one more
example : Safe { type := .guestHalt } (start twoCatchAll subscriber 1 3 ()) := by
  refine (tagged_start _ _ _ _ _).safe_of_growing rfl fun p hp => ?_
  obtain rfl : p = 0 := Nat.lt_one_iff.1 (Nat.succ_lt_succ_iff.1 hp)
  exact ⟨List.prefix_append _ _, rfl⟩

/-- The first handler unsubscribes itself, and subscribes again. -/
def resubscriber (k : ℕ) (_ : HvEvent) (w : W) : Calls W :=
  if k = 0 then .unsubscribe 1 (.subscribe none (fun _ w => .done w) fun _ => .done w) else .done w

/-- The subscription of a dispatcher whose handlers make no calls. -/
def ofSubscription (tag : ℕ) (sub : Subscription W) : CallingSubscription W :=
  ⟨tag, sub.id, sub.filter, fun event w => .done (sub.handler event w)⟩

/-- A dispatcher whose handlers make no calls. -/
def ofDispatcher (d : EventDispatcher W) (w : W) : CallingBus W where
  subscriptions := { elems := d.subscriptions.mapIdx ofSubscription }
  nextId := d.nextId
  publishedCount := d.publishedCount
  world := w

/-- The handler makes no calls. -/
def Calm (handler : HvEvent → W → Calls W) : Prop :=
  ∀ event w, ∃ w', handler event w = .done w'

/-- The handler is not invoked, or it makes no calls. -/
def Quiet (event : HvEvent) (sub : CallingSubscription W) : Prop :=
  passes sub.filter event → Calm sub.handler

theorem visit_of_quiet {event : HvEvent} {sub : CallingSubscription W} (h : Quiet event sub)
    (s : CallingBus W) : (visit event sub s).subscriptions = s.subscriptions := by
  unfold visit
  split
  · rename_i hpass
    obtain ⟨w', hrun⟩ := h hpass event s.world
    rw [hrun, run]
  · rfl

theorem quiet_ofSubscription (event : HvEvent) (tag : ℕ) (sub : Subscription W) :
    Quiet event (ofSubscription tag sub) :=
  fun _ event w => ⟨sub.handler event w, rfl⟩

theorem world_visit_ofSubscription (event : HvEvent) (tag : ℕ) (sub : Subscription W)
    (s : CallingBus W) :
    (visit event (ofSubscription tag sub) s).world =
      if sub.accepts event then sub.handler event s.world else s.world := by
  have haccepts : passes (ofSubscription tag sub).filter event = sub.accepts event := rfl
  rw [visit, haccepts]
  split <;> rfl

theorem world_foldl_ofSubscription (event : HvEvent) (subs : List (Subscription W))
    (tag : ℕ → ℕ) (s : CallingBus W) :
    ((subs.mapIdx fun k sub => ofSubscription (tag k) sub).foldl
        (fun s sub => visit event sub s) s).world =
      EventDispatcher.deliver subs event s.world := by
  induction subs generalizing tag s with
  | nil => rfl
  | cons sub subs ih =>
    rw [List.mapIdx_cons, List.foldl_cons, ih fun k => tag (k + 1), world_visit_ofSubscription]
    rfl

/-- For handlers without calls, `publish` on the vector is `EventDispatcher.publish`. -/
theorem publish_ofDispatcher (d : EventDispatcher W) (event : HvEvent) (w : W) :
    ∃ s', (ofDispatcher d w).publish event = .ok s' ∧
      s'.subscriptions = (ofDispatcher (d.publish event w).1 w).subscriptions ∧
      s'.world = (d.publish event w).2 := by
  let s₀ := { ofDispatcher d w with publishedCount := d.publishedCount + 1 }
  have hquiet : ∀ sub ∈ s₀.subscriptions.elems, ∀ t : CallingBus W,
      t.subscriptions = s₀.subscriptions →
        (visit event sub t).subscriptions = s₀.subscriptions := by
    intro sub hsub t ht
    obtain ⟨k, hk, rfl⟩ := List.mem_mapIdx.1 hsub
    exact (visit_of_quiet (quiet_ofSubscription event k _) t).trans ht
  exact ⟨_, Vec.rangeFor_eq_foldl hquiet, Vec.vec_foldl hquiet rfl,
    world_foldl_ofSubscription event d.subscriptions id s₀⟩

end CallingBus

end MinBp
