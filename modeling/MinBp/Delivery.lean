import MinBp.EventDispatcher
import Mathlib.Data.List.Induction
import Mathlib.Data.List.Nodup

/-!
# What the dispatcher delivers, and what its ids identify

A history is a list of calls on one dispatcher (`BusOp`). What the bus owes its subscribers is
said in terms of positions of the history alone. The call at position `p` made a subscription
(`madeAt`), and that subscription is live if no later call unsubscribed the id it was given
(`LiveAt`).

`exists_live` relates the two levels : the vector of the dispatcher is the list of live
subscriptions in the order in which they were made. `publish_delivers` reads off which handlers a
`publish` calls.

Ids are 32-bit numbers counted up from one and never checked. `ids_identify_iff` says exactly how
long they identify : as long as fewer than `2 ^ 32` subscriptions were made. The next one gets the
id zero.
-/

namespace MinBp

variable {W : Type}

/-- A call on a dispatcher. -/
inductive BusOp (W : Type) where
  | subscribe (type : EventType) (handler : HvEvent → W → W)
  | subscribeAll (handler : HvEvent → W → W)
  | unsubscribe (id : UInt32)
  | publish (event : HvEvent)

namespace BusOp

/-- The dispatcher and the subscribers' state after a call. -/
def exec (s : EventDispatcher W × W) : BusOp W → EventDispatcher W × W
  | .subscribe type handler => ((s.1.subscribe type handler).2, s.2)
  | .subscribeAll handler => ((s.1.subscribeAll handler).2, s.2)
  | .unsubscribe id => (s.1.unsubscribe id, s.2)
  | .publish event => s.1.publish event s.2

/-- The subscription a call makes, with the id the call returns. -/
def made (d : EventDispatcher W) : BusOp W → Option (Subscription W)
  | .subscribe type handler => some ⟨(d.subscribe type handler).1, some type, handler⟩
  | .subscribeAll handler => some ⟨(d.subscribeAll handler).1, none, handler⟩
  | _ => none

/-- The call is a `subscribe` or a `subscribeAll`. -/
def isSubscribe : BusOp W → Bool
  | .subscribe .. | .subscribeAll .. => true
  | _ => false

/-- The call is a `publish`. -/
def isPublish : BusOp W → Bool
  | .publish _ => true
  | _ => false

theorem isSubscribe_iff (d : EventDispatcher W) (op : BusOp W) :
    op.isSubscribe = true ↔ ∃ s, op.made d = some s := by
  cases op <;> simp [isSubscribe, made]

theorem made_id {d : EventDispatcher W} {op : BusOp W} {s : Subscription W}
    (h : op.made d = some s) : s.id = d.nextId := by
  cases op <;> cases h <;> rfl

end BusOp

/-- A new dispatcher after a history, with subscribers' state `w` at the start. -/
def busAfter (w : W) (h : List (BusOp W)) : EventDispatcher W × W :=
  h.foldl BusOp.exec ({}, w)

/-- The subscription made by the call at position `p`. -/
def madeAt (w : W) (h : List (BusOp W)) (p : ℕ) : Option (Subscription W) :=
  h[p]?.bind (BusOp.made (busAfter w (h.take p)).1)

/-- The call at position `p` made the subscription `s`, and no later call unsubscribed its id. -/
def LiveAt (w : W) (h : List (BusOp W)) (p : ℕ) (s : Subscription W) : Prop :=
  madeAt w h p = some s ∧ ∀ q, p < q → h[q]? ≠ some (.unsubscribe s.id)

section Histories

variable (w : W) (h : List (BusOp W)) (op : BusOp W)

theorem busAfter_snoc : busAfter w (h ++ [op]) = op.exec (busAfter w h) := by
  simp [busAfter]

theorem busAfter_succ {p : ℕ} {op : BusOp W} (hp : h[p]? = some op) :
    busAfter w (h.take (p + 1)) = op.exec (busAfter w (h.take p)) := by
  rw [List.take_add_one, hp, Option.toList_some, busAfter_snoc]

theorem madeAt_snoc_of_lt {p : ℕ} (hp : p < h.length) :
    madeAt w (h ++ [op]) p = madeAt w h p := by
  rw [madeAt, madeAt, List.getElem?_append_left hp, List.take_append_of_le_length hp.le]

theorem madeAt_snoc_length : madeAt w (h ++ [op]) h.length = op.made (busAfter w h).1 := by
  simp [madeAt]

theorem lt_of_madeAt {p : ℕ} {s : Subscription W} (hp : madeAt w h p = some s) :
    p < h.length := by
  obtain ⟨op, hop, -⟩ := Option.bind_eq_some_iff.1 hp
  exact (List.getElem?_eq_some_iff.1 hop).1

/-- After one more call, a subscription is live if it was and was not cancelled, or is new. -/
theorem liveAt_snoc (p : ℕ) (s : Subscription W) : LiveAt w (h ++ [op]) p s ↔
    (LiveAt w h p s ∧ op ≠ .unsubscribe s.id) ∨
      (p = h.length ∧ op.made (busAfter w h).1 = some s) := by
  constructor
  · rintro ⟨hmade, hlive⟩
    have hlt := lt_of_madeAt w _ hmade
    rw [List.length_append, List.length_singleton] at hlt
    rcases Nat.lt_succ_iff_lt_or_eq.1 hlt with hp | rfl
    · rw [madeAt_snoc_of_lt w h op hp] at hmade
      refine Or.inl ⟨⟨hmade, fun q hq hc => ?_⟩, fun hc => ?_⟩
      · have hqlt := (List.getElem?_eq_some_iff.1 hc).1
        exact hlive q hq (by rw [List.getElem?_append_left hqlt, hc])
      · exact hlive h.length hp (by simp [hc])
    · rw [madeAt_snoc_length] at hmade
      exact Or.inr ⟨rfl, hmade⟩
  · rintro (⟨⟨hmade, hlive⟩, hne⟩ | ⟨rfl, hmade⟩)
    · have hp := lt_of_madeAt w h hmade
      refine ⟨by rw [madeAt_snoc_of_lt w h op hp, hmade], fun q hq hc => ?_⟩
      rcases Nat.lt_or_ge q h.length with hqlt | hqge
      · exact hlive q hq (by rwa [List.getElem?_append_left hqlt] at hc)
      · rw [List.getElem?_append_right hqge] at hc
        have h0 : q - h.length = 0 := by
          have := (List.getElem?_eq_some_iff.1 hc).1
          simpa using this
        rw [h0] at hc
        exact hne (by simpa using hc)
    · refine ⟨by rw [madeAt_snoc_length, hmade], fun q hq hc => ?_⟩
      have := (List.getElem?_eq_some_iff.1 hc).1
      simp only [List.length_append, List.length_singleton] at this
      omega

/-- The subscriptions of the dispatcher are the live ones, in the order they were made. -/
theorem exists_live : ∃ live : List (ℕ × Subscription W),
    (live.map Prod.fst).Pairwise (· < ·) ∧ (∀ p s, (p, s) ∈ live ↔ LiveAt w h p s) ∧
      (busAfter w h).1.subscriptions = live.map Prod.snd := by
  induction h using List.reverseRecOn with
  | nil => exact ⟨[], by simp, by simp [LiveAt, madeAt], rfl⟩
  | append_singleton h op ih =>
    obtain ⟨live, hord, hmem, hsubs⟩ := ih
    have hbefore : ∀ r ∈ live, r.1 < h.length := fun r hr => lt_of_madeAt w h ((hmem _ _).1 hr).1
    rw [busAfter_snoc]
    -- a call that subscribes appends, `unsubscribe` filters, `publish` changes nothing
    have happend : ∀ s, op.made (busAfter w h).1 = some s → (∀ id, op ≠ .unsubscribe id) →
        (op.exec (busAfter w h)).1.subscriptions = (busAfter w h).1.subscriptions ++ [s] →
        ∃ live' : List (ℕ × Subscription W), (live'.map Prod.fst).Pairwise (· < ·) ∧
          (∀ p s, (p, s) ∈ live' ↔ LiveAt w (h ++ [op]) p s) ∧
          (op.exec (busAfter w h)).1.subscriptions = live'.map Prod.snd := by
      intro s hs hne heq
      refine ⟨live ++ [(h.length, s)], ?_, fun p t => ?_, by rw [heq, hsubs, List.map_append]; rfl⟩
      · rw [List.map_append, List.pairwise_append]
        refine ⟨hord, by simp, fun p hp q hq => ?_⟩
        obtain ⟨r, hr, rfl⟩ := List.mem_map.1 hp
        obtain rfl : q = h.length := by simpa using hq
        exact hbefore r hr
      · rw [liveAt_snoc, List.mem_append, hmem, hs]
        simp only [List.mem_singleton, Prod.mk.injEq, Option.some.injEq]
        refine or_congr ⟨fun hl => ⟨hl, hne _⟩, And.left⟩ (and_congr Iff.rfl eq_comm)
    cases op with
    | subscribe type f => exact happend _ rfl (by simp) rfl
    | subscribeAll f => exact happend _ rfl (by simp) rfl
    | unsubscribe id =>
      refine ⟨live.filter fun r => r.2.id != id, ?_, fun p s => ?_, ?_⟩
      · exact hord.sublist (List.filter_sublist.map _)
      · rw [liveAt_snoc, List.mem_filter, hmem]
        simp [BusOp.made, @eq_comm _ id]
      · simp only [BusOp.exec, EventDispatcher.unsubscribe, hsubs, List.filter_map]
        rfl
    | publish ev =>
      refine ⟨live, hord, fun p s => ?_, hsubs⟩
      rw [liveAt_snoc, hmem]
      simp [BusOp.made]

/-- `nextId` counts the subscriptions made, from one and modulo `2 ^ 32`. -/
theorem nextId_busAfter :
    (busAfter w h).1.nextId = UInt32.ofNat (h.countP BusOp.isSubscribe + 1) := by
  induction h using List.reverseRecOn with
  | nil => rfl
  | append_singleton h op ih =>
    rw [busAfter_snoc, List.countP_append]
    cases op <;>
      simp [BusOp.exec, EventDispatcher.subscribe, EventDispatcher.subscribeAll,
        EventDispatcher.unsubscribe, EventDispatcher.publish, BusOp.isSubscribe, ih]

/-- `publishedCount` counts the calls of `publish`, modulo `2 ^ 64`. -/
theorem publishedCount_busAfter :
    (busAfter w h).1.publishedCount = UInt64.ofNat (h.countP BusOp.isPublish) := by
  induction h using List.reverseRecOn with
  | nil => rfl
  | append_singleton h op ih =>
    rw [busAfter_snoc, List.countP_append]
    cases op <;>
      simp [BusOp.exec, EventDispatcher.subscribe, EventDispatcher.subscribeAll,
        EventDispatcher.unsubscribe, EventDispatcher.publish, BusOp.isPublish, ih]

/-- The id given out at position `p` is the number of subscriptions made up to it. -/
theorem madeAt_id {p : ℕ} {s : Subscription W} (hp : madeAt w h p = some s) :
    s.id = UInt32.ofNat ((h.take (p + 1)).countP BusOp.isSubscribe) := by
  obtain ⟨op, hop, hmade⟩ := Option.bind_eq_some_iff.1 hp
  have hsub : op.isSubscribe = true := (BusOp.isSubscribe_iff _ op).2 ⟨s, hmade⟩
  rw [BusOp.made_id hmade, nextId_busAfter, List.take_add_one, hop]
  simp [hsub]

/-- A call of `publish` hands the event to the live subscriptions that accept it. -/
theorem publish_delivers {p : ℕ} {ev : HvEvent} (hp : h[p]? = some (.publish ev)) :
    ∃ called : List (ℕ × Subscription W), (called.map Prod.fst).Pairwise (· < ·) ∧
      (∀ q s, (q, s) ∈ called ↔
        LiveAt w (h.take p) q s ∧ (s.filter = none ∨ s.filter = some ev.type)) ∧
      (busAfter w (h.take (p + 1))).2 =
        called.foldl (fun w r => r.2.handler ev w) (busAfter w (h.take p)).2 := by
  obtain ⟨live, hord, hmem, hsubs⟩ := exists_live w (h.take p)
  refine ⟨live.filter fun r => r.2.accepts ev, hord.sublist (List.filter_sublist.map _),
    fun q s => ?_, ?_⟩
  · rw [List.mem_filter, hmem]
    refine and_congr Iff.rfl ?_
    cases hf : s.filter <;> simp [Subscription.accepts, hf]
  · rw [busAfter_succ w h hp]
    simp only [BusOp.exec, EventDispatcher.publish, EventDispatcher.deliver_eq_filter, hsubs,
      List.filter_map, List.foldl_map]
    rfl

/-- While fewer than `2 ^ 32` subscriptions are made, no id is given out twice. -/
theorem madeAt_inj (hlt : h.countP BusOp.isSubscribe < 2 ^ 32) {p q : ℕ} {s t : Subscription W}
    (hp : madeAt w h p = some s) (hq : madeAt w h q = some t) (hid : s.id = t.id) : p = q := by
  have key : ∀ {p q : ℕ} {s t : Subscription W}, madeAt w h p = some s → madeAt w h q = some t →
      p < q → s.id ≠ t.id := by
    intro p q s t hp hq hpq hid
    rw [madeAt_id w h hp, madeAt_id w h hq] at hid
    have hle : (h.take (q + 1)).countP BusOp.isSubscribe ≤ h.countP BusOp.isSubscribe :=
      (List.take_sublist _ _).countP_le
    -- the call at `q` subscribes, so the count strictly grows between `p + 1` and `q + 1`
    have hstep : (h.take q).countP BusOp.isSubscribe <
        (h.take (q + 1)).countP BusOp.isSubscribe := by
      obtain ⟨op, hop, hmade⟩ := Option.bind_eq_some_iff.1 hq
      have hsub : op.isSubscribe = true := (BusOp.isSubscribe_iff _ op).2 ⟨t, hmade⟩
      rw [List.take_add_one, hop]
      simp [hsub]
    have hmono : (h.take (p + 1)).countP BusOp.isSubscribe ≤
        (h.take q).countP BusOp.isSubscribe :=
      (List.take_sublist_take_left hpq).countP_le
    have := congrArg UInt32.toNat hid
    rw [UInt32.toNat_ofNat', UInt32.toNat_ofNat'] at this
    omega
  rcases Nat.lt_trichotomy p q with hlt' | heq | hgt
  · exact (key hp hq hlt' hid).elim
  · exact heq
  · exact (key hq hp hgt hid.symm).elim

/-- The delivery law. In a history with fewer than `2 ^ 32` subscriptions, every published event is
handed once to each subscription made earlier, not cancelled since and accepting the event, in the
order of subscription; no two subscriptions got the same id; and `publishedCount` is the number of
`publish` calls modulo `2 ^ 64`. -/
theorem dispatcher_delivery (hlt : h.countP BusOp.isSubscribe < 2 ^ 32) :
    (∀ p ev, h[p]? = some (.publish ev) →
      ∃ called : List (ℕ × Subscription W), (called.map Prod.fst).Pairwise (· < ·) ∧
        (∀ q s, (q, s) ∈ called ↔
          LiveAt w (h.take p) q s ∧ (s.filter = none ∨ s.filter = some ev.type)) ∧
        (busAfter w (h.take (p + 1))).2 =
          called.foldl (fun w r => r.2.handler ev w) (busAfter w (h.take p)).2) ∧
      (∀ p q s t, madeAt w h p = some s → madeAt w h q = some t → s.id = t.id → p = q) ∧
      (busAfter w h).1.publishedCount.toNat = h.countP BusOp.isPublish % 2 ^ 64 := by
  refine ⟨fun p ev hp => publish_delivers w h hp, fun p q s t => madeAt_inj w h hlt, ?_⟩
  rw [publishedCount_busAfter, UInt64.toNat_ofNat']

end Histories

/-- A subscription that is cancelled, and another one. -/
def oneCancelled : List (BusOp (List ℕ)) :=
  [.subscribeAll (fun _ w => w ++ [1]), .unsubscribe 1, .subscribe .guestHalt (fun _ w => w ++ [2])]

/-- The delivery law on a history that subscribes, cancels, subscribes again and publishes. Only the
subscription that is left is called. -/
theorem dispatcher_delivery_three :
    (∃ called : List (ℕ × Subscription (List ℕ)), (called.map Prod.fst).Pairwise (· < ·) ∧
      (∀ q s, (q, s) ∈ called ↔ LiveAt [] oneCancelled q s ∧
        (s.filter = none ∨ s.filter = some .guestHalt)) ∧
      (busAfter [] (oneCancelled ++ [.publish { type := .guestHalt }])).2 =
        called.foldl (fun w r => r.2.handler { type := .guestHalt } w) []) ∧
    (busAfter [] (oneCancelled ++ [.publish { type := .guestHalt }])).2 = [2] := by
  obtain ⟨hpub, -, -⟩ := dispatcher_delivery ([] : List ℕ)
    (oneCancelled ++ [.publish { type := .guestHalt }]) (by decide)
  exact ⟨hpub 3 _ rfl, rfl⟩

/-- After `2 ^ 64` calls of `publish` the count is back at zero. -/
theorem publishedCount_wraps :
    (List.replicate (2 ^ 64) (BusOp.publish { type := .guestHalt } : BusOp Unit)).countP
        BusOp.isSubscribe < 2 ^ 32 ∧
      ¬(busAfter () (List.replicate (2 ^ 64)
          (.publish { type := .guestHalt }))).1.publishedCount.toNat
        = (List.replicate (2 ^ 64) (BusOp.publish { type := .guestHalt } : BusOp Unit)).countP
          BusOp.isPublish := by
  rw [publishedCount_busAfter, List.countP_replicate, List.countP_replicate, UInt64.toNat_ofNat']
  simp only [BusOp.isSubscribe, BusOp.isPublish, if_true]
  decide

/-! ## Ids -/

/-- The ids of the live subscriptions are distinct and not zero, and unsubscribing one of them
removes that subscription and no other. -/
def IdsIdentify (d : EventDispatcher W) : Prop :=
  (d.subscriptions.map (·.id)).Nodup ∧ (0 : UInt32) ∉ d.subscriptions.map (·.id) ∧
    ∀ before s after, d.subscriptions = before ++ s :: after →
      (d.unsubscribe s.id).subscriptions = before ++ after

/-- Distinct ids single out the subscription they were given to. -/
theorem unsubscribe_of_nodup {d : EventDispatcher W} (hd : (d.subscriptions.map (·.id)).Nodup)
    {before after : List (Subscription W)} {s : Subscription W}
    (heq : d.subscriptions = before ++ s :: after) :
    (d.unsubscribe s.id).subscriptions = before ++ after := by
  rw [heq, List.map_append, List.map_cons, List.nodup_append, List.nodup_cons] at hd
  obtain ⟨-, ⟨hafter, -⟩, hbefore⟩ := hd
  have hb : before.filter (fun t => t.id != s.id) = before := by
    refine List.filter_eq_self.2 fun t ht => ?_
    have := hbefore t.id (List.mem_map_of_mem ht) s.id (by simp)
    simpa using this
  have ha : after.filter (fun t => t.id != s.id) = after := by
    refine List.filter_eq_self.2 fun t ht => ?_
    have : t.id ≠ s.id := fun hid => hafter (hid ▸ List.mem_map_of_mem ht)
    simpa using this
  simp [EventDispatcher.unsubscribe, heq, hb, ha]

/-- Ids identify while fewer than `2 ^ 32` subscriptions were made. -/
theorem idsIdentify_of_lt (w : W) (h : List (BusOp W))
    (hlt : h.countP BusOp.isSubscribe < 2 ^ 32) : IdsIdentify (busAfter w h).1 := by
  obtain ⟨live, hord, hmem, hsubs⟩ := exists_live w h
  have hnodup : ((busAfter w h).1.subscriptions.map (·.id)).Nodup := by
    rw [hsubs, List.map_map]
    have hpos : live.Pairwise fun r r' => r.1 < r'.1 := List.pairwise_map.1 hord
    refine List.pairwise_map.2 (hpos.imp_of_mem fun {r r'} hr hr' hlt' hid => ?_)
    have := madeAt_inj w h hlt ((hmem _ _).1 hr).1 ((hmem _ _).1 hr').1 hid
    omega
  refine ⟨hnodup, fun h0 => ?_, fun before s after => unsubscribe_of_nodup hnodup⟩
  rw [hsubs, List.map_map] at h0
  obtain ⟨r, hr, hid⟩ := List.mem_map.1 h0
  have hmade := ((hmem _ _).1 hr).1
  have hid' : r.2.id = 0 := hid
  rw [madeAt_id w h hmade] at hid'
  have hle : (h.take (r.1 + 1)).countP BusOp.isSubscribe ≤ h.countP BusOp.isSubscribe :=
    (List.take_sublist _ _).countP_le
  have hpos : 0 < (h.take (r.1 + 1)).countP BusOp.isSubscribe := by
    obtain ⟨op, hop, hop'⟩ := Option.bind_eq_some_iff.1 hmade
    have hsub : op.isSubscribe = true := (BusOp.isSubscribe_iff _ op).2 ⟨_, hop'⟩
    rw [List.take_add_one, hop]
    simp [hsub]
  have := congrArg UInt32.toNat hid'
  rw [UInt32.toNat_ofNat'] at this
  have hz : (0 : UInt32).toNat = 0 := rfl
  omega

/-- A history with more than `n` subscriptions makes one after exactly `n` others. -/
theorem exists_subscribe_after (h : List (BusOp W)) {n : ℕ} (hn : n < h.countP BusOp.isSubscribe) :
    ∃ p op, h[p]? = some op ∧ op.isSubscribe = true ∧
      (h.take p).countP BusOp.isSubscribe = n := by
  induction h using List.reverseRecOn with
  | nil => simp at hn
  | append_singleton h op ih =>
    rcases Nat.lt_or_ge n (h.countP BusOp.isSubscribe) with hlt | hge
    · obtain ⟨p, op', hp, hsub, hcount⟩ := ih hlt
      have hplt := (List.getElem?_eq_some_iff.1 hp).1
      refine ⟨p, op', ?_, hsub, ?_⟩
      · rw [List.getElem?_append_left hplt, hp]
      · rw [List.take_append_of_le_length hplt.le, hcount]
    · rw [List.countP_append, List.countP_singleton] at hn
      split at hn
      · rename_i hsub
        exact ⟨h.length, op, by simp, hsub, by simp; omega⟩
      · omega

/-- The subscription made after `2 ^ 32 - 1` others gets the id zero. -/
theorem zero_mem_ids (w : W) {h : List (BusOp W)} {op : BusOp W} (hsub : op.isSubscribe = true)
    (hcount : h.countP BusOp.isSubscribe = 2 ^ 32 - 1) :
    (0 : UInt32) ∈ (busAfter w (h ++ [op])).1.subscriptions.map (·.id) := by
  have hid : (busAfter w h).1.nextId = 0 := by
    rw [nextId_busAfter, hcount]
    rfl
  rw [busAfter_snoc]
  cases op with
  | subscribe type f => simp [BusOp.exec, EventDispatcher.subscribe, hid]
  | subscribeAll f => simp [BusOp.exec, EventDispatcher.subscribeAll, hid]
  | unsubscribe id => cases hsub
  | publish ev => cases hsub

/-- Ids identify in every state of a run exactly if the run makes fewer than `2 ^ 32`
subscriptions. -/
theorem ids_identify_iff (w : W) (h : List (BusOp W)) :
    (∀ p, IdsIdentify (busAfter w (h.take p)).1) ↔ h.countP BusOp.isSubscribe < 2 ^ 32 := by
  constructor
  · intro hids
    by_contra hge
    obtain ⟨p, op, hp, hsub, hcount⟩ :=
      exists_subscribe_after h (n := 2 ^ 32 - 1) (by omega)
    refine (hids (p + 1)).2.1 ?_
    rw [List.take_add_one, hp]
    exact zero_mem_ids w hsub hcount
  · intro hlt p
    exact idsIdentify_of_lt w _ (((List.take_sublist _ _).countP_le).trans_lt hlt)

/-- After `2 ^ 32` subscriptions a live subscription has the id zero. -/
theorem ids_fail_after_wrap :
    ¬IdsIdentify (busAfter () (List.replicate (2 ^ 32)
      (BusOp.subscribeAll fun _ w => w : BusOp Unit))).1 := by
  intro hids
  refine hids.2.1 ?_
  have hsplit : List.replicate (2 ^ 32) (BusOp.subscribeAll fun _ w => w : BusOp Unit) =
      List.replicate (2 ^ 32 - 1) (.subscribeAll fun _ w => w) ++
        [.subscribeAll fun _ w => w] := by
    rw [← List.replicate_succ', Nat.sub_add_cancel (by decide)]
  rw [hsplit]
  exact zero_mem_ids () rfl (by rw [List.countP_replicate]; rfl)

end MinBp
