import MinBp.VCpu

/-!
# Events and the event dispatcher

`HvEvent` is one event record and `EventDispatcher` the publish-subscribe bus. A handler is a
callback that changes what its closure refers to. Here this is a state `W`, so a handler is a
function `HvEvent → W → W`, and `publish` threads `W` through the handlers it calls. Handlers do
not call back into the dispatcher.

Subscription ids are `uint32_t` and the count of published events is `uint64_t`. Both wrap.
-/

namespace MinBp

/-- Types of events. -/
inductive EventType where
  | cpuidAccess | ioRead | ioWrite | msrRead | msrWrite | memAccess | guestHalt | guestShutdown
  deriving DecidableEq, Repr

/-- Payload of a `cpuidAccess`. -/
structure CpuidEvent where
  (leaf subleaf eax ebx ecx edx : UInt32 := 0)
  deriving DecidableEq, Repr

/-- Payload of an I/O port event. -/
structure IoEvent where
  port : UInt16 := 0
  size : UInt8 := 0
  value : UInt32 := 0
  isWrite : Bool := false
  deriving DecidableEq, Repr

/-- Payload of an MSR event. -/
structure MsrEvent where
  index : UInt32 := 0
  value : UInt64 := 0
  isWrite : Bool := false
  deriving DecidableEq, Repr

/-- Payload of an MMIO event. -/
structure MmioEvent where
  guestPhysAddr : UInt64 := 0
  size : UInt8 := 0
  value : UInt64 := 0
  isWrite : Bool := false
  deriving DecidableEq, Repr

/-- The variant `EventPayload`. -/
inductive EventPayload where
  | cpuid (e : CpuidEvent)
  | io (e : IoEvent)
  | msr (e : MsrEvent)
  | mmio (e : MmioEvent)
  | monostate
  deriving DecidableEq, Repr

/-- A reading of `std::chrono::steady_clock`, in nanoseconds since its epoch. -/
abbrev TimePoint := ℕ

/-- One event. A payload that is not assigned is the first alternative of the variant. -/
structure HvEvent where
  type : EventType
  vcpuId : UInt32 := 0
  rip : UInt64 := 0
  timestamp : TimePoint := 0
  payload : EventPayload := .cpuid {}
  deriving DecidableEq, Repr

/-- A subscription. A filter of `none` lets every event through. -/
structure Subscription (W : Type) where
  id : UInt32
  filter : Option EventType
  handler : HvEvent → W → W

/-- The event bus. -/
structure EventDispatcher (W : Type) where
  subscriptions : List (Subscription W) := []
  nextId : UInt32 := 1
  publishedCount : UInt64 := 0

variable {W : Type}

/-- The test `publish` makes before it calls the handler. -/
def Subscription.accepts (s : Subscription W) (event : HvEvent) : Bool :=
  match s.filter with
  | none => true
  | some type => type == event.type

namespace EventDispatcher

/-- `EventDispatcher::subscribe`. -/
def subscribe (type : EventType) (handler : HvEvent → W → W) (d : EventDispatcher W) :
    UInt32 × EventDispatcher W :=
  (d.nextId,
    { d with
      nextId := d.nextId + 1
      subscriptions := d.subscriptions ++ [⟨d.nextId, some type, handler⟩] })

/-- `EventDispatcher::subscribeAll`. -/
def subscribeAll (handler : HvEvent → W → W) (d : EventDispatcher W) :
    UInt32 × EventDispatcher W :=
  (d.nextId,
    { d with
      nextId := d.nextId + 1
      subscriptions := d.subscriptions ++ [⟨d.nextId, none, handler⟩] })

/-- `EventDispatcher::unsubscribe`. -/
def unsubscribe (id : UInt32) (d : EventDispatcher W) : EventDispatcher W :=
  { d with subscriptions := d.subscriptions.filter fun s => s.id != id }

/-- The loop of `publish` over the subscriptions. -/
def deliver (subs : List (Subscription W)) (event : HvEvent) (w : W) : W :=
  subs.foldl (fun w s => if s.accepts event then s.handler event w else w) w

/-- `EventDispatcher::publish`. -/
def publish (event : HvEvent) (d : EventDispatcher W) (w : W) : EventDispatcher W × W :=
  ({ d with publishedCount := d.publishedCount + 1 }, deliver d.subscriptions event w)

/-- The loop of `publish` calls the handlers that accept the event, in order. -/
theorem deliver_eq_filter (subs : List (Subscription W)) (event : HvEvent) (w : W) :
    deliver subs event w =
      (subs.filter (·.accepts event)).foldl (fun w s => s.handler event w) w := by
  rw [deliver, List.foldl_filter]

/-- What every handler preserves, the loop of `publish` preserves. -/
theorem deliver_inv {P : W → Prop} {subs : List (Subscription W)} {event : HvEvent}
    (h : ∀ s ∈ subs, ∀ w, P w → P (s.handler event w)) {w : W} (hw : P w) :
    P (deliver subs event w) := by
  refine List.foldlRecOn subs _ hw fun w hw s hs => ?_
  split
  · exact h s hs w hw
  · exact hw

end EventDispatcher

end MinBp
