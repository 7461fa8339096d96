import MinBp.InstructionTrapper

/-!
# The introspection agent

`VmiAgent` subscribes to every event, adds the registers of the vCPU that the event names and, if
enabled, a dump of guest memory, logs the result and forwards it to its own callbacks.

The agent is part of the subscribers' state (`Observed`). Its callbacks work on the rest of it, `κ`.
A dump window is checked with 64-bit sums, which can wrap, so the copy out of the region is checked
here against the mapping (`readGuestPhysMemory`) and an access outside it is a `Fault`.
-/

open Bytes

namespace MinBp

variable {δ κ : Type}

/-- Registers of the guest at the time of an event. -/
structure GuestSnapshot where
  (rip rsp rax rbx rcx rdx : UInt64 := 0)
  (rsi rdi r8 r9 r10 r11 : UInt64 := 0)
  (r12 r13 r14 r15 : UInt64 := 0)
  rflags : UInt64 := 0
  (cr0 cr3 cr4 : UInt64 := 0)
  timestamp : TimePoint := 0
  deriving DecidableEq, Repr

/-- `VmiAgent::IntrospectionEvent`. -/
structure IntrospectionEvent where
  base : HvEvent
  snapshot : GuestSnapshot := {}
  memDump : Option (List UInt8) := none
  summary : String := ""
  deriving DecidableEq, Repr

/-- The agent's members. -/
structure VmiAgent (κ : Type) where
  /-- `m_vm` is not null. -/
  hasVm : Bool := true
  callbacks : List (IntrospectionEvent → κ → κ) := []
  eventLog : List IntrospectionEvent := []
  subId : UInt32 := 0
  memDumpEnabled : Bool := false
  memDumpAddr : UInt64 := 0
  memDumpSize : UInt64 := 0

/-- The state of subscribers with one agent among them. -/
structure Observed (κ : Type) where
  agent : VmiAgent κ := {}
  /-- What the agent's callbacks and the other subscribers work on. -/
  sink : κ

/-! ## Summaries -/

/-- An unsigned number under `std::hex` and `std::uppercase`. -/
def hex (n : ℕ) : List Char :=
  (Nat.toDigits 16 n).map Char.toUpper

/-- An unsigned number under `std::dec`. -/
def dec (n : ℕ) : List Char :=
  Nat.toDigits 10 n

/-- The part of a summary that depends on the payload. -/
def payloadText (type : EventType) : EventPayload → List Char
  | .cpuid e =>
    "CPUID leaf=0x".toList ++ hex e.leaf.toNat ++ " sub=0x".toList ++ hex e.subleaf.toNat ++
      " => EAX=0x".toList ++ hex e.eax.toNat ++ " EBX=0x".toList ++ hex e.ebx.toNat ++
      " ECX=0x".toList ++ hex e.ecx.toNat ++ " EDX=0x".toList ++ hex e.edx.toNat
  | .io e =>
    (if e.isWrite then "OUT" else "IN").toList ++ " port=0x".toList ++ hex e.port.toNat ++
      " size=".toList ++ dec e.size.toNat ++ "B".toList ++ " value=0x".toList ++ hex e.value.toNat
  | .msr e =>
    (if e.isWrite then "WRMSR" else "RDMSR").toList ++ " index=0x".toList ++ hex e.index.toNat ++
      " value=0x".toList ++ hex e.value.toNat
  | .mmio e =>
    (if e.isWrite then "MMIO-WR" else "MMIO-RD").toList ++ " gpa=0x".toList ++
      hex e.guestPhysAddr.toNat ++ " size=".toList ++ dec e.size.toNat ++ "B".toList ++
      " value=0x".toList ++ hex e.value.toNat
  | .monostate =>
    match type with
    | .guestHalt => "HLT".toList
    | .guestShutdown => "SHUTDOWN".toList
    | _ => "EVENT".toList

/-- `VmiAgent::buildSummary`. -/
def buildSummary (event : HvEvent) (snap : GuestSnapshot) : String :=
  String.ofList ("[VCPU".toList ++ hex event.vcpuId.toNat ++ "] RIP=0x".toList ++
    hex snap.rip.toNat ++ " | ".toList ++ payloadText event.type event.payload)

namespace VmiAgent

/-! ## Reading the guest -/

/-- The loop of `readGuestPhysMemory` : the first region that passes the test is read. -/
def readRegions (addr size : UInt64) : List MemoryRegion → Except Fault (List UInt8)
  | [] => .ok []
  | r :: rs =>
    -- both sums are `uint64_t`
    if addr ≥ r.guestPhysAddr ∧ addr + size ≤ r.guestPhysAddr + r.size then
      match r.host with
      | none => .error .nullPointer
      | some bs =>
        let off := (addr - r.guestPhysAddr).toNat
        if off + size.toNat ≤ bs.length then .ok ((bs.drop off).take size.toNat)
        else .error .outOfBounds
    else readRegions addr size rs

/-- `VmiAgent::readGuestPhysMemory`. -/
def readGuestPhysMemory (a : VmiAgent κ) (vm : VirtualMachine) (addr size : UInt64) :
    Except Fault (List UInt8) :=
  if a.hasVm then readRegions addr size vm.memoryRegions else .ok []

/-- The fields `snapshotRegisters` copies. -/
def snapshotOf (r : KvmRegs) (sr : KvmSregs) (t : TimePoint) : GuestSnapshot where
  rip := r.rip
  rsp := r.rsp
  rax := r.rax
  rbx := r.rbx
  rcx := r.rcx
  rdx := r.rdx
  rsi := r.rsi
  rdi := r.rdi
  r8 := r.r8
  r9 := r.r9
  r10 := r.r10
  r11 := r.r11
  r12 := r.r12
  r13 := r.r13
  r14 := r.r14
  r15 := r.r15
  rflags := r.rflags
  cr0 := sr.cr0
  cr3 := sr.cr3
  cr4 := sr.cr4
  timestamp := t

/-- `VmiAgent::snapshotRegisters`. The argument is used as an index into the vCPUs. -/
def snapshotRegisters (a : VmiAgent κ) (vm : VirtualMachine) (vcpuIndex : UInt32) (clock : Clock) :
    Option GuestSnapshot × Clock :=
  if a.hasVm then
    match vm.vcpus[vcpuIndex.toNat]? with
    | none => (none, clock)
    | some vcpu =>
      match vcpu.getRegs .vmiAgent, vcpu.getSregs .vmiAgent with
      | .ok r, .ok sr => (some (snapshotOf r sr clock.now.1), clock.now.2)
      | _, _ => (none, clock)
  else (none, clock)

/-! ## Events -/

/-- The dump `handleHvEvent` attaches. An empty read attaches none. -/
def dump (a : VmiAgent κ) (vm : VirtualMachine) : Except Fault (Option (List UInt8)) :=
  if a.memDumpEnabled then
    match a.readGuestPhysMemory vm a.memDumpAddr a.memDumpSize with
    | .error f => .error f
    | .ok [] => .ok none
    | .ok (b :: bs) => .ok (some (b :: bs))
  else .ok none

/-- `VmiAgent::handleHvEvent`. -/
def handleHvEvent (event : HvEvent) (vm : VirtualMachine) (clock : Clock) (a : VmiAgent κ)
    (sink : κ) : Except Fault (VmiAgent κ × Clock × κ) :=
  let (snap, clock) := a.snapshotRegisters vm event.vcpuId clock
  let snapshot := snap.getD {}
  match a.dump vm with
  | .error f => .error f
  | .ok memDump =>
    let ie : IntrospectionEvent :=
      { base := event, snapshot, memDump, summary := buildSummary event snapshot }
    .ok ({ a with eventLog := a.eventLog ++ [ie] }, clock,
      a.callbacks.foldl (fun sink cb => cb ie sink) sink)

/-- The handler the constructor subscribes. -/
def handler (event : HvEvent) (w : World δ (Observed κ)) : World δ (Observed κ) :=
  match w.obs.agent.handleHvEvent event w.machine.vm w.clock w.obs.sink with
  | .error f => { w with fault := w.fault.or (some f) }
  | .ok (agent, clock, sink) => { w with clock, obs := { agent, sink } }

/-- The constructor, on a dispatcher that is not null. -/
def construct (hasVm : Bool) (d : EventDispatcher (World δ (Observed κ))) :
    VmiAgent κ × EventDispatcher (World δ (Observed κ)) :=
  let (subId, d') := d.subscribeAll handler
  ({ hasVm, subId }, d')

/-- `VmiAgent::onEvent`. -/
def onEvent (cb : IntrospectionEvent → κ → κ) (a : VmiAgent κ) : VmiAgent κ :=
  { a with callbacks := a.callbacks ++ [cb] }

/-- `VmiAgent::enableMemoryDump`. -/
def enableMemoryDump (addr size : UInt64) (a : VmiAgent κ) : VmiAgent κ :=
  { a with memDumpEnabled := true, memDumpAddr := addr, memDumpSize := size }

/-- `VmiAgent::disableMemoryDump`. -/
def disableMemoryDump (a : VmiAgent κ) : VmiAgent κ :=
  { a with memDumpEnabled := false }

/-- An event whose dump does not fault is logged with the snapshot at the position that its id
says. -/
theorem handleHvEvent_eq {a : VmiAgent κ} {vm : VirtualMachine} {memDump : Option (List UInt8)}
    (hdump : a.dump vm = .ok memDump) (event : HvEvent) (clock : Clock) (sink : κ) :
    ∃ ie clock' sink',
      a.handleHvEvent event vm clock sink =
          .ok ({ a with eventLog := a.eventLog ++ [ie] }, clock', sink') ∧
        ie.base = event ∧
        ie.snapshot = (a.snapshotRegisters vm event.vcpuId clock).1.getD {} := by
  simp only [handleHvEvent, hdump]
  exact ⟨_, _, _, rfl, rfl, rfl⟩

/-! ## Windows -/

end VmiAgent

/-- The window of `size` bytes at `addr` lies in the region, in unbounded arithmetic. -/
def MemoryRegion.Contains (r : MemoryRegion) (addr size : UInt64) : Prop :=
  r.guestPhysAddr.toNat ≤ addr.toNat ∧
    addr.toNat + size.toNat ≤ r.guestPhysAddr.toNat + r.size.toNat

instance (r : MemoryRegion) (addr size : UInt64) : Decidable (r.Contains addr size) :=
  inferInstanceAs (Decidable (_ ∧ _))

/-- The bytes of a window of the region. -/
def MemoryRegion.window (r : MemoryRegion) (addr size : UInt64) : List UInt8 :=
  ((r.host.getD []).drop (addr.toNat - r.guestPhysAddr.toNat)).take size.toNat

/-- Every region has its mapping. -/
def VirtualMachine.Mapped (vm : VirtualMachine) : Prop :=
  ∀ r ∈ vm.memoryRegions, r.host.isSome

/-- A window of memory that is filled with one byte. -/
theorem MemoryRegion.window_of_filled {r : MemoryRegion} {b : UInt8}
    (hr : r.host = some (List.replicate r.size.toNat b)) {addr size : UInt64}
    (h : r.Contains addr size) : r.window addr size = List.replicate size.toNat b := by
  obtain ⟨h1, h2⟩ := h
  rw [MemoryRegion.window, hr, Option.getD_some, List.drop_replicate, List.take_replicate,
    Nat.min_eq_left (by omega)]

/-- What a dump holds if there is one region, which contains the window and is filled with one
byte. -/
theorem MemoryRegion.dump_of_filled {memDump : Option (List UInt8)} {rs : List MemoryRegion}
    {enabled : Prop} {addr size : UInt64} {r : MemoryRegion} {b : UInt8}
    (hpresent : memDump.isSome ↔ enabled ∧ size ≠ 0 ∧ ∃ r ∈ rs, r.Contains addr size)
    (hbytes : ∀ bs ∈ memDump, ∃ r ∈ rs, r.Contains addr size ∧ bs = r.window addr size)
    (henabled : enabled) (hsize : size ≠ 0) (hrs : rs = [r]) (hcontains : r.Contains addr size)
    (hr : r.host = some (List.replicate r.size.toNat b)) :
    memDump = some (List.replicate size.toNat b) := by
  subst hrs
  obtain ⟨bs, hbs⟩ := Option.isSome_iff_exists.1
    (hpresent.2 ⟨henabled, hsize, r, List.mem_singleton.2 rfl, hcontains⟩)
  obtain ⟨r', hr', hcontains', rfl⟩ := hbytes bs hbs
  cases List.mem_singleton.1 hr'
  rw [hbs, window_of_filled hr hcontains']

namespace VmiAgent

/-- For a window that does not wrap, the 64-bit test is containment. -/
theorem test_iff {r : MemoryRegion} {addr size : UInt64}
    (h : addr.toNat + size.toNat < 2 ^ 64) :
    (addr ≥ r.guestPhysAddr ∧ addr + size ≤ r.guestPhysAddr + r.size) ↔ r.Contains addr size := by
  have hr := r.no_wrap
  rw [ge_iff_le, UInt64.le_iff_toNat_le, UInt64.le_iff_toNat_le, UInt64.toNat_add,
    UInt64.toNat_add, Nat.mod_eq_of_lt h, Nat.mod_eq_of_lt hr]
  rfl

theorem length_window {r : MemoryRegion} {addr size : UInt64} (hr : r.host.isSome)
    (h : r.Contains addr size) : (r.window addr size).length = size.toNat := by
  obtain ⟨bs, hbs⟩ := Option.isSome_iff_exists.1 hr
  have hlen := r.host_length bs (by simp [hbs])
  obtain ⟨h1, h2⟩ := h
  simp only [MemoryRegion.window, hbs, Option.getD_some, List.length_take, List.length_drop]
  omega

/-- A window that does not wrap is read from the first region that contains it, inside its
mapping. -/
theorem readRegions_eq {addr size : UInt64} (h : addr.toNat + size.toNat < 2 ^ 64)
    (rs : List MemoryRegion) (hrs : ∀ r ∈ rs, r.host.isSome) :
    readRegions addr size rs =
      .ok ((rs.find? fun r => r.Contains addr size).elim [] fun r => r.window addr size) := by
  induction rs with
  | nil => rfl
  | cons r rs ih =>
    have hr := hrs r (by simp)
    rw [readRegions, List.find?_cons]
    by_cases hc : r.Contains addr size
    · rw [if_pos ((test_iff h).2 hc)]
      obtain ⟨bs, hbs⟩ := Option.isSome_iff_exists.1 hr
      have hlen := r.host_length bs (by simp [hbs])
      obtain ⟨h1, h2⟩ := hc
      have hoff : (addr - r.guestPhysAddr).toNat = addr.toNat - r.guestPhysAddr.toNat :=
        UInt64.toNat_sub_of_le _ _ (UInt64.le_iff_toNat_le.2 h1)
      have hin : addr.toNat - r.guestPhysAddr.toNat + size.toNat ≤ bs.length := by omega
      simp [hbs, hoff, hin, MemoryRegion.Contains, MemoryRegion.window, h1, h2]
    · rw [if_neg fun ht => hc ((test_iff h).1 ht), ih fun r' hr' => hrs r' (by simp [hr'])]
      simp [hc]

/-- For a window that does not wrap, the dump is the window in the first region that contains it. It
is missing if there is none, or if the window is empty. -/
theorem dump_eq {a : VmiAgent κ} {vm : VirtualMachine}
    (hw : a.memDumpAddr.toNat + a.memDumpSize.toNat < 2 ^ 64) (hm : vm.Mapped) :
    a.dump vm = .ok (if a.memDumpEnabled ∧ a.hasVm ∧ a.memDumpSize ≠ 0 then
      (vm.memoryRegions.find? fun r => r.Contains a.memDumpAddr a.memDumpSize).map
        (·.window a.memDumpAddr a.memDumpSize) else none) := by
  unfold dump readGuestPhysMemory
  by_cases he : a.memDumpEnabled
  · by_cases hv : a.hasVm
    · rw [if_pos he, if_pos hv, readRegions_eq hw _ hm]
      rcases hfind : vm.memoryRegions.find? fun r => r.Contains a.memDumpAddr a.memDumpSize
        with _ | r
      · simp [hfind]
      · have hlen := length_window (hm r (List.mem_of_find?_eq_some hfind))
          (by simpa using List.find?_some hfind)
        rcases hbs : r.window a.memDumpAddr a.memDumpSize with _ | ⟨b, bs⟩
        · have hzero : a.memDumpSize = 0 := by
            rw [hbs] at hlen
            exact UInt64.toNat_inj.1 hlen.symm
          simp only [hfind, Option.elim_some, hbs]
          simp [hzero]
        · have hne : a.memDumpSize ≠ 0 := by
            intro h0
            rw [hbs, h0] at hlen
            simp at hlen
          simp [he, hv, hfind, hbs, hne]
    · simp [he, hv]
  · simp [he]

/-- The agent writes its log, its callbacks' state and the clock, and nothing of the machine. -/
theorem machine_handler (event : HvEvent) (w : World δ (Observed κ)) :
    (handler event w).machine = w.machine := by
  unfold handler
  split <;> rfl

end VmiAgent

end MinBp
