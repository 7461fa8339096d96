import MinBp.CpuidTable
import MinBp.Loading
import MinBp.Resources
import MinBp.RunLog
import MinBp.Sigint

/-!
# `main` up to its loop

`main` opens KVM, creates a VM, loads the guest at `0x1000` into 512 KiB of memory, registers its
callbacks, puts an agent and a logger on a new bus, publishes and installs a CPUID table, and takes
a snapshot (`prepare`). Every call that can fail is a part of the `Environment`. The program stops
with exit code 1 at the first one that does.

`prepare_cases` says when `main` gets to its loop, and what it has there. Console output is modelled
as far as the subscribers write it : the agent's callback prints a summary, the logger the vCPU and
the instruction pointer.
-/

open Ranges

namespace MinBp

namespace Main

/-! ## Subscribers -/

/-- What the switch of the logger prints. -/
def tag : EventType → String
  | .cpuidAccess => "  [CPUID] "
  | .ioRead => "  [IN]    "
  | .ioWrite => "  [OUT]   "
  | .msrRead => "  [RDMSR] "
  | .msrWrite => "  [WRMSR] "
  | .memAccess => "  [MMIO]  "
  | .guestHalt => "  [HLT]   "
  | .guestShutdown => "  [SHUT]  "

/-- The instruction pointer the logger shows : zero next to a `CpuidEvent`. -/
def shownRip (ev : HvEvent) : UInt64 :=
  match ev.payload with
  | .cpuid _ => 0
  | _ => ev.rip

/-- The line of the logger. -/
def loggerLine (ev : HvEvent) : String :=
  String.ofList ((tag ev.type).toList ++ "vcpu=".toList ++ dec ev.vcpuId.toNat ++
    " rip=0x".toList ++ Nat.toDigits 16 (shownRip ev).toNat)

/-- The line of the agent's callback. -/
def vmiLine (ie : IntrospectionEvent) : String :=
  "  [VMI] " ++ ie.summary

/-- The lines printed so far are the state that both subscribers work on. -/
abbrev Printed := List String

/-- The handler of `dispatcher.subscribeAll`. -/
def logger (ev : HvEvent) (w : World MmioDeviceState (Observed Printed)) :
    World MmioDeviceState (Observed Printed) :=
  { w with obs := { w.obs with sink := w.obs.sink ++ [loggerLine ev] } }

/-- `main`'s run loop and bus. -/
abbrev Hv := Hypervisor MmioDeviceState (Observed Printed)

/-! ## The calls that can fail -/

/-- What `main` meets outside of the program. -/
structure Environment where
  /-- What the calls of `KvmSystem::open` and `createVm` return. -/
  openKvm : Ownership.OpenOutcome
  createVm : Except Errno ℕ
  /-- The bytes of `simpleGuest.bin`, none if it cannot be read. -/
  image : List UInt8
  /-- A vector holds no more. -/
  image_length : image.length < 2 ^ 63
  mapOs : MapOutcome := {}
  vcpuOs : VCpuOutcome := {}
  host : HostCpuid
  /-- `KVM_SET_CPUID2`. -/
  setCpuid2 : KvmCpuid2 → Option Errno := fun _ => none
  /-- The readings of the clock. -/
  time : ℕ → TimePoint := fun _ => 0
  /-- Whether `vmi_events.json` can be written. -/
  opens : Bool := true

/-- The address at which the guest is loaded. -/
def loadAddr : UInt64 := 0x1000

/-- The size of its memory, `1 << 19`. -/
def memSize : UInt64 := 0x80000

/-- `KvmSystem::open` and `createVm`. -/
def newVm (env : Environment) : Option VirtualMachine :=
  match Ownership.KvmSystem.open env.openKvm {} with
  | (.error _, _) => none
  | (.ok sys, kernel) =>
    match sys.createVm env.createVm kernel with
    | (.error _, _) => none
    | (.ok _, _) => some {}

/-- From the start to the loaded guest, `none` if `main` returns 1 on the way. -/
def load (env : Environment) : Except Fault (Option VirtualMachine) :=
  match newVm env with
  | none => .ok none
  | some vm =>
    if env.image = [] then .ok none
    else
      match GuestLoader.loadBytes env.mapOs env.vcpuOs env.image loadAddr memSize vm with
      | .error f => .error f
      | .ok (some _, _) => .ok none
      | .ok (none, vm) => .ok (some vm)

/-- The agent and the logger on a new bus, next to the machine of `main`. -/
def wire (env : Environment) (vm : VirtualMachine) (h : 0 < vm.vcpus.length) : Hv :=
  let (agent, dispatcher) := VmiAgent.construct true {}
  let agent := agent.onEvent fun ie sink => sink ++ [vmiLine ie]
  let (_, dispatcher) := dispatcher.subscribeAll logger
  { world :=
      { machine := { machine vm h with msr := some {} }
        clock := { time := env.time }
        obs := { agent, sink := [] } }
    dispatch := some dispatcher }

/-- `main` up to its loop : the snapshot, and what the loop starts with. It is `none` if `main`
returns 1 on the way. -/
def prepare (env : Environment) : Except Fault (Option (VmSnapShot × Hv)) :=
  match load env with
  | .error f => .error f
  | .ok none => .ok none
  | .ok (some vm) =>
    -- `vm.vcpus()[0]`
    if h : 0 < vm.vcpus.length then
      let (cpuidEntries, s) := cpuidTable env.host (wire env vm h)
      match env.setCpuid2 (VCpu.cpuidBuffer cpuidEntries) with
      | some _ => .ok none
      | none =>
        match s.machine.vm.takeSnapShot with
        | .error f => .error f
        | .ok snap => .ok (some (snap, s))
    else .error .outOfBounds

/-! ## Loading -/

/-- The calls of the loader succeed, and the image fits. -/
structure Loads (env : Environment) : Prop where
  mappable : MemoryRegion.Mappable env.mapOs memSize
  fits : env.image.length ≤ 0x7F000
  createVcpu : env.vcpuOs.createVcpu = none
  mmap : env.vcpuOs.mmap = none
  getSregs : env.vcpuOs.faults .guestLoader .getSregs = none
  setSregs : env.vcpuOs.faults .guestLoader .setSregs = none
  setRegs : env.vcpuOs.faults .guestLoader .setRegs = none

/-- The VM with the guest in it : one region with the image and zeros, and one vCPU about to execute
the first byte of the image. -/
structure Loaded (env : Environment) (vm : VirtualMachine) : Prop where
  region : ∃ r, vm.memoryRegions = [r] ∧ GuestLoader.Placed env.image loadAddr memSize r
  vcpu : ∃ v, vm.vcpus = [v] ∧ v.id = 0 ∧ v.realModeRip = loadAddr.toNat ∧
    v.faults = env.vcpuOs.faults ∧ v.kvmRun = env.vcpuOs.kvmRun

/-- `setupRealModeVCpu` succeeds exactly if its three ioctls do. -/
theorem setupRealModeVCpu_none_iff (v : VCpu) (ip : UInt16) :
    (GuestLoader.setupRealModeVCpu v ip).1 = none ↔
      v.faults .guestLoader .getSregs = none ∧ v.faults .guestLoader .setSregs = none ∧
        v.faults .guestLoader .setRegs = none := by
  unfold GuestLoader.setupRealModeVCpu VCpu.getSregs VCpu.setSregs VCpu.setRegs
  rcases hg : v.faults .guestLoader .getSregs with _ | e <;>
    rcases hs : v.faults .guestLoader .setSregs with _ | e <;>
      rcases hr : v.faults .guestLoader .setRegs with _ | e <;> simp [hr]

theorem setupRealModeVCpu_frame (v : VCpu) (ip : UInt16) :
    (GuestLoader.setupRealModeVCpu v ip).2.id = v.id ∧
      (GuestLoader.setupRealModeVCpu v ip).2.faults = v.faults ∧
      (GuestLoader.setupRealModeVCpu v ip).2.kvmRun = v.kvmRun := by
  unfold GuestLoader.setupRealModeVCpu VCpu.getSregs VCpu.setSregs VCpu.setRegs
  rcases hg : v.faults .guestLoader .getSregs with _ | e <;>
    rcases hs : v.faults .guestLoader .setSregs with _ | e <;>
      rcases hr : v.faults .guestLoader .setRegs with _ | e <;> simp [hr]

theorem create_eq_ok_iff {os : VCpuOutcome} {id : UInt32} {v : VCpu} :
    VCpu.create os id = .ok v ↔ os.createVcpu = none ∧ os.mmap = none ∧
      v = { id, regs := os.regs, sregs := os.sregs, faults := os.faults, kvmRun := os.kvmRun } := by
  unfold VCpu.create
  rcases os.createVcpu with _ | e
  · rcases os.mmap with _ | e
    · simp [eq_comm]
    · simp
  · simp

/-- The range check of the loader, for the addresses of `main`. -/
theorem le_memSize_iff (env : Environment) :
    loadAddr + UInt64.ofNat env.image.length ≤ memSize ↔ env.image.length ≤ 0x7F000 := by
  have hlen := env.image_length
  rw [UInt64.le_iff_toNat_le, UInt64.toNat_add,
    UInt64.toNat_ofNat_of_lt' (by rw [UInt64.size]; omega)]
  have h1 : loadAddr.toNat = 0x1000 := rfl
  have h2 : memSize.toNat = 0x80000 := rfl
  rw [h1, h2]
  omega

/-- `loadBytes` on the new VM succeeds exactly if its calls do and the image fits. It never writes
outside of the region. -/
theorem loadBytes_cases (env : Environment) :
    (Loads env ∧ ∃ vm, GuestLoader.loadBytes env.mapOs env.vcpuOs env.image loadAddr memSize {} =
      .ok (none, vm) ∧ Loaded env vm) ∨
    (¬Loads env ∧ ∃ e vm, GuestLoader.loadBytes env.mapOs env.vcpuOs env.image loadAddr memSize {} =
      .ok (some e, vm)) := by
  by_cases hm : MemoryRegion.Mappable env.mapOs memSize
  swap
  · obtain ⟨e, he⟩ := GuestLoader.loadBytes_of_not_mappable env.vcpuOs env.image loadAddr {} hm
    exact .inr ⟨fun h => hm h.mappable, e, {}, he⟩
  obtain ⟨r, hc⟩ := MemoryRegion.exists_create hm ({} : VirtualMachine).nextSlot 0
  by_cases hfits : env.image.length ≤ 0x7F000
  swap
  · refine .inr ⟨fun h => hfits h.fits, ENOMEM, GuestLoader.withRegion r {}, ?_⟩
    rw [GuestLoader.loadBytes, GuestLoader.place_of_create hc, if_neg fun h =>
      hfits ((le_memSize_iff env).1 h)]
  have hfit : loadAddr.toNat + env.image.length ≤ memSize.toNat := by
    have h1 : loadAddr.toNat = 0x1000 := rfl
    have h2 : memSize.toNat = 0x80000 := rfl
    omega
  obtain ⟨r', hplaced, hplace⟩ := GuestLoader.place_of_fits env.vcpuOs hc hfit
  rw [GuestLoader.loadBytes, hplace, VirtualMachine.addVCpu]
  rcases hv : VCpu.create env.vcpuOs 0 with e | v
  · refine .inr ⟨fun h => ?_, e, _, rfl⟩
    rw [create_eq_ok_iff.2 ⟨h.createVcpu, h.mmap, rfl⟩] at hv
    cases hv
  obtain ⟨hcreate, hmmap, hveq⟩ := create_eq_ok_iff.1 hv
  have hiff := setupRealModeVCpu_none_iff v loadAddr.toUInt16
  obtain ⟨hid, hfaults, hrun⟩ := setupRealModeVCpu_frame v loadAddr.toUInt16
  have hset : GuestLoader.setup (GuestLoader.setupRealModeVCpu · loadAddr.toUInt16) 0
      { GuestLoader.withRegion r' {} with vcpus := [v] } =
        .ok ((GuestLoader.setupRealModeVCpu v loadAddr.toUInt16).1,
          { GuestLoader.withRegion r' {} with
            vcpus := [(GuestLoader.setupRealModeVCpu v loadAddr.toUInt16).2] }) := rfl
  rcases hsetup : GuestLoader.setupRealModeVCpu v loadAddr.toUInt16 with ⟨_ | e, v'⟩ <;>
    rw [hsetup] at hiff hid hfaults hrun hset <;> rw [hveq] at hiff
  · obtain ⟨hget, hsetSregs, hsetRegs⟩ := hiff.1 rfl
    rw [hveq] at hid hfaults hrun
    exact .inl ⟨⟨hm, hfits, hcreate, hmmap, hget, hsetSregs, hsetRegs⟩, _, hset, ⟨r', rfl, hplaced⟩,
      v', rfl, hid, GuestLoader.realModeRip_setupRealModeVCpu hsetup, hfaults, hrun⟩
  · refine .inr ⟨fun h => ?_, e, _, hset⟩
    have hnone := hiff.2 ⟨h.getSregs, h.setSregs, h.setRegs⟩
    cases hnone

/-! ## Reports -/

/-- The dispatcher of `main` after `n` publications. -/
def bus (n : ℕ) : EventDispatcher (World MmioDeviceState (Observed Printed)) where
  subscriptions := [⟨1, none, VmiAgent.handler⟩, ⟨2, none, logger⟩]
  nextId := 3
  publishedCount := UInt64.ofNat n

/-- The agent of `main` with a log. -/
def agentWith (log : List IntrospectionEvent) : VmiAgent Printed where
  callbacks := [fun ie sink => sink ++ [vmiLine ie]]
  eventLog := log
  subId := 1

/-- The entry of a publication : the event and the registers of the vCPU at its time. `main` asks
for no dumps. -/
structure Reported (p : Publication MmioDeviceState) (ie : IntrospectionEvent) : Prop where
  base : ie.base = p.event
  snapshot : p.machine.vcpu.SnapshotIs ie.snapshot
  memDump : ie.memDump = none
  summary : ie.summary = buildSummary p.event ie.snapshot

/-- The two lines that are printed for an entry. -/
def lines (ie : IntrospectionEvent) : Printed :=
  [vmiLine ie, loggerLine ie.base]

/-- Everything `main` has published is counted, logged and printed. -/
structure Reports (s : Hv) : Prop where
  dispatch : s.dispatch = some (bus s.published.length)
  agent : s.agent = agentWith s.agent.eventLog
  entries : List.Forall₂ Reported s.published s.agent.eventLog
  printed : s.world.obs.sink = s.agent.eventLog.flatMap lines
  regular : s.machine.Regular
  fault : s.world.fault = none

theorem harmless_logger : Subscription.Harmless ⟨2, none, logger⟩ :=
  fun _ _ => ⟨rfl, rfl, rfl⟩

namespace Reports

variable {s : Hv}

/-- The reports do not depend on the machine, as long as it is regular. -/
theorem setMachine (h : Reports s) {m : Machine MmioDeviceState} (hm : m.Regular) :
    Reports (s.setMachine m) :=
  ⟨h.dispatch, h.agent, h.entries, h.printed, hm, h.fault⟩

/-- A publication about the vCPU is reported, and changes nothing of the machine. -/
theorem emit (h : Reports s) {mk : EventMaker}
    (hid : ∀ t, (mk s.machine.vcpu t).vcpuId = s.machine.vcpu.id) :
    Reports (s.emit mk) ∧ (s.emit mk).machine = s.machine := by
  let ev := mk s.machine.vcpu s.world.clock.now.1
  let w : World MmioDeviceState (Observed Printed) := { s.world with clock := s.world.clock.now.2 }
  have hready : Watch.Ready ⟨bus s.published.length, w⟩ := by
    refine ⟨⟨1, [], [⟨2, none, logger⟩], rfl, nofun, ?_⟩, h.fault, h.regular, ?_, ?_⟩
    · intro sub hsub
      rw [List.mem_singleton.1 hsub]
      exact harmless_logger
    · exact congrArg VmiAgent.hasVm h.agent
    · have ha : s.agent.memDumpAddr = 0 := congrArg VmiAgent.memDumpAddr h.agent
      have hs : s.agent.memDumpSize = 0 := congrArg VmiAgent.memDumpSize h.agent
      show s.agent.memDumpAddr.toNat + s.agent.memDumpSize.toNat < 2 ^ 64
      rw [ha, hs]
      decide
  obtain ⟨ie, clock, hentry, hhandler⟩ := VmiAgent.handler_eq hready ev (w := w) rfl rfl
  have hemit : s.emit mk =
      { world := logger ev (w.record ie clock)
        dispatch := some (bus (s.published.length + 1))
        published := s.published ++ [⟨ev, s.machine⟩] } := by
    rw [Hypervisor.emit_of_some h.dispatch, ← hhandler, bus, bus, UInt64.ofNat_add]
    rfl
  have hdump : ie.memDump = none := by
    have hoff : s.agent.memDumpEnabled = false := congrArg VmiAgent.memDumpEnabled h.agent
    rw [← Option.not_isSome_iff_eq_none, hentry.present]
    rintro ⟨hon, -⟩
    exact Bool.false_ne_true (hoff.symm.trans hon)
  have hreported : Reported ⟨ev, s.machine⟩ ie :=
    ⟨hentry.base, hentry.snapshot _ (List.get_mem _ _) (hid _).symm, hdump, hentry.summary⟩
  rw [hemit]
  refine ⟨⟨?_, ?_, ?_, ?_, h.regular, h.fault⟩, rfl⟩
  · rw [List.length_append, List.length_singleton]
  · show ({ s.agent with eventLog := s.agent.eventLog ++ [ie] } : VmiAgent Printed) =
      agentWith (s.agent.eventLog ++ [ie])
    rw [h.agent]
    rfl
  · exact List.rel_append h.entries (.cons hreported .nil)
  · have hcallbacks : s.agent.callbacks = [fun ie sink => sink ++ [vmiLine ie]] :=
      congrArg VmiAgent.callbacks h.agent
    show s.agent.callbacks.foldl (fun sink cb => cb ie sink) s.world.obs.sink ++ [loggerLine ev] =
      (s.agent.eventLog ++ [ie]).flatMap lines
    rw [hcallbacks, List.foldl_cons, List.foldl_nil, h.printed, List.flatMap_append,
      List.append_assoc, ← hentry.base]
    rfl

/-- The loop over the CPUID leaves is reported. -/
theorem foldl_cpuidRound (host : HostCpuid) : ∀ (leaves : List UInt32) (es : List KvmCpuidEntry2)
    {s : Hv}, Reports s → s.machine.vcpu.id = 0 →
    Reports (leaves.foldl (cpuidRound host) (es, s)).2 ∧
      (leaves.foldl (cpuidRound host) (es, s)).2.machine = s.machine
  | [], _, _, h, _ => ⟨h, rfl⟩
  | leaf :: leaves, es, s, h, hid => by
    have hone : Reports (s.emit (leafEvent host leaf)) ∧
        (s.emit (leafEvent host leaf)).machine = s.machine :=
      h.emit fun _ => hid.symm
    have hrest := foldl_cpuidRound host leaves (es ++ [hostEntry host leaf]) hone.1
      (by rw [hone.2]; exact hid)
    exact ⟨hrest.1, hrest.2.trans hone.2⟩

end Reports

/-! ## In front of the loop -/

/-- Every call up to the loop succeeds, and the image fits. -/
structure Boots (env : Environment) : Prop where
  newVm : (newVm env).isSome
  image : env.image ≠ []
  loads : Loads env
  setCpuid2 : env.setCpuid2 (VCpu.cpuidBuffer (cpuidLeaves.map (hostEntry env.host))) = none

/-- What `main` has in front of its loop. -/
structure Started (env : Environment) (snap : VmSnapShot) (s : Hv) : Prop where
  reports : Reports s
  loaded : Loaded env s.machine.vm
  wired : s.machine.Wired
  exitCount : s.machine.exitCount = 0
  /-- The leaves of the table have been published. -/
  payloads : s.published.map (·.event.payload) =
    cpuidLeaves.map fun leaf => (leafEvent env.host leaf {} 0).payload
  takeSnapShot : s.machine.vm.takeSnapShot = .ok snap

theorem Loaded.regular {env : Environment} {m : Machine MmioDeviceState} (h : Loaded env m.vm) :
    m.Regular where
  ids i v hv := by
    obtain ⟨v₀, hvcpus, hid, -⟩ := h.vcpu
    rw [hvcpus] at hv
    rcases i with _ | i
    · obtain rfl : v₀ = v := Option.some.inj hv
      rw [hid]
      rfl
    · cases hv
  mapped r hr := by
    obtain ⟨r₀, hregions, hplaced⟩ := h.region
    rw [hregions, List.mem_singleton] at hr
    rw [hr, hplaced.host]
    rfl

theorem Loaded.id {env : Environment} {m : Machine MmioDeviceState} (h : Loaded env m.vm) :
    m.vcpu.id = 0 := by
  obtain ⟨v, hvcpus, hid, -⟩ := h.vcpu
  have hmem : m.vcpu ∈ m.vm.vcpus := List.get_mem _ _
  rw [hvcpus, List.mem_singleton] at hmem
  rw [hmem, hid]

theorem newVm_eq {env : Environment} {vm : VirtualMachine} (h : newVm env = some vm) : vm = {} := by
  unfold newVm at h
  split at h
  · cases h
  · split at h
    · cases h
    · exact (Option.some.inj h).symm

/-- `load` gives the loaded VM, or nothing if a call fails. -/
theorem load_cases (env : Environment) :
    (((newVm env).isSome ∧ env.image ≠ [] ∧ Loads env) ∧
      ∃ vm, load env = .ok (some vm) ∧ Loaded env vm) ∨
    (¬((newVm env).isSome ∧ env.image ≠ [] ∧ Loads env) ∧ load env = .ok none) := by
  unfold load
  rcases hvm : newVm env with _ | vm
  · exact .inr ⟨fun h => absurd h.1 Bool.false_ne_true, rfl⟩
  obtain rfl := newVm_eq hvm
  by_cases himage : env.image = []
  · exact .inr ⟨fun h => h.2.1 himage, if_pos himage⟩
  dsimp only
  rw [if_neg himage]
  rcases loadBytes_cases env with ⟨hloads, vm, hload, hloaded⟩ | ⟨hloads, e, vm, hload⟩
  · exact .inl ⟨⟨rfl, himage, hloads⟩, vm, by rw [hload], hloaded⟩
  · exact .inr ⟨fun h => hloads h.2.2, by rw [hload]⟩

theorem reports_wire {env : Environment} {vm : VirtualMachine} (hloaded : Loaded env vm)
    (h : 0 < vm.vcpus.length) : Reports (wire env vm h) :=
  ⟨rfl, rfl, .nil, rfl, hloaded.regular, rfl⟩

/-- What `main` has in front of its loop comes from the loop over the CPUID leaves. -/
theorem exists_of_prepare {env : Environment} {snap : VmSnapShot} {s : Hv}
    (h : prepare env = .ok (some (snap, s))) :
    ∃ (vm : VirtualMachine) (hpos : 0 < vm.vcpus.length), Loaded env vm ∧
      s = (cpuidLeaves.foldl (cpuidRound env.host) ([], wire env vm hpos)).2 := by
  unfold prepare at h
  rcases load_cases env with ⟨-, vm, hload, hloaded⟩ | ⟨-, hload⟩
  swap
  · rw [hload] at h
    cases h
  rw [hload] at h
  dsimp only at h
  split at h
  · rename_i hpos
    split at h
    · cases h
    · split at h
      · cases h
      · cases h
        exact ⟨vm, hpos, hloaded, rfl⟩
  · cases h

/-- `main` gets to its loop exactly if every call up to there succeeds and the image fits. Otherwise
it returns 1. -/
theorem prepare_cases (env : Environment) :
    (Boots env ∧ ∃ snap s, prepare env = .ok (some (snap, s)) ∧ Started env snap s) ∨
    (¬Boots env ∧ prepare env = .ok none) := by
  unfold prepare
  rcases load_cases env with ⟨⟨hvm, himage, hloads⟩, vm, hload, hloaded⟩ | ⟨hnot, hload⟩
  swap
  · exact .inr ⟨fun h => hnot ⟨h.newVm, h.image, h.loads⟩, by rw [hload]⟩
  have hpos : 0 < vm.vcpus.length := by
    obtain ⟨v, hv, -⟩ := hloaded.vcpu
    rw [hv]
    exact Nat.one_pos
  obtain ⟨htable, hpayloads⟩ :=
    foldl_cpuidRound env.host cpuidLeaves [] (s := wire env vm hpos) rfl
  obtain ⟨hreports, hmachine⟩ := Reports.foldl_cpuidRound env.host cpuidLeaves []
    (reports_wire hloaded hpos) (hloaded.id (m := (wire env vm hpos).machine))
  rw [← cpuidTable] at htable hpayloads hreports hmachine
  rw [hload]
  dsimp only
  rw [dif_pos hpos, htable, List.nil_append]
  rcases hset : env.setCpuid2 (VCpu.cpuidBuffer (cpuidLeaves.map (hostEntry env.host))) with _ | e
  · obtain ⟨snap, hsnap⟩ :=
      (cpuidTable env.host (wire env vm hpos)).2.machine.exists_takeSnapShot
    dsimp only
    rw [hsnap]
    exact .inl ⟨⟨hvm, himage, hloads, hset⟩, snap, _, rfl, hreports,
      by rw [hmachine]; exact hloaded, by rw [Machine.Wired, hmachine]; rfl,
      by rw [hmachine]; rfl, hpayloads, hsnap⟩
  · refine .inr ⟨fun h => ?_, rfl⟩
    rw [h.setCpuid2] at hset
    cases hset

end Main

end MinBp
