import MinBp.VmiAgent

/-!
# Ids and positions of vCPUs

`addVCpu` gives a vCPU the id its caller chooses and puts it at the end of the list. Events name a
vCPU by its id, while `snapshotRegisters` takes a position in the list. The agent hands the one to
the other, so an event carries the registers of the vCPU it names if and only if that vCPU was
created in the place its id says (`attributes_iff`).
-/

namespace MinBp

variable {κ : Type}

namespace VirtualMachine

/-- `addVCpu` for one id after the other. A call that fails leaves the VM as it is. -/
def addVCpus (calls : List (UInt32 × VCpuOutcome)) (vm : VirtualMachine) : VirtualMachine :=
  calls.foldl (fun vm call => (vm.addVCpu call.2 call.1).2) vm

/-- The ids of the vCPUs that the calls create, in order. -/
def createdIds (calls : List (UInt32 × VCpuOutcome)) : List UInt32 :=
  calls.filterMap fun call => (VCpu.create call.2 call.1).toOption.map VCpu.id

/-- The ids of the vCPUs, by position. -/
def ids (vm : VirtualMachine) : List UInt32 :=
  vm.vcpus.map VCpu.id

theorem ids_addVCpus (calls : List (UInt32 × VCpuOutcome)) (vm : VirtualMachine) :
    (vm.addVCpus calls).ids = vm.ids ++ createdIds calls := by
  induction calls generalizing vm with
  | nil => simp [addVCpus, createdIds]
  | cons call calls ih =>
    have hstep := ih (vm.addVCpu call.2 call.1).2
    rw [addVCpus, List.foldl_cons, ← addVCpus, hstep]
    rcases hcreate : VCpu.create call.2 call.1 with e | v
    · simp [addVCpu, createdIds, hcreate, Except.toOption]
    · simp [addVCpu, createdIds, ids, hcreate, Except.toOption]

end VirtualMachine

/-- The agent can read all registers of the vCPU. -/
def VCpu.Readable (v : VCpu) : Prop :=
  v.faults .vmiAgent .getRegs = none ∧ v.faults .vmiAgent .getSregs = none

namespace VmiAgent

/-- Events that name vCPU `id` are logged with the registers of that vCPU, if register ioctls
succeed and the memory dump does not fault. -/
def Attributes (a : VmiAgent κ) (sink : κ) (id : UInt32) (vm : VirtualMachine) : Prop :=
  (∀ v ∈ vm.vcpus, v.Readable) → ∀ memDump, a.dump vm = .ok memDump →
    ∀ event clock, event.vcpuId = id → ∃ ie clock' sink',
      a.handleHvEvent event vm clock sink =
          .ok ({ a with eventLog := a.eventLog ++ [ie] }, clock', sink') ∧
        ∃ v ∈ vm.vcpus, v.id = id ∧ ∃ t, ie.snapshot = snapshotOf v.regs v.sregs t

theorem snapshotRegisters_of_readable {a : VmiAgent κ} (ha : a.hasVm) {vm : VirtualMachine}
    {i : UInt32} {v : VCpu} (hi : vm.vcpus[i.toNat]? = some v) (hv : v.Readable) (clock : Clock) :
    (a.snapshotRegisters vm i clock).1 = some (snapshotOf v.regs v.sregs clock.now.1) := by
  simp only [snapshotRegisters, ha, if_true, hi, VCpu.getRegs_ok hv.1, VCpu.getSregs_ok hv.2]

theorem snapshotRegisters_of_none {a : VmiAgent κ} {vm : VirtualMachine} {i : UInt32}
    (hi : vm.vcpus[i.toNat]? = none) (clock : Clock) :
    (a.snapshotRegisters vm i clock).1 = none := by
  unfold snapshotRegisters
  split
  · simp [hi]
  · rfl

/-- vCPUs with these ids, of which only the one at position `i` has started. -/
def startedAt (i : ℕ) (ids : List UInt32) : VirtualMachine where
  vcpus := ids.mapIdx fun j id => { id, regs := { rip := if j = i then 1 else 0 } }

theorem readable_startedAt {i : ℕ} {ids : List UInt32} :
    ∀ v ∈ (startedAt i ids).vcpus, v.Readable := by
  intro v hv
  obtain ⟨j, hj, rfl⟩ := List.mem_mapIdx.1 hv
  exact ⟨rfl, rfl⟩

theorem ids_startedAt (i : ℕ) (ids : List UInt32) : (startedAt i ids).ids = ids := by
  refine List.ext_getElem? fun j => ?_
  simp [startedAt, VirtualMachine.ids, Function.comp_def]

/-- Without memory a dump is empty. -/
theorem dump_startedAt (a : VmiAgent κ) (i : ℕ) (ids : List UInt32) :
    a.dump (startedAt i ids) = .ok none := by
  simp [dump, readGuestPhysMemory, startedAt, readRegions]

/-- The agent finds the instruction pointer 1 only at the position that has started. -/
theorem rip_startedAt {a : VmiAgent κ} (ha : a.hasVm) {i : ℕ} {ids : List UInt32} {id : UInt32}
    (hne : id.toNat ≠ i) (clock : Clock) :
    ((a.snapshotRegisters (startedAt i ids) id clock).1.getD {}).rip = 0 := by
  rcases hv : (startedAt i ids).vcpus[id.toNat]? with _ | v
  · rw [snapshotRegisters_of_none hv]
    rfl
  · rw [snapshotRegisters_of_readable ha hv (readable_startedAt v (List.mem_of_getElem? hv))]
    simp only [startedAt, List.getElem?_mapIdx, Option.map_eq_some_iff] at hv
    obtain ⟨id', -, rfl⟩ := hv
    simp [snapshotOf, hne]

/-- A vCPU at the position its id says is the one the agent reads. -/
theorem attributes_of_position {a : VmiAgent κ} (ha : a.hasVm) {vm : VirtualMachine} {id : UInt32}
    (hid : vm.ids[id.toNat]? = some id) (sink : κ) : a.Attributes sink id vm := by
  rintro hread memDump hdump event clock rfl
  obtain ⟨ie, clock', sink', hrun, -, hsnap⟩ := handleHvEvent_eq hdump event clock sink
  rw [VirtualMachine.ids, List.getElem?_map, Option.map_eq_some_iff] at hid
  obtain ⟨v, hv, hid⟩ := hid
  have hmem := List.mem_of_getElem? hv
  rw [snapshotRegisters_of_readable ha hv (hread v hmem)] at hsnap
  exact ⟨ie, clock', sink', hrun, v, hmem, hid, _, hsnap⟩

/-- If a vCPU at another position than its id says is the only one that has started, its events are
logged with registers that are not its own. -/
theorem not_attributes_startedAt {a : VmiAgent κ} (ha : a.hasVm) {ids : List UInt32}
    (hnodup : ids.Nodup) {i : ℕ} {id : UInt32} (hi : ids[i]? = some id) (hne : id.toNat ≠ i)
    (sink : κ) : ¬a.Attributes sink id (startedAt i ids) := by
  intro h
  have hdump := dump_startedAt a i ids
  let event : HvEvent := { type := .guestHalt, vcpuId := id }
  obtain ⟨ie, clock', sink', hrun, v, hv, hid, t, hsnap⟩ :=
    h readable_startedAt none hdump event {} rfl
  obtain ⟨ie', _, _, hrun', -, hsnap'⟩ := handleHvEvent_eq hdump event {} sink
  have hsame : ie = ie' := by
    have heq := hrun.symm.trans hrun'
    simp only [Except.ok.injEq, Prod.mk.injEq, VmiAgent.mk.injEq, List.append_cancel_left_eq,
      List.cons.injEq, and_true, true_and] at heq
    exact heq.1
  have hzero : ie.snapshot.rip = 0 := by
    rw [hsame, hsnap']
    exact rip_startedAt ha hne {}
  -- ids are distinct, so `v` is the vCPU that has started
  obtain ⟨j, hj, rfl⟩ := List.mem_mapIdx.1 hv
  have hij : j = i := by
    refine (List.getElem?_inj hj hnodup).1 ?_
    rw [hi, List.getElem?_eq_getElem hj]
    exact congrArg some hid
  rw [hsnap] at hzero
  simp [snapshotOf, hij] at hzero

/-- Events carry the registers of the vCPU they name if and only if that vCPU was created at the
position its id says. -/
theorem attributes_iff {calls : List (UInt32 × VCpuOutcome)}
    (hnodup : (VirtualMachine.createdIds calls).Nodup) {i : ℕ} {id : UInt32}
    (hi : (VirtualMachine.createdIds calls)[i]? = some id) {vm₀ : VirtualMachine}
    (hempty : vm₀.vcpus = []) {a : VmiAgent κ} (ha : a.hasVm) (sink : κ) :
    (∀ vm, vm.ids = (vm₀.addVCpus calls).ids → a.Attributes sink id vm) ↔ id.toNat = i := by
  have hids : (vm₀.addVCpus calls).ids = VirtualMachine.createdIds calls := by
    rw [VirtualMachine.ids_addVCpus, VirtualMachine.ids, hempty]
    rfl
  rw [hids]
  constructor
  · intro h
    by_contra hne
    exact not_attributes_startedAt ha hnodup hi hne sink (h _ (ids_startedAt i _))
  · rintro rfl vm hvm
    exact attributes_of_position ha (hvm ▸ hi) sink

/-- The vCPUs with ids 1 and 0, created in this order. -/
def swappedCalls : List (UInt32 × VCpuOutcome) :=
  [(1, { regs := { rip := 0x1000 } }), (0, { regs := { rip := 0x2000 } })]

/-- vCPUs 0 and 1, created in this order, are not mixed up. -/
theorem attributes_in_order :
    (VirtualMachine.createdIds [(0, {}), (1, {})]).Nodup ∧
      ∀ vm, vm.ids = (({} : VirtualMachine).addVCpus [(0, {}), (1, {})]).ids →
        ({} : VmiAgent Unit).Attributes () 1 vm :=
  ⟨by decide, (attributes_iff (i := 1) (by decide) rfl rfl rfl ()).2 rfl⟩

/-- An event that names vCPU 1 carries the registers of vCPU 0 if 1 was created first, and zeros if
the only vCPU has id 5. -/
theorem attributes_swapped :
    ¬({} : VmiAgent Unit).Attributes () 1 (({} : VirtualMachine).addVCpus swappedCalls) ∧
      (({} : VmiAgent Unit).handleHvEvent { type := .guestHalt, vcpuId := 1 }
          (({} : VirtualMachine).addVCpus swappedCalls) {} ()).toOption.map
        (fun p => p.1.eventLog.map (·.snapshot.rip)) = some [0x2000] ∧
      (({} : VmiAgent Unit).handleHvEvent { type := .guestHalt, vcpuId := 5 }
          (({} : VirtualMachine).addVCpus [(5, { regs := { rip := 0x1000 } })]) {} ()).toOption.map
        (fun p => p.1.eventLog.map (·.snapshot)) = some [{}] := by
  refine ⟨fun h => ?_, rfl, rfl⟩
  have hread : ∀ v ∈ (({} : VirtualMachine).addVCpus swappedCalls).vcpus, v.Readable := by
    intro v hv
    rcases List.mem_pair.1 hv with rfl | rfl <;> exact ⟨rfl, rfl⟩
  obtain ⟨ie, clock', sink', hrun, v, hv, hid, t, hsnap⟩ :=
    h hread none rfl { type := .guestHalt, vcpuId := 1 } {} rfl
  have hrip : ie.snapshot.rip = 0x2000 := by
    cases hrun
    rfl
  rcases List.mem_pair.1 hv with rfl | rfl
  · rw [hsnap] at hrip
    exact absurd hrip (show (0x1000 : UInt64) ≠ 0x2000 by decide)
  · exact absurd hid (by decide)

end VmiAgent

end MinBp
