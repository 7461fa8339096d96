import MinBp.MemoryRegion
import MinBp.Runs

/-!
# The virtual machine, its snapshots, and the snapshot round trip

`VirtualMachine` owns memory regions and vCPUs. `takeSnapShot` copies the registers of the first
vCPU and the bytes of every region, `restoreSnapshot` copies them back region by region.

`restoreSnapshot_takeSnapShot` is the round trip. Between the two calls the VM can take any
operations (`VmOp`) : guest execution, writes to a region, and attempts to add regions. Over such a
run the list of regions only grows at its end, and the regions it had keep their shape (`Grown`).
So the saved vector `i` always fits region `i`.
-/

open Bytes

namespace MinBp

/-- A virtual machine. -/
structure VirtualMachine where
  nextSlot : UInt32 := 0
  memoryRegions : List MemoryRegion := []
  vcpus : List VCpu := []

/-- A saved state of a virtual machine. -/
structure VmSnapShot where
  regs : KvmRegs := {}
  sregs : KvmSregs := {}
  memoryRegions : List (List UInt8) := []
  deriving DecidableEq

namespace VirtualMachine

/-- `VirtualMachine::addMemoryRegion`. The pointer it returns is the index of the new region. -/
def addMemoryRegion (os : MapOutcome) (guestPhysAddr size : UInt64) (flags : UInt32)
    (vm : VirtualMachine) : Except Errno ℕ × VirtualMachine :=
  match MemoryRegion.create os vm.nextSlot guestPhysAddr size flags with
  | .error e => (.error e, vm)
  | .ok r =>
    (.ok vm.memoryRegions.length,
      { vm with memoryRegions := vm.memoryRegions ++ [r], nextSlot := vm.nextSlot + 1 })

/-- `VirtualMachine::addVCpu`. The pointer it returns is the index of the new vCPU. -/
def addVCpu (os : VCpuOutcome) (vcpuId : UInt32) (vm : VirtualMachine) :
    Except Errno ℕ × VirtualMachine :=
  match VCpu.create os vcpuId with
  | .error e => (.error e, vm)
  | .ok v => (.ok vm.vcpus.length, { vm with vcpus := vm.vcpus ++ [v] })

/-- The guest's stores, in every region. -/
def setRam (ram : ℕ → Buffer) (vm : VirtualMachine) : VirtualMachine :=
  { vm with memoryRegions := vm.memoryRegions.mapIdx fun i r => r.setRam (ram i) }

/-- The bytes `takeSnapShot` saves for a region. -/
def saveRegion (r : MemoryRegion) : List UInt8 :=
  match r.host with
  | none => []
  | some bs => bs

/-- `VirtualMachine::takeSnapShot`. Registers that cannot be read are saved as zero. -/
def takeSnapShot (vm : VirtualMachine) : Except Fault VmSnapShot :=
  match vm.vcpus[0]? with
  | none => .error .outOfBounds
  | some vcpu =>
    .ok
      { regs := (vcpu.getRegs .takeSnapShot).toOption.getD {}
        sregs := (vcpu.getSregs .takeSnapShot).toOption.getD {}
        memoryRegions := vm.memoryRegions.map saveRegion }

/-- The loop body of `restoreSnapshot` for one region, `saved` the saved vector at its index. -/
def restoreRegion (r : MemoryRegion) (saved : Option (List UInt8)) : Except Fault MemoryRegion :=
  match hr : r.host, saved with
  | none, _ => .ok r
  | some _, none => .ok r
  | some _, some [] => .ok r
  | some bs, some (b :: data) =>
    match hc : memcpy bs (b :: data) r.size.toNat with
    | .error f => .error f
    | .ok bs' =>
      .ok (r.setHost bs' (by
        have hbs := r.host_length bs (by simp [hr])
        unfold memcpy at hc
        split at hc
        · cases hc
          simp only [List.length_append, List.length_take, List.length_drop]
          omega
        · cases hc))

/-- The loop of `restoreSnapshot`. -/
def restoreRegions : List MemoryRegion → List (List UInt8) → Except Fault (List MemoryRegion)
  | [], _ => .ok []
  | r :: rs, saved =>
    match restoreRegion r saved.head? with
    | .error f => .error f
    | .ok r' =>
      match restoreRegions rs saved.tail with
      | .error f => .error f
      | .ok rs' => .ok (r' :: rs')

/-- `VirtualMachine::restoreSnapshot`. A failing register ioctl is only reported on the console. -/
def restoreSnapshot (vm : VirtualMachine) (snapshot : VmSnapShot) : Except Fault VirtualMachine :=
  match vm.vcpus with
  | [] => .error .outOfBounds
  | vcpu :: vcpus =>
    let vcpu := (vcpu.setRegs .restoreSnapshot snapshot.regs).2
    let vcpu := (vcpu.setSregs .restoreSnapshot snapshot.sregs).2
    match restoreRegions vm.memoryRegions snapshot.memoryRegions with
    | .error f => .error f
    | .ok memoryRegions => .ok { vm with vcpus := vcpu :: vcpus, memoryRegions }

/-- vCPU `i` after a `KVM_RUN`, with the guest memory it leaves. -/
def runVCpu (i : ℕ) (x : KvmExit) (vm : VirtualMachine) : VirtualMachine :=
  { vm.setRam x.ram with vcpus := vm.vcpus.modify i fun v => (v.run x).2 }

end VirtualMachine

/-! ## Operations between snapshot and restore -/

/-- What can happen to a VM with one vCPU. -/
inductive VmOp where
  /-- The guest runs : new registers, new memory. -/
  | guestStep (x : KvmExit)
  /-- `memoryRegions()[i].write(guest_offset, data)`. -/
  | write (i : ℕ) (guestOffset : UInt64) (data : List UInt8)
  /-- `addMemoryRegion`, successful or not. -/
  | addMemoryRegion (os : MapOutcome) (guestPhysAddr size : UInt64) (flags : UInt32)

/-- One operation. -/
def VmOp.exec (vm : VirtualMachine) : VmOp → Except Fault VirtualMachine
  | .guestStep x => .ok (vm.runVCpu 0 x)
  | .write i guestOffset data =>
    match vm.memoryRegions[i]? with
    | none => .error .outOfBounds
    | some r =>
      match r.write guestOffset data with
      | .error f => .error f
      | .ok r' => .ok { vm with memoryRegions := vm.memoryRegions.set i r' }
  | .addMemoryRegion os guestPhysAddr size flags =>
    .ok (vm.addMemoryRegion os guestPhysAddr size flags).2

/-- What a write that returns does to the VM. -/
theorem VmOp.exec_write_eq {vm vm' : VirtualMachine} {i : ℕ} {off : UInt64} {data : List UInt8}
    (h : VmOp.exec vm (.write i off data) = .ok vm') : ∃ r r', vm.memoryRegions[i]? = some r ∧
      r.write off data = .ok r' ∧ vm' = { vm with memoryRegions := vm.memoryRegions.set i r' } := by
  simp only [VmOp.exec] at h
  split at h
  · cases h
  · rename_i r hr
    split at h
    · cases h
    · rename_i r' hr'
      cases h
      exact ⟨r, r', hr, hr', rfl⟩

theorem VmOp.exec_write {vm : VirtualMachine} {i : ℕ} {off : UInt64} {data : List UInt8}
    {r r' : MemoryRegion} (hr : vm.memoryRegions[i]? = some r) (hr' : r.write off data = .ok r') :
    VmOp.exec vm (.write i off data) =
      .ok { vm with memoryRegions := vm.memoryRegions.set i r' } := by
  simp only [VmOp.exec, hr, hr']

/-- Every region of `rs` is in `rs'` at its index, with other bytes at most. -/
def Keeps (rs rs' : List MemoryRegion) : Prop :=
  ∀ (i : ℕ) (r : MemoryRegion), rs[i]? = some r →
    ∃ r', rs'[i]? = some r' ∧ MemoryRegion.SameShape r r'

theorem Keeps.trans {rs rs' rs'' : List MemoryRegion} (h : Keeps rs rs') (h' : Keeps rs' rs'') :
    Keeps rs rs'' := by
  intro i r hr
  obtain ⟨r', hr', hs⟩ := h i r hr
  obtain ⟨r'', hr'', hs'⟩ := h' i r' hr'
  exact ⟨r'', hr'', hs.trans hs'⟩

/-- `vm'` has as many vCPUs as `vm`, and its regions with other bytes at most. -/
structure Grown (vm vm' : VirtualMachine) : Prop where
  vcpus : vm'.vcpus.length = vm.vcpus.length
  regions : Keeps vm.memoryRegions vm'.memoryRegions

theorem Grown.refl (vm : VirtualMachine) : Grown vm vm :=
  ⟨rfl, fun _ r hr => ⟨r, hr, .refl r⟩⟩

theorem Grown.trans {vm vm' vm'' : VirtualMachine} (h : Grown vm vm') (h' : Grown vm' vm'') :
    Grown vm vm'' :=
  ⟨h'.vcpus.trans h.vcpus, h.regions.trans h'.regions⟩

/-- Running a vCPU keeps the regions. -/
theorem grown_runVCpu (i : ℕ) (x : KvmExit) (vm : VirtualMachine) :
    Grown vm (vm.runVCpu i x) := by
  refine ⟨by simp [VirtualMachine.runVCpu], fun j r hr => ?_⟩
  refine ⟨r.setRam (x.ram j), ?_, MemoryRegion.sameShape_setRam _ _⟩
  simp [VirtualMachine.runVCpu, VirtualMachine.setRam, hr]

/-- Adding a region keeps those that are there, whether it succeeds or not. -/
theorem grown_addMemoryRegion (os : MapOutcome) (addr size : UInt64) (flags : UInt32)
    (vm : VirtualMachine) : Grown vm (vm.addMemoryRegion os addr size flags).2 := by
  unfold VirtualMachine.addMemoryRegion
  split
  · exact .refl vm
  · refine ⟨rfl, fun i r hr => ⟨r, ?_, .refl r⟩⟩
    have hi := (List.getElem?_eq_some_iff.1 hr).1
    simpa [List.getElem?_append_left hi] using hr

/-- One operation keeps the regions. -/
theorem grown_exec {vm vm' : VirtualMachine} {op : VmOp} (h : op.exec vm = .ok vm') :
    Grown vm vm' := by
  cases op with
  | guestStep x =>
    cases h
    exact grown_runVCpu 0 x vm
  | write i off data =>
    obtain ⟨r, r', hr, hw, rfl⟩ := VmOp.exec_write_eq h
    refine ⟨rfl, fun j s hs => ?_⟩
    by_cases hij : i = j
    · subst hij
      obtain rfl : r = s := by simpa [hr] using hs
      have hlt := (List.getElem?_eq_some_iff.1 hr).1
      exact ⟨r', by simp [hlt], MemoryRegion.sameShape_of_write hw⟩
    · exact ⟨s, by simpa [List.getElem?_set_ne hij] using hs, .refl s⟩
  | addMemoryRegion os addr size flags =>
    cases h
    exact grown_addMemoryRegion os addr size flags vm

/-- A whole run of operations keeps the regions. -/
theorem grown_run {vm vm' : VirtualMachine} {ops : List VmOp}
    (h : ops.foldlM VmOp.exec vm = .ok vm') : Grown vm vm' :=
  Runs.execM_inv (Grown vm) (fun _ _ _ hs hx => hs.trans (grown_exec hx)) ops (.refl vm) h

/-! ## The round trip -/

namespace VirtualMachine

theorem memcpy_of_le {dst src : List UInt8} {n : ℕ} (hd : dst.length = n) (hs : n ≤ src.length) :
    memcpy dst src n = .ok (src.take n) := by
  simp [memcpy, hd, hs]

/-- A saved vector at least as long as the region is copied into it. -/
theorem restoreRegion_of_le {r : MemoryRegion} {bs data : List UInt8} (hr : r.host = some bs)
    (hd : data ≠ []) (hl : r.size.toNat ≤ data.length) :
    ∃ r', restoreRegion r (some data) = .ok r' ∧ r'.host = some (data.take r.size.toNat) ∧
      MemoryRegion.SameShape r r' := by
  obtain ⟨b, data, rfl⟩ := List.exists_cons_of_ne_nil hd
  have hcpy := memcpy_of_le (r.host_length bs (by simp [hr])) hl
  unfold restoreRegion
  split
  · simp_all
  · simp_all
  · simp_all
  · rename_i bs' b' data' hr' hs
    cases hs
    obtain rfl : bs = bs' := by simpa [hr] using hr'
    split
    · rename_i f hc
      simp [hcpy] at hc
    · rename_i bs'' hc
      obtain rfl : List.take r.size.toNat (b :: data) = bs'' := by simpa [hcpy] using hc
      exact ⟨_, rfl, rfl, rfl, rfl, rfl, by simp [MemoryRegion.setHost, hr]⟩

/-- A region without a mapping is left alone. -/
theorem restoreRegion_of_unmapped {r : MemoryRegion} (hr : r.host = none)
    (saved : Option (List UInt8)) : restoreRegion r saved = .ok r := by
  unfold restoreRegion
  split <;> simp_all

/-- A region without saved bytes is left alone. -/
theorem restoreRegion_of_unsaved {r : MemoryRegion} {saved : Option (List UInt8)}
    (h : saved.getD [] = []) : restoreRegion r saved = .ok r := by
  unfold restoreRegion
  split <;> simp_all

/-- Restoring a region from its own bytes gives the region back, whatever is in it now. -/
theorem restoreRegion_saveRegion {r r' : MemoryRegion} (h : MemoryRegion.SameShape r r') :
    restoreRegion r' (some (saveRegion r)) = .ok r := by
  cases hr : r.host with
  | none =>
    have hr' : r'.host = none := by simpa [hr] using h.mapped
    rw [restoreRegion_of_unmapped hr', h.eq_of_host (hr'.trans hr.symm)]
  | some bs =>
    obtain ⟨bs', hr'⟩ : ∃ bs', r'.host = some bs' := by
      simpa [hr, Option.isSome_iff_exists] using h.mapped
    have hlen := r.host_length bs (by simp [hr])
    have hlen' := r'.host_length bs' (by simp [hr'])
    rw [h.size, ← hlen] at hlen'
    have hsave : saveRegion r = bs := by simp [saveRegion, hr]
    rw [hsave]
    rcases eq_or_ne bs [] with rfl | hne
    · obtain rfl : bs' = [] := List.eq_nil_of_length_eq_zero hlen'
      rw [restoreRegion_of_unsaved rfl, h.eq_of_host (hr'.trans hr.symm)]
    · obtain ⟨s, hs, hhost, hshape⟩ :=
        restoreRegion_of_le hr' hne (le_of_eq (by rw [h.size, hlen]))
      rw [h.size, ← hlen, List.take_length] at hhost
      rw [hs, (h.trans hshape).eq_of_host (hhost.trans hr.symm)]

/-- Regions without a saved vector are left alone. -/
theorem restoreRegions_nil (rs : List MemoryRegion) : restoreRegions rs [] = .ok rs := by
  induction rs with
  | nil => rfl
  | cons r rs ih =>
    have hr : restoreRegion r none = .ok r := restoreRegion_of_unsaved rfl
    simp [restoreRegions, hr, ih]

/-- The loop of `restoreSnapshot` puts back the saved regions and keeps the later ones. -/
theorem restoreRegions_saveRegion (rs rs' : List MemoryRegion) (h : Keeps rs rs') :
    restoreRegions rs' (rs.map saveRegion) = .ok (rs ++ rs'.drop rs.length) := by
  induction rs' generalizing rs with
  | nil =>
    obtain rfl : rs = [] := by
      rcases rs with _ | ⟨r, rs⟩
      · rfl
      · obtain ⟨r', hr', -⟩ := h 0 r rfl
        cases hr'
    rfl
  | cons r' rs' ih =>
    rcases rs with _ | ⟨r, rs⟩
    · simpa using restoreRegions_nil (r' :: rs')
    · obtain ⟨s, hs, hshape⟩ := h 0 r rfl
      obtain rfl : r' = s := by simpa using hs
      have htail := ih rs fun i r hr => h (i + 1) r hr
      simp [restoreRegions, restoreRegion_saveRegion hshape, htail]

/-- `restoreSnapshot` after `takeSnapShot`, with any operations in between. If the ioctls of both
calls succeed, the snapshot exists, every `memcpy` of the restore is in bounds, the registers and
every region of the snapshot come back exactly, and later regions stay as they are. -/
theorem restoreSnapshot_takeSnapShot {vm : VirtualMachine} {v : VCpu} (hv : vm.vcpus = [v])
    (hget : v.faults .takeSnapShot .getRegs = none)
    (hgetS : v.faults .takeSnapShot .getSregs = none) :
    ∃ snap, vm.takeSnapShot = .ok snap ∧
      ∀ (ops : List VmOp) (vm' : VirtualMachine), ops.foldlM VmOp.exec vm = .ok vm' →
        (∀ v' ∈ vm'.vcpus, v'.faults .restoreSnapshot .setRegs = none ∧
          v'.faults .restoreSnapshot .setSregs = none) →
        ∃ vm'' v'', vm'.restoreSnapshot snap = .ok vm'' ∧ vm''.vcpus = [v''] ∧
          v''.regs = v.regs ∧ v''.sregs = v.sregs ∧
          (∀ i < vm.memoryRegions.length, vm''.memoryRegions[i]? = vm.memoryRegions[i]?) ∧
          ∀ i, vm.memoryRegions.length ≤ i → vm''.memoryRegions[i]? = vm'.memoryRegions[i]? := by
  refine ⟨⟨v.regs, v.sregs, vm.memoryRegions.map saveRegion⟩, ?_, fun ops vm' hrun hset => ?_⟩
  · simp [takeSnapShot, hv, VCpu.getRegs_ok hget, VCpu.getSregs_ok hgetS, Except.toOption]
  · have hgrown := grown_run hrun
    obtain ⟨v', hv'⟩ : ∃ v', vm'.vcpus = [v'] := by
      have := hgrown.vcpus
      rw [hv] at this
      exact List.length_eq_one_iff.1 this
    obtain ⟨hsr, hss⟩ := hset v' (by simp [hv'])
    have hcopy := restoreRegions_saveRegion _ _ hgrown.regions
    refine ⟨{ vm' with
      vcpus := [{ v' with regs := v.regs, sregs := v.sregs }]
      memoryRegions := vm.memoryRegions ++ vm'.memoryRegions.drop vm.memoryRegions.length },
      _, ?_, rfl, rfl, rfl, fun i hi => ?_, fun i hi => ?_⟩
    · simp [restoreSnapshot, hv', hcopy, VCpu.setRegs, VCpu.setSregs, hsr, hss]
    · simp [List.getElem?_append_left hi]
    · simp [List.getElem?_append_right hi, Nat.add_sub_cancel' hi]

/-- A page of memory at `0x1000`, filled with ones. -/
def onesPage : MemoryRegion where
  slot := 0
  guestPhysAddr := 0x1000
  size := 0x1000
  host := some (List.replicate 0x1000 1)
  host_length := by
    rintro bs ⟨⟩
    exact List.length_replicate
  no_wrap := by decide

/-- A VM with that page and a vCPU at `0x1000`. -/
def pageVm : VirtualMachine where
  nextSlot := 1
  memoryRegions := [onesPage]
  vcpus := [{ regs := { rip := 0x1000 } }]

theorem length_vcpus_pageVm : 0 < pageVm.vcpus.length :=
  Nat.one_pos

/-- Guest execution, a write, a failed and a successful `addMemoryRegion`. -/
def fourOps : List VmOp :=
  [.guestStep { ram := fun _ _ => 7 }, .write 0 1 [9],
    .addMemoryRegion { mmap := some 12 } 0x2000 0x1000 0, .addMemoryRegion {} 0x2000 0x1000 0]

theorem vcpus_addMemoryRegion (os : MapOutcome) (addr size : UInt64) (flags : UInt32)
    (vm : VirtualMachine) : (vm.addMemoryRegion os addr size flags).2.vcpus = vm.vcpus := by
  unfold addMemoryRegion
  split <;> rfl

theorem exists_write_onesPage :
    ∃ r', (onesPage.setRam fun _ => 7).write 1 [9] = .ok r' := by
  have hlen : (1 : UInt64).toNat + [(9 : UInt8)].length ≤
      ((List.replicate 0x1000 (1 : UInt8)).mapIdx fun _ _ => (7 : UInt8)).length := by
    rw [List.length_mapIdx, List.length_replicate]
    decide
  exact MemoryRegion.write_ok (r := onesPage.setRam fun _ => 7) rfl hlen

theorem run_fourOps :
    ∃ vm', fourOps.foldlM VmOp.exec pageVm = .ok vm' ∧ vm'.vcpus = [{}] := by
  obtain ⟨r', hr'⟩ := exists_write_onesPage
  have hwrite : VmOp.exec (pageVm.runVCpu 0 { ram := fun _ _ => 7 }) (.write 0 1 [9]) =
      .ok { pageVm.runVCpu 0 { ram := fun _ _ => 7 } with memoryRegions := [r'] } :=
    VmOp.exec_write rfl hr'
  rw [fourOps, Runs.foldlM_cons_ok rfl, Runs.foldlM_cons_ok hwrite, Runs.foldlM_cons_ok rfl,
    Runs.foldlM_cons_ok rfl]
  refine ⟨_, rfl, ?_⟩
  rw [vcpus_addMemoryRegion, vcpus_addMemoryRegion]
  rfl

/-- The round trip on `pageVm` over `fourOps`. -/
theorem restoreSnapshot_pageVm :
    ∃ snap vm' vm'', pageVm.takeSnapShot = .ok snap ∧
      fourOps.foldlM VmOp.exec pageVm = .ok vm' ∧ vm'.restoreSnapshot snap = .ok vm'' ∧
      vm''.memoryRegions[0]? = pageVm.memoryRegions[0]? ∧
      vm''.memoryRegions[1]? = vm'.memoryRegions[1]? := by
  obtain ⟨snap, hsnap, h⟩ := @restoreSnapshot_takeSnapShot pageVm _ rfl rfl rfl
  obtain ⟨vm', hrun, hvcpus⟩ := run_fourOps
  have hf : ∀ v' ∈ vm'.vcpus, v'.faults .restoreSnapshot .setRegs = none ∧
      v'.faults .restoreSnapshot .setSregs = none := by
    intro v' hv'
    rw [hvcpus, List.mem_singleton] at hv'
    rw [hv']
    exact ⟨rfl, rfl⟩
  obtain ⟨vm'', -, hrestore, -, -, -, hkept, hadded⟩ := h fourOps vm' hrun hf
  exact ⟨snap, vm', vm'', hsnap, hrun, hrestore, hkept 0 (by decide), hadded 1 (by decide)⟩

end VirtualMachine

end MinBp
