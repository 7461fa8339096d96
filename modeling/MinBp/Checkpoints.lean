import MinBp.Restores
import MinBp.Rewind

/-!
# Histories of snapshots and restores

A VM runs its vCPUs, sets their registers, writes to its regions and gets new regions and vCPUs, and
at any point its owner takes a snapshot or restores one of those it has, as often as it likes.

`restores_take_back` compares such a history with two others that have no snapshots at all. The
memory the VM had at the beginning and the registers of its first vCPU end as if the operations that
restores took back had never been executed. Regions and vCPUs that were added stay. All vCPUs but
the first end as if nothing had been taken back. And every snapshot can still be restored, within
the bounds of every vector and mapping.
-/

open Rewind

namespace MinBp

namespace VirtualMachine

/-! ## Operations -/

/-- What happens to a VM between snapshots. -/
inductive Operation where
  /-- A `KVM_RUN` of vCPU `i`. -/
  | runVCpu (i : ℕ) (x : KvmExit)
  /-- `KVM_SET_REGS` on vCPU `i`. One that fails changes nothing. -/
  | setRegs (i : ℕ) (regs : KvmRegs)
  /-- `KVM_SET_SREGS` on vCPU `i`. -/
  | setSregs (i : ℕ) (sregs : KvmSregs)
  /-- `memoryRegions()[i].write(guest_offset, data)`. -/
  | write (i : ℕ) (guestOffset : UInt64) (data : List UInt8)
  /-- `addMemoryRegion`, successful or not. -/
  | addMemoryRegion (os : MapOutcome) (guestPhysAddr size : UInt64) (flags : UInt32)
  /-- `addVCpu`, successful or not. -/
  | addVCpu (os : VCpuOutcome) (vcpuId : UInt32)

namespace Operation

/-- One operation. -/
def exec (vm : VirtualMachine) : Operation → Except Fault VirtualMachine
  | .runVCpu i x => .ok (vm.runVCpu i x)
  | .setRegs i regs => .ok { vm with vcpus := vm.vcpus.modify i fun v => { v with regs } }
  | .setSregs i sregs => .ok { vm with vcpus := vm.vcpus.modify i fun v => { v with sregs } }
  | .write i guestOffset data => VmOp.exec vm (.write i guestOffset data)
  | .addMemoryRegion os guestPhysAddr size flags =>
    .ok (vm.addMemoryRegion os guestPhysAddr size flags).2
  | .addVCpu os vcpuId => .ok (vm.addVCpu os vcpuId).2

/-- The operation adds a region or a vCPU. No restore takes that back. -/
def adds : Operation → Bool
  | .addMemoryRegion .. | .addVCpu .. => true
  | _ => false

/-- After the operation, snapshots and restores can read and write the registers of the first
vCPU. -/
def Quiet : Operation → Prop
  | .runVCpu 0 x => ∀ i, x.faults .takeSnapShot i = none ∧ x.faults .restoreSnapshot i = none
  | _ => True

end Operation

/-- A VM with its snapshots. -/
def snapshots : Checkpointed VirtualMachine Operation VmSnapShot Fault where
  exec := Operation.exec
  take := takeSnapShot
  restore := restoreSnapshot

/-! ## Layout -/

/-- What stays of a region when its bytes change. -/
def shape (r : MemoryRegion) : UInt32 × UInt64 × UInt64 × Bool :=
  (r.slot, r.guestPhysAddr, r.size, r.host.isSome)

theorem shape_eq_iff {r r' : MemoryRegion} : shape r' = shape r ↔ MemoryRegion.SameShape r r' := by
  simp only [shape, Prod.mk.injEq]
  exact ⟨fun ⟨h, h', h'', h'''⟩ => ⟨h, h', h'', h'''⟩, fun h => ⟨h.1, h.2, h.3, h.4⟩⟩

/-- The same regions, up to their bytes, and the same slot for the next. -/
structure SameLayout (s t : VirtualMachine) : Prop where
  nextSlot : s.nextSlot = t.nextSlot
  shapes : s.memoryRegions.map shape = t.memoryRegions.map shape

theorem SameLayout.refl (s : VirtualMachine) : SameLayout s s :=
  ⟨rfl, rfl⟩

theorem SameLayout.symm {s t : VirtualMachine} (h : SameLayout s t) : SameLayout t s :=
  ⟨h.nextSlot.symm, h.shapes.symm⟩

theorem SameLayout.trans {s t u : VirtualMachine} (h : SameLayout s t) (h' : SameLayout t u) :
    SameLayout s u :=
  ⟨h.nextSlot.trans h'.nextSlot, h.shapes.trans h'.shapes⟩

theorem SameLayout.length_eq {s t : VirtualMachine} (h : SameLayout s t) :
    s.memoryRegions.length = t.memoryRegions.length := by
  simpa using congrArg List.length h.shapes

/-- Regions at one position have one shape. -/
theorem SameLayout.getElem? {s t : VirtualMachine} (h : SameLayout s t) {i : ℕ} {r : MemoryRegion}
    (hr : s.memoryRegions[i]? = some r) :
    ∃ u, t.memoryRegions[i]? = some u ∧ MemoryRegion.SameShape r u := by
  have hi := congrArg (·[i]?) h.shapes
  simp only [List.getElem?_map, hr, Option.map_some] at hi
  obtain ⟨u, hu, hshape⟩ := Option.map_eq_some_iff.1 hi.symm
  exact ⟨u, hu, shape_eq_iff.1 hshape⟩

theorem SameLayout.keeps {s t : VirtualMachine} (h : SameLayout s t) :
    Keeps s.memoryRegions t.memoryRegions :=
  fun _ _ hr => h.getElem? hr

/-- A region of the same shape takes the same writes. -/
theorem exists_write_of_sameShape {r u r' : MemoryRegion} {off : UInt64} {data : List UInt8}
    (h : MemoryRegion.SameShape r u) (hw : r.write off data = .ok r') :
    ∃ u', u.write off data = .ok u' := by
  obtain ⟨bs, hbs, hfit, -, -⟩ := MemoryRegion.write_eq hw
  obtain ⟨cs, hcs⟩ : ∃ cs, u.host = some cs := by
    rw [← Option.isSome_iff_exists, h.mapped, hbs, Option.isSome_some]
  have hlen := r.host_length bs (by simp [hbs])
  have hlen' := u.host_length cs (by simp [hcs])
  rw [h.size] at hlen'
  exact MemoryRegion.write_ok hcs (by omega)

/-! ## What an operation does -/

namespace Operation

variable {s t s' : VirtualMachine} {a : Operation}

/-- An operation on the list of vCPUs. -/
def onVCpus : Operation → List VCpu → List VCpu
  | .runVCpu i x, vs => vs.modify i fun v => (v.run x).2
  | .setRegs i regs, vs => vs.modify i fun v => { v with regs }
  | .setSregs i sregs, vs => vs.modify i fun v => { v with sregs }
  | .addVCpu os vcpuId, vs => vs ++ (VCpu.create os vcpuId).toOption.toList
  | _, vs => vs

theorem vcpus_exec (h : a.exec s = .ok s') : s'.vcpus = a.onVCpus s.vcpus := by
  cases a with
  | runVCpu i x =>
    cases h
    rfl
  | setRegs i regs =>
    cases h
    rfl
  | setSregs i sregs =>
    cases h
    rfl
  | write i off data =>
    obtain ⟨r, r', -, -, rfl⟩ := VmOp.exec_write_eq h
    rfl
  | addMemoryRegion os addr size flags =>
    cases h
    rw [VirtualMachine.addMemoryRegion]
    split <;> rfl
  | addVCpu os vcpuId =>
    cases h
    rw [VirtualMachine.addVCpu]
    split <;> rename_i hv <;> simp [onVCpus, hv, Except.toOption]

/-- Running a vCPU changes nothing but bytes. -/
theorem sameLayout_runVCpu (i : ℕ) (x : KvmExit) : SameLayout s (s.runVCpu i x) := by
  refine ⟨rfl, List.ext_getElem? fun j => ?_⟩
  simp only [VirtualMachine.runVCpu, setRam, List.getElem?_map, List.getElem?_mapIdx,
    Option.map_map]
  congr 1
  funext r
  exact (shape_eq_iff.2 (MemoryRegion.sameShape_setRam _ r)).symm

/-- A write changes nothing but bytes. -/
theorem sameLayout_write {i : ℕ} {off : UInt64} {data : List UInt8}
    (h : VmOp.exec s (.write i off data) = .ok s') : SameLayout s s' := by
  obtain ⟨r, r', hr, hw, rfl⟩ := VmOp.exec_write_eq h
  obtain ⟨hi, rfl⟩ := List.getElem?_eq_some_iff.1 hr
  have hi' : i < (s.memoryRegions.map shape).length := by simpa using hi
  refine ⟨rfl, ?_⟩
  rw [List.map_set, shape_eq_iff.2 (MemoryRegion.sameShape_of_write hw),
    ← List.getElem_map shape (h := hi'), List.set_getElem_self]

/-- What does not add regions or vCPUs keeps the layout. -/
theorem sameLayout_of_not_adds (h : a.exec s = .ok s') (ha : a.adds = false) : SameLayout s s' := by
  cases a with
  | runVCpu i x =>
    cases h
    exact sameLayout_runVCpu i x
  | setRegs i regs =>
    cases h
    exact ⟨rfl, rfl⟩
  | setSregs i sregs =>
    cases h
    exact ⟨rfl, rfl⟩
  | write i off data => exact sameLayout_write h
  | addMemoryRegion os addr size flags => cases ha
  | addVCpu os vcpuId => cases ha

/-- Every operation keeps the regions that are there. -/
theorem keeps_exec (h : a.exec s = .ok s') : Keeps s.memoryRegions s'.memoryRegions := by
  cases a with
  | addMemoryRegion os addr size flags =>
    cases h
    exact (grown_addMemoryRegion os addr size flags s).regions
  | addVCpu os vcpuId =>
    cases h
    rw [VirtualMachine.addVCpu]
    split <;> exact (SameLayout.refl s).keeps
  | _ => exact (sameLayout_of_not_adds h rfl).keeps

/-- An operation that adds leaves the regions that are there alone. -/
theorem getElem?_exec_of_adds (h : a.exec s = .ok s') (ha : a.adds = true) {i : ℕ}
    (hi : i < s.memoryRegions.length) : s'.memoryRegions[i]? = s.memoryRegions[i]? := by
  cases a with
  | addMemoryRegion os addr size flags =>
    cases h
    rw [VirtualMachine.addMemoryRegion]
    split
    · rfl
    · exact List.getElem?_append_left hi
  | addVCpu os vcpuId =>
    cases h
    rw [VirtualMachine.addVCpu]
    split <;> rfl
  | _ => cases ha

/-- One operation on two VMs of one layout : it returns on both or on none, the layouts stay the
same, and so does each region that was the same. -/
theorem exec_sameLayout (h : SameLayout s t) (hs : a.exec s = .ok s') :
    ∃ t', a.exec t = .ok t' ∧ SameLayout s' t' ∧ ∀ i : ℕ,
      s.memoryRegions[i]? = t.memoryRegions[i]? → s'.memoryRegions[i]? = t'.memoryRegions[i]? := by
  cases a with
  | runVCpu i x =>
    cases hs
    refine ⟨_, rfl, (sameLayout_runVCpu i x).symm.trans (h.trans (sameLayout_runVCpu i x)),
      fun j hj => ?_⟩
    simp [VirtualMachine.runVCpu, setRam, hj]
  | setRegs i regs =>
    cases hs
    exact ⟨_, rfl, ⟨h.nextSlot, h.shapes⟩, fun _ => id⟩
  | setSregs i sregs =>
    cases hs
    exact ⟨_, rfl, ⟨h.nextSlot, h.shapes⟩, fun _ => id⟩
  | write i off data =>
    obtain ⟨r, r', hr, hw, rfl⟩ := VmOp.exec_write_eq hs
    obtain ⟨u, hu, hshape⟩ := h.getElem? hr
    obtain ⟨u', hw'⟩ := exists_write_of_sameShape hshape hw
    have ht : exec t (.write i off data) =
        .ok { t with memoryRegions := t.memoryRegions.set i u' } := by
      simp [exec, VmOp.exec, hu, hw']
    refine ⟨_, ht, (sameLayout_write hs).symm.trans (h.trans (sameLayout_write ht)),
      fun j hj => ?_⟩
    rcases eq_or_ne i j with rfl | hij
    · obtain rfl : r = u := by simpa [hr, hu] using hj
      obtain rfl : r' = u' := by simpa [hw] using hw'
      simp [List.getElem?_set, h.length_eq]
    · simpa [List.getElem?_set_ne hij] using hj
  | addMemoryRegion os addr size flags =>
    cases hs
    refine ⟨_, rfl, ?_⟩
    rw [VirtualMachine.addMemoryRegion, VirtualMachine.addMemoryRegion, h.nextSlot]
    split
    · exact ⟨h, fun _ => id⟩
    · refine ⟨⟨rfl, by simp [h.shapes]⟩, fun j hj => ?_⟩
      simp only [List.getElem?_append, h.length_eq, hj]
  | addVCpu os vcpuId =>
    cases hs
    refine ⟨_, rfl, ?_⟩
    rw [VirtualMachine.addVCpu, VirtualMachine.addVCpu]
    split <;> exact ⟨⟨h.nextSlot, h.shapes⟩, fun _ => id⟩

end Operation

/-! ## What a restore does -/

/-- `snap` was taken of `vm`, or of an earlier state of it, when its regions were those of `vm₀`. -/
structure TakenAt (vm₀ : VirtualMachine) (snap : VmSnapShot) (vm : VirtualMachine) : Prop where
  taken : vm₀.takeSnapShot = .ok snap
  regions : Keeps vm₀.memoryRegions vm.memoryRegions
  vcpus : vm.vcpus ≠ []

theorem TakenAt.exec {vm₀ vm vm' : VirtualMachine} {snap : VmSnapShot} {a : Operation}
    (h : TakenAt vm₀ snap vm) (ha : a.exec vm = .ok vm') : TakenAt vm₀ snap vm' := by
  refine ⟨h.taken, h.regions.trans (Operation.keeps_exec ha), ?_⟩
  rw [Operation.vcpus_exec ha, ← List.length_pos_iff]
  have hpos := List.length_pos_iff.2 h.vcpus
  cases a <;> simp [Operation.onVCpus] <;> omega

theorem takenAt_of_takeSnapShot {vm : VirtualMachine} {snap : VmSnapShot}
    (h : vm.takeSnapShot = .ok snap) : TakenAt vm snap vm := by
  refine ⟨h, (SameLayout.refl vm).keeps, fun hnil => ?_⟩
  simp [takeSnapShot, hnil] at h

/-- A restore stays in bounds. -/
theorem TakenAt.exists_restoreSnapshot {vm₀ vm : VirtualMachine} {snap : VmSnapShot}
    (h : TakenAt vm₀ snap vm) : ∃ vm', vm.restoreSnapshot snap = .ok vm' := by
  obtain ⟨v, vs, hv⟩ := List.exists_cons_of_ne_nil h.vcpus
  exact ⟨_, restoreSnapshot_earlier h.taken h.regions hv⟩

/-- A restore keeps the layout and all vCPUs but the first, and brings the regions of the snapshot
back. -/
theorem TakenAt.restored {vm₀ vm vm' : VirtualMachine} {snap : VmSnapShot}
    (h : TakenAt vm₀ snap vm) (hr : vm.restoreSnapshot snap = .ok vm') : SameLayout vm vm' ∧
      vm'.vcpus.length = vm.vcpus.length ∧ vm'.vcpus.tail = vm.vcpus.tail ∧
      ∀ i < vm₀.memoryRegions.length, vm'.memoryRegions[i]? = vm₀.memoryRegions[i]? := by
  obtain ⟨v, vs, hv⟩ := List.exists_cons_of_ne_nil h.vcpus
  rw [restoreSnapshot_earlier h.taken h.regions hv] at hr
  cases hr
  refine ⟨⟨rfl, ?_⟩, by simp [hv], by simp [hv], fun i hi => List.getElem?_append_left hi⟩
  refine List.ext_getElem? fun i => ?_
  rcases Nat.lt_or_ge i vm₀.memoryRegions.length with hi | hi
  · obtain ⟨r, hr, hshape⟩ := h.regions i _ (List.getElem?_eq_getElem hi)
    rw [List.getElem?_map, List.getElem?_map, hr, List.getElem?_append_left hi,
      List.getElem?_eq_getElem hi, Option.map_some, Option.map_some, shape_eq_iff.2 hshape]
  · rw [List.getElem?_map, List.getElem?_map, List.getElem?_append_right hi, List.getElem?_drop,
      Nat.add_sub_cancel' hi]

theorem TakenAt.of_sameLayout {vm₀ vm vm' : VirtualMachine} {snap : VmSnapShot}
    (h : TakenAt vm₀ snap vm) (hlayout : SameLayout vm vm')
    (hlen : vm'.vcpus.length = vm.vcpus.length) : TakenAt vm₀ snap vm' := by
  refine ⟨h.taken, h.regions.trans hlayout.keeps, ?_⟩
  rw [← List.length_pos_iff, hlen]
  exact List.length_pos_iff.2 h.vcpus

/-! ## The three comparisons -/

/-- The first `n` regions are there in both lists, and the same. -/
def SameFirst (n : ℕ) (rs rs' : List MemoryRegion) : Prop :=
  ∀ i < n, ∃ r, rs[i]? = some r ∧ rs'[i]? = some r

/-- Restores take operations back, as far as the first `n` regions go. -/
def memoryRewinds (n : ℕ) : Rewinds snapshots Operation.adds fun _ => True where
  state s t := SameLayout s t ∧ SameFirst n s.memoryRegions t.memoryRegions
  snapshot s p t :=
    SameLayout s t ∧ ∃ u, TakenAt u p s ∧ SameFirst n u.memoryRegions t.memoryRegions
  exec := by
    rintro s t s' a - ⟨hlayout, hmem⟩ hs
    obtain ⟨t', ht, hlayout', hmem'⟩ := Operation.exec_sameLayout hlayout hs
    refine ⟨t', ht, hlayout', fun i hi => ?_⟩
    obtain ⟨r, hr, hr'⟩ := hmem i hi
    obtain ⟨r', hr'', -⟩ := Operation.keeps_exec hs i r hr
    exact ⟨r', hr'', by rw [← hmem' i (hr.trans hr'.symm), hr'']⟩
  kept := by
    rintro s p t s' a - ha ⟨hlayout, u, htaken, hmem⟩ hs
    obtain ⟨t', ht, hlayout', -⟩ := Operation.exec_sameLayout hlayout hs
    refine ⟨t', ht, hlayout', u, htaken.exec hs, fun i hi => ?_⟩
    obtain ⟨r, hr, hr'⟩ := hmem i hi
    have hlt := (List.getElem?_eq_some_iff.1 hr').1
    exact ⟨r, hr, by rw [Operation.getElem?_exec_of_adds ht ha hlt, hr']⟩
  undone := by
    rintro s p t s' a - ha ⟨hlayout, u, htaken, hmem⟩ hs
    exact ⟨(Operation.sameLayout_of_not_adds hs ha).symm.trans hlayout, u, htaken.exec hs, hmem⟩
  take := fun ⟨hlayout, hmem⟩ hp => ⟨hlayout, _, takenAt_of_takeSnapShot hp, hmem⟩
  restore := by
    rintro s p t s' ⟨hlayout, u, htaken, hmem⟩ hs
    obtain ⟨hlayout', -, -, hback⟩ := htaken.restored hs
    refine ⟨hlayout'.symm.trans hlayout, fun i hi => ?_⟩
    obtain ⟨r, hr, hr'⟩ := hmem i hi
    exact ⟨r, by rw [hback i (List.getElem?_eq_some_iff.1 hr).1, hr], hr'⟩
  others := by
    rintro s p t s' p' t' ⟨-, u, htaken, -⟩ hs ⟨hlayout, u', htaken', hmem⟩
    obtain ⟨hlayout', hlen, -⟩ := htaken.restored hs
    exact ⟨hlayout'.symm.trans hlayout, u', htaken'.of_sameLayout hlayout' hlen, hmem⟩

/-- Snapshots and restores can read and write the registers of the vCPU. -/
def Accessible (v : VCpu) : Prop :=
  ∀ i, v.faults .takeSnapShot i = none ∧ v.faults .restoreSnapshot i = none

/-- The first vCPU of `vs` is accessible, and has the registers of the first of `ws`. -/
def SameRegisters (vs ws : List VCpu) : Prop :=
  ∃ v ∈ vs.head?, Accessible v ∧ ∃ w ∈ ws.head?, v.regs = w.regs ∧ v.sregs = w.sregs

theorem SameRegisters.onVCpus {vs ws : List VCpu} {a : Operation} (ha : a.Quiet)
    (h : SameRegisters vs ws) : SameRegisters (a.onVCpus vs) (a.onVCpus ws) := by
  obtain ⟨v, hv, hacc, w, hw, hregs, hsregs⟩ := h
  obtain ⟨vs, rfl⟩ := List.head?_eq_some_iff.1 hv
  obtain ⟨ws, rfl⟩ := List.head?_eq_some_iff.1 hw
  have hsame : SameRegisters (v :: vs) (w :: ws) := ⟨v, rfl, hacc, w, rfl, hregs, hsregs⟩
  cases a with
  | runVCpu i x =>
    cases i with
    | zero => exact ⟨_, rfl, fun i => by simpa using ha i, _, rfl, by simp, by simp⟩
    | succ i => exact ⟨v, rfl, hacc, w, rfl, hregs, hsregs⟩
  | setRegs i regs =>
    cases i with
    | zero => exact ⟨_, rfl, hacc, _, rfl, rfl, hsregs⟩
    | succ i => exact ⟨v, rfl, hacc, w, rfl, hregs, hsregs⟩
  | setSregs i sregs =>
    cases i with
    | zero => exact ⟨_, rfl, hacc, _, rfl, hregs, rfl⟩
    | succ i => exact ⟨v, rfl, hacc, w, rfl, hregs, hsregs⟩
  | write i off data => exact hsame
  | addMemoryRegion os addr size flags => exact hsame
  | addVCpu os vcpuId => exact ⟨v, rfl, hacc, w, rfl, hregs, hsregs⟩

theorem head?_onVCpus_of_adds {vs : List VCpu} {v : VCpu} {a : Operation} (ha : a.adds = true)
    (h : v ∈ vs.head?) : v ∈ (a.onVCpus vs).head? := by
  cases a with
  | addMemoryRegion os addr size flags => exact h
  | addVCpu os vcpuId => simp [Operation.onVCpus, List.head?_append, Option.mem_def.1 h]
  | _ => cases ha

/-- A snapshot has the registers of an accessible first vCPU. -/
theorem registers_takeSnapShot {vm : VirtualMachine} {snap : VmSnapShot} {v : VCpu}
    (h : vm.takeSnapShot = .ok snap) (hv : v ∈ vm.vcpus.head?) (hacc : Accessible v) :
    snap.regs = v.regs ∧ snap.sregs = v.sregs := by
  obtain ⟨vs, hvs⟩ := List.head?_eq_some_iff.1 hv
  simp only [takeSnapShot, hvs, List.getElem?_cons_zero, VCpu.getRegs_ok (hacc .getRegs).1,
    VCpu.getSregs_ok (hacc .getSregs).1] at h
  cases h
  exact ⟨rfl, rfl⟩

/-- A restore sets the registers of an accessible first vCPU. -/
theorem TakenAt.head?_restoreSnapshot {vm₀ vm vm' : VirtualMachine} {snap : VmSnapShot} {v : VCpu}
    (h : TakenAt vm₀ snap vm) (hv : v ∈ vm.vcpus.head?) (hacc : Accessible v)
    (hr : vm.restoreSnapshot snap = .ok vm') :
    vm'.vcpus.head? = some { v with regs := snap.regs, sregs := snap.sregs } := by
  obtain ⟨vs, hvs⟩ := List.head?_eq_some_iff.1 hv
  rw [restoreSnapshot_earlier h.taken h.regions hvs] at hr
  cases hr
  simp [written, (hacc .setRegs).2, (hacc .setSregs).2]

/-- Restores take operations back, as far as the registers of the first vCPU go. -/
def registersRewind : Rewinds snapshots Operation.adds Operation.Quiet where
  state s t := SameLayout s t ∧ SameRegisters s.vcpus t.vcpus
  snapshot s p t := SameLayout s t ∧ (∃ u, TakenAt u p s) ∧ SameRegisters s.vcpus s.vcpus ∧
    ∃ w ∈ t.vcpus.head?, p.regs = w.regs ∧ p.sregs = w.sregs
  exec := by
    rintro s t s' a ha ⟨hlayout, hregs⟩ hs
    obtain ⟨t', ht, hlayout', -⟩ := Operation.exec_sameLayout hlayout hs
    refine ⟨t', ht, hlayout', ?_⟩
    rw [Operation.vcpus_exec hs, Operation.vcpus_exec ht]
    exact hregs.onVCpus ha
  kept := by
    rintro s p t s' a ha hadds ⟨hlayout, ⟨u, htaken⟩, hacc, w, hw, hp⟩ hs
    obtain ⟨t', ht, hlayout', -⟩ := Operation.exec_sameLayout hlayout hs
    refine ⟨t', ht, hlayout', ⟨u, htaken.exec hs⟩, ?_, w, ?_, hp⟩
    · rw [Operation.vcpus_exec hs]
      exact hacc.onVCpus ha
    · rw [Operation.vcpus_exec ht]
      exact head?_onVCpus_of_adds hadds hw
  undone := by
    rintro s p t s' a ha hadds ⟨hlayout, ⟨u, htaken⟩, hacc, hp⟩ hs
    refine ⟨(Operation.sameLayout_of_not_adds hs hadds).symm.trans hlayout, ⟨u, htaken.exec hs⟩, ?_,
      hp⟩
    rw [Operation.vcpus_exec hs]
    exact hacc.onVCpus ha
  take := by
    rintro s t p ⟨hlayout, v, hv, hacc, w, hw, hregs, hsregs⟩ hp
    obtain ⟨hpr, hps⟩ := registers_takeSnapShot hp hv hacc
    exact ⟨hlayout, ⟨s, takenAt_of_takeSnapShot hp⟩, ⟨v, hv, hacc, v, hv, rfl, rfl⟩,
      w, hw, hpr.trans hregs, hps.trans hsregs⟩
  restore := by
    rintro s p t s' ⟨hlayout, ⟨u, htaken⟩, ⟨v, hv, hacc, -⟩, w, hw, hregs, hsregs⟩ hs
    obtain ⟨hlayout', -⟩ := htaken.restored hs
    exact ⟨hlayout'.symm.trans hlayout, _, htaken.head?_restoreSnapshot hv hacc hs, hacc, w, hw,
      hregs, hsregs⟩
  others := by
    rintro s p t s' p' t' ⟨-, ⟨u, htaken⟩, ⟨v, hv, hacc, -⟩, -⟩ hs ⟨hlayout, ⟨u', htaken'⟩, -, hp⟩
    obtain ⟨hlayout', hlen, -⟩ := htaken.restored hs
    have hback := htaken.head?_restoreSnapshot hv hacc hs
    exact ⟨hlayout'.symm.trans hlayout, ⟨u', htaken'.of_sameLayout hlayout' hlen⟩,
      ⟨_, hback, hacc, _, hback, rfl, rfl⟩, hp⟩

/-- As many vCPUs, and all but the first the same. -/
def SameRest (vs ws : List VCpu) : Prop :=
  vs.length = ws.length ∧ vs.tail = ws.tail

theorem SameRest.onVCpus {vs ws : List VCpu} (h : SameRest vs ws) (a : Operation) :
    SameRest (a.onVCpus vs) (a.onVCpus ws) := by
  obtain ⟨hlen, htail⟩ := h
  have hmodify : ∀ (i : ℕ) (f : VCpu → VCpu), SameRest (vs.modify i f) (ws.modify i f) := by
    intro i f
    refine ⟨by simpa using hlen, ?_⟩
    rcases vs with _ | ⟨v, vs⟩ <;> rcases ws with _ | ⟨w, ws⟩ <;> cases i <;> simp_all
  cases a with
  | runVCpu i x => exact hmodify i _
  | setRegs i regs => exact hmodify i _
  | setSregs i sregs => exact hmodify i _
  | write i off data => exact ⟨hlen, htail⟩
  | addMemoryRegion os addr size flags => exact ⟨hlen, htail⟩
  | addVCpu os vcpuId =>
    rcases vs with _ | ⟨v, vs⟩ <;> rcases ws with _ | ⟨w, ws⟩ <;>
      simp_all [SameRest, Operation.onVCpus]

/-- Restores take nothing back, as far as all vCPUs but the first go. -/
def restRewinds : Rewinds snapshots (fun _ => true) fun _ => True where
  state s t := SameLayout s t ∧ SameRest s.vcpus t.vcpus
  snapshot s p t := SameLayout s t ∧ SameRest s.vcpus t.vcpus ∧ ∃ u, TakenAt u p s
  exec := by
    rintro s t s' a - ⟨hlayout, hrest⟩ hs
    obtain ⟨t', ht, hlayout', -⟩ := Operation.exec_sameLayout hlayout hs
    refine ⟨t', ht, hlayout', ?_⟩
    rw [Operation.vcpus_exec hs, Operation.vcpus_exec ht]
    exact hrest.onVCpus a
  kept := by
    rintro s p t s' a - - ⟨hlayout, hrest, u, htaken⟩ hs
    obtain ⟨t', ht, hlayout', -⟩ := Operation.exec_sameLayout hlayout hs
    refine ⟨t', ht, hlayout', ?_, u, htaken.exec hs⟩
    rw [Operation.vcpus_exec hs, Operation.vcpus_exec ht]
    exact hrest.onVCpus a
  undone := fun _ h => nomatch h
  take := fun ⟨hlayout, hrest⟩ hp => ⟨hlayout, hrest, _, takenAt_of_takeSnapShot hp⟩
  restore := by
    rintro s p t s' ⟨hlayout, ⟨hlen, htail⟩, u, htaken⟩ hs
    obtain ⟨hlayout', hlen', htail', -⟩ := htaken.restored hs
    exact ⟨hlayout'.symm.trans hlayout, hlen'.trans hlen, htail'.trans htail⟩
  others := by
    rintro s p t s' p' t' ⟨-, -, u, htaken⟩ hs ⟨hlayout, ⟨hlen, htail⟩, u', htaken'⟩
    obtain ⟨hlayout', hlen', htail', -⟩ := htaken.restored hs
    exact ⟨hlayout'.symm.trans hlayout, ⟨hlen'.trans hlen, htail'.trans htail⟩, u',
      htaken'.of_sameLayout hlayout' hlen'⟩

/-! ## Histories -/

/-- A history of snapshots and restores ends as if the operations its restores took back had never
been executed, in the memory `vm` had and, if the register ioctls of snapshots and restores succeed,
in the registers of the first vCPU. In the regions and vCPUs there are and in all vCPUs but the
first it ends as if they had not been taken back. Each of its snapshots can still be restored. -/
theorem restores_take_back {vm : VirtualMachine} {marks : List (Mark Operation)}
    {s : VirtualMachine × List VmSnapShot} (h : marks.foldlM snapshots.next (vm, []) = .ok s) :
    (∃ t, (live Operation.adds marks).foldlM Operation.exec vm = .ok t ∧
      (∀ i < vm.memoryRegions.length, s.1.memoryRegions[i]? = t.memoryRegions[i]?) ∧
      ((∃ v ∈ vm.vcpus.head?, Accessible v) → (∀ a ∈ operations marks, a.Quiet) →
        s.1.vcpus.head?.map VCpu.regs = t.vcpus.head?.map VCpu.regs ∧
          s.1.vcpus.head?.map VCpu.sregs = t.vcpus.head?.map VCpu.sregs)) ∧
    (∃ t, (operations marks).foldlM Operation.exec vm = .ok t ∧ SameLayout s.1 t ∧
      s.1.vcpus.length = t.vcpus.length ∧ s.1.vcpus.tail = t.vcpus.tail) ∧
    ∀ snap ∈ s.2, ∃ vm', s.1.restoreSnapshot snap = .ok vm' := by
  have hstart : SameLayout vm vm := .refl vm
  obtain ⟨⟨t, ht, -, hmem⟩, hsnaps⟩ := (memoryRewinds vm.memoryRegions.length).run
    ⟨hstart, fun i hi => ⟨_, List.getElem?_eq_getElem hi, List.getElem?_eq_getElem hi⟩⟩
    (fun _ _ => trivial) h
  obtain ⟨⟨u, hu, hlayout, hlen, htail⟩, -⟩ :=
    restRewinds.run ⟨hstart, rfl, rfl⟩ (fun _ _ => trivial) h
  refine ⟨⟨t, ht, fun i hi => ?_, fun ⟨v, hv, hacc⟩ hquiet => ?_⟩,
    ⟨u, ?_, hlayout, hlen, htail⟩, fun snap hsnap => ?_⟩
  · obtain ⟨r, hr, hr'⟩ := hmem i hi
    rw [hr, hr']
  · obtain ⟨⟨t', ht', -, v', hv', -, w, hw, hregs, hsregs⟩, -⟩ :=
      registersRewind.run ⟨hstart, v, hv, hacc, v, hv, rfl, rfl⟩ hquiet h
    obtain rfl : t' = t := Except.ok.inj (ht'.symm.trans ht)
    simp [Option.mem_def.1 hv', Option.mem_def.1 hw, hregs, hsregs]
  · rwa [live_of_keep] at hu
  · obtain ⟨_, -, _, htaken, -⟩ := hsnaps snap hsnap
    exact htaken.exists_restoreSnapshot

/-- The guest fills its memory with sevens and gets to `0x1004`. -/
def sevens : KvmExit where
  regs := { rip := 0x1004 }
  ram := fun _ _ => 7

/-- Two snapshots. The guest fills its memory before the second, and what follows is taken back,
apart from the region that was added. -/
def twoSnapshots : List (Mark Operation) :=
  [.save, .op (.runVCpu 0 sevens), .save, .op (.write 0 1 [9]),
    .op (.addMemoryRegion {} 0x2000 0x1000 0), .restore 0, .restore 1]

example : live Operation.adds twoSnapshots =
    [.runVCpu 0 sevens, .addMemoryRegion {} 0x2000 0x1000 0] :=
  rfl

theorem exec_snapshots_write (vm : VirtualMachine) (i : ℕ) (off : UInt64) (data : List UInt8) :
    snapshots.exec vm (.write i off data) = VmOp.exec vm (.write i off data) :=
  rfl

theorem keeps_singleton {r r' : MemoryRegion} (h : MemoryRegion.SameShape r r')
    (rs : List MemoryRegion) : Keeps [r] (r' :: rs) := by
  rintro (_ | i) r₀ hr₀
  · cases hr₀
    exact ⟨r', rfl, h⟩
  · cases hr₀

theorem run_twoSnapshots :
    ∃ s, twoSnapshots.foldlM snapshots.next (pageVm, []) = .ok s ∧
      s.1.memoryRegions[0]? = some (onesPage.setRam fun _ => 7) ∧
      s.1.memoryRegions.length = 2 ∧ s.1.vcpus.map (·.regs.rip) = [0x1004] := by
  obtain ⟨snap, hsnap⟩ : ∃ snap, pageVm.takeSnapShot = .ok snap := ⟨_, rfl⟩
  obtain ⟨snap', hsnap', hrip⟩ : ∃ snap', (pageVm.runVCpu 0 sevens).takeSnapShot = .ok snap' ∧
      snap'.regs.rip = 0x1004 := ⟨_, rfl, rfl⟩
  obtain ⟨r, hr⟩ := exists_write_onesPage
  -- the VM before the restores
  let vm : VirtualMachine :=
    ({ pageVm.runVCpu 0 sevens with memoryRegions := [r] }.addMemoryRegion {} 0x2000 0x1000 0).2
  obtain ⟨new, hnew⟩ : ∃ new, vm.memoryRegions = [r, new] := ⟨_, rfl⟩
  have hvcpus : vm.vcpus = (pageVm.runVCpu 0 sevens).vcpus := vcpus_addMemoryRegion _ _ _ _ _
  have hshape := MemoryRegion.sameShape_setRam (fun _ => 7) onesPage
  have hkeeps : Keeps pageVm.memoryRegions vm.memoryRegions := by
    rw [hnew]
    exact keeps_singleton (hshape.trans (MemoryRegion.sameShape_of_write hr)) _
  obtain ⟨vm', hfirst, hmem, v, hv, hset⟩ : ∃ vm', vm.restoreSnapshot snap = .ok vm' ∧
      vm'.memoryRegions = [onesPage, new] ∧
      ∃ v, vm'.vcpus = [v] ∧ v.faults .restoreSnapshot .setRegs = none := by
    refine ⟨_, restoreSnapshot_earlier hsnap hkeeps hvcpus, ?_, _, rfl, rfl⟩
    rw [hnew]
    rfl
  have hkeeps' : Keeps (pageVm.runVCpu 0 sevens).memoryRegions vm'.memoryRegions := by
    rw [hmem]
    exact keeps_singleton (shape_eq_iff.1 (shape_eq_iff.2 hshape).symm) _
  have hsecond := restoreSnapshot_earlier hsnap' hkeeps' hv
  have hregion : (pageVm.runVCpu 0 sevens).memoryRegions = [onesPage.setRam fun _ => 7] := rfl
  have hwrite : snapshots.exec (pageVm.runVCpu 0 sevens) (.write 0 1 [9]) =
      .ok { pageVm.runVCpu 0 sevens with memoryRegions := [r] } := by
    rw [exec_snapshots_write, VmOp.exec_write (by rw [hregion]; rfl) hr, hregion,
      List.set_cons_zero]
  rw [twoSnapshots, Runs.foldlM_cons_ok (Checkpointed.next_save hsnap),
    Runs.foldlM_cons_ok (Checkpointed.next_op rfl),
    Runs.foldlM_cons_ok (Checkpointed.next_save hsnap'),
    Runs.foldlM_cons_ok (Checkpointed.next_op hwrite),
    Runs.foldlM_cons_ok (Checkpointed.next_op rfl),
    Runs.foldlM_cons_ok (Checkpointed.next_restore rfl hfirst),
    Runs.foldlM_cons_ok (Checkpointed.next_restore rfl hsecond)]
  refine ⟨_, rfl, rfl, ?_, ?_⟩
  · rw [hmem]
    rfl
  · rw [hset]
    exact congrArg (fun rip => [rip]) hrip

/-- `pageVm` ends with the memory and the registers of the second snapshot, and the new region. -/
theorem restores_take_back_pageVm : ∃ s, twoSnapshots.foldlM snapshots.next (pageVm, []) =
      .ok s ∧ s.1.memoryRegions[0]? = some (onesPage.setRam fun _ => 7) ∧
      s.1.memoryRegions.length = 2 ∧ s.1.vcpus.map (·.regs.rip) = [0x1004] ∧
      ∃ t, (live Operation.adds twoSnapshots).foldlM Operation.exec pageVm = .ok t ∧
        s.1.memoryRegions[0]? = t.memoryRegions[0]? ∧
        s.1.vcpus.head?.map VCpu.regs = t.vcpus.head?.map VCpu.regs := by
  obtain ⟨s, hs, hmem, hlen, hrip⟩ := run_twoSnapshots
  obtain ⟨⟨t, ht, hsame, hregs⟩, -⟩ := restores_take_back hs
  have hquiet : ∀ a ∈ operations twoSnapshots, a.Quiet := by
    simp [twoSnapshots, operations, Operation.Quiet, sevens]
  exact ⟨s, hs, hmem, hlen, hrip, t, ht, hsame 0 Nat.one_pos,
    (hregs ⟨_, rfl, fun _ => ⟨rfl, rfl⟩⟩ hquiet).1⟩

end VirtualMachine

end MinBp
