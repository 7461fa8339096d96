import MinBp.Resources

/-!
# Owners

The objects of a program that uses `KvmSystem`, `VirtualMachine`, `VCpu` and `MemoryRegion`, and
everything it can do with them : create them, with any calls failing, move them, assign one over
another and destroy them (`Op`). Objects are variables, or elements of the vectors of a virtual
machine, which the program reaches through `vcpus()` and the pointers `addMemoryRegion` and
`addVCpu` return.

What the objects own together is what the kernel has given out (`Heap.Owns`), from which single
ownership and the release of everything follow (`released_exactly_once`). A move assignment
transfers what the source owned unless the target is a moved-from `KvmSystem`
(`moveAssign_transfers_iff`).
-/

namespace MinBp.Ownership

/-! ## What a creation acquires -/

/-- What a creation has to own. -/
def created {τ : Type} [Raii τ] : Except Errno τ → Multiset Resource
  | .ok x => Raii.owned x
  | .error _ => 0

namespace Kernel

theorem newFd_cases (out : Except Errno ℕ) (k : Kernel) :
    (∃ e, k.newFd out = (.error e, k)) ∨
      ∃ (n : ℕ) (k' : Kernel), k.newFd out = (.ok n, k') ∧
        k.ledger.Gains k'.ledger {.fd n} := by
  rcases out with e | n
  · exact .inl ⟨e, rfl⟩
  · rw [newFd]
    split
    · exact .inr ⟨n, _, rfl, .acquire _ _⟩
    · exact .inl ⟨_, rfl⟩

theorem mmap_cases (size : ℕ) (out : Except Errno ℕ) (k : Kernel) :
    (∃ e, k.mmap size out = (.error e, k)) ∨
      ∃ (addr : ℕ) (k' : Kernel), k.mmap size out = (.ok addr, k') ∧
        (addr ≠ 0 ∧ addr ≠ MAP_FAILED) ∧ .inr addr ∉ k.held.map Resource.key ∧
          k.ledger.Gains k'.ledger {.mapping addr size} := by
  rcases out with e | addr
  · exact .inl ⟨e, rfl⟩
  · rw [mmap]
    split
    · exact .inl ⟨_, rfl⟩
    · split
      · rename_i h
        exact .inr ⟨addr, _, rfl, ⟨h.1, h.2.1⟩, h.2.2, .acquire _ _⟩
      · exact .inl ⟨_, rfl⟩

theorem gains_close {k k' : Kernel} {fd : ℤ} (h : k.ledger.Gains k'.ledger {.fd fd}) :
    k.ledger.Gains (k'.close fd).ledger 0 := by
  refine Ledger.Settles.gains_zero h (settles_close ?_)
  rw [held, h.held]
  exact Multiset.le_add_left _ _

theorem gains_munmap {k k' : Kernel} {addr size : ℕ}
    (h : k.ledger.Gains k'.ledger {.mapping addr size}) :
    k.ledger.Gains (k'.munmap addr size).ledger 0 := by
  refine Ledger.Settles.gains_zero h (settles_munmap ?_)
  rw [held, h.held]
  exact Multiset.le_add_left _ _

end Kernel

theorem ownedFd_natCast (n : ℕ) : ownedFd n = {.fd n} :=
  if_pos (Int.natCast_nonneg n)

theorem KvmSystem.gains_open (os : OpenOutcome) (k : Kernel) :
    k.ledger.Gains (KvmSystem.open os k).2.ledger (created (KvmSystem.open os k).1) := by
  rw [KvmSystem.open]
  rcases k.newFd_cases os.fd with ⟨e, h⟩ | ⟨n, k', h, hg⟩
  · rw [h]
    exact .refl _
  · rw [h]
    dsimp only [Kernel.ioctl]
    split
    · rename_i heq
      obtain ⟨-, rfl⟩ := Prod.mk.inj heq
      exact Kernel.gains_close hg
    · rename_i heq
      obtain ⟨-, rfl⟩ := Prod.mk.inj heq
      split
      · exact Kernel.gains_close hg
      · split
        · rename_i heq
          obtain ⟨-, rfl⟩ := Prod.mk.inj heq
          exact Kernel.gains_close hg
        · rename_i heq
          obtain ⟨-, rfl⟩ := Prod.mk.inj heq
          rw [← ownedFd_natCast] at hg
          exact hg

theorem KvmSystem.gains_createVm (s : KvmSystem) (out : Except Errno ℕ) (k : Kernel) :
    k.ledger.Gains (s.createVm out k).2.ledger (created (s.createVm out k).1) := by
  rw [KvmSystem.createVm]
  dsimp only [Kernel.ioctl]
  split
  · rename_i heq
    obtain ⟨-, rfl⟩ := Prod.mk.inj heq
    exact .refl _
  · rename_i m k₁ heq
    obtain ⟨-, rfl⟩ := Prod.mk.inj heq
    rcases Kernel.newFd_cases (.ok m) _ with ⟨e, h⟩ | ⟨n, k', h, hg⟩
    · rw [h]
      exact .refl _
    · rw [h]
      rw [← ownedFd_natCast] at hg
      simpa [created, Raii.owned, VirtualMachine.owned, ownedAll] using hg

theorem ownedMapping_of_mapped {addr : ℕ} (h : addr ≠ 0 ∧ addr ≠ MAP_FAILED) (size : ℕ) :
    ownedMapping addr size = {.mapping addr size} :=
  if_pos h

theorem VCpu.gains_create (vmFd : ℤ) (vcpuId : UInt32) (mmapSize : ℕ) (os : CreateOutcome)
    (k : Kernel) : k.ledger.Gains (VCpu.create vmFd vcpuId mmapSize os k).2.ledger
      (created (VCpu.create vmFd vcpuId mmapSize os k).1) := by
  rw [VCpu.create]
  dsimp only [Kernel.ioctl]
  split
  · rename_i heq
    obtain ⟨-, rfl⟩ := Prod.mk.inj heq
    exact .refl _
  · rename_i m k₁ heq
    obtain ⟨-, rfl⟩ := Prod.mk.inj heq
    rcases Kernel.newFd_cases (.ok m) _ with ⟨e, h⟩ | ⟨n, k₂, h, hg⟩
    · rw [h]
      exact .refl _
    · rw [h]
      dsimp only
      rcases k₂.mmap_cases mmapSize os.mmap with ⟨e, hm⟩ | ⟨addr, k₃, hm, ha, -, hg'⟩
      · rw [hm]
        exact Kernel.gains_close hg
      · rw [hm]
        have := hg.trans hg'
        rwa [add_comm, ← ownedFd_natCast, ← ownedMapping_of_mapped ha] at this

theorem MemoryRegion.gains_create (vmFd : ℤ) (slot : UInt32) (guestPhysAddr : UInt64)
    (sizeBytes : ℕ) (flags : UInt32) (os : CreateOutcome) (k : Kernel) :
    k.ledger.Gains (MemoryRegion.create vmFd slot guestPhysAddr sizeBytes flags os k).2.ledger
      (created (MemoryRegion.create vmFd slot guestPhysAddr sizeBytes flags os k).1) := by
  rw [MemoryRegion.create]
  rcases k.mmap_cases sizeBytes os.mmap with ⟨e, hm⟩ | ⟨addr, k₁, hm, ha, -, hg⟩
  · rw [hm]
    exact .refl _
  · rw [hm]
    dsimp only
    have hk := k₁.ledger_setUserMemoryRegion vmFd ⟨slot, flags, guestPhysAddr, sizeBytes, addr⟩
      os.ioctl
    split
    · rename_i heq
      rw [heq] at hk
      rw [← hk] at hg
      exact Kernel.gains_munmap hg
    · rename_i heq
      rw [heq] at hk
      rwa [← hk, ← ownedMapping_of_mapped ha] at hg

/-- Adding a region or a vCPU gives the virtual machine what was acquired for it. -/
theorem VirtualMachine.gains_addMemoryRegion (guestPhysAddr : UInt64) (sizeBytes : ℕ)
    (flags : UInt32) (os : CreateOutcome) (full : Bool) (vm : VirtualMachine) (k : Kernel) :
    ∃ rs, k.ledger.Gains (vm.addMemoryRegion guestPhysAddr sizeBytes flags os full k).2.ledger rs ∧
      (vm.addMemoryRegion guestPhysAddr sizeBytes flags os full k).1.owned = vm.owned + rs := by
  have hg := MemoryRegion.gains_create vm.fd vm.nextSlot guestPhysAddr sizeBytes flags os k
  rw [VirtualMachine.addMemoryRegion]
  split
  · rename_i heq
    rw [heq] at hg
    exact ⟨0, hg, (add_zero _).symm⟩
  · rename_i region k' heq
    rw [heq] at hg
    rw [pushBack_eq]
    refine ⟨_, hg, ?_⟩
    simp [VirtualMachine.owned, ownedAll, created, add_assoc]

theorem VirtualMachine.gains_addVCpu (vcpuId : UInt32) (os : CreateOutcome) (full : Bool)
    (vm : VirtualMachine) (k : Kernel) :
    ∃ rs, k.ledger.Gains (vm.addVCpu vcpuId os full k).2.ledger rs ∧
      (vm.addVCpu vcpuId os full k).1.owned = vm.owned + rs := by
  have hg := VCpu.gains_create vm.fd vcpuId vm.vcpuMmapSize os k
  rw [VirtualMachine.addVCpu]
  split
  · rename_i heq
    rw [heq] at hg
    exact ⟨0, hg, (add_zero _).symm⟩
  · rename_i vcpu k' heq
    rw [heq] at hg
    rw [pushBack_eq]
    refine ⟨_, hg, ?_⟩
    simp [VirtualMachine.owned, ownedAll, created, add_assoc, add_comm, add_left_comm]

/-! ## Objects -/

/-- An object of one of the four classes. -/
inductive Obj where
  | kvmSystem (s : KvmSystem)
  | virtualMachine (vm : VirtualMachine)
  | vCpu (v : VCpu)
  | memoryRegion (r : MemoryRegion)
  deriving DecidableEq, Repr

/-- The four classes. -/
inductive Cls where
  | kvmSystem
  | virtualMachine
  | vCpu
  | memoryRegion
  deriving DecidableEq, Repr

namespace Obj

def cls : Obj → Cls
  | .kvmSystem _ => .kvmSystem
  | .virtualMachine _ => .virtualMachine
  | .vCpu _ => .vCpu
  | .memoryRegion _ => .memoryRegion

def owned : Obj → Multiset Resource
  | .kvmSystem s => Raii.owned s
  | .virtualMachine vm => Raii.owned vm
  | .vCpu v => Raii.owned v
  | .memoryRegion r => Raii.owned r

def moveConstruct : Obj → Obj × Obj
  | .kvmSystem s => (s.moveConstruct).map .kvmSystem .kvmSystem
  | .virtualMachine vm => (vm.moveConstruct).map .virtualMachine .virtualMachine
  | .vCpu v => (v.moveConstruct).map .vCpu .vCpu
  | .memoryRegion r => (r.moveConstruct).map .memoryRegion .memoryRegion

/-- The assignment operators. Objects of two classes cannot be assigned. -/
def moveAssign (a b : Obj) (k : Kernel) : (Obj × Obj) × Kernel :=
  match a, b with
  | .kvmSystem s, .kvmSystem t => (s.moveAssign t k).map (.map .kvmSystem .kvmSystem) id
  | .virtualMachine s, .virtualMachine t =>
    (s.moveAssign t k).map (.map .virtualMachine .virtualMachine) id
  | .vCpu s, .vCpu t => (s.moveAssign t k).map (.map .vCpu .vCpu) id
  | .memoryRegion s, .memoryRegion t =>
    (s.moveAssign t k).map (.map .memoryRegion .memoryRegion) id
  | a, b => ((a, b), k)

def destroy : Obj → Kernel → Kernel
  | .kvmSystem s => s.destroy
  | .virtualMachine vm => vm.destroy
  | .vCpu v => v.destroy
  | .memoryRegion r => r.destroy

theorem eq_vCpu {y : Obj} {v : VCpu} (h : y.cls = (vCpu v).cls) : ∃ w, y = vCpu w := by
  cases y with
  | vCpu w => exact ⟨w, rfl⟩
  | _ => simp [cls] at h

theorem eq_memoryRegion {y : Obj} {r : MemoryRegion} (h : y.cls = (memoryRegion r).cls) :
    ∃ w, y = memoryRegion w := by
  cases y with
  | memoryRegion w => exact ⟨w, rfl⟩
  | _ => simp [cls] at h

theorem cls_moveConstruct_snd (x : Obj) : (moveConstruct x).2.cls = x.cls := by
  cases x <;> rfl

end Obj

instance : Raii Obj where
  owned := Obj.owned
  moveConstruct := Obj.moveConstruct
  destroy := Obj.destroy
  moveConstruct_fst x := by cases x <;> rfl
  owned_moveConstruct_snd x := by cases x <;> rfl
  destroy_moveConstruct_snd x k := by cases x <;> rfl
  settles_destroy {x k} h := by
    cases x with
    | kvmSystem s => exact @Raii.settles_destroy _ _ s _ h
    | virtualMachine vm => exact @Raii.settles_destroy _ _ vm _ h
    | vCpu v => exact @Raii.settles_destroy _ _ v _ h
    | memoryRegion r => exact @Raii.settles_destroy _ _ r _ h

namespace Obj

/-- Whether an assignment to the object does anything : `KvmSystem::operator=` does its work only
inside its test of `m_fd`. -/
def Takes : Obj → Prop
  | .kvmSystem s => 0 ≤ s.fd
  | _ => True

instance (a : Obj) : Decidable a.Takes := by
  unfold Takes
  split <;> infer_instance

/-- Then it gives up what the target owned, and moves the source. -/
theorem moveAssign_of_takes {a b : Obj} {k : Kernel} (hc : a.cls = b.cls) (ht : a.Takes)
    (h : a.owned ≤ k.held) : (a.moveAssign b k).1 = b.moveConstruct ∧
      k.ledger.Settles (a.moveAssign b k).2.ledger a.owned := by
  unfold moveAssign
  split
  · rename_i s t
    rw [KvmSystem.moveAssign_of_nonneg ht]
    exact ⟨rfl, settles_closeIfOpen h⟩
  · rename_i s t
    exact ⟨rfl, VirtualMachine.settles_moveAssign t h⟩
  · exact ⟨rfl, VCpu.settles_destroy h⟩
  · exact ⟨rfl, MemoryRegion.settles_destroy h⟩
  · -- the classes differ
    rename_i h₁ h₂ h₃ h₄
    cases a <;> cases b <;> simp_all [cls]

theorem owned_of_not_takes {a : Obj} (ht : ¬a.Takes) : a.owned = 0 := by
  cases a with
  | kvmSystem s => exact if_neg ht
  | _ => exact absurd trivial ht

theorem moveAssign_of_not_takes {a : Obj} (ht : ¬a.Takes) (b : Obj) (k : Kernel) :
    a.moveAssign b k = ((a, b), k) := by
  unfold moveAssign
  split
  · rw [KvmSystem.moveAssign_of_neg ht]
    rfl
  all_goals first | rfl | exact absurd trivial ht

end Obj

/-- An object as a whole, or an element of one of its vectors. -/
inductive Part where
  | whole
  | vcpu (j : ℕ)
  | region (j : ℕ)
  deriving DecidableEq, Repr

namespace Part

def get : Part → Obj → Option Obj
  | .whole, o => some o
  | .vcpu j, .virtualMachine vm => vm.vcpus[j]?.map .vCpu
  | .region j, .virtualMachine vm => vm.memoryRegions[j]?.map .memoryRegion
  | _, _ => none

/-- Put `y` in the place of a part, which has to be of its class. -/
def set : Part → Obj → Obj → Obj
  | .whole, y, _ => y
  | .vcpu j, .vCpu v, .virtualMachine vm =>
    .virtualMachine { vm with vcpus := vm.vcpus.set j v }
  | .region j, .memoryRegion r, .virtualMachine vm =>
    .virtualMachine { vm with memoryRegions := vm.memoryRegions.set j r }
  | _, _, o => o

variable {p q : Part} {o x y z : Obj}

/-- An element is found only in a virtual machine. -/
theorem get_eq_some (h : p.get o = some x) :
    p = .whole ∧ x = o ∨
      (∃ vm j v, o = .virtualMachine vm ∧ p = .vcpu j ∧ vm.vcpus[j]? = some v ∧ x = .vCpu v) ∨
      ∃ vm j r, o = .virtualMachine vm ∧ p = .region j ∧ vm.memoryRegions[j]? = some r ∧
        x = .memoryRegion r := by
  unfold get at h
  split at h
  · exact .inl ⟨rfl, (Option.some.inj h).symm⟩
  · obtain ⟨v, hv, rfl⟩ := Option.map_eq_some_iff.1 h
    exact .inr (.inl ⟨_, _, v, rfl, rfl, hv, rfl⟩)
  · obtain ⟨r, hr, rfl⟩ := Option.map_eq_some_iff.1 h
    exact .inr (.inr ⟨_, _, r, rfl, rfl, hr, rfl⟩)
  · exact absurd h (Option.some_ne_none x).symm

theorem get_set (h : p.get o = some x) (hy : y.cls = x.cls) : p.get (p.set y o) = some y := by
  rcases get_eq_some h with
    ⟨rfl, rfl⟩ | ⟨vm, j, v, rfl, rfl, hv, rfl⟩ | ⟨vm, j, r, rfl, rfl, hr, rfl⟩
  · rfl
  · obtain ⟨w, rfl⟩ := Obj.eq_vCpu hy
    simp [get, set, (List.getElem?_eq_some_iff.1 hv).1]
  · obtain ⟨w, rfl⟩ := Obj.eq_memoryRegion hy
    simp [get, set, (List.getElem?_eq_some_iff.1 hr).1]

/-- Two parts of one class do not overlap. -/
theorem get_set_of_ne (hne : p ≠ q) (hp : p.get o = some x) (hq : q.get o = some z)
    (hxz : x.cls = z.cls) (hy : y.cls = z.cls) : p.get (q.set y o) = some x := by
  rcases get_eq_some hp with
    ⟨rfl, rfl⟩ | ⟨vm, i, v, rfl, rfl, hv, rfl⟩ | ⟨vm, i, r, rfl, rfl, hr, rfl⟩
  · rcases get_eq_some hq with
      ⟨rfl, -⟩ | ⟨vm, j, v, rfl, rfl, -, rfl⟩ | ⟨vm, j, r, rfl, rfl, -, rfl⟩
    · exact absurd rfl hne
    · simp [Obj.cls] at hxz
    · simp [Obj.cls] at hxz
  · obtain ⟨w, rfl⟩ := Obj.eq_vCpu (hy.trans hxz.symm)
    rcases get_eq_some hq with ⟨rfl, rfl⟩ | ⟨_, j, _, _, rfl, _, rfl⟩ | ⟨_, j, _, _, rfl, _, rfl⟩
    · simp [Obj.cls] at hxz
    · have hij : j ≠ i := fun e => hne (by rw [e])
      simpa [get, set, List.getElem?_set_ne hij] using hv
    · simp [Obj.cls] at hxz
  · obtain ⟨w, rfl⟩ := Obj.eq_memoryRegion (hy.trans hxz.symm)
    rcases get_eq_some hq with ⟨rfl, rfl⟩ | ⟨_, j, _, _, rfl, _, rfl⟩ | ⟨_, j, _, _, rfl, _, rfl⟩
    · simp [Obj.cls] at hxz
    · simp [Obj.cls] at hxz
    · have hij : j ≠ i := fun e => hne (by rw [e])
      simpa [get, set, List.getElem?_set_ne hij] using hr

/-- An exchanged part changes what the object owns by what the parts own. -/
theorem owned_set (h : p.get o = some x) (hy : y.cls = x.cls) :
    (p.set y o).owned + x.owned = o.owned + y.owned := by
  rcases get_eq_some h with
    ⟨rfl, rfl⟩ | ⟨vm, j, v, rfl, rfl, hv, rfl⟩ | ⟨vm, j, r, rfl, rfl, hr, rfl⟩
  · exact add_comm _ _
  · obtain ⟨w, rfl⟩ := Obj.eq_vCpu hy
    change ownedFd vm.fd + ownedAll (vm.vcpus.set j w) + ownedAll vm.memoryRegions + Raii.owned v =
      ownedFd vm.fd + ownedAll vm.vcpus + ownedAll vm.memoryRegions + Raii.owned w
    rw [add_right_comm _ _ (Raii.owned v), add_right_comm _ _ (Raii.owned w), add_assoc _ _
      (Raii.owned v), add_assoc _ _ (Raii.owned w), ownedAll_set hv]
  · obtain ⟨w, rfl⟩ := Obj.eq_memoryRegion hy
    change ownedFd vm.fd + ownedAll vm.vcpus + ownedAll (vm.memoryRegions.set j w) + Raii.owned r =
      ownedFd vm.fd + ownedAll vm.vcpus + ownedAll vm.memoryRegions + Raii.owned w
    rw [add_assoc _ _ (Raii.owned r), add_assoc _ _ (Raii.owned w), ownedAll_set hr]

end Part

/-! ## The heap -/

/-- Where an object is : a variable, or an element of a vector of the virtual machine in it. -/
structure Loc where
  var : ℕ
  part : Part := .whole
  deriving DecidableEq, Repr

/-- The program's variables, and the kernel. -/
structure Heap where
  kernel : Kernel := {}
  objs : List Obj := []

/-- What a program can do with the classes. -/
inductive Op where
  | «open» (os : OpenOutcome)
  | createVm (i : ℕ) (out : Except Errno ℕ)
  | addMemoryRegion (i : ℕ) (guestPhysAddr : UInt64) (sizeBytes : ℕ) (flags : UInt32)
      (os : CreateOutcome) (full : Bool)
  | addVCpu (i : ℕ) (vcpuId : UInt32) (os : CreateOutcome) (full : Bool)
  /-- `VCpu::create` and `MemoryRegion::create`, called by the program itself. -/
  | createVCpu (vmFd : ℤ) (vcpuId : UInt32) (mmapSize : ℕ) (os : CreateOutcome)
  | createMemoryRegion (vmFd : ℤ) (slot : UInt32) (guestPhysAddr : UInt64) (sizeBytes : ℕ)
      (flags : UInt32) (os : CreateOutcome)
  /-- A new variable takes over the object at `src`. -/
  | moveConstruct (src : Loc)
  | moveAssign (dst src : Loc)
  | destroy (i : ℕ)

namespace Heap

/-- What the objects own. -/
def owned (h : Heap) : Multiset Resource :=
  ownedAll h.objs

def get (l : Loc) (h : Heap) : Option Obj :=
  h.objs[l.var]?.bind l.part.get

def set (l : Loc) (x : Obj) (h : Heap) : Heap :=
  { h with objs := h.objs.modify l.var (l.part.set x) }

/-- The outcome of a creation : a new variable if it succeeds. -/
def declare {τ : Type} (mk : τ → Obj) (r : Except Errno τ × Kernel) (h : Heap) : Heap :=
  match r with
  | (.error _, kernel) => { h with kernel }
  | (.ok x, kernel) => { kernel, objs := h.objs ++ [mk x] }

/-- A member function of the virtual machine in variable `i`. -/
def updateVm (i : ℕ) (f : VirtualMachine → Kernel → VirtualMachine × Kernel) (h : Heap) : Heap :=
  match h.objs[i]? with
  | some (.virtualMachine vm) =>
    { kernel := (f vm h.kernel).2, objs := h.objs.set i (.virtualMachine (f vm h.kernel).1) }
  | _ => h

def step (h : Heap) : Op → Heap
  | .open os => h.declare .kvmSystem (KvmSystem.open os h.kernel)
  | .createVm i out =>
    match h.objs[i]? with
    | some (.kvmSystem s) => h.declare .virtualMachine (s.createVm out h.kernel)
    | _ => h
  | .addMemoryRegion i guestPhysAddr sizeBytes flags os full =>
    h.updateVm i (VirtualMachine.addMemoryRegion guestPhysAddr sizeBytes flags os full)
  | .addVCpu i vcpuId os full => h.updateVm i (VirtualMachine.addVCpu vcpuId os full)
  | .createVCpu vmFd vcpuId mmapSize os =>
    h.declare .vCpu (VCpu.create vmFd vcpuId mmapSize os h.kernel)
  | .createMemoryRegion vmFd slot guestPhysAddr sizeBytes flags os =>
    h.declare .memoryRegion
      (MemoryRegion.create vmFd slot guestPhysAddr sizeBytes flags os h.kernel)
  | .moveConstruct src =>
    match h.get src with
    | some x =>
      { h.set src x.moveConstruct.2 with
        objs := (h.set src x.moveConstruct.2).objs ++ [x.moveConstruct.1] }
    | none => h
  | .moveAssign dst src =>
    match h.get dst, h.get src with
    | some a, some b =>
      -- the operators compare the addresses first, and take an object of their own class
      if dst = src ∨ a.cls ≠ b.cls then h
      else
        let ((a', b'), kernel) := a.moveAssign b h.kernel
        { (h.set dst a').set src b' with kernel }
    | _, _ => h
  | .destroy i =>
    match h.objs[i]? with
    | some x => { kernel := x.destroy h.kernel, objs := h.objs.eraseIdx i }
    | none => h

def run (h : Heap) (ops : List Op) : Heap :=
  ops.foldl step h

/-! ## Reading and writing objects -/

variable {h : Heap} {l l' : Loc} {x y z : Obj}

theorem exists_of_get (hx : h.get l = some x) :
    ∃ o, h.objs[l.var]? = some o ∧ l.part.get o = some x :=
  Option.bind_eq_some_iff.1 hx

theorem objs_set {o : Obj} (ho : h.objs[l.var]? = some o) :
    (h.set l y).objs = h.objs.set l.var (l.part.set y o) := by
  rw [set, List.modify_eq_set_getElem?, ho]
  rfl

theorem get_set (hx : h.get l = some x) (hy : y.cls = x.cls) : (h.set l y).get l = some y := by
  obtain ⟨o, ho, hp⟩ := exists_of_get hx
  rw [get, objs_set ho, List.getElem?_set_self (List.getElem?_eq_some_iff.1 ho).1, Option.bind_some]
  exact Part.get_set hp hy

/-- Writing an object leaves another one of its class alone. -/
theorem get_set_of_ne (hne : l ≠ l') (hx : h.get l = some x) (hz : h.get l' = some z)
    (hxz : x.cls = z.cls) (hy : y.cls = z.cls) : (h.set l' y).get l = some x := by
  obtain ⟨o', ho', hp'⟩ := exists_of_get hz
  obtain ⟨o, ho, hp⟩ := exists_of_get hx
  rw [get, objs_set ho']
  by_cases hv : l'.var = l.var
  · obtain rfl : o = o' := by
      rw [hv, ho] at ho'
      exact Option.some.inj ho'
    rw [hv, List.getElem?_set_self (List.getElem?_eq_some_iff.1 ho).1, Option.bind_some]
    refine Part.get_set_of_ne (fun hpart => hne ?_) hp hp' hxz hy
    rw [Loc.mk.injEq]
    exact ⟨hv.symm, hpart⟩
  · rw [List.getElem?_set_ne hv, ho, Option.bind_some]
    exact hp

theorem owned_set (hx : h.get l = some x) (hy : y.cls = x.cls) :
    (h.set l y).owned + x.owned = h.owned + y.owned := by
  obtain ⟨o, ho, hp⟩ := exists_of_get hx
  rw [owned, objs_set ho]
  have hlist : ownedAll (h.objs.set l.var (l.part.set y o)) + o.owned =
      ownedAll h.objs + (l.part.set y o).owned := ownedAll_set ho _
  have hpart := Part.owned_set hp hy
  have : ownedAll (h.objs.set l.var (l.part.set y o)) + x.owned + o.owned =
      h.owned + y.owned + o.owned := by
    rw [add_right_comm, hlist, add_assoc, hpart, ← add_assoc, add_right_comm, owned]
  exact add_right_cancel this

/-- What is left when an object is moved from. -/
theorem owned_set_movedFrom (hx : h.get l = some x) :
    (h.set l x.moveConstruct.2).owned + x.owned = h.owned := by
  have hzero : x.moveConstruct.2.owned = 0 := Raii.owned_moveConstruct_snd x
  rw [owned_set hx x.cls_moveConstruct_snd, hzero, add_zero]

theorem owned_le (hx : h.get l = some x) : x.owned ≤ h.owned := by
  rw [← owned_set_movedFrom hx]
  exact Multiset.le_add_left _ _

/-! ## The objects own what is in use -/

/-- What the objects own is what the kernel has given out, and nothing was released twice. -/
structure Owns (h : Heap) : Prop where
  held : h.kernel.held = h.owned
  clean : h.kernel.ledger.Clean

theorem owns_declare {τ : Type} [Raii τ] {mk : τ → Obj} (hmk : ∀ x, (mk x).owned = Raii.owned x)
    {r : Except Errno τ × Kernel} (hr : h.kernel.ledger.Gains r.2.ledger (created r.1))
    (ho : h.Owns) : (h.declare mk r).Owns := by
  obtain ⟨r, k⟩ := r
  have hheld : k.held = h.kernel.held + created r := hr.held
  refine ⟨?_, ?_⟩
  · rcases r with e | x
    · exact hheld.trans ((add_zero _).trans ho.held)
    · change k.held = ownedAll (h.objs ++ [mk x])
      have happ : ownedAll (h.objs ++ [mk x]) = h.owned + (mk x).owned :=
        ownedAll_append_singleton _ _
      rw [happ, hmk, ← ho.held]
      exact hheld
  · rcases r with e | x
    · exact hr.clean ho.clean
    · exact hr.clean ho.clean

theorem owns_updateVm {i : ℕ} {f : VirtualMachine → Kernel → VirtualMachine × Kernel}
    (hf : ∀ vm k, ∃ rs, k.ledger.Gains (f vm k).2.ledger rs ∧ (f vm k).1.owned = vm.owned + rs)
    (ho : h.Owns) : (h.updateVm i f).Owns := by
  rw [updateVm]
  split
  · rename_i vm hi
    obtain ⟨rs, hg, hrs⟩ := hf vm h.kernel
    refine ⟨?_, hg.clean ho.clean⟩
    have hlist : ownedAll (h.objs.set i (.virtualMachine (f vm h.kernel).1)) + vm.owned =
        h.owned + (f vm h.kernel).1.owned := ownedAll_set hi _
    rw [hrs, ← add_assoc, add_right_comm] at hlist
    exact (hg.held.trans (congrArg (· + rs) ho.held)).trans (add_right_cancel hlist).symm
  · exact ho

theorem owns_moveConstruct (src : Loc) (ho : h.Owns) : (h.step (.moveConstruct src)).Owns := by
  rw [step]
  split
  · rename_i x hx
    refine ⟨?_, ho.clean⟩
    have happ : ownedAll ((h.set src x.moveConstruct.2).objs ++ [x.moveConstruct.1]) =
        (h.set src x.moveConstruct.2).owned + x.moveConstruct.1.owned :=
      ownedAll_append_singleton _ _
    have hfst : x.moveConstruct.1 = x := Raii.moveConstruct_fst x
    exact ho.held.trans ((owned_set_movedFrom hx).symm.trans
      ((congrArg (fun y => _ + Obj.owned y) hfst.symm).trans happ.symm))
  · exact ho

/-- The heap after an assignment that gives up what the target owned and moves the source. -/
theorem owned_moveAssign {dst src : Loc} {a b : Obj} (hne : dst ≠ src) (ha : h.get dst = some a)
    (hb : h.get src = some b) (hc : a.cls = b.cls) :
    ((h.set dst b).set src b.moveConstruct.2).owned + a.owned = h.owned := by
  have hsrc : (h.set dst b).get src = some b := get_set_of_ne hne.symm hb ha hc.symm hc.symm
  have h₁ := owned_set_movedFrom hsrc
  have h₂ := owned_set ha hc.symm
  rw [← h₁, add_right_comm] at h₂
  exact add_right_cancel h₂

theorem step_moveAssign {dst src : Loc} {a b : Obj} (hne : dst ≠ src) (ha : h.get dst = some a)
    (hb : h.get src = some b) (hc : a.cls = b.cls) :
    h.step (.moveAssign dst src) =
      { (h.set dst (a.moveAssign b h.kernel).1.1).set src (a.moveAssign b h.kernel).1.2 with
        kernel := (a.moveAssign b h.kernel).2 } := by
  rw [step, ha, hb]
  exact if_neg (by simp [hne, hc])

theorem set_of_getElem? {α : Type} {xs : List α} {i : ℕ} {x : α} (h : xs[i]? = some x) :
    xs.set i x = xs := by
  obtain ⟨hi, rfl⟩ := List.getElem?_eq_some_iff.1 h
  exact List.set_getElem_self hi

theorem set_self (hx : h.get l = some x) : h.set l x = h := by
  obtain ⟨o, ho, hp⟩ := exists_of_get hx
  have hpart : l.part.set x o = o := by
    rcases Part.get_eq_some hp with
      ⟨hw, rfl⟩ | ⟨vm, j, v, rfl, hw, hv, rfl⟩ | ⟨vm, j, r, rfl, hw, hr, rfl⟩
    · rw [hw, Part.set]
    · rw [hw, Part.set, set_of_getElem? hv]
    · rw [hw, Part.set, set_of_getElem? hr]
  have hobjs := objs_set (y := x) ho
  rw [hpart, set_of_getElem? ho] at hobjs
  exact congrArg (Heap.mk h.kernel) hobjs

/-- An assignment whose target takes over the source. -/
theorem step_moveAssign_of_takes {dst src : Loc} {a b : Obj} (ho : h.Owns) (hne : dst ≠ src)
    (ha : h.get dst = some a) (hb : h.get src = some b) (hc : a.cls = b.cls) (ht : a.Takes) :
    ∃ k, h.kernel.ledger.Settles k.ledger a.owned ∧ h.step (.moveAssign dst src) =
      { (h.set dst b).set src b.moveConstruct.2 with kernel := k } := by
  have hle : a.owned ≤ h.kernel.held := ho.held ▸ owned_le ha
  obtain ⟨h₁, h₂⟩ := Obj.moveAssign_of_takes hc ht hle
  have hfst : b.moveConstruct.1 = b := Raii.moveConstruct_fst b
  refine ⟨_, h₂, ?_⟩
  rw [step_moveAssign hne ha hb hc, h₁, hfst]

theorem step_moveAssign_of_not_takes {dst src : Loc} {a b : Obj} (hne : dst ≠ src)
    (ha : h.get dst = some a) (hb : h.get src = some b) (hc : a.cls = b.cls) (ht : ¬a.Takes) :
    h.step (.moveAssign dst src) = h := by
  rw [step_moveAssign hne ha hb hc, Obj.moveAssign_of_not_takes ht, set_self ha, set_self hb]

theorem owns_moveAssign (dst src : Loc) (ho : h.Owns) : (h.step (.moveAssign dst src)).Owns := by
  rcases ha : h.get dst with _ | a
  · simpa [step, ha] using ho
  rcases hb : h.get src with _ | b
  · simpa [step, ha, hb] using ho
  by_cases hself : dst = src ∨ a.cls ≠ b.cls
  · simpa [step, ha, hb, if_pos hself] using ho
  · obtain ⟨hne, hc⟩ := not_or.1 hself
    have hc := not_not.1 hc
    by_cases ht : a.Takes
    · obtain ⟨k, hs, heq⟩ := step_moveAssign_of_takes ho hne ha hb hc ht
      rw [heq]
      refine ⟨?_, hs.clean ho.clean⟩
      have hheld : k.held + a.owned = h.kernel.held := hs.held
      exact add_right_cancel
        (hheld.trans (ho.held.trans (owned_moveAssign hne ha hb hc).symm))
    · rw [step_moveAssign_of_not_takes hne ha hb hc ht]
      exact ho

theorem owns_destroy (i : ℕ) (ho : h.Owns) : (h.step (.destroy i)).Owns := by
  rw [step]
  split
  · rename_i x hx
    have hlist : ownedAll (h.objs.eraseIdx i) + x.owned = h.owned := ownedAll_eraseIdx hx
    have hle : Raii.owned x ≤ h.kernel.held := by
      rw [ho.held, ← hlist]
      exact Multiset.le_add_left _ _
    have hs : h.kernel.ledger.Settles (x.destroy h.kernel).ledger x.owned :=
      Raii.settles_destroy hle
    exact ⟨add_right_cancel (hs.held.trans (ho.held.trans hlist.symm)), hs.clean ho.clean⟩
  · exact ho

/-- Every operation keeps the objects the owners of what is in use. -/
theorem owns_step (op : Op) (ho : h.Owns) : (h.step op).Owns := by
  cases op with
  | «open» os => exact owns_declare (fun _ => rfl) (KvmSystem.gains_open os _) ho
  | createVm i out =>
    rw [step]
    split
    · exact owns_declare (fun _ => rfl) (KvmSystem.gains_createVm _ out _) ho
    · exact ho
  | addMemoryRegion i guestPhysAddr sizeBytes flags os full =>
    exact owns_updateVm (VirtualMachine.gains_addMemoryRegion guestPhysAddr sizeBytes flags os full)
      ho
  | addVCpu i vcpuId os full => exact owns_updateVm (VirtualMachine.gains_addVCpu vcpuId os full) ho
  | createVCpu vmFd vcpuId mmapSize os =>
    exact owns_declare (fun _ => rfl) (VCpu.gains_create vmFd vcpuId mmapSize os _) ho
  | createMemoryRegion vmFd slot guestPhysAddr sizeBytes flags os =>
    exact owns_declare (fun _ => rfl)
      (MemoryRegion.gains_create vmFd slot guestPhysAddr sizeBytes flags os _) ho
  | moveConstruct src => exact owns_moveConstruct src ho
  | moveAssign dst src => exact owns_moveAssign dst src ho
  | destroy i => exact owns_destroy i ho

theorem owns_run (ops : List Op) (ho : h.Owns) : (h.run ops).Owns := by
  induction ops generalizing h with
  | nil => exact ho
  | cons op ops ih => exact ih (owns_step op ho)

theorem owns_empty : Owns {} :=
  ⟨rfl, fun _ => List.not_mem_nil⟩

/-- Whatever was done, no resource has two owners, nothing was released that was not in use, and
once no object is left every descriptor was closed and every mapping was unmapped, with the size it
was mapped with, as often as it was obtained. -/
theorem released_exactly_once (ops : List Op) :
    ((run {} ops).owned.map Resource.key).Nodup ∧ (run {} ops).kernel.ledger.Clean ∧
      ((run {} ops).objs = [] → ∀ r, (run {} ops).kernel.ledger.log.count (.released r) =
        (run {} ops).kernel.ledger.log.count (.acquired r)) := by
  have ho : (run {} ops).Owns := owns_run ops owns_empty
  refine ⟨?_, ho.clean, fun hempty => Ledger.released_eq_acquired ?_⟩
  · rw [← ho.held]
    exact (run {} ops).kernel.distinct
  · change (run {} ops).kernel.held = 0
    rw [ho.held, owned, hempty]
    rfl

/-- A run with a region, a vCPU that fails, one that does not, and moves. -/
def sampleOps : List Op :=
  [.open { fd := .ok 3, mmapSize := .ok 12288 }, .createVm 0 (.ok 4),
    .addMemoryRegion 1 0 4096 0 { mmap := .ok 65536, ioctl := .ok 0 } false,
    .addVCpu 1 0 { ioctl := .ok 5, mmap := .error ENOMEM } false,
    .addVCpu 1 0 { ioctl := .ok 5, mmap := .ok 131072 } false,
    .moveConstruct ⟨1, .whole⟩, .moveConstruct ⟨2, .vcpu 0⟩, .moveAssign ⟨1, .whole⟩ ⟨2, .whole⟩,
    .moveAssign ⟨1, .whole⟩ ⟨1, .whole⟩, .destroy 0, .destroy 0, .destroy 0, .destroy 0]

theorem released_exactly_once_sampleOps :
    (run {} sampleOps).kernel.ledger.log.count (.acquired (.mapping 65536 4096)) = 1 ∧
      (run {} sampleOps).kernel.ledger.log.count (.acquired (.fd 5)) = 2 ∧
      ∀ r, (run {} sampleOps).kernel.ledger.log.count (.released r) =
        (run {} sampleOps).kernel.ledger.log.count (.acquired r) :=
  ⟨by decide, by decide, (released_exactly_once sampleOps).2.2 (by decide)⟩

/-! ## Move assignment -/

/-- After `a = std::move(b)` : the target is what `b` was, the source owns nothing, and what the
target owned is no longer in use. -/
structure Transferred (h h' : Heap) (dst src : Loc) (a b : Obj) : Prop where
  target : h'.get dst = some b
  source : ∃ b', h'.get src = some b' ∧ b'.owned = 0
  released : h'.kernel.held + a.owned = h.kernel.held
  clean : h'.kernel.ledger.Clean

theorem transferred_of_takes {dst src : Loc} {a b : Obj} (ho : h.Owns) (hne : dst ≠ src)
    (ha : h.get dst = some a) (hb : h.get src = some b) (hc : a.cls = b.cls) (ht : a.Takes) :
    Transferred h (h.step (.moveAssign dst src)) dst src a b := by
  obtain ⟨k, hs, heq⟩ := step_moveAssign_of_takes ho hne ha hb hc ht
  have hdst : (h.set dst b).get dst = some b := get_set ha hc.symm
  have hsrc : (h.set dst b).get src = some b := get_set_of_ne hne.symm hb ha hc.symm hc.symm
  rw [heq]
  refine ⟨?_, ⟨b.moveConstruct.2, ?_, Raii.owned_moveConstruct_snd b⟩, hs.held, hs.clean ho.clean⟩
  · exact get_set_of_ne hne hdst hsrc rfl b.cls_moveConstruct_snd
  · exact get_set hsrc b.cls_moveConstruct_snd

/-- An assignment transfers ownership exactly if the target is no moved-from `KvmSystem`, or the
two were equal already. -/
theorem moveAssign_transfers_iff (ops : List Op) {dst src : Loc} {a b : Obj} (hne : dst ≠ src)
    (ha : (run {} ops).get dst = some a) (hb : (run {} ops).get src = some b)
    (hc : a.cls = b.cls) :
    Transferred (run {} ops) ((run {} ops).step (.moveAssign dst src)) dst src a b ↔
      a.Takes ∨ a = b := by
  have ho : (run {} ops).Owns := owns_run ops owns_empty
  by_cases ht : a.Takes
  · exact ⟨fun _ => .inl ht, fun _ => transferred_of_takes ho hne ha hb hc ht⟩
  · have hzero : a.owned = 0 := Obj.owned_of_not_takes ht
    rw [step_moveAssign_of_not_takes hne ha hb hc ht]
    refine ⟨fun h => .inr (Option.some.inj (ha.symm.trans h.target)), ?_⟩
    rintro (h | rfl)
    · exact absurd h ht
    · exact ⟨ha, ⟨a, hb, hzero⟩, by rw [hzero, add_zero], ho.clean⟩

/-- A system in variable 1, moved there from variable 0. -/
def movedSystemOps : List Op :=
  [.open { fd := .ok 3, mmapSize := .ok 12288 }, .moveConstruct ⟨0, .whole⟩]

theorem moveAssign_transfers_iff_movedSystemOps :
    Transferred (run {} movedSystemOps)
        ((run {} movedSystemOps).step (.moveAssign ⟨1, .whole⟩ ⟨0, .whole⟩)) ⟨1, .whole⟩ ⟨0, .whole⟩
        (.kvmSystem ⟨3, 12, 12288⟩) (.kvmSystem ⟨-1, 12, 12288⟩) :=
  (@moveAssign_transfers_iff movedSystemOps ⟨1, .whole⟩ ⟨0, .whole⟩ (.kvmSystem ⟨3, 12, 12288⟩)
    (.kvmSystem ⟨-1, 12, 12288⟩) (by decide) (by decide) (by decide) rfl).2 (.inl (by decide))

/-- Assigned back, the system stays where it is : the target keeps no descriptor, and the source
still owns it. -/
theorem moveAssign_takes_nothing :
    (run {} movedSystemOps).get ⟨0, .whole⟩ = some (.kvmSystem ⟨-1, 12, 12288⟩) ∧
      (run {} movedSystemOps).get ⟨1, .whole⟩ = some (.kvmSystem ⟨3, 12, 12288⟩) ∧
      ((run {} movedSystemOps).step (.moveAssign ⟨0, .whole⟩ ⟨1, .whole⟩)).get ⟨0, .whole⟩ =
        some (.kvmSystem ⟨-1, 12, 12288⟩) ∧
      ((run {} movedSystemOps).step (.moveAssign ⟨0, .whole⟩ ⟨1, .whole⟩)).get ⟨1, .whole⟩ =
        some (.kvmSystem ⟨3, 12, 12288⟩) ∧
      ¬Transferred (run {} movedSystemOps)
        ((run {} movedSystemOps).step (.moveAssign ⟨0, .whole⟩ ⟨1, .whole⟩)) ⟨0, .whole⟩ ⟨1, .whole⟩
        (.kvmSystem ⟨-1, 12, 12288⟩) (.kvmSystem ⟨3, 12, 12288⟩) := by
  have htarget : ((run {} movedSystemOps).step (.moveAssign ⟨0, .whole⟩ ⟨1, .whole⟩)).get
      ⟨0, .whole⟩ = some (.kvmSystem ⟨-1, 12, 12288⟩) := by decide
  refine ⟨by decide, by decide, htarget, by decide, fun h => ?_⟩
  have := h.target
  rw [htarget] at this
  simp at this

end Heap

end MinBp.Ownership
