import MinBp.Ledger
import MinBp.VCpu

/-!
# Descriptors and mappings

The four classes that own kernel resources : `KvmSystem`, `VirtualMachine`, `VCpu` and
`MemoryRegion`, each with its creation, its destructor and its two moves. Only the members these
read or write are here. What a vCPU or a region is used for is in the modules of their names.

`Kernel` is what the library's calls leave in the kernel : a ledger of the open descriptors and the
mappings, the `ioctl` calls made, and the memory slots registered. What a call returns is a
parameter, so any pattern of failures is covered. The kernel gives out no descriptor that is open
and no address that is mapped : an outcome that does stands for a failure of the call.

`Raii` says what the four classes have in common, with the laws the heap of objects rests on.
-/

namespace MinBp

/-- `EBADF`. -/
def EBADF : Errno := 9

/-- `EMFILE`. -/
def EMFILE : Errno := 24

/-- `ENOTSUP`. -/
def ENOTSUP : Errno := 95

namespace Ownership

/-! ## The kernel -/

/-- What has to be given back. -/
inductive Resource where
  | fd (n : ℤ)
  | mapping (addr size : ℕ)
  deriving DecidableEq, Repr

/-- What the kernel knows a resource by : a descriptor's number, a mapping's address. -/
def Resource.key : Resource → ℤ ⊕ ℕ
  | .fd n => .inl n
  | .mapping addr _ => .inr addr

/-- `struct kvm_userspace_memory_region`. -/
structure KvmUserspaceMemoryRegion where
  slot : UInt32 := 0
  flags : UInt32 := 0
  guestPhysAddr : UInt64 := 0
  memorySize : ℕ := 0
  userspaceAddr : ℕ := 0
  deriving DecidableEq, Repr

/-- The requests these classes make. -/
inductive Request where
  | getApiVersion
  | getVcpuMmapSize
  | createVm
  | createVcpu (id : UInt32)
  | setUserMemoryRegion (region : KvmUserspaceMemoryRegion)
  deriving DecidableEq, Repr

/-- The requests made on the descriptor of a VM. -/
def Request.OnVm : Request → Bool
  | .createVcpu _ | .setUserMemoryRegion _ => true
  | _ => false

/-- One call of `ioctl`, and whether its descriptor was open. -/
structure IoctlCall where
  fd : ℤ
  request : Request
  isOpen : Bool
  deriving DecidableEq, Repr

/-- A memory slot that was registered and not unregistered since. -/
structure Slot where
  vmFd : ℤ
  slot : UInt32
  hostAddr : ℕ
  deriving DecidableEq, Repr

/-- The state the calls leave behind. -/
structure Kernel where
  ledger : Ledger Resource := {}
  ioctls : List IoctlCall := []
  slots : List Slot := []
  /-- Slots whose memory was unmapped while they were registered. -/
  dangling : List Slot := []
  distinct : (ledger.held.map Resource.key).Nodup := by simp

/-- `MAP_FAILED`, as an address. -/
def MAP_FAILED : ℕ := 2 ^ 64 - 1

namespace Kernel

/-- The resources in use. -/
def held (k : Kernel) : Multiset Resource :=
  k.ledger.held

def isOpen (fd : ℤ) (k : Kernel) : Bool :=
  decide (Resource.fd fd ∈ k.held)

/-- A resource is given out. -/
def acquire (r : Resource) (k : Kernel) (h : r.key ∉ k.held.map Resource.key) : Kernel :=
  { k with
    ledger := k.ledger.acquire r
    distinct := by
      rw [Ledger.acquire, Multiset.map_cons]
      exact Multiset.nodup_cons.2 ⟨h, k.distinct⟩ }

/-- A resource is given back. -/
def release (r : Resource) (k : Kernel) : Kernel :=
  { k with
    ledger := k.ledger.release r
    distinct := Multiset.nodup_of_le (Multiset.map_le_map (k.ledger.held_release_le r)) k.distinct }

/-- A call that gives out a descriptor. -/
def newFd (out : Except Errno ℕ) (k : Kernel) : Except Errno ℤ × Kernel :=
  match out with
  | .error e => (.error e, k)
  | .ok n =>
    if h : (Resource.fd n).key ∉ k.held.map Resource.key then
      (.ok n, k.acquire (.fd n) h)
    else
      (.error EMFILE, k)

/-- `mmap`. -/
def mmap (size : ℕ) (out : Except Errno ℕ) (k : Kernel) : Except Errno ℕ × Kernel :=
  match out with
  | .error e => (.error e, k)
  | .ok addr =>
    if size = 0 then
      (.error EINVAL, k)
    else if h : addr ≠ 0 ∧ addr ≠ MAP_FAILED ∧
        (Resource.mapping addr size).key ∉ k.held.map Resource.key then
      (.ok addr, k.acquire (.mapping addr size) h.2.2)
    else
      (.error ENOMEM, k)

/-- `close`. -/
def close (fd : ℤ) (k : Kernel) : Kernel :=
  k.release (.fd fd)

/-- `munmap`. -/
def munmap (addr size : ℕ) (k : Kernel) : Kernel :=
  { k.release (.mapping addr size) with
    dangling := k.dangling ++ k.slots.filter fun s => s.hostAddr = addr }

/-- `ioctl`. -/
def ioctl (fd : ℤ) (request : Request) (out : Except Errno ℕ) (k : Kernel) :
    Except Errno ℕ × Kernel :=
  (if k.isOpen fd then out else .error EBADF,
    { k with ioctls := k.ioctls ++ [⟨fd, request, k.isOpen fd⟩] })

/-- `KVM_SET_USER_MEMORY_REGION` : size 0 unregisters the slot. -/
def setUserMemoryRegion (vmFd : ℤ) (region : KvmUserspaceMemoryRegion) (out : Except Errno ℕ)
    (k : Kernel) : Except Errno ℕ × Kernel :=
  match k.ioctl vmFd (.setUserMemoryRegion region) out with
  | (.error e, k) => (.error e, k)
  | (.ok n, k) =>
    (.ok n,
      if region.memorySize = 0 then
        { k with slots := k.slots.filter fun s => ¬(s.vmFd = vmFd ∧ s.slot = region.slot) }
      else
        { k with slots := k.slots ++ [⟨vmFd, region.slot, region.userspaceAddr⟩] })

/-- What `close` and `munmap` do to a resource that is held. -/
theorem settles_close {fd : ℤ} {k : Kernel} (h : {Resource.fd fd} ≤ k.held) :
    k.ledger.Settles (k.close fd).ledger {.fd fd} :=
  Ledger.Settles.release h

theorem settles_munmap {addr size : ℕ} {k : Kernel} (h : {Resource.mapping addr size} ≤ k.held) :
    k.ledger.Settles (k.munmap addr size).ledger {.mapping addr size} :=
  Ledger.Settles.release h

@[simp] theorem ledger_setUserMemoryRegion (vmFd : ℤ) (region : KvmUserspaceMemoryRegion)
    (out : Except Errno ℕ) (k : Kernel) :
    (k.setUserMemoryRegion vmFd region out).2.ledger = k.ledger := by
  rw [setUserMemoryRegion]
  split
  · rename_i heq
    exact congrArg (fun p => p.2.ledger) heq.symm
  · rename_i heq
    have : _ = k.ledger := congrArg (fun p => p.2.ledger) heq.symm
    split <;> exact this

end Kernel

/-! ## What the classes have in common -/

/-- What a member `m_fd` owns. -/
def ownedFd (fd : ℤ) : Multiset Resource :=
  if 0 ≤ fd then {.fd fd} else 0

/-- What a pointer to a mapping owns. -/
def ownedMapping (addr size : ℕ) : Multiset Resource :=
  if addr ≠ 0 ∧ addr ≠ MAP_FAILED then {.mapping addr size} else 0

/-- `if (m_fd >= 0) ::close(m_fd)`. -/
def closeIfOpen (fd : ℤ) (k : Kernel) : Kernel :=
  if 0 ≤ fd then k.close fd else k

theorem settles_closeIfOpen {fd : ℤ} {k : Kernel} (h : ownedFd fd ≤ k.held) :
    k.ledger.Settles (closeIfOpen fd k).ledger (ownedFd fd) := by
  rw [ownedFd] at h ⊢
  rw [closeIfOpen]
  split
  · rename_i hfd
    rw [if_pos hfd] at h
    exact Kernel.settles_close h
  · exact .refl _

/-- A class whose objects own resources. -/
class Raii (τ : Type) where
  owned : τ → Multiset Resource
  /-- The new object, and what is left of the old one. -/
  moveConstruct : τ → τ × τ
  destroy : τ → Kernel → Kernel
  moveConstruct_fst : ∀ x, (moveConstruct x).1 = x
  owned_moveConstruct_snd : ∀ x, owned (moveConstruct x).2 = 0
  destroy_moveConstruct_snd : ∀ x k, destroy (moveConstruct x).2 k = k
  settles_destroy : ∀ {x : τ} {k : Kernel}, owned x ≤ k.held →
    k.ledger.Settles (destroy x k).ledger (owned x)

section Vectors

variable {τ : Type} [Raii τ]

/-- What the elements of a vector own. -/
def ownedAll (xs : List τ) : Multiset Resource :=
  (xs.map Raii.owned).sum

/-- The destructor of a vector. -/
def destroyAll (xs : List τ) (k : Kernel) : Kernel :=
  xs.foldl (fun k x => Raii.destroy x k) k

/-- A vector moves its elements to new storage, and destroys the old ones. -/
def relocate (xs : List τ) (k : Kernel) : List τ × Kernel :=
  xs.foldl (fun (ys, k) x =>
    (ys ++ [(Raii.moveConstruct x).1], Raii.destroy (Raii.moveConstruct x).2 k)) ([], k)

/-- `push_back(std::move(*result))`, and the destructor of `result`. Whether the vector is full is a
parameter. -/
def pushBack (full : Bool) (xs : List τ) (x : τ) (k : Kernel) : List τ × Kernel :=
  let (ys, k) := if full then relocate xs k else (xs, k)
  (ys ++ [(Raii.moveConstruct x).1], Raii.destroy (Raii.moveConstruct x).2 k)

theorem relocate_eq (xs : List τ) (k : Kernel) : relocate xs k = (xs, k) := by
  have h (ys : List τ) : xs.foldl (fun (p : List τ × Kernel) x =>
      (p.1 ++ [(Raii.moveConstruct x).1], Raii.destroy (Raii.moveConstruct x).2 p.2)) (ys, k) =
      (ys ++ xs, k) := by
    induction xs generalizing ys with
    | nil => rw [List.foldl_nil, List.append_nil]
    | cons x xs ih =>
      rw [List.foldl_cons, Raii.moveConstruct_fst, Raii.destroy_moveConstruct_snd, ih,
        List.append_assoc, List.singleton_append]
  exact h []

theorem pushBack_eq (full : Bool) (xs : List τ) (x : τ) (k : Kernel) :
    pushBack full xs x k = (xs ++ [x], k) := by
  simp only [pushBack, relocate_eq, ite_self, Raii.moveConstruct_fst,
    Raii.destroy_moveConstruct_snd]

theorem ownedAll_set {xs : List τ} {j : ℕ} {x : τ} (h : xs[j]? = some x) (y : τ) :
    ownedAll (xs.set j y) + Raii.owned x = ownedAll xs + Raii.owned y :=
  List.sum_map_set Raii.owned h y

theorem ownedAll_append_singleton (xs : List τ) (x : τ) :
    ownedAll (xs ++ [x]) = ownedAll xs + Raii.owned x := by
  rw [ownedAll, List.map_append, List.sum_append, List.map_singleton, List.sum_singleton, ownedAll]

theorem ownedAll_eraseIdx {xs : List τ} {i : ℕ} {x : τ} (h : xs[i]? = some x) :
    ownedAll (xs.eraseIdx i) + Raii.owned x = ownedAll xs := by
  obtain ⟨hi, rfl⟩ := List.getElem?_eq_some_iff.1 h
  have hperm := (List.getElem_cons_eraseIdx_perm hi).map Raii.owned
  rw [ownedAll, ownedAll, ← hperm.sum_eq, List.map_cons, List.sum_cons, add_comm]

theorem settles_destroyAll {xs : List τ} {k : Kernel} (h : ownedAll xs ≤ k.held) :
    k.ledger.Settles (destroyAll xs k).ledger (ownedAll xs) := by
  have hf (k : Kernel) (x : τ) (h : Raii.owned x ≤ k.held) :
      k.ledger.Settles (Raii.destroy x k).ledger (Raii.owned x) := Raii.settles_destroy h
  exact Ledger.Settles.foldl hf xs k h

end Vectors

/-! ## `KvmSystem` -/

structure KvmSystem where
  fd : ℤ := -1
  apiVersion : ℕ := 0
  vcpuMmapSize : ℕ := 0
  deriving DecidableEq, Repr

/-- `KVM_API_VERSION`. -/
def KVM_API_VERSION : ℕ := 12

/-- What the calls of `KvmSystem::open` return. -/
structure OpenOutcome where
  fd : Except Errno ℕ
  version : Except Errno ℕ := .ok KVM_API_VERSION
  mmapSize : Except Errno ℕ
  deriving Repr

namespace KvmSystem

/-- `KvmSystem::open`. -/
def «open» (os : OpenOutcome) (k : Kernel) : Except Errno KvmSystem × Kernel :=
  match k.newFd os.fd with
  | (.error e, k) => (.error e, k)
  | (.ok fd, k) =>
    match k.ioctl fd .getApiVersion os.version with
    | (.error e, k) => (.error e, k.close fd)
    | (.ok version, k) =>
      if version ≠ KVM_API_VERSION then
        (.error ENOTSUP, k.close fd)
      else
        match k.ioctl fd .getVcpuMmapSize os.mmapSize with
        | (.error e, k) => (.error e, k.close fd)
        | (.ok mmapSize, k) => (.ok ⟨fd, version, mmapSize⟩, k)

/-- `~KvmSystem`. -/
def destroy (s : KvmSystem) (k : Kernel) : Kernel :=
  closeIfOpen s.fd k

/-- `KvmSystem(KvmSystem&&)`. -/
def moveConstruct (other : KvmSystem) : KvmSystem × KvmSystem :=
  (⟨other.fd, other.apiVersion, other.vcpuMmapSize⟩, { other with fd := -1 })

/-- `KvmSystem::operator=(KvmSystem&&)` for two objects. -/
def moveAssign (s other : KvmSystem) (k : Kernel) : (KvmSystem × KvmSystem) × Kernel :=
  if 0 ≤ s.fd then
    ((⟨other.fd, other.apiVersion, other.vcpuMmapSize⟩, { other with fd := -1 }), k.close s.fd)
  else
    ((s, other), k)

end KvmSystem

theorem KvmSystem.moveAssign_of_nonneg {s : KvmSystem} (h : 0 ≤ s.fd) (other : KvmSystem)
    (k : Kernel) : s.moveAssign other k = (other.moveConstruct, closeIfOpen s.fd k) := by
  rw [KvmSystem.moveAssign, if_pos h, closeIfOpen, if_pos h, KvmSystem.moveConstruct]

theorem KvmSystem.moveAssign_of_neg {s : KvmSystem} (h : ¬0 ≤ s.fd) (other : KvmSystem)
    (k : Kernel) : s.moveAssign other k = ((s, other), k) := by
  rw [KvmSystem.moveAssign, if_neg h]

instance : Raii KvmSystem where
  owned s := ownedFd s.fd
  moveConstruct := KvmSystem.moveConstruct
  destroy := KvmSystem.destroy
  moveConstruct_fst _ := rfl
  owned_moveConstruct_snd _ := rfl
  destroy_moveConstruct_snd _ _ := rfl
  settles_destroy := settles_closeIfOpen

/-! ## `VCpu` -/

structure VCpu where
  fd : ℤ := -1
  id : UInt32 := 0
  runPage : ℕ := 0
  mmapSize : ℕ := 0
  deriving DecidableEq, Repr

/-- What the calls of a creation return : the `ioctl` and the `mmap`. -/
structure CreateOutcome where
  ioctl : Except Errno ℕ
  mmap : Except Errno ℕ
  deriving Repr

/-- `if (p != nullptr && p != MAP_FAILED) ::munmap(p, size)`. -/
def munmapIfMapped (addr size : ℕ) (k : Kernel) : Kernel :=
  if addr ≠ 0 ∧ addr ≠ MAP_FAILED then k.munmap addr size else k

theorem settles_munmapIfMapped {addr size : ℕ} {k : Kernel} (h : ownedMapping addr size ≤ k.held) :
    k.ledger.Settles (munmapIfMapped addr size k).ledger (ownedMapping addr size) := by
  rw [ownedMapping] at h ⊢
  rw [munmapIfMapped]
  split
  · rename_i ha
    rw [if_pos ha] at h
    exact Kernel.settles_munmap h
  · exact .refl _

namespace VCpu

/-- `VCpu::create`. -/
def create (vmFd : ℤ) (vcpuId : UInt32) (mmapSize : ℕ) (os : CreateOutcome) (k : Kernel) :
    Except Errno VCpu × Kernel :=
  match k.ioctl vmFd (.createVcpu vcpuId) os.ioctl with
  | (.error e, k) => (.error e, k)
  | (.ok n, k) =>
    match k.newFd (.ok n) with
    | (.error e, k) => (.error e, k)
    | (.ok fd, k) =>
      match k.mmap mmapSize os.mmap with
      | (.error e, k) => (.error e, k.close fd)
      | (.ok runPage, k) => (.ok ⟨fd, vcpuId, runPage, mmapSize⟩, k)

/-- `~VCpu`. -/
def destroy (v : VCpu) (k : Kernel) : Kernel :=
  closeIfOpen v.fd (munmapIfMapped v.runPage v.mmapSize k)

/-- `VCpu(VCpu&&)`. -/
def moveConstruct (other : VCpu) : VCpu × VCpu :=
  (⟨other.fd, other.id, other.runPage, other.mmapSize⟩, { other with fd := -1, runPage := 0 })

/-- `VCpu::operator=(VCpu&&)` for two objects. -/
def moveAssign (v other : VCpu) (k : Kernel) : (VCpu × VCpu) × Kernel :=
  ((⟨other.fd, other.id, other.runPage, other.mmapSize⟩, { other with fd := -1, runPage := 0 }),
    closeIfOpen v.fd (munmapIfMapped v.runPage v.mmapSize k))

theorem settles_destroy {v : VCpu} {k : Kernel}
    (h : ownedMapping v.runPage v.mmapSize + ownedFd v.fd ≤ k.held) :
    k.ledger.Settles (v.destroy k).ledger (ownedMapping v.runPage v.mmapSize + ownedFd v.fd) := by
  have hm := settles_munmapIfMapped ((Multiset.le_add_right _ _).trans h)
  exact hm.trans (settles_closeIfOpen (hm.le_of_add_le h))

end VCpu

instance : Raii VCpu where
  owned v := ownedMapping v.runPage v.mmapSize + ownedFd v.fd
  moveConstruct := VCpu.moveConstruct
  destroy := VCpu.destroy
  moveConstruct_fst _ := rfl
  owned_moveConstruct_snd _ := rfl
  destroy_moveConstruct_snd _ _ := rfl
  settles_destroy := VCpu.settles_destroy

/-! ## `MemoryRegion` -/

structure MemoryRegion where
  vmFd : ℤ := -1
  slot : UInt32 := 0
  guestPhysAddr : UInt64 := 0
  size : ℕ := 0
  hostAddr : ℕ := 0
  deriving DecidableEq, Repr

namespace MemoryRegion

/-- `MemoryRegion::create`. -/
def create (vmFd : ℤ) (slot : UInt32) (guestPhysAddr : UInt64) (sizeBytes : ℕ) (flags : UInt32)
    (os : CreateOutcome) (k : Kernel) : Except Errno MemoryRegion × Kernel :=
  match k.mmap sizeBytes os.mmap with
  | (.error e, k) => (.error e, k)
  | (.ok host, k) =>
    match k.setUserMemoryRegion vmFd ⟨slot, flags, guestPhysAddr, sizeBytes, host⟩ os.ioctl with
    | (.error e, k) => (.error e, k.munmap host sizeBytes)
    | (.ok _, k) => (.ok ⟨vmFd, slot, guestPhysAddr, sizeBytes, host⟩, k)

/-- `~MemoryRegion`. Unregistering a slot on an open descriptor succeeds. -/
def destroy (r : MemoryRegion) (k : Kernel) : Kernel :=
  if r.hostAddr ≠ 0 ∧ r.hostAddr ≠ MAP_FAILED then
    (k.setUserMemoryRegion r.vmFd { slot := r.slot } (.ok 0)).2.munmap r.hostAddr r.size
  else k

/-- `MemoryRegion(MemoryRegion&&)`. -/
def moveConstruct (other : MemoryRegion) : MemoryRegion × MemoryRegion :=
  (⟨other.vmFd, other.slot, other.guestPhysAddr, other.size, other.hostAddr⟩,
    { other with hostAddr := 0 })

/-- `MemoryRegion::operator=(MemoryRegion&&)` for two objects. -/
def moveAssign (r other : MemoryRegion) (k : Kernel) : (MemoryRegion × MemoryRegion) × Kernel :=
  ((⟨other.vmFd, other.slot, other.guestPhysAddr, other.size, other.hostAddr⟩,
      { other with hostAddr := 0 }),
    if r.hostAddr ≠ 0 ∧ r.hostAddr ≠ MAP_FAILED then
      (k.setUserMemoryRegion r.vmFd { slot := r.slot } (.ok 0)).2.munmap r.hostAddr r.size
    else k)

theorem settles_destroy {r : MemoryRegion} {k : Kernel}
    (h : ownedMapping r.hostAddr r.size ≤ k.held) :
    k.ledger.Settles (r.destroy k).ledger (ownedMapping r.hostAddr r.size) := by
  rw [ownedMapping] at h ⊢
  rw [destroy]
  split
  · rename_i ha
    rw [if_pos ha] at h
    have hk := Kernel.ledger_setUserMemoryRegion r.vmFd { slot := r.slot } (.ok 0) k
    rw [← hk]
    apply Kernel.settles_munmap
    rw [Kernel.held, hk]
    exact h
  · exact .refl _

end MemoryRegion

instance : Raii MemoryRegion where
  owned r := ownedMapping r.hostAddr r.size
  moveConstruct := MemoryRegion.moveConstruct
  destroy := MemoryRegion.destroy
  moveConstruct_fst _ := rfl
  owned_moveConstruct_snd _ := rfl
  destroy_moveConstruct_snd _ _ := rfl
  settles_destroy := MemoryRegion.settles_destroy

/-! ## `VirtualMachine` -/

structure VirtualMachine where
  fd : ℤ := -1
  vcpuMmapSize : ℕ := 0
  nextSlot : UInt32 := 0
  memoryRegions : List MemoryRegion := []
  vcpus : List VCpu := []
  deriving DecidableEq, Repr

/-- `KvmSystem::createVm`. -/
def KvmSystem.createVm (s : KvmSystem) (out : Except Errno ℕ) (k : Kernel) :
    Except Errno VirtualMachine × Kernel :=
  match k.ioctl s.fd .createVm out with
  | (.error e, k) => (.error e, k)
  | (.ok n, k) =>
    match k.newFd (.ok n) with
    | (.error e, k) => (.error e, k)
    | (.ok fd, k) => (.ok { fd, vcpuMmapSize := s.vcpuMmapSize }, k)

namespace VirtualMachine

/-- `VirtualMachine::addMemoryRegion`. -/
def addMemoryRegion (guestPhysAddr : UInt64) (sizeBytes : ℕ) (flags : UInt32) (os : CreateOutcome)
    (full : Bool) (vm : VirtualMachine) (k : Kernel) : VirtualMachine × Kernel :=
  match MemoryRegion.create vm.fd vm.nextSlot guestPhysAddr sizeBytes flags os k with
  | (.error _, k) => (vm, k)
  | (.ok region, k) =>
    let (memoryRegions, k) := pushBack full vm.memoryRegions region k
    ({ vm with memoryRegions, nextSlot := vm.nextSlot + 1 }, k)

/-- `VirtualMachine::addVCpu`. -/
def addVCpu (vcpuId : UInt32) (os : CreateOutcome) (full : Bool) (vm : VirtualMachine)
    (k : Kernel) : VirtualMachine × Kernel :=
  match VCpu.create vm.fd vcpuId vm.vcpuMmapSize os k with
  | (.error _, k) => (vm, k)
  | (.ok vcpu, k) =>
    let (vcpus, k) := pushBack full vm.vcpus vcpu k
    ({ vm with vcpus }, k)

/-- `~VirtualMachine` : its body, then the members from the last to the first. -/
def destroy (vm : VirtualMachine) (k : Kernel) : Kernel :=
  destroyAll vm.memoryRegions (destroyAll vm.vcpus (closeIfOpen vm.fd k))

/-- `VirtualMachine(VirtualMachine&&)`. -/
def moveConstruct (other : VirtualMachine) : VirtualMachine × VirtualMachine :=
  (⟨other.fd, other.vcpuMmapSize, other.nextSlot, other.memoryRegions, other.vcpus⟩,
    { other with fd := -1, memoryRegions := [], vcpus := [] })

/-- `VirtualMachine::operator=(VirtualMachine&&)` for two objects. Each vector destroys the elements
it had when it takes over the other's. -/
def moveAssign (vm other : VirtualMachine) (k : Kernel) :
    (VirtualMachine × VirtualMachine) × Kernel :=
  ((⟨other.fd, other.vcpuMmapSize, other.nextSlot, other.memoryRegions, other.vcpus⟩,
      { other with fd := -1, memoryRegions := [], vcpus := [] }),
    destroyAll vm.vcpus (destroyAll vm.memoryRegions (closeIfOpen vm.fd k)))

/-- What a virtual machine owns. -/
def owned (vm : VirtualMachine) : Multiset Resource :=
  ownedFd vm.fd + ownedAll vm.vcpus + ownedAll vm.memoryRegions

theorem settles_destroy {vm : VirtualMachine} {k : Kernel} (h : vm.owned ≤ k.held) :
    k.ledger.Settles (vm.destroy k).ledger vm.owned := by
  have h₁ : ownedFd vm.fd + ownedAll vm.vcpus ≤ k.held := (Multiset.le_add_right _ _).trans h
  have hfd := settles_closeIfOpen ((Multiset.le_add_right _ _).trans h₁)
  have hvcpus := hfd.trans (settles_destroyAll (hfd.le_of_add_le h₁))
  exact hvcpus.trans (settles_destroyAll (hvcpus.le_of_add_le h))

theorem settles_moveAssign {vm : VirtualMachine} (other : VirtualMachine) {k : Kernel}
    (h : vm.owned ≤ k.held) : k.ledger.Settles (vm.moveAssign other k).2.ledger vm.owned := by
  rw [owned, add_right_comm] at h ⊢
  have h₁ : ownedFd vm.fd + ownedAll vm.memoryRegions ≤ k.held :=
    (Multiset.le_add_right _ _).trans h
  have hfd := settles_closeIfOpen ((Multiset.le_add_right _ _).trans h₁)
  have hregions := hfd.trans (settles_destroyAll (hfd.le_of_add_le h₁))
  exact hregions.trans (settles_destroyAll (hregions.le_of_add_le h))

end VirtualMachine

instance : Raii VirtualMachine where
  owned := VirtualMachine.owned
  moveConstruct := VirtualMachine.moveConstruct
  destroy := VirtualMachine.destroy
  moveConstruct_fst _ := rfl
  owned_moveConstruct_snd _ := rfl
  destroy_moveConstruct_snd _ _ := rfl
  settles_destroy := VirtualMachine.settles_destroy

end Ownership

end MinBp
