import MinBp.RequestLog

/-!
# The order of a teardown

A `MemoryRegion` unregisters its slot on the descriptor of its VM and then unmaps the memory. Its
VM closes that descriptor first, in the destructor as in the assignment operator, and lets its
regions go afterwards. So the request of every region that is torn down with its VM is made on a
closed descriptor.

Here a program creates, moves, assigns and destroys virtual machines (`Op.OnVms`). All requests on
VM descriptors are made on open ones, and no memory is unmapped under a registered slot, exactly
if no virtual machine with a region is destroyed or assigned over, and none that was moved from is
asked for a region or a vCPU (`sound_iff_orderly`).
-/

namespace MinBp.Ownership

/-! ## Heaps of virtual machines -/

/-- The regions of an object. -/
def Obj.memoryRegions : Obj → List MemoryRegion
  | .virtualMachine vm => vm.memoryRegions
  | _ => []

/-- A virtual machine without a descriptor. -/
def Obj.MovedFromVm : Obj → Prop
  | .virtualMachine vm => vm.fd < 0
  | _ => False

instance (o : Obj) : Decidable o.MovedFromVm := by
  unfold Obj.MovedFromVm
  split <;> infer_instance

/-- A system, or a virtual machine whose regions are mapped and registered with it. -/
def Obj.Tidy : Obj → Prop
  | .kvmSystem _ => True
  | .virtualMachine vm => (vm.memoryRegions ≠ [] → 0 ≤ vm.fd) ∧
      ∀ r ∈ vm.memoryRegions, r.vmFd = vm.fd ∧ r.hostAddr ≠ 0 ∧ r.hostAddr ≠ MAP_FAILED
  | _ => False

theorem owned_le_ownedAll {τ : Type} [Raii τ] {xs : List τ} {x : τ} (h : x ∈ xs) :
    Raii.owned x ≤ ownedAll xs := by
  obtain ⟨i, hi⟩ := List.mem_iff_getElem?.1 h
  rw [← ownedAll_eraseIdx hi]
  exact Multiset.le_add_left _ _

theorem Obj.mapping_mem_owned {o : Obj} (ho : o.Tidy) {r : MemoryRegion}
    (hr : r ∈ o.memoryRegions) : Resource.mapping r.hostAddr r.size ∈ o.owned := by
  cases o with
  | virtualMachine vm =>
    have hle : Raii.owned r ≤ ownedAll vm.memoryRegions := owned_le_ownedAll hr
    have hmem : Resource.mapping r.hostAddr r.size ∈ Raii.owned r := by
      change _ ∈ ownedMapping r.hostAddr r.size
      rw [ownedMapping_of_mapped (ho.2 r hr).2]
      exact Multiset.mem_singleton_self _
    exact Multiset.mem_of_le (Multiset.le_add_left _ _) (Multiset.mem_of_le hle hmem)
  | _ => simp [Obj.memoryRegions] at hr

theorem VirtualMachine.mapping_mem_owned {vm : VirtualMachine} {v : VCpu} (hv : v ∈ vm.vcpus)
    (hmapped : v.runPage ≠ 0 ∧ v.runPage ≠ MAP_FAILED) :
    Resource.mapping v.runPage v.mmapSize ∈ vm.owned := by
  have hle : Raii.owned v ≤ ownedAll vm.vcpus := owned_le_ownedAll hv
  have hmem : Resource.mapping v.runPage v.mmapSize ∈ Raii.owned v := by
    change _ ∈ ownedMapping v.runPage v.mmapSize + ownedFd v.fd
    rw [ownedMapping_of_mapped hmapped]
    exact Multiset.mem_add.2 (.inl (Multiset.mem_singleton_self _))
  refine Multiset.mem_of_le (Multiset.le_add_right _ _) ?_
  exact Multiset.mem_of_le (Multiset.le_add_left _ _) (Multiset.mem_of_le hle hmem)

/-- Only non-negative numbers are descriptors in use. -/
def FdsNonneg (m : Multiset Resource) : Prop :=
  ∀ n, Resource.fd n ∈ m → 0 ≤ n

namespace FdsNonneg

theorem add {m m' : Multiset Resource} (h : FdsNonneg m) (h' : FdsNonneg m') :
    FdsNonneg (m + m') := by
  intro n hn
  exact (Multiset.mem_add.1 hn).elim (h n) (h' n)

theorem ownedFd (fd : ℤ) : FdsNonneg (ownedFd fd) := by
  intro n hn
  rw [Ownership.ownedFd] at hn
  split at hn
  · rename_i hfd
    rw [Multiset.mem_singleton, Resource.fd.injEq] at hn
    exact hn ▸ hfd
  · exact absurd hn (Multiset.notMem_zero _)

theorem ownedMapping (addr size : ℕ) : FdsNonneg (ownedMapping addr size) := by
  intro n hn
  rw [Ownership.ownedMapping] at hn
  split at hn
  · simp at hn
  · exact absurd hn (Multiset.notMem_zero _)

theorem ownedAll {τ : Type} [Raii τ] (h : ∀ x : τ, FdsNonneg (Raii.owned x)) :
    ∀ xs : List τ, FdsNonneg (ownedAll xs)
  | [] => fun _ hn => absurd hn (Multiset.notMem_zero _)
  | x :: xs => by
    rw [Ownership.ownedAll, List.map_cons, List.sum_cons]
    exact (h x).add (ownedAll h xs)

theorem obj (o : Obj) : FdsNonneg (Raii.owned o) := by
  have hvcpu (v : VCpu) : FdsNonneg (Raii.owned v) := (ownedMapping _ _).add (ownedFd _)
  have hregion (r : MemoryRegion) : FdsNonneg (Raii.owned r) := ownedMapping _ _
  cases o with
  | kvmSystem s => exact ownedFd s.fd
  | virtualMachine vm => exact ((ownedFd _).add (ownedAll hvcpu _)).add (ownedAll hregion _)
  | vCpu v => exact hvcpu v
  | memoryRegion r => exact hregion r

end FdsNonneg

/-- A new virtual machine has no region. -/
theorem KvmSystem.memoryRegions_createVm (s : KvmSystem) {out : Except Errno ℕ} {k : Kernel}
    {vm : VirtualMachine} (h : (s.createVm out k).1 = .ok vm) : vm.memoryRegions = [] := by
  rw [KvmSystem.createVm] at h
  split at h
  · simp at h
  · split at h
    · simp at h
    · rw [← Except.ok.inj h]

/-- The operations on systems and virtual machines as a whole. -/
def Op.OnVms : Op → Bool
  | .createVCpu .. | .createMemoryRegion .. => false
  | .moveConstruct src => src.part = .whole
  | .moveAssign dst src => dst.part = .whole ∧ src.part = .whole
  | _ => true

namespace Heap

variable {h : Heap}

/-- A heap of systems and virtual machines, in which every slot is at the memory of a region. -/
structure Tidy (h : Heap) : Prop where
  objs : ∀ o ∈ h.objs, o.Tidy
  slots : ∀ s ∈ h.kernel.slots, ∃ o ∈ h.objs, ∃ r ∈ o.memoryRegions, r.hostAddr = s.hostAddr

theorem slots_held (ho : h.Owns) (ht : h.Tidy) :
    ∀ s ∈ h.kernel.slots, .inr s.hostAddr ∈ h.kernel.held.map Resource.key := by
  intro s hs
  obtain ⟨o, hmem, r, hr, haddr⟩ := ht.slots s hs
  have hle : o.owned ≤ ownedAll h.objs := owned_le_ownedAll hmem
  have hmapping := Multiset.mem_of_le hle (Obj.mapping_mem_owned (ht.objs o hmem) hr)
  rw [ho.held, ← haddr]
  exact Multiset.mem_map.2 ⟨_, hmapping, rfl⟩

theorem isOpen_vm (ho : h.Owns) {i : ℕ} {vm : VirtualMachine}
    (hi : h.objs[i]? = some (.virtualMachine vm)) : h.kernel.isOpen vm.fd = decide (0 ≤ vm.fd) := by
  refine decide_eq_decide.2 ⟨fun hmem => ?_, fun hfd => ?_⟩
  · rw [ho.held] at hmem
    exact FdsNonneg.ownedAll FdsNonneg.obj _ _ hmem
  · have hle : vm.owned ≤ ownedAll h.objs :=
      owned_le_ownedAll (List.mem_of_getElem? hi)
    have hfd' : ownedFd vm.fd ≤ vm.owned :=
      (Multiset.le_add_right _ _).trans (Multiset.le_add_right _ _)
    rw [ho.held]
    refine Multiset.mem_of_le (hfd'.trans hle) ?_
    rw [ownedFd, if_pos hfd]
    exact Multiset.mem_singleton_self _

/-- The run pages of a virtual machine without regions are at no slot. -/
theorem slot_ne_runPage (ho : h.Owns) (ht : h.Tidy) {i : ℕ} {vm : VirtualMachine}
    (hi : h.objs[i]? = some (.virtualMachine vm)) (hregions : vm.memoryRegions = []) :
    ∀ v ∈ vm.vcpus, v.runPage ≠ 0 ∧ v.runPage ≠ MAP_FAILED →
      ∀ s ∈ h.kernel.slots, s.hostAddr ≠ v.runPage := by
  intro v hv hmapped s hs heq
  obtain ⟨o, hmem, r, hr, haddr⟩ := ht.slots s hs
  have hother : o ∈ h.objs.eraseIdx i := by
    obtain ⟨hlt, hget⟩ := List.getElem?_eq_some_iff.1 hi
    rcases List.mem_cons.1 ((List.getElem_cons_eraseIdx_perm hlt).mem_iff.2 hmem) with rfl | h'
    · rw [hget] at hr
      simp [Obj.memoryRegions, hregions] at hr
    · exact h'
  have hdistinct := h.kernel.distinct
  change (h.kernel.held.map Resource.key).Nodup at hdistinct
  rw [ho.held, owned, ← ownedAll_eraseIdx hi, Multiset.map_add, Multiset.nodup_add] at hdistinct
  have hle : o.owned ≤ ownedAll (h.objs.eraseIdx i) := owned_le_ownedAll hother
  refine Multiset.disjoint_left.1 hdistinct.2.2
    (Multiset.mem_map_of_mem _ (Multiset.mem_of_le hle (Obj.mapping_mem_owned (ht.objs o hmem) hr)))
    (Multiset.mem_map.2 ⟨_, VirtualMachine.mapping_mem_owned hv hmapped, ?_⟩)
  rw [Resource.key, Resource.key, haddr, heq]

/-! ## Orderly steps -/

/-- A step that tears down no region, and asks nothing of a virtual machine that was moved from. -/
def Orderly (h : Heap) : Op → Prop
  -- without memory the region's request is not made
  | .addMemoryRegion i _ sizeBytes _ os _ =>
    (h.kernel.mmap sizeBytes os.mmap).1.isOk = true → ∀ x ∈ h.objs[i]?, ¬x.MovedFromVm
  | .addVCpu i _ _ _ => ∀ x ∈ h.objs[i]?, ¬x.MovedFromVm
  | .moveAssign dst src =>
    ∀ a ∈ h.get dst, ∀ b ∈ h.get src, dst ≠ src ∧ a.cls = b.cls → a.memoryRegions = []
  | .destroy i => ∀ x ∈ h.objs[i]?, x.memoryRegions = []
  | _ => True

instance (h : Heap) (op : Op) : Decidable (h.Orderly op) := by
  cases op <;> unfold Orderly <;> infer_instance

/-- Every step of a run is orderly. -/
def OrderlyRun : Heap → List Op → Prop
  | _, [] => True
  | h, op :: ops => h.Orderly op ∧ OrderlyRun (h.step op) ops

instance decidableOrderlyRun : ∀ (h : Heap) (ops : List Op), Decidable (h.OrderlyRun ops)
  | _, [] => .isTrue trivial
  | h, op :: ops =>
    have := decidableOrderlyRun (h.step op) ops
    inferInstanceAs (Decidable (h.Orderly op ∧ (h.step op).OrderlyRun ops))

theorem later_declare {τ : Type} {mk : τ → Obj} {r : Except Errno τ × Kernel}
    (hr : Later h.kernel r.2) : Later h.kernel (h.declare mk r).kernel := by
  obtain ⟨r, k⟩ := r
  rcases r with e | x
  · exact hr
  · exact hr

theorem later_step (h : Heap) (op : Op) : Later h.kernel (h.step op).kernel := by
  cases op with
  | «open» os =>
    obtain ⟨cs, hcs, -⟩ := Logs.open_kvmSystem os h.kernel
    exact later_declare hcs.later
  | createVm i out =>
    rw [step]
    split
    · exact later_declare (Logs.createVm _ out _).later
    · exact .refl _
  | addMemoryRegion i guestPhysAddr sizeBytes flags os full =>
    rw [step, updateVm]
    split
    · rename_i vm hi
      have hc := Later.create_memoryRegion vm.fd vm.nextSlot guestPhysAddr sizeBytes flags os
        h.kernel
      rw [VirtualMachine.addMemoryRegion]
      split
      · rename_i heq
        rwa [heq] at hc
      · rename_i heq
        rw [pushBack_eq]
        rwa [heq] at hc
    · exact .refl _
  | addVCpu i vcpuId os full =>
    rw [step, updateVm]
    split
    · rename_i vm hi
      have hc := (Logs.create_vCpu vm.fd vcpuId vm.vcpuMmapSize os h.kernel).later
      rw [VirtualMachine.addVCpu]
      split
      · rename_i heq
        rwa [heq] at hc
      · rename_i heq
        rw [pushBack_eq]
        rwa [heq] at hc
    · exact .refl _
  | createVCpu vmFd vcpuId mmapSize os => exact later_declare (Logs.create_vCpu _ _ _ os _).later
  | createMemoryRegion vmFd slot guestPhysAddr sizeBytes flags os =>
    exact later_declare (Later.create_memoryRegion _ _ _ _ _ os _)
  | moveConstruct src =>
    rw [step]
    split
    · exact .refl _
    · exact .refl _
  | moveAssign dst src =>
    rw [step]
    split
    · split
      · exact .refl _
      · exact Later.moveAssign_obj _ _ _
    · exact .refl _
  | destroy i =>
    rw [step]
    split
    · exact Later.destroy_obj _ _
    · exact .refl _

theorem later_run (ops : List Op) (h : Heap) : Later h.kernel (h.run ops).kernel := by
  induction ops generalizing h with
  | nil => exact .refl _
  | cons op ops ih => exact (later_step h op).trans (ih _)

/-! ## Orderly steps keep the log sound -/

theorem good_declare {τ : Type} {mk : τ → Obj} {r : Except Errno τ × Kernel}
    {cs : List IoctlCall} (hl : Logs h.kernel r.2 cs) (hcs : ∀ c ∈ cs, c.request.OnVm = false)
    (hmk : ∀ x, r.1 = .ok x → (mk x).Tidy) (hs : Sound h.kernel) (ht : h.Tidy) :
    Sound (h.declare mk r).kernel ∧ (h.declare mk r).Tidy := by
  obtain ⟨r, k⟩ := r
  have hs' : Sound k := hl.sound (fun c hc hvm => absurd hvm (by rw [hcs c hc]; simp)) hs
  have hslots : k.slots = h.kernel.slots := hl.slots
  rcases r with e | x
  · exact ⟨hs', ht.objs, hslots ▸ ht.slots⟩
  · refine ⟨hs', fun o hmem => ?_, fun s hmem => ?_⟩
    · rcases List.mem_append.1 hmem with hmem | hmem
      · exact ht.objs o hmem
      · rw [List.mem_singleton.1 hmem]
        exact hmk x rfl
    · obtain ⟨o, hmem, hr⟩ := ht.slots s (hslots ▸ hmem)
      exact ⟨o, List.mem_append_left _ hmem, hr⟩

theorem mem_or_mem_set {α : Type} {xs : List α} {i : ℕ} {x o : α} (hi : xs[i]? = some x)
    (ho : o ∈ xs) (y : α) : o = x ∨ o ∈ xs.set i y := by
  obtain ⟨j, hj⟩ := List.mem_iff_getElem?.1 ho
  by_cases hij : i = j
  · left
    rw [← hij, hi] at hj
    exact (Option.some.inj hj).symm
  · right
    exact List.mem_iff_getElem?.2 ⟨j, by rw [List.getElem?_set_ne hij, hj]⟩

theorem mem_set_self {α : Type} {xs : List α} {i : ℕ} {x : α} (hi : xs[i]? = some x) (y : α) :
    y ∈ xs.set i y :=
  List.mem_iff_getElem?.2
    ⟨i, List.getElem?_set_self (List.getElem?_eq_some_iff.1 hi).1⟩

/-- A virtual machine that keeps its regions, and gets those of the new slots. -/
theorem tidy_set {i : ℕ} {o o' : Obj} {k : Kernel} (ht : h.Tidy) (hi : h.objs[i]? = some o)
    (ho' : o'.Tidy) (hsub : o.memoryRegions ⊆ o'.memoryRegions)
    (hslots : ∀ s ∈ k.slots, s ∈ h.kernel.slots ∨ ∃ r ∈ o'.memoryRegions, r.hostAddr = s.hostAddr) :
    Tidy { kernel := k, objs := h.objs.set i o' } := by
  refine ⟨fun p hp => ?_, fun s hmem => ?_⟩
  · rcases List.mem_or_eq_of_mem_set hp with hp | rfl
    · exact ht.objs p hp
    · exact ho'
  · rcases hslots s hmem with hold | hnew
    · obtain ⟨p, hp, r, hr, haddr⟩ := ht.slots s hold
      rcases mem_or_mem_set hi hp o' with rfl | hp'
      · exact ⟨o', mem_set_self hi o', r, hsub hr, haddr⟩
      · exact ⟨p, hp', r, hr, haddr⟩
    · exact ⟨o', mem_set_self hi o', hnew⟩

theorem good_addVCpu (ho : h.Owns) (ht : h.Tidy) (hs : Sound h.kernel) (i : ℕ) (vcpuId : UInt32)
    (os : CreateOutcome) (full : Bool) (hor : h.Orderly (.addVCpu i vcpuId os full)) :
    Sound (h.step (.addVCpu i vcpuId os full)).kernel ∧
      (h.step (.addVCpu i vcpuId os full)).Tidy := by
  rw [step, updateVm]
  split
  · rename_i vm hi
    have hfd : 0 ≤ vm.fd := not_lt.1 (hor _ hi)
    have htidy : (Obj.virtualMachine vm).Tidy := ht.objs _ (List.mem_of_getElem? hi)
    have hl := Logs.create_vCpu vm.fd vcpuId vm.vcpuMmapSize os h.kernel
    have hs' : Sound (VCpu.create vm.fd vcpuId vm.vcpuMmapSize os h.kernel).2 := by
      refine hl.sound (fun c hc _ => ?_) hs
      rw [List.mem_singleton.1 hc]
      exact (isOpen_vm ho hi).trans (decide_eq_true hfd)
    have hslots : ∀ s ∈ (VCpu.create vm.fd vcpuId vm.vcpuMmapSize os h.kernel).2.slots,
        s ∈ h.kernel.slots := fun s hmem => hl.slots ▸ hmem
    rw [VirtualMachine.addVCpu]
    split
    · rename_i heq
      rw [heq] at hs' hslots
      exact ⟨hs', tidy_set ht hi htidy (List.Subset.refl _) fun s hmem => .inl (hslots s hmem)⟩
    · rename_i heq
      rw [heq] at hs' hslots
      rw [pushBack_eq]
      exact ⟨hs', tidy_set ht hi htidy (List.Subset.refl _) fun s hmem => .inl (hslots s hmem)⟩
  · exact ⟨hs, ht⟩

theorem good_addMemoryRegion (ho : h.Owns) (ht : h.Tidy) (hs : Sound h.kernel) (i : ℕ)
    (guestPhysAddr : UInt64) (sizeBytes : ℕ) (flags : UInt32) (os : CreateOutcome) (full : Bool)
    (hor : h.Orderly (.addMemoryRegion i guestPhysAddr sizeBytes flags os full)) :
    Sound (h.step (.addMemoryRegion i guestPhysAddr sizeBytes flags os full)).kernel ∧
      (h.step (.addMemoryRegion i guestPhysAddr sizeBytes flags os full)).Tidy := by
  rw [step, updateVm]
  split
  · rename_i vm hi
    have htidy : (Obj.virtualMachine vm).Tidy := ht.objs _ (List.mem_of_getElem? hi)
    rw [VirtualMachine.addMemoryRegion]
    rcases h.kernel.mmap_cases sizeBytes os.mmap with ⟨e, hm⟩ | ⟨addr, k₁, hm, -⟩
    · rw [MemoryRegion.create, hm]
      exact ⟨hs, tidy_set ht hi htidy (List.Subset.refl _) fun s hmem => .inl hmem⟩
    · have hfd : 0 ≤ vm.fd := not_lt.1 (hor (by rw [hm]; rfl) _ hi)
      have hopen := (isOpen_vm ho hi).trans (decide_eq_true hfd)
      rcases MemoryRegion.create_of_isOpen hopen (slots_held ho ht) hs vm.nextSlot guestPhysAddr
        sizeBytes flags os with ⟨e, k', heq, hs', hslots⟩ | ⟨r, k', heq, hs', hr, hslots⟩
      · rw [heq]
        exact ⟨hs', tidy_set ht hi htidy (List.Subset.refl _) fun s hmem => .inl (hslots ▸ hmem)⟩
      · rw [heq]
        dsimp only
        rw [pushBack_eq]
        refine ⟨hs', tidy_set ht hi ⟨fun _ => hfd, fun r' hr' => ?_⟩ (List.subset_append_left _ _)
          fun s hmem => ?_⟩
        · rcases List.mem_append.1 hr' with hr' | hr'
          · exact htidy.2 r' hr'
          · rw [List.mem_singleton.1 hr']
            exact hr
        · rcases hslots s hmem with hold | hnew
          · exact .inl hold
          · exact .inr ⟨r, List.mem_append_right _ List.mem_cons_self, hnew.symm⟩
  · exact ⟨hs, ht⟩

theorem get_whole {l : Loc} (hl : l.part = .whole) : h.get l = h.objs[l.var]? := by
  rw [get, hl]
  rcases h.objs[l.var]? with _ | o
  · rfl
  · rfl

theorem objs_set_whole {l : Loc} (hl : l.part = .whole) {x : Obj} (hx : h.get l = some x)
    (y : Obj) : (h.set l y).objs = h.objs.set l.var y := by
  rw [get_whole hl] at hx
  rw [objs_set hx, hl, Part.set]

theorem tidy_movedFrom {x : Obj} (hx : x.Tidy) : x.moveConstruct.2.Tidy := by
  cases x with
  | kvmSystem s => trivial
  | virtualMachine vm => exact ⟨fun hne => absurd rfl hne, fun r hr => absurd hr List.not_mem_nil⟩
  | vCpu v => exact hx
  | memoryRegion r => exact hx

theorem good_moveConstruct (ht : h.Tidy) (hs : Sound h.kernel) (src : Loc)
    (hsrc : src.part = .whole) :
    Sound (h.step (.moveConstruct src)).kernel ∧ (h.step (.moveConstruct src)).Tidy := by
  rw [step]
  split
  · rename_i x hx
    have hobjs := objs_set_whole hsrc hx x.moveConstruct.2
    have hfst : x.moveConstruct.1 = x := Raii.moveConstruct_fst x
    have hi : h.objs[src.var]? = some x := (get_whole hsrc).symm.trans hx
    have htidy := ht.objs x (List.mem_of_getElem? hi)
    rw [hfst]
    refine ⟨hs, fun o hmem => ?_, fun s hmem => ?_⟩
    · rcases List.mem_append.1 hmem with hmem | hmem
      · rw [hobjs] at hmem
        rcases List.mem_or_eq_of_mem_set hmem with hmem | rfl
        · exact ht.objs o hmem
        · exact tidy_movedFrom htidy
      · rw [List.mem_singleton.1 hmem]
        exact htidy
    · obtain ⟨o, ho, hr⟩ := ht.slots s hmem
      refine ⟨o, ?_, hr⟩
      rcases mem_or_mem_set hi ho x.moveConstruct.2 with rfl | ho'
      · exact List.mem_append_right _ List.mem_cons_self
      · exact List.mem_append_left _ (hobjs ▸ ho')
  · exact ⟨hs, ht⟩

/-- A virtual machine without regions is torn down silently. -/
theorem logs_destroy (ho : h.Owns) (ht : h.Tidy) {i : ℕ} {x : Obj} (hi : h.objs[i]? = some x)
    (hregions : x.memoryRegions = []) : Logs h.kernel (x.destroy h.kernel) [] := by
  have hclose (fd : ℤ) : Logs h.kernel (closeIfOpen fd h.kernel) [] := by
    rw [closeIfOpen]
    split
    · exact (Logs.refl _).close fd
    · exact .refl _
  have htidy := ht.objs x (List.mem_of_getElem? hi)
  cases x with
  | kvmSystem s => exact hclose s.fd
  | virtualMachine vm =>
    have hregions : vm.memoryRegions = [] := hregions
    have hfree := slot_ne_runPage ho ht hi hregions
    rw [Obj.destroy, VirtualMachine.destroy, hregions]
    refine (hclose vm.fd).trans (Logs.destroyAll_vcpus ?_)
    rw [(hclose vm.fd).slots]
    exact hfree
  | vCpu v => exact htidy.elim
  | memoryRegion r => exact htidy.elim

theorem good_destroy (ho : h.Owns) (ht : h.Tidy) (hs : Sound h.kernel) (i : ℕ)
    (hor : h.Orderly (.destroy i)) :
    Sound (h.step (.destroy i)).kernel ∧ (h.step (.destroy i)).Tidy := by
  rw [step]
  split
  · rename_i x hi
    have hregions : x.memoryRegions = [] := hor x hi
    have hl := logs_destroy ho ht hi hregions
    refine ⟨hl.sound (by simp) hs, fun o hmem => ht.objs o (List.mem_of_mem_eraseIdx hmem),
      fun s hmem => ?_⟩
    obtain ⟨o, hmem', r, hr, haddr⟩ := ht.slots s (hl.slots ▸ hmem)
    obtain ⟨hlt, hget⟩ := List.getElem?_eq_some_iff.1 hi
    rcases List.mem_cons.1 ((List.getElem_cons_eraseIdx_perm hlt).mem_iff.2 hmem') with rfl | h'
    · rw [hget, hregions] at hr
      exact absurd hr List.not_mem_nil
    · exact ⟨o, h', r, hr, haddr⟩
  · exact ⟨hs, ht⟩

theorem logs_moveAssign (ho : h.Owns) (ht : h.Tidy) {i : ℕ} {a : Obj} (hi : h.objs[i]? = some a)
    (hregions : a.memoryRegions = []) (b : Obj) :
    Logs h.kernel (a.moveAssign b h.kernel).2 [] := by
  have hl := logs_destroy ho ht hi hregions
  have htidy := ht.objs a (List.mem_of_getElem? hi)
  unfold Obj.moveAssign
  split
  · rename_i s t
    by_cases hfd : 0 ≤ s.fd
    · rw [KvmSystem.moveAssign_of_nonneg hfd]
      exact hl
    · rw [KvmSystem.moveAssign_of_neg hfd]
      exact .refl _
  · rename_i vm other
    have hregions : vm.memoryRegions = [] := hregions
    rw [Obj.destroy, VirtualMachine.destroy, hregions] at hl
    rw [VirtualMachine.moveAssign, hregions]
    exact hl
  · exact htidy.elim
  · exact htidy.elim
  · exact .refl _

/-- An object without regions is replaced by another, which is moved from. -/
theorem tidy_transfer (ht : h.Tidy) {i j : ℕ} {a b : Obj} {k : Kernel}
    (hk : k.slots = h.kernel.slots) (hij : i ≠ j) (hi : h.objs[i]? = some a)
    (hj : h.objs[j]? = some b) (hregions : a.memoryRegions = []) :
    Tidy { kernel := k, objs := (h.objs.set i b).set j b.moveConstruct.2 } := by
  have hj' : (h.objs.set i b)[j]? = some b := by rw [List.getElem?_set_ne hij, hj]
  have hi' : ((h.objs.set i b).set j b.moveConstruct.2)[i]? = some b := by
    rw [List.getElem?_set_ne hij.symm,
      List.getElem?_set_self (List.getElem?_eq_some_iff.1 hi).1]
  have htb := ht.objs b (List.mem_of_getElem? hj)
  refine ⟨fun o hmem => ?_, fun s hmem => ?_⟩
  · rcases List.mem_or_eq_of_mem_set hmem with hmem | rfl
    · rcases List.mem_or_eq_of_mem_set hmem with hmem | rfl
      · exact ht.objs o hmem
      · exact htb
    · exact tidy_movedFrom htb
  · obtain ⟨o, hmem', r, hr, haddr⟩ := ht.slots s (hk ▸ hmem)
    refine ⟨o, ?_, r, hr, haddr⟩
    rcases mem_or_mem_set hi hmem' b with rfl | hmem'
    · rw [hregions] at hr
      exact absurd hr List.not_mem_nil
    · rcases mem_or_mem_set hj' hmem' b.moveConstruct.2 with rfl | hmem'
      · exact List.mem_of_getElem? hi'
      · exact hmem'

theorem good_moveAssign (ho : h.Owns) (ht : h.Tidy) (hs : Sound h.kernel) (dst src : Loc)
    (hdst : dst.part = .whole) (hsrc : src.part = .whole)
    (hor : h.Orderly (.moveAssign dst src)) :
    Sound (h.step (.moveAssign dst src)).kernel ∧ (h.step (.moveAssign dst src)).Tidy := by
  rcases ha : h.get dst with _ | a
  · simpa [step, ha] using And.intro hs ht
  rcases hb : h.get src with _ | b
  · simpa [step, ha, hb] using And.intro hs ht
  by_cases hself : dst = src ∨ a.cls ≠ b.cls
  · simpa [step, ha, hb, if_pos hself] using And.intro hs ht
  obtain ⟨hne, hc⟩ : dst ≠ src ∧ a.cls = b.cls := by simpa [not_or] using hself
  have hregions : a.memoryRegions = [] := hor a ha b hb ⟨hne, hc⟩
  have hi : h.objs[dst.var]? = some a := (get_whole hdst).symm.trans ha
  have hj : h.objs[src.var]? = some b := (get_whole hsrc).symm.trans hb
  have hl := logs_moveAssign ho ht hi hregions b
  by_cases hta : a.Takes
  · have hle : a.owned ≤ h.kernel.held := ho.held ▸ owned_le ha
    have hfst : b.moveConstruct.1 = b := Raii.moveConstruct_fst b
    have hb' : (h.set dst b).get src = some b := get_set_of_ne hne.symm hb ha hc.symm hc.symm
    have hvar : dst.var ≠ src.var := by
      intro hvar
      rw [Ne, Loc.mk.injEq] at hne
      exact hne ⟨hvar, hdst.trans hsrc.symm⟩
    rw [step_moveAssign hne ha hb hc, (Obj.moveAssign_of_takes hc hta hle).1, hfst]
    dsimp only
    rw [objs_set_whole hsrc hb', objs_set_whole hdst ha]
    exact ⟨hl.sound (by simp) hs, tidy_transfer ht hl.slots hvar hi hj hregions⟩
  · rw [step_moveAssign_of_not_takes hne ha hb hc hta]
    exact ⟨hs, ht⟩

theorem good_step (ho : h.Owns) (ht : h.Tidy) (hs : Sound h.kernel) {op : Op}
    (hvm : op.OnVms = true) (hor : h.Orderly op) :
    Sound (h.step op).kernel ∧ (h.step op).Tidy := by
  cases op with
  | «open» os =>
    obtain ⟨cs, hl, hcs⟩ := Logs.open_kvmSystem os h.kernel
    exact good_declare hl hcs (fun _ _ => trivial) hs ht
  | createVm i out =>
    rw [step]
    split
    · rename_i s hi
      refine good_declare (Logs.createVm s out h.kernel) (by simp [Request.OnVm]) (fun vm hok => ?_)
        hs ht
      have hnil := s.memoryRegions_createVm hok
      exact ⟨fun hne => absurd hnil hne, fun r hr => absurd (hnil ▸ hr) List.not_mem_nil⟩
    · exact ⟨hs, ht⟩
  | addMemoryRegion i guestPhysAddr sizeBytes flags os full =>
    exact good_addMemoryRegion ho ht hs i guestPhysAddr sizeBytes flags os full hor
  | addVCpu i vcpuId os full => exact good_addVCpu ho ht hs i vcpuId os full hor
  | createVCpu vmFd vcpuId mmapSize os => exact absurd hvm (by simp [Op.OnVms])
  | createMemoryRegion vmFd slot guestPhysAddr sizeBytes flags os =>
    exact absurd hvm (by simp [Op.OnVms])
  | moveConstruct src => exact good_moveConstruct ht hs src (of_decide_eq_true hvm)
  | moveAssign dst src =>
    obtain ⟨hdst, hsrc⟩ := of_decide_eq_true hvm
    exact good_moveAssign ho ht hs dst src hdst hsrc hor
  | destroy i => exact good_destroy ho ht hs i hor

/-! ## Any other step breaks it -/

theorem exists_of_memoryRegions {x : Obj} (h : x.memoryRegions ≠ []) :
    ∃ vm, x = .virtualMachine vm ∧ vm.memoryRegions ≠ [] := by
  cases x with
  | virtualMachine vm => exact ⟨vm, rfl, h⟩
  | _ => exact absurd rfl h

theorem exists_of_movedFromVm {x : Obj} (h : x.MovedFromVm) :
    ∃ vm, x = .virtualMachine vm ∧ ¬0 ≤ vm.fd := by
  cases x with
  | virtualMachine vm => exact ⟨vm, rfl, not_le.2 h⟩
  | _ => exact h.elim

theorem not_sound_destroy {vm : VirtualMachine} (ht : (Obj.virtualMachine vm).Tidy)
    (hne : vm.memoryRegions ≠ []) (k : Kernel) : ¬Sound (vm.destroy k) := by
  refine not_sound_destroyAll (Kernel.isOpen_mono (held_destroyAll_vcpus_le _ _) ?_) hne ht.2
  rw [closeIfOpen, if_pos (ht.1 hne)]
  exact k.isOpen_close vm.fd

theorem not_sound_moveAssign {vm : VirtualMachine} (ht : (Obj.virtualMachine vm).Tidy)
    (hne : vm.memoryRegions ≠ []) (other : VirtualMachine) (k : Kernel) :
    ¬Sound (vm.moveAssign other k).2 := by
  have hclosed : (closeIfOpen vm.fd k).isOpen vm.fd = false := by
    rw [closeIfOpen, if_pos (ht.1 hne)]
    exact k.isOpen_close vm.fd
  exact fun hs => not_sound_destroyAll hclosed hne ht.2 ((Later.destroyAll_vcpus _ _).sound hs)

/-- A virtual machine is no element of another. -/
theorem mem_of_get_vm {l : Loc} {vm : VirtualMachine} (hl : h.get l = some (.virtualMachine vm)) :
    .virtualMachine vm ∈ h.objs := by
  obtain ⟨o, ho, hp⟩ := exists_of_get hl
  rcases Part.get_eq_some hp with ⟨-, rfl⟩ | ⟨_, _, _, _, _, _, hx⟩ | ⟨_, _, _, _, _, _, hx⟩
  · exact List.mem_of_getElem? ho
  · simp at hx
  · simp at hx

theorem not_sound_step (ho : h.Owns) (ht : h.Tidy) {op : Op} (hor : ¬h.Orderly op) :
    ¬Sound (h.step op).kernel := by
  cases op with
  | addMemoryRegion i guestPhysAddr sizeBytes flags os full =>
    simp only [Orderly, Classical.not_imp, not_forall, not_not] at hor
    obtain ⟨hok, x, hi, hmoved⟩ := hor
    obtain ⟨vm, rfl, hfd⟩ := exists_of_movedFromVm hmoved
    have hi : h.objs[i]? = some (.virtualMachine vm) := hi
    rcases h.kernel.mmap_cases sizeBytes os.mmap with ⟨e, hm⟩ | ⟨addr, k₁, hm, -⟩
    · rw [hm] at hok
      exact absurd hok Bool.false_ne_true
    · obtain ⟨e, k', heq, hnot⟩ := MemoryRegion.create_of_not_isOpen
        ((isOpen_vm ho hi).trans (decide_eq_false hfd)) (congrArg Prod.fst hm) vm.nextSlot
        guestPhysAddr flags
      rw [step, updateVm, hi]
      dsimp only
      rw [VirtualMachine.addMemoryRegion, heq]
      exact hnot
  | addVCpu i vcpuId os full =>
    simp only [Orderly, not_forall, not_not] at hor
    obtain ⟨x, hi, hmoved⟩ := hor
    obtain ⟨vm, rfl, hfd⟩ := exists_of_movedFromVm hmoved
    have hi : h.objs[i]? = some (.virtualMachine vm) := hi
    have hclosed := (isOpen_vm ho hi).trans (decide_eq_false hfd)
    have hl := Logs.create_vCpu vm.fd vcpuId vm.vcpuMmapSize os h.kernel
    have hnot : ¬Sound (VCpu.create vm.fd vcpuId vm.vcpuMmapSize os h.kernel).2 :=
      not_sound_of_mem (hl.ioctls ▸ List.mem_append_right _ List.mem_cons_self) rfl hclosed
    rw [step, updateVm, hi]
    dsimp only
    rw [VirtualMachine.addVCpu]
    split
    · rename_i heq
      rwa [heq] at hnot
    · rename_i heq
      rw [heq] at hnot
      rwa [pushBack_eq]
  | moveAssign dst src =>
    simp only [Orderly, Classical.not_imp, not_forall] at hor
    obtain ⟨a, ha, b, hb, ⟨hne, hc⟩, hregions⟩ := hor
    obtain ⟨vm, rfl, hregions⟩ := exists_of_memoryRegions hregions
    have hmem : .virtualMachine vm ∈ h.objs := mem_of_get_vm ha
    rw [step_moveAssign hne ha hb hc]
    cases b with
    | virtualMachine other => exact not_sound_moveAssign (ht.objs _ hmem) hregions other _
    | _ => simp [Obj.cls] at hc
  | destroy i =>
    simp only [Orderly, not_forall] at hor
    obtain ⟨x, hi, hregions⟩ := hor
    obtain ⟨vm, rfl, hregions⟩ := exists_of_memoryRegions hregions
    have hi : h.objs[i]? = some (.virtualMachine vm) := hi
    rw [step, hi]
    exact not_sound_destroy (ht.objs _ (List.mem_of_getElem? hi)) hregions _
  | _ => exact absurd trivial hor

/-! ## Runs -/

theorem sound_run_iff (ho : h.Owns) (ht : h.Tidy) (hs : Sound h.kernel) {ops : List Op}
    (hvms : ∀ op ∈ ops, op.OnVms = true) : Sound (h.run ops).kernel ↔ h.OrderlyRun ops := by
  induction ops generalizing h with
  | nil => exact ⟨fun _ => trivial, fun _ => hs⟩
  | cons op ops ih =>
    have hops : ∀ op ∈ ops, op.OnVms = true := fun o hmem => hvms o (List.mem_cons_of_mem _ hmem)
    by_cases hor : h.Orderly op
    · obtain ⟨hs', ht'⟩ := good_step ho ht hs (hvms op List.mem_cons_self) hor
      exact (ih (owns_step op ho) ht' hs' hops).trans (and_iff_right hor).symm
    · -- what this step logged is still there at the end of the run
      have hnot := not_sound_step ho ht hor
      exact ⟨fun hrun => absurd ((later_run ops (h.step op)).sound hrun) hnot,
        fun hrun => absurd hrun.1 hor⟩

/-- In a run on virtual machines all requests are made on open VM descriptors, and all slots are
unregistered before their memory is unmapped, exactly if every step is orderly. -/
theorem sound_iff_orderly (ops : List Op) (hvms : ∀ op ∈ ops, op.OnVms = true) :
    Sound (run {} ops).kernel ↔ OrderlyRun {} ops :=
  sound_run_iff owns_empty
    ⟨fun _ hmem => absurd hmem List.not_mem_nil, fun _ hmem => absurd hmem List.not_mem_nil⟩
    ⟨fun _ hmem => absurd hmem List.not_mem_nil, rfl⟩ hvms

/-- A virtual machine with a region and a vCPU, moved to another variable. -/
def vmOps : List Op :=
  [.open { fd := .ok 3, mmapSize := .ok 12288 }, .createVm 0 (.ok 4),
    .addMemoryRegion 1 0 4096 0 { mmap := .ok 65536, ioctl := .ok 0 } false,
    .addVCpu 1 0 { ioctl := .ok 5, mmap := .ok 131072 } false, .moveConstruct ⟨1, .whole⟩]

theorem sound_iff_orderly_vmOps : Sound (run {} vmOps).kernel ∧
    (run {} vmOps).kernel.slots = [⟨4, 0, 65536⟩] :=
  ⟨(sound_iff_orderly vmOps (by decide)).2 (by decide), by decide⟩

/-- Destroying a virtual machine closes its descriptor 4, then makes the request that unregisters
slot 0 on it, and unmaps the memory of the slot. -/
theorem unregister_on_closed_fd :
    (run {} (vmOps ++ [.destroy 2])).kernel.ioctls.getLast? =
        some ⟨4, .setUserMemoryRegion { slot := 0 }, false⟩ ∧
      (run {} (vmOps ++ [.destroy 2])).kernel.dangling = [⟨4, 0, 65536⟩] ∧
      ¬Sound (run {} (vmOps ++ [.destroy 2])).kernel := by
  have hlast : (run {} (vmOps ++ [.destroy 2])).kernel.ioctls.getLast? =
      some ⟨4, .setUserMemoryRegion { slot := 0 }, false⟩ := by decide
  exact ⟨hlast, by decide, not_sound_of_mem (List.mem_of_getLast? hlast) rfl rfl⟩

end Heap

end MinBp.Ownership
