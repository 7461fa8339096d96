import MinBp.Ownership

/-!
# The log of requests

What the calls of the four classes add to the kernel's logs. `Logs k k' cs` says that only the
requests `cs` were logged and no slot changed, `Later k k'` that nothing was taken back.

`Sound` is the property of interest : every request on a VM descriptor was made on an open one, and
no memory was unmapped under a registered slot. Regions that are torn down after their descriptor is
closed break it (`not_sound_destroyAll`), and so does a region that is created on a closed one
(`MemoryRegion.create_of_not_isOpen`).
-/

namespace MinBp.Ownership

/-! ## What was logged stays logged -/

/-- From `k` to `k'` only the calls `cs` were logged, and no slot changed. -/
structure Logs (k k' : Kernel) (cs : List IoctlCall) : Prop where
  ioctls : k'.ioctls = k.ioctls ++ cs
  dangling : k'.dangling = k.dangling
  slots : k'.slots = k.slots

namespace Logs

variable {k k' k'' : Kernel} {cs cs' : List IoctlCall}

theorem refl (k : Kernel) : Logs k k [] :=
  ⟨(List.append_nil _).symm, rfl, rfl⟩

theorem trans (h : Logs k k' cs) (h' : Logs k' k'' cs') : Logs k k'' (cs ++ cs') where
  ioctls := by rw [h'.ioctls, h.ioctls, List.append_assoc]
  dangling := h'.dangling.trans h.dangling
  slots := h'.slots.trans h.slots

theorem newFd (out : Except Errno ℕ) (k : Kernel) : Logs k (k.newFd out).2 [] := by
  rcases out with e | n
  · exact refl k
  · rw [Kernel.newFd]
    split
    · exact ⟨(List.append_nil _).symm, rfl, rfl⟩
    · exact refl k

theorem mmap (size : ℕ) (out : Except Errno ℕ) (k : Kernel) : Logs k (k.mmap size out).2 [] := by
  rcases out with e | addr
  · exact refl k
  · rw [Kernel.mmap]
    split
    · exact refl k
    · split
      · exact ⟨(List.append_nil _).symm, rfl, rfl⟩
      · exact refl k

theorem close (h : Logs k k' cs) (fd : ℤ) : Logs k (k'.close fd) cs :=
  ⟨h.ioctls, h.dangling, h.slots⟩

theorem ioctl (fd : ℤ) (request : Request) (out : Except Errno ℕ) (k : Kernel) :
    Logs k (k.ioctl fd request out).2 [⟨fd, request, k.isOpen fd⟩] :=
  ⟨rfl, rfl, rfl⟩

/-- `KvmSystem::open` makes no request on a VM descriptor. -/
theorem open_kvmSystem (os : OpenOutcome) (k : Kernel) :
    ∃ cs, Logs k (KvmSystem.open os k).2 cs ∧ ∀ c ∈ cs, c.request.OnVm = false := by
  have hfd := newFd os.fd k
  rw [KvmSystem.open]
  split
  · rename_i heq
    rw [heq] at hfd
    exact ⟨[], hfd, by simp⟩
  · rename_i fd k₁ heq
    rw [heq] at hfd
    have hver := hfd.trans (ioctl fd .getApiVersion os.version k₁)
    split
    · rename_i heq
      rw [heq] at hver
      exact ⟨_, hver.close _, by simp [Request.OnVm]⟩
    · rename_i k₂ heq
      rw [heq] at hver
      have hsize := hver.trans (ioctl fd .getVcpuMmapSize os.mmapSize k₂)
      split
      · exact ⟨_, hver.close _, by simp [Request.OnVm]⟩
      · split
        · rename_i heq
          rw [heq] at hsize
          exact ⟨_, hsize.close _, by simp [Request.OnVm]⟩
        · rename_i heq
          rw [heq] at hsize
          exact ⟨_, hsize, by simp [Request.OnVm]⟩

theorem createVm (s : KvmSystem) (out : Except Errno ℕ) (k : Kernel) :
    Logs k (s.createVm out k).2 [⟨s.fd, .createVm, k.isOpen s.fd⟩] := by
  have hi := ioctl s.fd .createVm out k
  rw [KvmSystem.createVm]
  split
  · rename_i heq
    rwa [heq] at hi
  · rename_i m k₁ heq
    rw [heq] at hi
    have hfd := hi.trans (newFd (.ok m) k₁)
    split
    · rename_i heq
      rwa [heq] at hfd
    · rename_i heq
      rwa [heq] at hfd

theorem create_vCpu (vmFd : ℤ) (vcpuId : UInt32) (mmapSize : ℕ) (os : CreateOutcome) (k : Kernel) :
    Logs k (VCpu.create vmFd vcpuId mmapSize os k).2
      [⟨vmFd, .createVcpu vcpuId, k.isOpen vmFd⟩] := by
  have hi := ioctl vmFd (.createVcpu vcpuId) os.ioctl k
  rw [VCpu.create]
  split
  · rename_i heq
    rwa [heq] at hi
  · rename_i m k₁ heq
    rw [heq] at hi
    have hfd := hi.trans (newFd (.ok m) k₁)
    split
    · rename_i heq
      rwa [heq] at hfd
    · rename_i k₂ heq
      rw [heq] at hfd
      have hmap := hfd.trans (mmap mmapSize os.mmap k₂)
      split
      · rename_i heq
        rw [heq] at hmap
        exact hmap.close _
      · rename_i heq
        rwa [heq] at hmap

end Logs

/-- The logs of `k'` continue those of `k`. -/
structure Later (k k' : Kernel) : Prop where
  ioctls : k.ioctls <+: k'.ioctls
  dangling : k.dangling <+: k'.dangling

theorem Logs.later {k k' : Kernel} {cs : List IoctlCall} (h : Logs k k' cs) : Later k k' where
  ioctls := h.ioctls ▸ List.prefix_append _ _
  dangling := h.dangling ▸ List.prefix_rfl

namespace Later

variable {k k' k'' : Kernel}

theorem refl (k : Kernel) : Later k k :=
  ⟨List.prefix_rfl, List.prefix_rfl⟩

theorem trans (h : Later k k') (h' : Later k' k'') : Later k k'' :=
  ⟨h.ioctls.trans h'.ioctls, h.dangling.trans h'.dangling⟩

theorem munmap (addr size : ℕ) (k : Kernel) : Later k (k.munmap addr size) :=
  ⟨List.prefix_rfl, List.prefix_append _ _⟩

/-- The request of a region is logged. -/
theorem setUserMemoryRegion (vmFd : ℤ) (region : KvmUserspaceMemoryRegion)
    (out : Except Errno ℕ) (k : Kernel) :
    (k.setUserMemoryRegion vmFd region out).2.ioctls =
        k.ioctls ++ [⟨vmFd, .setUserMemoryRegion region, k.isOpen vmFd⟩] ∧
      (k.setUserMemoryRegion vmFd region out).2.dangling = k.dangling := by
  have hi := Logs.ioctl vmFd (.setUserMemoryRegion region) out k
  rw [Kernel.setUserMemoryRegion]
  split
  · rename_i heq
    rw [heq] at hi
    exact ⟨hi.ioctls, hi.dangling⟩
  · rename_i heq
    rw [heq] at hi
    dsimp only
    split
    · exact ⟨hi.ioctls, hi.dangling⟩
    · exact ⟨hi.ioctls, hi.dangling⟩

theorem closeIfOpen (fd : ℤ) (k : Kernel) : Later k (closeIfOpen fd k) := by
  rw [Ownership.closeIfOpen]
  split
  · exact ((Logs.refl k).close fd).later
  · exact refl k

theorem destroy_vCpu (v : VCpu) (k : Kernel) : Later k (v.destroy k) := by
  refine trans ?_ (closeIfOpen _ _)
  rw [munmapIfMapped]
  split
  · exact munmap _ _ k
  · exact refl k

theorem destroy_memoryRegion (r : MemoryRegion) (k : Kernel) : Later k (r.destroy k) := by
  rw [MemoryRegion.destroy]
  split
  · obtain ⟨hi, hd⟩ := setUserMemoryRegion r.vmFd { slot := r.slot } (.ok 0) k
    have hset : Later k (k.setUserMemoryRegion r.vmFd { slot := r.slot } (.ok 0)).2 :=
      ⟨hi ▸ List.prefix_append _ _, hd ▸ List.prefix_rfl⟩
    exact hset.trans (munmap _ _ _)
  · exact refl k

theorem destroyAll {τ : Type} [Raii τ] (hd : ∀ (x : τ) k, Later k (Raii.destroy x k)) :
    ∀ (xs : List τ) (k : Kernel), Later k (destroyAll xs k)
  | [], k => refl k
  | x :: xs, k => (hd x k).trans (destroyAll hd xs _)

theorem destroyAll_vcpus (vcpus : List VCpu) (k : Kernel) :
    Later k (Ownership.destroyAll vcpus k) :=
  destroyAll destroy_vCpu vcpus k

theorem destroyAll_memoryRegions (regions : List MemoryRegion) (k : Kernel) :
    Later k (Ownership.destroyAll regions k) :=
  destroyAll destroy_memoryRegion regions k

theorem destroy_obj (x : Obj) (k : Kernel) : Later k (x.destroy k) := by
  cases x with
  | kvmSystem s => exact closeIfOpen _ k
  | virtualMachine vm =>
    exact ((closeIfOpen _ k).trans (destroyAll_vcpus _ _)).trans (destroyAll_memoryRegions _ _)
  | vCpu v => exact destroy_vCpu v k
  | memoryRegion r => exact destroy_memoryRegion r k

theorem moveAssign_obj (a b : Obj) (k : Kernel) : Later k (a.moveAssign b k).2 := by
  unfold Obj.moveAssign
  split
  · rename_i s t
    by_cases hfd : 0 ≤ s.fd
    · rw [KvmSystem.moveAssign_of_nonneg hfd]
      exact closeIfOpen _ k
    · rw [KvmSystem.moveAssign_of_neg hfd]
      exact refl k
  · exact ((closeIfOpen _ k).trans (destroyAll_memoryRegions _ _)).trans (destroyAll_vcpus _ _)
  · exact destroy_vCpu _ k
  · exact destroy_memoryRegion _ k
  · exact refl k

theorem create_memoryRegion (vmFd : ℤ) (slot : UInt32) (guestPhysAddr : UInt64)
    (sizeBytes : ℕ) (flags : UInt32) (os : CreateOutcome) (k : Kernel) :
    Later k (MemoryRegion.create vmFd slot guestPhysAddr sizeBytes flags os k).2 := by
  have hmap := (Logs.mmap sizeBytes os.mmap k).later
  rw [MemoryRegion.create]
  split
  · rename_i heq
    rwa [heq] at hmap
  · rename_i host k₁ heq
    rw [heq] at hmap
    obtain ⟨hi, hd⟩ := setUserMemoryRegion vmFd
      ⟨slot, flags, guestPhysAddr, sizeBytes, host⟩ os.ioctl k₁
    have hset : Later k _ := hmap.trans ⟨hi ▸ List.prefix_append _ _, hd ▸ List.prefix_rfl⟩
    split
    · rename_i heq
      rw [heq] at hset
      exact hset.trans (munmap _ _ _)
    · rename_i heq
      rwa [heq] at hset

end Later

/-! ## Sound logs -/

/-- All requests on VM descriptors were made on open ones, and no memory was unmapped under a
registered slot. Requests on the descriptor of a `KvmSystem` are not looked at : one that has been
moved from makes its `KVM_CREATE_VM` on the descriptor -1. -/
def Sound (k : Kernel) : Prop :=
  (∀ c ∈ k.ioctls, c.request.OnVm = true → c.isOpen = true) ∧ k.dangling = []

theorem Later.sound {k k' : Kernel} (h : Later k k') (hs : Sound k') : Sound k :=
  ⟨fun c hc => hs.1 c (h.ioctls.subset hc), List.prefix_nil.1 (hs.2 ▸ h.dangling)⟩

theorem Logs.sound {k k' : Kernel} {cs : List IoctlCall} (h : Logs k k' cs)
    (hcs : ∀ c ∈ cs, c.request.OnVm = true → c.isOpen = true) (hs : Sound k) : Sound k' := by
  refine ⟨fun c hc => ?_, h.dangling.trans hs.2⟩
  rw [h.ioctls, List.mem_append] at hc
  exact hc.elim (hs.1 c) (hcs c)

/-- One request on a closed descriptor is enough. -/
theorem not_sound_of_mem {k : Kernel} {c : IoctlCall} (hc : c ∈ k.ioctls)
    (hvm : c.request.OnVm = true) (hclosed : c.isOpen = false) : ¬Sound k := by
  intro hs
  have := hs.1 c hc hvm
  rw [hclosed] at this
  exact Bool.false_ne_true this

theorem Kernel.isOpen_close (fd : ℤ) (k : Kernel) : (k.close fd).isOpen fd = false := by
  have hnodup : k.ledger.held.Nodup := Multiset.Nodup.of_map _ k.distinct
  refine decide_eq_false ?_
  change Resource.fd fd ∉ (k.ledger.release _).held
  rw [Ledger.release]
  split
  · exact hnodup.notMem_erase
  · assumption

theorem Kernel.isOpen_mono {k k' : Kernel} (h : k'.held ≤ k.held) {fd : ℤ}
    (hfd : k.isOpen fd = false) : k'.isOpen fd = false :=
  decide_eq_false fun hmem => of_decide_eq_false hfd (Multiset.mem_of_le h hmem)

theorem VCpu.held_destroy_le (v : VCpu) (k : Kernel) : (v.destroy k).held ≤ k.held := by
  have hclose (k : Kernel) : (closeIfOpen v.fd k).held ≤ k.held := by
    rw [closeIfOpen]
    split
    · exact k.ledger.held_release_le _
    · exact le_rfl
  refine (hclose _).trans ?_
  rw [munmapIfMapped]
  split
  · exact k.ledger.held_release_le _
  · exact le_rfl

theorem held_destroyAll_vcpus_le : ∀ (vcpus : List VCpu) (k : Kernel),
    (destroyAll vcpus k).held ≤ k.held
  | [], _ => le_rfl
  | v :: vcpus, k => (held_destroyAll_vcpus_le vcpus _).trans (v.held_destroy_le k)

/-- Regions torn down after their descriptor is closed. -/
theorem not_sound_destroyAll {regions : List MemoryRegion} {fd : ℤ} {k : Kernel}
    (hfd : k.isOpen fd = false) (hne : regions ≠ [])
    (hregions : ∀ r ∈ regions, r.vmFd = fd ∧ r.hostAddr ≠ 0 ∧ r.hostAddr ≠ MAP_FAILED) :
    ¬Sound (destroyAll regions k) := by
  obtain ⟨r, rest, rfl⟩ := List.exists_cons_of_ne_nil hne
  obtain ⟨hvm, hmapped⟩ := hregions r List.mem_cons_self
  have hrequest : (k.setUserMemoryRegion r.vmFd { slot := r.slot } (.ok 0)).2.ioctls = _ :=
    (Later.setUserMemoryRegion r.vmFd { slot := r.slot } (.ok 0) k).1
  have hnot : ¬Sound (k.setUserMemoryRegion r.vmFd { slot := r.slot } (.ok 0)).2 := by
    refine not_sound_of_mem (hrequest ▸ List.mem_append_right _ List.mem_cons_self) rfl ?_
    rw [hvm]
    exact hfd
  have hdestroy : ¬Sound (r.destroy k) := by
    rw [MemoryRegion.destroy, if_pos hmapped]
    exact fun hs => hnot ((Later.munmap _ _ _).sound hs)
  exact fun hs => hdestroy ((Later.destroyAll_memoryRegions rest _).sound hs)

/-- A vCPU is torn down silently if no slot is at its run page. -/
theorem Logs.destroy_vCpu {v : VCpu} {k : Kernel}
    (h : v.runPage ≠ 0 ∧ v.runPage ≠ MAP_FAILED → ∀ s ∈ k.slots, s.hostAddr ≠ v.runPage) :
    Logs k (v.destroy k) [] := by
  have hunmap : Logs k (munmapIfMapped v.runPage v.mmapSize k) [] := by
    rw [munmapIfMapped]
    split
    · rename_i hmapped
      have hnone : k.slots.filter (fun s => s.hostAddr = v.runPage) = [] :=
        List.filter_eq_nil_iff.2 fun s hs => by simpa using h hmapped s hs
      refine ⟨(List.append_nil _).symm, ?_, rfl⟩
      rw [Kernel.munmap, hnone, List.append_nil]
    · exact refl k
  rw [VCpu.destroy, closeIfOpen]
  split
  · exact hunmap.close _
  · exact hunmap

theorem Logs.destroyAll_vcpus {vcpus : List VCpu} {k : Kernel}
    (h : ∀ v ∈ vcpus, v.runPage ≠ 0 ∧ v.runPage ≠ MAP_FAILED →
      ∀ s ∈ k.slots, s.hostAddr ≠ v.runPage) : Logs k (destroyAll vcpus k) [] := by
  induction vcpus generalizing k with
  | nil => exact refl k
  | cons v vcpus ih =>
    have hv := destroy_vCpu (h v List.mem_cons_self)
    have hrest : Logs (v.destroy k) (destroyAll vcpus (v.destroy k)) [] := by
      refine ih fun w hw => ?_
      rw [hv.slots]
      exact h w (List.mem_cons_of_mem _ hw)
    exact hv.trans hrest

/-! ## Creating a region -/

theorem Kernel.slots_setUserMemoryRegion (vmFd : ℤ) (region : KvmUserspaceMemoryRegion)
    (out : Except Errno ℕ) (k : Kernel) :
    (∃ e k', k.setUserMemoryRegion vmFd region out = (.error e, k') ∧ k'.slots = k.slots) ∨
      ∃ n k', k.setUserMemoryRegion vmFd region out = (.ok n, k') ∧
        ∀ s ∈ k'.slots, s ∈ k.slots ∨ s.hostAddr = region.userspaceAddr := by
  have hi := Logs.ioctl vmFd (.setUserMemoryRegion region) out k
  rw [Kernel.setUserMemoryRegion]
  split
  · rename_i heq
    rw [heq] at hi
    exact .inl ⟨_, _, rfl, hi.slots⟩
  · rename_i heq
    rw [heq] at hi
    refine .inr ⟨_, _, rfl, fun s hs => ?_⟩
    split at hs
    · exact .inl (hi.slots ▸ (List.mem_filter.1 hs).1)
    · rcases List.mem_append.1 hs with h | h
      · exact .inl (hi.slots ▸ h)
      · exact .inr (by rw [List.mem_singleton.1 h])

theorem Kernel.isOpen_mmap (fd : ℤ) (size : ℕ) (out : Except Errno ℕ) (k : Kernel) :
    (k.mmap size out).2.isOpen fd = k.isOpen fd := by
  rcases k.mmap_cases size out with ⟨e, h⟩ | ⟨addr, k', h, -, -, hg⟩
  · rw [h]
  · rw [h, Kernel.isOpen, Kernel.isOpen]
    have : Resource.fd fd ∈ k'.held ↔ Resource.fd fd ∈ k.held := by
      rw [Kernel.held, hg.held, Multiset.mem_add, Multiset.mem_singleton]
      simp [Kernel.held]
    exact decide_eq_decide.2 this

/-- On an open descriptor a region is created without a trace, but for its slot. -/
theorem MemoryRegion.create_of_isOpen {vmFd : ℤ} {k : Kernel} (hopen : k.isOpen vmFd = true)
    (hslots : ∀ s ∈ k.slots, .inr s.hostAddr ∈ k.held.map Resource.key) (hs : Sound k)
    (slot : UInt32) (guestPhysAddr : UInt64) (sizeBytes : ℕ) (flags : UInt32)
    (os : CreateOutcome) :
    (∃ e k', MemoryRegion.create vmFd slot guestPhysAddr sizeBytes flags os k = (.error e, k') ∧
        Sound k' ∧ k'.slots = k.slots) ∨
      ∃ r k', MemoryRegion.create vmFd slot guestPhysAddr sizeBytes flags os k = (.ok r, k') ∧
        Sound k' ∧ (r.vmFd = vmFd ∧ r.hostAddr ≠ 0 ∧ r.hostAddr ≠ MAP_FAILED) ∧
        ∀ s ∈ k'.slots, s ∈ k.slots ∨ s.hostAddr = r.hostAddr := by
  have hmap := Logs.mmap sizeBytes os.mmap k
  have hopen' := k.isOpen_mmap vmFd sizeBytes os.mmap
  rw [MemoryRegion.create]
  rcases k.mmap_cases sizeBytes os.mmap with ⟨e, hm⟩ | ⟨addr, k₁, hm, ha, hfresh, -⟩
  · rw [hm]
    exact .inl ⟨e, k, rfl, hs, rfl⟩
  · rw [hm] at hmap hopen' ⊢
    dsimp only at hmap hopen' ⊢
    have hs₁ : Sound k₁ := hmap.sound (by simp) hs
    obtain ⟨hi, hd⟩ := Later.setUserMemoryRegion vmFd ⟨slot, flags, guestPhysAddr, sizeBytes, addr⟩
      os.ioctl k₁
    have hs₂ : Sound (k₁.setUserMemoryRegion vmFd ⟨slot, flags, guestPhysAddr, sizeBytes, addr⟩
        os.ioctl).2 := by
      refine ⟨fun c hc hvm => ?_, hd.trans hs₁.2⟩
      rw [hi, List.mem_append, List.mem_singleton] at hc
      rcases hc with hc | rfl
      · exact hs₁.1 c hc hvm
      · exact hopen'.trans hopen
    rcases k₁.slots_setUserMemoryRegion vmFd ⟨slot, flags, guestPhysAddr, sizeBytes, addr⟩ os.ioctl
      with ⟨e, k₂, heq, hslots₂⟩ | ⟨n, k₂, heq, hslots₂⟩
    · rw [heq] at hs₂ ⊢
      -- the address is new, so that no slot is at it
      have hnone : k₂.slots.filter (fun s => s.hostAddr = addr) = [] := by
        rw [hslots₂, hmap.slots]
        refine List.filter_eq_nil_iff.2 fun s hmem => ?_
        rw [decide_eq_true_eq]
        rintro rfl
        exact hfresh (hslots s hmem)
      refine .inl ⟨e, _, rfl, ⟨hs₂.1, ?_⟩, hslots₂.trans hmap.slots⟩
      rw [Kernel.munmap, hnone, List.append_nil]
      exact hs₂.2
    · rw [heq] at hs₂ ⊢
      refine .inr ⟨_, k₂, rfl, hs₂, ⟨rfl, ha⟩, fun s hmem => ?_⟩
      rw [← hmap.slots]
      exact hslots₂ s hmem

theorem MemoryRegion.create_of_not_isOpen {vmFd : ℤ} {k : Kernel} {sizeBytes addr : ℕ}
    {os : CreateOutcome} (hclosed : k.isOpen vmFd = false)
    (hmap : (k.mmap sizeBytes os.mmap).1 = .ok addr) (slot : UInt32) (guestPhysAddr : UInt64)
    (flags : UInt32) :
    ∃ e k', MemoryRegion.create vmFd slot guestPhysAddr sizeBytes flags os k = (.error e, k') ∧
      ¬Sound k' := by
  have hclosed' := k.isOpen_mmap vmFd sizeBytes os.mmap
  rw [MemoryRegion.create]
  rcases hm : k.mmap sizeBytes os.mmap with ⟨r, k₁⟩
  rw [hm] at hmap hclosed'
  obtain rfl : r = .ok addr := hmap
  dsimp only at hclosed' ⊢
  rw [hclosed] at hclosed'
  obtain ⟨hi, -⟩ := Later.setUserMemoryRegion vmFd ⟨slot, flags, guestPhysAddr, sizeBytes, addr⟩
    os.ioctl k₁
  have hnot : ¬Sound (k₁.setUserMemoryRegion vmFd ⟨slot, flags, guestPhysAddr, sizeBytes, addr⟩
      os.ioctl).2 :=
    not_sound_of_mem (hi ▸ List.mem_append_right _ List.mem_cons_self) rfl hclosed'
  have herror : (k₁.setUserMemoryRegion vmFd ⟨slot, flags, guestPhysAddr, sizeBytes, addr⟩
      os.ioctl).1 = .error EBADF := by
    simp [Kernel.setUserMemoryRegion, Kernel.ioctl, hclosed']
  rcases hset : k₁.setUserMemoryRegion vmFd ⟨slot, flags, guestPhysAddr, sizeBytes, addr⟩
    os.ioctl with ⟨r, k₂⟩
  rw [hset] at hnot herror
  obtain rfl : r = .error EBADF := herror
  exact ⟨_, _, rfl, fun hs => hnot ((Later.munmap _ _ _).sound hs)⟩

end MinBp.Ownership
