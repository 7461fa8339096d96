import MinBp.VirtualMachine

/-!
# Restores that fail halfway

`restoreSnapshot` writes the registers, the special registers and the regions one after the other,
and goes on if an ioctl fails. So a restore can end between the snapshot and the state before it.
`restore_all_or_nothing_iff` states when it does not, for a snapshot that was taken earlier from the
same VM : the regions it had then are still at their positions (`Keeps`).

A snapshot is a plain value, so it can also come from another VM. Then the saved vector at a
position and the region there have nothing to do with each other. `restoreSnapshot` copies as many
bytes as the region has, and never looks at the length of the vector (`restore_in_bounds_iff`).
-/

namespace MinBp

namespace VirtualMachine

/-! ## All or nothing -/

/-- The registers of the first vCPU and the memory are those of the snapshot. Regions that were
added later are not in it. -/
structure Restored (snap : VmSnapShot) (vm : VirtualMachine) : Prop where
  regs : vm.vcpus.head?.map VCpu.regs = some snap.regs
  sregs : vm.vcpus.head?.map VCpu.sregs = some snap.sregs
  memory : snap.memoryRegions <+: vm.memoryRegions.map saveRegion

/-- The registers and the memory of `vm'` are those of `vm`. -/
structure SameState (vm vm' : VirtualMachine) : Prop where
  regs : vm'.vcpus.map VCpu.regs = vm.vcpus.map VCpu.regs
  sregs : vm'.vcpus.map VCpu.sregs = vm.vcpus.map VCpu.sregs
  memory : vm'.memoryRegions = vm.memoryRegions

/-- A restore leaves the state of the snapshot, or the state before the call. -/
def AllOrNothing (snap : VmSnapShot) (vm : VirtualMachine) : Prop :=
  ∃ vm', vm.restoreSnapshot snap = .ok vm' ∧ (vm'.Restored snap ∨ vm.SameState vm')

/-- A register file after an ioctl that sets it to `new`. -/
def written {α : Type} (set : Option Errno) (old new : α) : α :=
  if set = none then new else old

theorem written_eq_new_iff {α : Type} {set : Option Errno} {old new : α} :
    written set old new = new ↔ set = none ∨ old = new := by
  unfold written
  split_ifs with h <;> simp [h]

theorem written_eq_old_iff {α : Type} {set : Option Errno} {old new : α} :
    written set old new = old ↔ set ≠ none ∨ old = new := by
  unfold written
  split_ifs with h <;> simp [h, eq_comm]

theorem setRegs_snd (v : VCpu) (regs : KvmRegs) : (v.setRegs .restoreSnapshot regs).2 =
    { v with regs := written (v.faults .restoreSnapshot .setRegs) v.regs regs } := by
  unfold VCpu.setRegs written
  rcases v.faults .restoreSnapshot .setRegs with _ | e <;> rfl

theorem setSregs_snd (v : VCpu) (sregs : KvmSregs) : (v.setSregs .restoreSnapshot sregs).2 =
    { v with sregs := written (v.faults .restoreSnapshot .setSregs) v.sregs sregs } := by
  unfold VCpu.setSregs written
  rcases v.faults .restoreSnapshot .setSregs with _ | e <;> rfl

/-- A region of the same shape with the same saved bytes is the same region. -/
theorem eq_of_saveRegion {r r' : MemoryRegion} (h : MemoryRegion.SameShape r r')
    (hsave : saveRegion r' = saveRegion r) : r' = r := by
  refine h.eq_of_host ?_
  have hmapped := h.mapped
  unfold saveRegion at hsave
  rcases hr : r.host with _ | bs <;> rcases hr' : r'.host with _ | bs' <;>
    simp_all

/-- The loop of `restoreSnapshot` changes nothing if and only if the saved bytes are there. -/
theorem restored_eq_iff {rs rs' : List MemoryRegion} (h : Keeps rs rs') :
    rs ++ rs'.drop rs.length = rs' ↔ rs.map saveRegion <+: rs'.map saveRegion := by
  constructor
  · intro heq
    rw [← heq, List.map_append]
    exact List.prefix_append _ _
  · intro hprefix
    suffices htake : rs'.take rs.length = rs by
      nth_rewrite 1 [← htake]
      exact List.take_append_drop _ _
    refine List.ext_getElem? fun i => ?_
    rcases Nat.lt_or_ge i rs.length with hi | hi
    · obtain ⟨r', hr', hshape⟩ := h i rs[i] (List.getElem?_eq_getElem hi)
      obtain ⟨later, hlater⟩ := hprefix
      have hsave : (rs.map saveRegion)[i]? = (rs'.map saveRegion)[i]? := by
        rw [← hlater, List.getElem?_append_left (by simpa using hi)]
      rw [List.getElem?_map, List.getElem?_map, hr', List.getElem?_eq_getElem hi] at hsave
      rw [List.getElem?_take_of_lt hi, hr', List.getElem?_eq_getElem hi,
        eq_of_saveRegion hshape (Option.some.inj hsave).symm]
    · rw [List.getElem?_eq_none hi, List.getElem?_eq_none]
      exact (List.length_take_le _ _).trans hi

section Earlier

variable {vm₀ vm : VirtualMachine} {snap : VmSnapShot} {v : VCpu} {vs : List VCpu}

theorem memoryRegions_takeSnapShot (h : vm₀.takeSnapShot = .ok snap) :
    snap.memoryRegions = vm₀.memoryRegions.map saveRegion := by
  unfold takeSnapShot at h
  split at h
  · cases h
  · cases h
    rfl

/-- What `restoreSnapshot` leaves of a later state of the VM, for every pattern of failures. -/
theorem restoreSnapshot_earlier (hsnap : vm₀.takeSnapShot = .ok snap)
    (hkeeps : Keeps vm₀.memoryRegions vm.memoryRegions) (hv : vm.vcpus = v :: vs) :
    vm.restoreSnapshot snap = .ok { vm with
      vcpus := { v with
        regs := written (v.faults .restoreSnapshot .setRegs) v.regs snap.regs
        sregs := written (v.faults .restoreSnapshot .setSregs) v.sregs snap.sregs } :: vs
      memoryRegions := vm₀.memoryRegions ++ vm.memoryRegions.drop vm₀.memoryRegions.length } := by
  have hregions := restoreRegions_saveRegion _ _ hkeeps
  rw [← memoryRegions_takeSnapShot hsnap] at hregions
  simp only [restoreSnapshot, hv, setRegs_snd, setSregs_snd, hregions]

/-- A restore is all or nothing if and only if every register file that is not written is already
that of the snapshot, or every one that is written is, and the memory too. -/
theorem restore_all_or_nothing_iff (hsnap : vm₀.takeSnapShot = .ok snap)
    (hkeeps : Keeps vm₀.memoryRegions vm.memoryRegions) (hv : vm.vcpus = v :: vs) :
    vm.AllOrNothing snap ↔
      ((v.faults .restoreSnapshot .setRegs = none ∨ v.regs = snap.regs) ∧
        (v.faults .restoreSnapshot .setSregs = none ∨ v.sregs = snap.sregs)) ∨
      ((v.faults .restoreSnapshot .setRegs ≠ none ∨ v.regs = snap.regs) ∧
        (v.faults .restoreSnapshot .setSregs ≠ none ∨ v.sregs = snap.sregs) ∧
        snap.memoryRegions <+: vm.memoryRegions.map saveRegion) := by
  have hrestore := restoreSnapshot_earlier hsnap hkeeps hv
  have hsaved := memoryRegions_takeSnapShot hsnap
  rw [← written_eq_new_iff, ← written_eq_new_iff, ← written_eq_old_iff, ← written_eq_old_iff,
    hsaved, ← restored_eq_iff hkeeps]
  constructor
  · rintro ⟨vm', hvm', hstate⟩
    rw [hrestore, Except.ok.injEq] at hvm'
    subst hvm'
    rcases hstate with hnew | hold
    · exact .inl ⟨Option.some.inj hnew.regs, Option.some.inj hnew.sregs⟩
    · have hregs := hold.regs
      have hsregs := hold.sregs
      rw [hv, List.map_cons, List.map_cons, List.cons.injEq] at hregs hsregs
      exact .inr ⟨hregs.1, hsregs.1, hold.memory⟩
  · intro hstate
    refine ⟨_, hrestore, ?_⟩
    rcases hstate with ⟨hregs, hsregs⟩ | ⟨hregs, hsregs, hmemory⟩
    · refine .inl ⟨congrArg some hregs, congrArg some hsregs, ?_⟩
      rw [hsaved, List.map_append]
      exact List.prefix_append _ _
    · refine .inr ⟨?_, ?_, hmemory⟩
      · rw [hv, List.map_cons, List.map_cons, hregs]
      · rw [hv, List.map_cons, List.map_cons, hsregs]

end Earlier

/-- Where both ioctls succeed, the VM is that of the snapshot. -/
theorem restore_all_or_nothing_pageVm :
    ∃ snap vm, pageVm.takeSnapShot = .ok snap ∧
      fourOps.foldlM VmOp.exec pageVm = .ok vm ∧ vm.AllOrNothing snap := by
  obtain ⟨vm, hrun, hvcpus⟩ := run_fourOps
  refine ⟨_, vm, rfl, hrun, ?_⟩
  exact (restore_all_or_nothing_iff rfl (grown_run hrun).regions hvcpus).2
    (.inl ⟨.inl rfl, .inl rfl⟩)

/-- The guest has filled its memory with sevens and stops at `0x1004`. Now the special registers
cannot be set. -/
def haltedExit : KvmExit where
  regs := { rip := 0x1004 }
  sregs := { cr3 := 0x3000 }
  faults := fun c i => if c = .restoreSnapshot ∧ i = .setSregs then some EINVAL else none
  ram := fun _ _ => 7

/-- If only the special registers cannot be set, the registers and the memory are those of the
snapshot and the special registers those before the call. -/
theorem restore_mixture :
    ∃ snap vm vm', pageVm.takeSnapShot = .ok snap ∧
      VmOp.exec pageVm (.guestStep haltedExit) = .ok vm ∧ vm.restoreSnapshot snap = .ok vm' ∧
      vm'.vcpus.map (fun v => (v.regs.rip, v.sregs.cr3)) = [(0x1000, 0x3000)] ∧
      vm'.memoryRegions = pageVm.memoryRegions ∧ ¬vm.AllOrNothing snap := by
  have hkeeps := (grown_runVCpu 0 haltedExit pageVm).regions
  have hrestore := @restoreSnapshot_earlier pageVm _ _ _ _ rfl hkeeps rfl
  refine ⟨_, _, _, rfl, rfl, hrestore, rfl, rfl, ?_⟩
  rintro ⟨vm', hvm', hnew | hold⟩
  · rw [hrestore, Except.ok.injEq] at hvm'
    subst hvm'
    exact absurd (congrArg (Option.map KvmSregs.cr3) hnew.sregs) (by decide)
  · rw [hrestore, Except.ok.injEq] at hvm'
    subst hvm'
    exact absurd (congrArg (List.map KvmRegs.rip) hold.regs) (by decide)

/-! ## Snapshots of other VMs -/

/-- The saved vector at the position of a region, if there is one that is not empty, has all bytes
of the region. A region without a mapping needs none. -/
def HasBytes (r : MemoryRegion) (saved : Option (List UInt8)) : Prop :=
  r.host.isSome → ∀ bs ∈ saved, bs ≠ [] → r.size.toNat ≤ bs.length

/-- `restoreSnapshot` returns without an access outside a vector or a mapping, and leaves the
regions without saved bytes alone. -/
def RestoresInBounds (snap : VmSnapShot) (vm : VirtualMachine) : Prop :=
  ∃ vm', vm.restoreSnapshot snap = .ok vm' ∧
    ∀ i : ℕ, snap.memoryRegions[i]?.getD [] = [] → vm'.memoryRegions[i]? = vm.memoryRegions[i]?

/-- A saved vector that is shorter than the region is read past its end. -/
theorem restoreRegion_of_lt {r : MemoryRegion} {bs data : List UInt8} (hr : r.host = some bs)
    (hd : data ≠ []) (hl : data.length < r.size.toNat) :
    restoreRegion r (some data) = .error .outOfBounds := by
  have hcpy : ∀ dst, memcpy dst data r.size.toNat = .error .outOfBounds := fun dst =>
    if_neg fun hle => absurd hle.2 (Nat.not_le.2 hl)
  unfold restoreRegion
  split
  · simp_all
  · simp_all
  · simp_all
  · rename_i bs' b rest hr' hcons
    cases hcons
    split
    · rename_i f hc
      rw [hcpy] at hc
      cases hc
      rfl
    · rename_i hc
      rw [hcpy] at hc
      cases hc

/-- A region is restored in bounds if and only if the saved vector has its bytes. -/
theorem restoreRegion_ok_iff {r : MemoryRegion} {saved : Option (List UInt8)} :
    (∃ r', restoreRegion r saved = .ok r') ↔ HasBytes r saved := by
  rcases hhost : r.host with _ | dst
  · exact iff_of_true ⟨r, restoreRegion_of_unmapped hhost saved⟩ (by simp [HasBytes, hhost])
  · rcases saved with _ | data
    · exact iff_of_true ⟨r, restoreRegion_of_unsaved rfl⟩ (by simp [HasBytes])
    · rcases eq_or_ne data [] with rfl | hne
      · exact iff_of_true ⟨r, restoreRegion_of_unsaved rfl⟩ (by simp [HasBytes])
      · have hhas : HasBytes r (some data) ↔ r.size.toNat ≤ data.length := by
          simp [HasBytes, hhost, hne]
        rw [hhas]
        rcases Nat.lt_or_ge data.length r.size.toNat with hlt | hle
        · rw [restoreRegion_of_lt hhost hne hlt]
          exact iff_of_false (by rintro ⟨r', ⟨⟩⟩) (Nat.not_le.2 hlt)
        · obtain ⟨r', hr', -⟩ := restoreRegion_of_le hhost hne hle
          exact iff_of_true ⟨r', hr'⟩ hle

/-- The loop of `restoreSnapshot` stays in bounds if and only if it does at each position. -/
theorem restoreRegions_ok_iff {rs : List MemoryRegion} {saved : List (List UInt8)} :
    (∃ rs', restoreRegions rs saved = .ok rs') ↔
      ∀ (i : ℕ) (r : MemoryRegion), rs[i]? = some r → HasBytes r saved[i]? := by
  induction rs generalizing saved with
  | nil => simp [restoreRegions]
  | cons r rs ih =>
    have htail := @ih saved.tail
    constructor
    · rintro ⟨rs', hrs'⟩
      unfold restoreRegions at hrs'
      split at hrs'
      · cases hrs'
      · rename_i r' hr'
        split at hrs'
        · cases hrs'
        · rename_i rest hrest
          intro i s hs
          rcases i with _ | i
          · cases hs
            rw [← List.head?_eq_getElem?]
            exact restoreRegion_ok_iff.1 ⟨r', hr'⟩
          · rw [← List.getElem?_tail]
            exact htail.1 ⟨rest, hrest⟩ i s hs
    · intro h
      have hhead := h 0 r rfl
      rw [← List.head?_eq_getElem?] at hhead
      obtain ⟨r', hr'⟩ := restoreRegion_ok_iff.2 hhead
      obtain ⟨rest, hrest⟩ := htail.2 fun i s hs => by
        rw [List.getElem?_tail]
        exact h (i + 1) s hs
      exact ⟨r' :: rest, by simp only [restoreRegions, hr', hrest]⟩

/-- A position without saved bytes is left alone. -/
theorem getElem?_restoreRegions {rs rs' : List MemoryRegion} {saved : List (List UInt8)}
    (h : restoreRegions rs saved = .ok rs') {i : ℕ} (hi : saved[i]?.getD [] = []) :
    rs'[i]? = rs[i]? := by
  induction rs generalizing saved rs' i with
  | nil =>
    cases h
    rfl
  | cons r rs ih =>
    unfold restoreRegions at h
    split at h
    · cases h
    · rename_i r' hr'
      split at h
      · cases h
      · rename_i rest hrest
        cases h
        rcases i with _ | i
        · rw [← List.head?_eq_getElem?] at hi
          rw [restoreRegion_of_unsaved hi] at hr'
          cases hr'
          rfl
        · rw [← List.getElem?_tail] at hi
          exact ih hrest hi

/-- A restore stays in bounds if and only if there is a vCPU and every saved vector that is not
empty is at least as long as the region at its position. -/
theorem restore_in_bounds_iff (vm : VirtualMachine) (snap : VmSnapShot) :
    vm.RestoresInBounds snap ↔
      vm.vcpus ≠ [] ∧ ∀ (i : ℕ) (r : MemoryRegion), vm.memoryRegions[i]? = some r →
        HasBytes r snap.memoryRegions[i]? := by
  rw [← restoreRegions_ok_iff]
  rcases hv : vm.vcpus with _ | ⟨v, vs⟩
  · simp [RestoresInBounds, restoreSnapshot, hv]
  · constructor
    · rintro ⟨vm', hvm', -⟩
      simp only [restoreSnapshot, hv] at hvm'
      split at hvm'
      · cases hvm'
      · rename_i rs' hrs'
        exact ⟨List.cons_ne_nil _ _, rs', hrs'⟩
    · rintro ⟨-, rs', hrs'⟩
      simp only [RestoresInBounds, restoreSnapshot, hv, hrs']
      exact ⟨_, rfl, fun i hi => getElem?_restoreRegions hrs' hi⟩

/-- A saved vector of one byte is read past its end for a page of memory, and the first vCPU of a VM
without vCPUs is accessed. -/
theorem restore_out_of_bounds :
    pageVm.restoreSnapshot { memoryRegions := [[5]] } = .error .outOfBounds ∧
      ({} : VirtualMachine).restoreSnapshot {} = .error .outOfBounds ∧
      ¬pageVm.RestoresInBounds { memoryRegions := [[5]] } ∧
      ¬({} : VirtualMachine).RestoresInBounds {} := by
  have hregion : restoreRegion onesPage (some [5]) = .error .outOfBounds :=
    restoreRegion_of_lt rfl (List.cons_ne_nil _ _) (by decide)
  have hshort : pageVm.restoreSnapshot { memoryRegions := [[5]] } = .error .outOfBounds := by
    simp only [restoreSnapshot, pageVm, restoreRegions, List.head?_cons, hregion]
  have hnone : ({} : VirtualMachine).restoreSnapshot {} = .error .outOfBounds := rfl
  refine ⟨hshort, hnone, ?_, ?_⟩
  · rintro ⟨vm', hvm', -⟩
    rw [hshort] at hvm'
    cases hvm'
  · rintro ⟨vm', hvm', -⟩
    rw [hnone] at hvm'
    cases hvm'

end VirtualMachine

end MinBp
