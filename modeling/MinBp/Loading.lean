import MinBp.GuestLoader
import MinBp.Layout

/-!
# What loading a guest can do to a VM

`load` and `loadBytes` start alike (`place`) : they add a region at address zero, check that the
image fits, copy it and add a vCPU. Then they set up the vCPU, and for a flat binary they first
store page tables at `0x2000`. Each step can fail, and none is undone when a later one does.

The range check adds two 64-bit words, so an image near the end of the address space slips through
it and is copied outside of the region (`stays_inside_iff`). The page tables take three pages, of
which only the first byte is checked (`tables_inside_iff`). `foldlM_tableStores` makes their stores
one by one, each with its own bound. An error after the region is there
leaves it behind, and KVM then refuses every later attempt (`failed_load_unchanged_iff`,
`load_of_occupied`). In real mode the entry point is cut to sixteen bits (`realMode_start_iff`).
-/

open Bytes Ranges

namespace MinBp

namespace MemoryRegion

/-- The system calls for a region of this size at address zero succeed. -/
def Mappable (os : MapOutcome) (size : UInt64) : Prop :=
  os.mmap = none ∧ size ≠ 0 ∧ os.setUserMemoryRegion = none

instance (os : MapOutcome) (size : UInt64) : Decidable (Mappable os size) :=
  inferInstanceAs (Decidable (_ ∧ _))

theorem exists_create {os : MapOutcome} {size : UInt64} (h : Mappable os size)
    (slot flags : UInt32) : ∃ r, create os slot 0 size flags = .ok r := by
  obtain ⟨hm, hz, hs⟩ := h
  have hlt := size.toNat_lt
  have hwrap : (0 : UInt64).toNat + size.toNat < 2 ^ 64 := by
    rw [UInt64.toNat_zero]
    omega
  simp only [create, hm, hz, hs, if_false]
  rw [dif_pos hwrap]
  exact ⟨_, rfl⟩

theorem exists_create_error {os : MapOutcome} {size : UInt64} (h : ¬Mappable os size)
    (slot flags : UInt32) : ∃ e, create os slot 0 size flags = .error e := by
  rcases hc : create os slot 0 size flags with e | r
  · exact ⟨e, rfl⟩
  · refine absurd ?_ h
    unfold create at hc
    rcases hm : os.mmap with _ | e
    · rcases hs : os.setUserMemoryRegion with _ | e
      · refine ⟨hm, fun hz => ?_, hs⟩
        simp [hm, hz] at hc
      · simp only [hm, hs] at hc
        split at hc <;> cases hc
    · simp [hm] at hc

end MemoryRegion

namespace GuestLoader

/-! ## Writes of the image -/

section Write

variable {mapOs : MapOutcome} {vcpuOs : VCpuOutcome} {params : GuestLoadParams}
  {vm : VirtualMachine}

/-- The region on which `place` calls `MemoryRegion::write`, if it gets that far. -/
def writeTarget (mapOs : MapOutcome) (params : GuestLoadParams) (vm : VirtualMachine) :
    Option MemoryRegion :=
  match vm.addMemoryRegion mapOs 0 params.memorySize 0 with
  | (.error _, _) => none
  | (.ok i, vm) =>
    (vm.memoryRegions[i]?).filter fun region =>
      params.loadAddress + UInt64.ofNat params.image.length ≤ region.size

/-- The image has been copied into the new region, and the rest of the region is zero. -/
def Copied (mapOs : MapOutcome) (vcpuOs : VCpuOutcome) (params : GuestLoadParams)
    (vm : VirtualMachine) : Prop :=
  ∃ i vm' r, place mapOs vcpuOs params.image params.loadAddress params.memorySize vm =
      .ok (.ok i, vm') ∧
    vm'.memoryRegions = vm.memoryRegions ++ [r] ∧
    Placed params.image params.loadAddress params.memorySize r

/-- Neither `load` nor `loadBytes`, given the same image, writes it outside of the region : each
returns an error or has copied the image. A successful `loadBytes` leaves the region with the image
and zeros. Every call of `MemoryRegion::write` meets its precondition. -/
structure StaysInside (mapOs : MapOutcome) (vcpuOs : VCpuOutcome) (params : GuestLoadParams)
    (vm : VirtualMachine) : Prop where
  loaded : (∃ e vm', load mapOs vcpuOs params vm = .ok (some e, vm')) ∨
    Copied mapOs vcpuOs params vm
  bytesLoaded : (∃ e vm', loadBytes mapOs vcpuOs params.image params.loadAddress
      params.memorySize vm = .ok (some e, vm')) ∨ Copied mapOs vcpuOs params vm
  zeros : ∀ vm', loadBytes mapOs vcpuOs params.image params.loadAddress params.memorySize vm =
      .ok (none, vm') → ∃ r, vm'.memoryRegions = vm.memoryRegions ++ [r] ∧
    Placed params.image params.loadAddress params.memorySize r
  write : ∀ r ∈ writeTarget mapOs params vm,
    params.loadAddress.toNat + params.image.length ≤ r.size.toNat

/-- A setup function changes registers only. -/
theorem memoryRegions_setup {f : VCpu → Option Errno × VCpu} {i : ℕ} {vm vm' : VirtualMachine}
    {e : Option Errno} (h : setup f i vm = .ok (e, vm')) :
    vm'.memoryRegions = vm.memoryRegions := by
  unfold setup at h
  split at h
  · cases h
  · cases h
    rfl

theorem writeTarget_of_create_error {e : Errno}
    (hc : MemoryRegion.create mapOs vm.nextSlot 0 params.memorySize 0 = .error e) :
    writeTarget mapOs params vm = none := by
  simp [writeTarget, VirtualMachine.addMemoryRegion, hc]

theorem writeTarget_of_create {r : MemoryRegion}
    (hc : MemoryRegion.create mapOs vm.nextSlot 0 params.memorySize 0 = .ok r) :
    writeTarget mapOs params vm =
      if params.loadAddress + UInt64.ofNat params.image.length ≤ params.memorySize then some r
      else none := by
  obtain ⟨-, hsize, -⟩ := MemoryRegion.create_eq hc
  simp [writeTarget, VirtualMachine.addMemoryRegion, hc, Option.filter, hsize]

/-- The range check of `place` lets an image through that does not fit. -/
def SlipsThrough (params : GuestLoadParams) : Prop :=
  Slips params.loadAddress (UInt64.ofNat params.image.length) params.memorySize

instance (params : GuestLoadParams) : Decidable (SlipsThrough params) :=
  inferInstanceAs (Decidable (Slips _ _ _))

/-- An image that passes the range check fits, or has slipped through. -/
theorem fits_of_le (hlen : params.image.length < 2 ^ 64) (hs : ¬SlipsThrough params)
    (ht : params.loadAddress + UInt64.ofNat params.image.length ≤ params.memorySize) :
    params.loadAddress.toNat + params.image.length ≤ params.memorySize.toNat := by
  have hfits := (add_le_iff_fits hs).1 ht
  rwa [Fits, UInt64.toNat_ofNat_of_lt' hlen] at hfits

/-- `place` ends in an error, or has copied the image, unless the image slips through. -/
theorem place_cases (vcpuOs : VCpuOutcome) (vm : VirtualMachine)
    (hlen : params.image.length < 2 ^ 64)
    (hs : MemoryRegion.Mappable mapOs params.memorySize → ¬SlipsThrough params) :
    (∃ e vm', place mapOs vcpuOs params.image params.loadAddress params.memorySize vm =
      .ok (.error e, vm')) ∨ Copied mapOs vcpuOs params vm := by
  by_cases hm : MemoryRegion.Mappable mapOs params.memorySize
  · obtain ⟨r, hc⟩ := MemoryRegion.exists_create hm vm.nextSlot 0
    by_cases ht : params.loadAddress + UInt64.ofNat params.image.length ≤ params.memorySize
    · obtain ⟨r', hpl, hplace⟩ :=
        place_of_fits vcpuOs hc (fits_of_le hlen (hs hm) ht)
      rw [VirtualMachine.addVCpu] at hplace
      rcases hv : VCpu.create vcpuOs 0 with e | v
      · exact .inl ⟨e, withRegion r' vm, by rw [hplace, hv]⟩
      · exact .inr ⟨_, _, r', by rw [hplace, hv], rfl, hpl⟩
    · exact .inl ⟨ENOMEM, withRegion r vm, by rw [place_of_create hc, if_neg ht]⟩
  · obtain ⟨e, hc⟩ := MemoryRegion.exists_create_error hm vm.nextSlot 0
    exact .inl ⟨e, vm, place_of_create_error hc⟩

/-- A successful `loadBytes` has gone through `place`. -/
theorem exists_place_of_loadBytes {code : List UInt8} {loadAddr memorySize : UInt64}
    {e : Option Errno} {vm' : VirtualMachine}
    (h : loadBytes mapOs vcpuOs code loadAddr memorySize vm = .ok (e, vm')) :
    (∃ e', e = some e' ∧
      place mapOs vcpuOs code loadAddr memorySize vm = .ok (.error e', vm')) ∨
    ∃ i vm₁, place mapOs vcpuOs code loadAddr memorySize vm = .ok (.ok i, vm₁) ∧
      setup (setupRealModeVCpu · loadAddr.toUInt16) i vm₁ = .ok (e, vm') := by
  unfold loadBytes at h
  rcases hplace : place mapOs vcpuOs code loadAddr memorySize vm with f | ⟨e' | i, vm₁⟩
  · simp [hplace] at h
  · simp only [hplace, Except.ok.injEq, Prod.mk.injEq] at h
    obtain ⟨rfl, rfl⟩ := h
    exact .inl ⟨e', rfl, rfl⟩
  · simp only [hplace] at h
    exact .inr ⟨i, vm₁, rfl, h⟩

/-- The copy of the image stays inside the region if and only if the region cannot be created or the
image does not slip through the range check : its end does not wrap, or wraps to an address beyond
the region. The stores of the page tables, which `load` makes after the copy, are another matter
(`tables_inside_iff`). -/
theorem stays_inside_iff (hlen : params.image.length < 2 ^ 64) :
    StaysInside mapOs vcpuOs params vm ↔
      (MemoryRegion.Mappable mapOs params.memorySize → ¬SlipsThrough params) := by
  constructor
  · intro h hm hs
    obtain ⟨r, hc⟩ := MemoryRegion.exists_create hm vm.nextSlot 0
    obtain ⟨-, hsize, -⟩ := MemoryRegion.create_eq hc
    have htarget : r ∈ writeTarget mapOs params vm := by
      rw [writeTarget_of_create hc, if_pos (add_le_iff.2 (.inr hs))]
      rfl
    have hfits := h.write r htarget
    refine hs.not_fits ?_
    rwa [Fits, UInt64.toNat_ofNat_of_lt' hlen, ← hsize]
  · intro hs
    have hcases := place_cases vcpuOs vm hlen hs
    refine ⟨?_, ?_, fun vm' h => ?_, fun r hr => ?_⟩
    · by_cases hnil : params.image = []
      · exact .inl ⟨ENONET, vm, by rw [load, if_pos hnil]⟩
      · obtain ⟨e, vm', hplace⟩ | hcopied := hcases
        · exact .inl ⟨e, vm', by rw [load, if_neg hnil, hplace]⟩
        · exact .inr hcopied
    · obtain ⟨e, vm', hplace⟩ | hcopied := hcases
      · exact .inl ⟨e, vm', by rw [loadBytes, hplace]⟩
      · exact .inr hcopied
    · obtain ⟨e, he, -⟩ | ⟨i, vm₁, hplace, hsetup⟩ := exists_place_of_loadBytes h
      · cases he
      · obtain ⟨r, v, hpl, -, rfl, rfl⟩ := exists_placed hplace
        exact ⟨r, memoryRegions_setup hsetup, hpl⟩
    · by_cases hm : MemoryRegion.Mappable mapOs params.memorySize
      · obtain ⟨r', hc⟩ := MemoryRegion.exists_create hm vm.nextSlot 0
        obtain ⟨-, hsize, -⟩ := MemoryRegion.create_eq hc
        rw [writeTarget_of_create hc] at hr
        split_ifs at hr with ht
        · obtain rfl : r' = r := by simpa using hr
          rw [hsize]
          exact fits_of_le hlen (hs hm) ht
        · cases hr
      · obtain ⟨e, hc⟩ := MemoryRegion.exists_create_error hm vm.nextSlot 0
        rw [writeTarget_of_create_error hc] at hr
        cases hr

/-- One byte at `0x1000` stays inside. -/
theorem stays_inside_oneByte :
    StaysInside {} {} { image := [0xF4], loadAddress := 0x1000 } {} :=
  (stays_inside_iff (by decide)).2 (by decide)

/-- Two bytes at the last address of the address space pass the range check and the assertion. They
are written before and at the start of the mapping. -/
theorem write_before_mapping :
    loadBytes {} {} [0xEB, 0xFE] 0xFFFFFFFFFFFFFFFF 0x1000 {} = .error .outOfBounds ∧
      load {} {} { image := [0xEB, 0xFE], loadAddress := 0xFFFFFFFFFFFFFFFF, memorySize := 0x1000 }
        {} = .error .outOfBounds ∧
      ¬StaysInside {} {}
        { image := [0xEB, 0xFE], loadAddress := 0xFFFFFFFFFFFFFFFF, memorySize := 0x1000 } {} := by
  obtain ⟨r, hc⟩ := @MemoryRegion.exists_create {} 0x1000 (by decide) 0 0
  have hplace : place {} {} [0xEB, 0xFE] 0xFFFFFFFFFFFFFFFF 0x1000 {} = .error .outOfBounds :=
    place_of_not_fits hc (by decide) (by decide)
  have hbytes : loadBytes {} {} [0xEB, 0xFE] 0xFFFFFFFFFFFFFFFF 0x1000 {} =
      .error .outOfBounds := by
    rw [loadBytes, hplace]
  refine ⟨hbytes, ?_, fun h => ?_⟩
  · simp [load, hplace]
  · obtain ⟨e, vm', he⟩ | ⟨i, vm', r, hcopied, -⟩ := h.bytesLoaded
    · rw [hbytes] at he
      cases he
    · rw [hplace] at hcopied
      cases hcopied

end Write

/-! ## Writes of the page tables -/

/-- The stores of `buildIdentityPageTables`, each an offset and the bytes : three pages, two links,
and the entries of the page directory. -/
def tableStores (baseAddr : UInt64) (off : ℕ) : List (ℕ × List UInt8) :=
  [(off, List.replicate 4096 0), (off + 8 * 512, List.replicate 4096 0),
    (off + 8 * 1024, List.replicate 4096 0),
    (off, encode 8 ((baseAddr + 0x1000) ||| 0x03).toNat),
    (off + 8 * 512, encode 8 ((baseAddr + 0x2000) ||| 0x03).toNat)] ++
    (List.range 512).map fun i =>
      (off + 8 * 1024 + 8 * i, encode 8 ((UInt64.ofNat i <<< 21) ||| 0x83).toNat)

/-- `fillTables` makes these stores, and no others. -/
theorem fillTables_eq_foldl (baseAddr : UInt64) (off : ℕ) (bs : List UInt8) :
    fillTables baseAddr off bs =
      (tableStores baseAddr off).foldl (fun bs w => overwrite bs w.1 w.2) bs := by
  rw [tableStores, List.foldl_append, List.foldl_map]
  rfl

/-- The stores are inside exactly if the three pages are. -/
theorem tableStores_inside_iff {baseAddr : UInt64} {off n : ℕ} :
    (∀ w ∈ tableStores baseAddr off, w.1 + w.2.length ≤ n) ↔ off + 0x3000 ≤ n := by
  constructor
  · intro h
    have hlast := h (off + 8 * 1024, List.replicate 4096 0)
      (List.mem_append_left _ (.tail _ (.tail _ (.head _))))
    rwa [List.length_replicate] at hlast
  · intro h w hw
    rcases List.mem_append.1 hw with hw | hw
    · simp only [List.mem_cons, List.not_mem_nil, or_false] at hw
      rcases hw with rfl | rfl | rfl | rfl | rfl <;>
        simp only [List.length_replicate, length_encode] <;> omega
    · obtain ⟨i, hi, rfl⟩ := List.mem_map.1 hw
      have := List.mem_range.1 hi
      simp only [length_encode]
      omega

/-- Stores that are checked one by one succeed together. None of them changes the length. -/
theorem foldlM_patch (stores : List (ℕ × List UInt8)) (bs : List UInt8) :
    stores.foldlM (fun bs w => patch bs w.1 w.2) bs =
      if ∀ w ∈ stores, w.1 + w.2.length ≤ bs.length then
        some (stores.foldl (fun bs w => overwrite bs w.1 w.2) bs)
      else none := by
  induction stores generalizing bs with
  | nil => simp
  | cons w stores ih =>
    rw [List.foldlM_cons, patch]
    by_cases hw : w.1 + w.2.length ≤ bs.length
    · have hlen : (overwrite bs w.1 w.2).length = bs.length := length_overwrite hw
      rw [if_pos hw]
      show stores.foldlM _ (overwrite bs w.1 w.2) = _
      rw [ih, hlen]
      exact if_congr (by simp [hw]) rfl rfl
    · rw [if_neg hw, if_neg fun h => hw (h w (by simp))]
      rfl

/-- The one check in `buildRegions` stands for the bounds of all stores. -/
theorem foldlM_tableStores (baseAddr : UInt64) (off : ℕ) (bs : List UInt8) :
    (tableStores baseAddr off).foldlM (fun bs w => patch bs w.1 w.2) bs =
      if off + 0x3000 ≤ bs.length then some (fillTables baseAddr off bs) else none := by
  rw [foldlM_patch, fillTables_eq_foldl]
  exact if_congr tableStores_inside_iff rfl rfl

/-- The tables are built inside the region that is chosen for them, or `buildIdentityPageTables`
returns an error and writes nothing. -/
def TablesInside (vm : VirtualMachine) (baseAddr : UInt64) : Prop :=
  (∃ r vm', vm.memoryRegions.find? (fun r => r.Covers baseAddr.toNat) = some r ∧
    buildIdentityPageTables vm baseAddr = .ok (none, vm') ∧
    ∀ w ∈ tableStores baseAddr (baseAddr.toNat - r.guestPhysAddr.toNat),
      w.1 + w.2.length ≤ r.size.toNat) ∨
  ∃ e, buildIdentityPageTables vm baseAddr = .ok (some e, vm)

theorem not_tablesInside {vm : VirtualMachine} {baseAddr : UInt64} {f : Fault}
    (hf : buildIdentityPageTables vm baseAddr = .error f) : ¬TablesInside vm baseAddr := by
  rintro (⟨r, vm', -, hok, -⟩ | ⟨e, he⟩)
  · rw [hf] at hok
    cases hok
  · rw [hf] at he
    cases he

/-- The VM on which `load` calls `buildIdentityPageTables`, if it gets that far. -/
def tablesCall (mapOs : MapOutcome) (vcpuOs : VCpuOutcome) (params : GuestLoadParams)
    (vm : VirtualMachine) : Option VirtualMachine :=
  if params.image = [] ∨ params.mode ≠ .flatBinary then none
  else
    match place mapOs vcpuOs params.image params.loadAddress params.memorySize vm with
    | .ok (.ok _, vm) => some vm
    | _ => none

section Tables

variable {mapOs : MapOutcome} {vcpuOs : VCpuOutcome} {params : GuestLoadParams}
  {vm vm₁ : VirtualMachine}

theorem place_of_tablesCall (h : tablesCall mapOs vcpuOs params vm = some vm₁) :
    params.image ≠ [] ∧ params.mode = .flatBinary ∧
      ∃ i, place mapOs vcpuOs params.image params.loadAddress params.memorySize vm =
        .ok (.ok i, vm₁) := by
  unfold tablesCall at h
  split_ifs at h with hc
  rw [not_or, not_not] at hc
  rcases hplace : place mapOs vcpuOs params.image params.loadAddress params.memorySize vm with
    f | ⟨e | i, vm'⟩
  · simp [hplace] at h
  · simp [hplace] at h
  · obtain rfl : vm' = vm₁ := by simpa [hplace] using h
    exact ⟨hc.1, hc.2, i, rfl⟩

/-- What goes wrong in `buildIdentityPageTables` goes wrong in `load`. -/
theorem load_of_tablesCall (h : tablesCall mapOs vcpuOs params vm = some vm₁) {f : Fault}
    (hf : buildIdentityPageTables vm₁ pgtableBase = .error f) :
    load mapOs vcpuOs params vm = .error f := by
  obtain ⟨hne, hmode, i, hplace⟩ := place_of_tablesCall h
  simp [load, hne, hplace, hmode, hf]

/-- When `load` of a flat binary into a VM without regions gets to its page tables, they stay inside
the region if and only if it has at most `0x2000` bytes, so that there is no place for them, or at
least `0x5000`. -/
theorem tables_inside_iff (hvm : vm.memoryRegions = [])
    (h : tablesCall mapOs vcpuOs params vm = some vm₁) :
    TablesInside vm₁ pgtableBase ↔
      params.memorySize.toNat ≤ 0x2000 ∨ 0x5000 ≤ params.memorySize.toNat := by
  obtain ⟨-, -, i, hplace⟩ := place_of_tablesCall h
  obtain ⟨r, v, hpl, -, -, rfl⟩ := exists_placed hplace
  have hr : ({ withRegion r vm with vcpus := vm.vcpus ++ [v] } : VirtualMachine).memoryRegions =
      [r] := by simp [withRegion, hvm]
  have hbuild := buildIdentityPageTables_singleton hr hpl.addr hpl.host
  rw [hpl.size] at hbuild
  split_ifs at hbuild with hsmall hmid
  · exact iff_of_true (.inr ⟨_, hbuild⟩) (.inl hsmall)
  · exact iff_of_false (not_tablesInside hbuild) (by omega)
  · obtain ⟨vm', hok⟩ := hbuild
    refine iff_of_true (.inl ⟨r, vm', ?_, hok, ?_⟩) (.inr (by omega))
    · have hcov : r.Covers pgtableBase.toNat := by
        rw [MemoryRegion.Covers, hpl.addr, hpl.size]
        change 0 ≤ 0x2000 ∧ 0x2000 < 0 + params.memorySize.toNat
        omega
      rw [hr]
      exact List.find?_cons_of_pos (by simpa using hcov)
    · rw [tableStores_inside_iff, hpl.addr, hpl.size]
      change 0x2000 - 0 + 0x3000 ≤ _
      omega

/-- `load` gets to the page tables if the system calls succeed and the image fits. -/
theorem exists_tablesCall (hne : params.image ≠ []) (hmode : params.mode = .flatBinary)
    (hz : params.memorySize ≠ 0)
    (hfit : params.loadAddress.toNat + params.image.length ≤ params.memorySize.toNat) :
    ∃ vm₁, tablesCall {} {} params {} = some vm₁ := by
  obtain ⟨vm₁, hplace, -⟩ := place_ok hz hfit
  exact ⟨vm₁, by simp [tablesCall, hne, hmode, hplace]⟩

end Tables

/-- In the default memory of four mebibytes the tables stay inside. -/
theorem tables_inside_default :
    ∃ vm₁, tablesCall {} {} { image := [0xF4] } {} = some vm₁ ∧
      TablesInside vm₁ pgtableBase := by
  obtain ⟨vm₁, h⟩ := @exists_tablesCall { image := [0xF4] } (by simp) rfl (by decide) (by decide)
  exact ⟨vm₁, h, (tables_inside_iff rfl h).2 (.inr (by decide))⟩

/-- In three pages of memory the tables reach two pages beyond the mapping. -/
theorem tables_outside :
    ∃ vm₁, tablesCall {} {} { image := [0xF4], memorySize := 0x3000 } {} = some vm₁ ∧
      buildIdentityPageTables vm₁ pgtableBase = .error .outOfBounds ∧
      load {} {} { image := [0xF4], memorySize := 0x3000 } {} = .error .outOfBounds ∧
      ¬TablesInside vm₁ pgtableBase := by
  obtain ⟨vm₁, h⟩ := @exists_tablesCall { image := [0xF4], memorySize := 0x3000 } (by simp) rfl
    (by decide) (by decide)
  obtain ⟨-, -, i, hplace⟩ := place_of_tablesCall h
  obtain ⟨-, r, v, hr, -, hpl⟩ := place_eq rfl rfl hplace
  have hbuild := buildIdentityPageTables_singleton hr hpl.addr hpl.host
  rw [hpl.size, if_neg (by decide), if_pos (by decide)] at hbuild
  exact ⟨vm₁, h, hbuild, load_of_tablesCall h hbuild, not_tablesInside hbuild⟩

/-! ## Loads that fail -/

/-- One more region, and among the regions one of this size at address zero. -/
structure Occupied (vm vm' : VirtualMachine) (memorySize : UInt64) : Prop where
  length : vm'.memoryRegions.length = vm.memoryRegions.length + 1
  region : ∃ r ∈ vm'.memoryRegions, r.guestPhysAddr = 0 ∧ r.size = memorySize

theorem Occupied.ne {vm vm' : VirtualMachine} {memorySize : UInt64}
    (h : Occupied vm vm' memorySize) : vm' ≠ vm := by
  rintro rfl
  have := h.length
  omega

theorem occupied_withRegion {vm : VirtualMachine} {r : MemoryRegion} {memorySize : UInt64}
    (haddr : r.guestPhysAddr = 0) (hsize : r.size = memorySize) :
    Occupied vm (withRegion r vm) memorySize :=
  ⟨by simp [withRegion], r, by simp [withRegion], haddr, hsize⟩

section Failures

variable {mapOs : MapOutcome} {vcpuOs : VCpuOutcome} {params : GuestLoadParams}
  {code : List UInt8} {loadAddr memorySize : UInt64} {vm vm' vm₁ : VirtualMachine}

/-- Once the region can be created, `place` leaves it behind, whether it succeeds or not. -/
theorem occupied_place (hm : MemoryRegion.Mappable mapOs memorySize) {res : Except Errno ℕ}
    (h : place mapOs vcpuOs code loadAddr memorySize vm = .ok (res, vm')) :
    Occupied vm vm' memorySize := by
  obtain ⟨r, hc⟩ := MemoryRegion.exists_create hm vm.nextSlot 0
  obtain ⟨haddr, hsize, -⟩ := MemoryRegion.create_eq hc
  rw [place_of_create hc] at h
  split_ifs at h
  · rcases hw : r.write loadAddr code with f | r'
    · simp [hw] at h
    · have hshape := MemoryRegion.sameShape_of_write hw
      have hocc : Occupied vm (withRegion r' vm) memorySize :=
        occupied_withRegion (hshape.guestPhysAddr.trans haddr) (hshape.size.trans hsize)
      simp only [hw, VirtualMachine.addVCpu] at h
      rcases hv : VCpu.create vcpuOs 0 with e | v
      · simp only [hv, Except.ok.injEq, Prod.mk.injEq] at h
        rwa [← h.2]
      · simp only [hv, Except.ok.injEq, Prod.mk.injEq] at h
        rw [← h.2]
        exact ⟨hocc.length, hocc.region⟩
  · cases h
    exact occupied_withRegion haddr hsize

/-- The page tables change bytes only. -/
theorem keeps_buildRegions {baseAddr : UInt64} {rs rs' : List MemoryRegion}
    (h : buildRegions baseAddr rs = .ok (some rs')) :
    rs'.length = rs.length ∧ ∀ r ∈ rs, ∃ r' ∈ rs', MemoryRegion.SameShape r r' := by
  induction rs generalizing rs' with
  | nil => cases h
  | cons r0 rs ih =>
    rw [buildRegions] at h
    split_ifs at h with ht
    · rcases hrs : buildRegions baseAddr rs with f | _ | rs₁
      · simp [hrs] at h
      · simp [hrs] at h
      · obtain rfl : r0 :: rs₁ = rs' := by simpa [hrs] using h
        obtain ⟨hlen, hkeep⟩ := ih hrs
        refine ⟨by simp [hlen], fun r hr => ?_⟩
        rcases List.mem_cons.1 hr with rfl | hr
        · exact ⟨r, List.mem_cons_self, .refl r⟩
        · obtain ⟨r', hr', hs⟩ := hkeep r hr
          exact ⟨r', List.mem_cons_of_mem _ hr', hs⟩
    · split at h
      · cases h
      · rename_i bs hbs
        dsimp only at h
        split_ifs at h
        cases h
        refine ⟨rfl, fun r hr => ?_⟩
        rcases List.mem_cons.1 hr with rfl | hr
        · exact ⟨_, List.mem_cons_self, rfl, rfl, rfl, by simp [MemoryRegion.setHost, hbs]⟩
        · exact ⟨r, List.mem_cons_of_mem _ hr, .refl r⟩

theorem Occupied.buildIdentityPageTables {baseAddr : UInt64} {e : Option Errno}
    (h : Occupied vm vm₁ memorySize)
    (hb : buildIdentityPageTables vm₁ baseAddr = .ok (e, vm')) : Occupied vm vm' memorySize := by
  unfold GuestLoader.buildIdentityPageTables at hb
  rcases hrs : buildRegions baseAddr vm₁.memoryRegions with f | _ | rs'
  · simp [hrs] at hb
  · simp only [hrs, Except.ok.injEq, Prod.mk.injEq] at hb
    rwa [← hb.2]
  · simp only [hrs, Except.ok.injEq, Prod.mk.injEq] at hb
    rw [← hb.2]
    obtain ⟨hlen, hkeep⟩ := keeps_buildRegions hrs
    obtain ⟨r, hr, haddr, hsize⟩ := h.region
    obtain ⟨r', hr', hs⟩ := hkeep r hr
    exact ⟨hlen.trans h.length, r', hr', hs.guestPhysAddr.trans haddr, hs.size.trans hsize⟩

theorem Occupied.setup {f : VCpu → Option Errno × VCpu} {i : ℕ} {e : Option Errno}
    (h : Occupied vm vm₁ memorySize) (hs : setup f i vm₁ = .ok (e, vm')) :
    Occupied vm vm' memorySize := by
  have hregions := memoryRegions_setup hs
  exact ⟨by rw [hregions, h.length], by rw [hregions]; exact h.region⟩

/-- Once the region can be created, `loadBytes` leaves it behind. -/
theorem occupied_loadBytes (hm : MemoryRegion.Mappable mapOs memorySize) {e : Option Errno}
    (h : loadBytes mapOs vcpuOs code loadAddr memorySize vm = .ok (e, vm')) :
    Occupied vm vm' memorySize := by
  obtain ⟨e', -, hplace⟩ | ⟨i, vm₁, hplace, hsetup⟩ := exists_place_of_loadBytes h
  · exact occupied_place hm hplace
  · exact (occupied_place hm hplace).setup hsetup

/-- Once the region can be created, `load` of an image leaves it behind. -/
theorem occupied_load (hne : params.image ≠ [])
    (hm : MemoryRegion.Mappable mapOs params.memorySize) {e : Option Errno}
    (h : load mapOs vcpuOs params vm = .ok (e, vm')) : Occupied vm vm' params.memorySize := by
  rcases loadEnd_of_load h with hnil | hplace | ⟨-, hplace, hsetup⟩ | ⟨-, hplace, hbuild⟩ |
    ⟨-, hplace, hbuild, hsetup⟩
  · exact absurd hnil hne
  · exact occupied_place hm hplace
  · exact (occupied_place hm hplace).setup hsetup
  · exact (occupied_place hm hplace).buildIdentityPageTables hbuild
  · exact ((occupied_place hm hplace).buildIdentityPageTables hbuild).setup hsetup

/-- A call that cannot create the region changes nothing. -/
theorem place_of_not_mappable (vcpuOs : VCpuOutcome) (code : List UInt8) (loadAddr : UInt64)
    (vm : VirtualMachine) (hm : ¬MemoryRegion.Mappable mapOs memorySize) :
    ∃ e, place mapOs vcpuOs code loadAddr memorySize vm = .ok (.error e, vm) := by
  obtain ⟨e, hc⟩ := MemoryRegion.exists_create_error hm vm.nextSlot 0
  exact ⟨e, place_of_create_error hc⟩

theorem loadBytes_of_not_mappable (vcpuOs : VCpuOutcome) (code : List UInt8) (loadAddr : UInt64)
    (vm : VirtualMachine) (hm : ¬MemoryRegion.Mappable mapOs memorySize) :
    ∃ e, loadBytes mapOs vcpuOs code loadAddr memorySize vm = .ok (some e, vm) := by
  obtain ⟨e, hplace⟩ := place_of_not_mappable vcpuOs code loadAddr vm hm
  exact ⟨e, by rw [loadBytes, hplace]⟩

theorem load_of_not_mappable (vcpuOs : VCpuOutcome) (vm : VirtualMachine)
    (h : params.image = [] ∨ ¬MemoryRegion.Mappable mapOs params.memorySize) :
    ∃ e, load mapOs vcpuOs params vm = .ok (some e, vm) := by
  by_cases hnil : params.image = []
  · exact ⟨ENONET, by rw [load, if_pos hnil]⟩
  · obtain ⟨e, hplace⟩ := place_of_not_mappable vcpuOs params.image params.loadAddress vm
      (h.resolve_left hnil)
    exact ⟨e, by rw [load, if_neg hnil, hplace]⟩

/-- A failed `load` leaves the VM as it was if and only if there is no image or the region could not
be created, and a failed `loadBytes` if and only if the region could not be created. -/
theorem failed_load_unchanged_iff (mapOs : MapOutcome) (vcpuOs : VCpuOutcome)
    (vm : VirtualMachine) :
    (∀ params e vm', load mapOs vcpuOs params vm = .ok (some e, vm') →
      (vm' = vm ↔ params.image = [] ∨ ¬MemoryRegion.Mappable mapOs params.memorySize)) ∧
    ∀ code loadAddr memorySize e vm',
      loadBytes mapOs vcpuOs code loadAddr memorySize vm = .ok (some e, vm') →
      (vm' = vm ↔ ¬MemoryRegion.Mappable mapOs memorySize) := by
  refine ⟨fun params e vm' h => ⟨fun heq => ?_, fun hc => ?_⟩,
    fun code loadAddr memorySize e vm' h => ⟨fun heq hm => ?_, fun hm => ?_⟩⟩
  · by_contra hc
    rw [not_or, not_not] at hc
    exact (occupied_load hc.1 hc.2 h).ne heq
  · obtain ⟨e', h'⟩ := load_of_not_mappable vcpuOs vm hc
    rw [h'] at h
    cases h
    rfl
  · exact (occupied_loadBytes hm h).ne heq
  · obtain ⟨e', h'⟩ := loadBytes_of_not_mappable vcpuOs code loadAddr vm hm
    rw [h'] at h
    cases h
    rfl

/-- KVM's rule for a region of this size at address zero : it refuses one that overlaps another. -/
def RefusesOverlap (os : MapOutcome) (vm : VirtualMachine) (memorySize : UInt64) : Prop :=
  (∃ r ∈ vm.memoryRegions, ∃ a, r.Covers a ∧ a < memorySize.toNat) →
    os.setUserMemoryRegion = some EEXIST

/-- After a load that has left its region behind, KVM's rule makes every later `load` fail. -/
theorem load_of_occupied (hocc : Occupied vm vm' memorySize) (hz : memorySize ≠ 0)
    (hkvm : RefusesOverlap mapOs vm' params.memorySize) :
    ∃ e, load mapOs vcpuOs params vm' = .ok (some e, vm') := by
  refine load_of_not_mappable vcpuOs vm' (.inr ?_)
  rintro ⟨-, hne, hset⟩
  obtain ⟨r, hr, haddr, hsize⟩ := hocc.region
  have hpos : ∀ {n : UInt64}, n ≠ 0 → 0 < n.toNat := fun hn =>
    Nat.pos_of_ne_zero fun h0 => hn (UInt64.toNat_inj.1 h0)
  have hoverlap : ∃ r ∈ vm'.memoryRegions, ∃ a, r.Covers a ∧ a < params.memorySize.toNat := by
    refine ⟨r, hr, 0, ?_, hpos hne⟩
    have := hpos hz
    rw [MemoryRegion.Covers, haddr, hsize, UInt64.toNat_zero]
    omega
  rw [hkvm hoverlap] at hset
  cases hset

end Failures

/-- A page of memory for an image that does not fit into it. -/
def tooSmall : GuestLoadParams where
  image := [0xF4]
  loadAddress := 0x1000
  memorySize := 0x1000

/-- A failed `mmap` changes nothing. -/
theorem failed_load_unchanged_mmap :
    ∃ vm', load { mmap := some ENOMEM } {} tooSmall {} = .ok (some ENOMEM, vm') ∧ vm' = {} := by
  refine ⟨_, rfl, ?_⟩
  exact ((failed_load_unchanged_iff { mmap := some ENOMEM } {} {}).1 tooSmall ENOMEM _ rfl).2
    (.inr (by decide))

/-- An image that does not fit leaves a region behind. With enough memory the call succeeds on a new
VM, but on this one KVM's rule makes it fail, whatever its parameters are. -/
theorem failed_load_leaves_region :
    ∃ vm', load {} {} tooSmall {} = .ok (some ENOMEM, vm') ∧ vm' ≠ {} ∧
      (∀ mapOs vcpuOs params, RefusesOverlap mapOs vm' params.memorySize →
        ∃ e, load mapOs vcpuOs params vm' = .ok (some e, vm')) ∧
      ∃ vm'', load {} {} { tooSmall with memorySize := 0x400000 } {} = .ok (none, vm'') := by
  obtain ⟨r, hc⟩ := @MemoryRegion.exists_create {} 0x1000 (by decide) 0 0
  have hplace : place {} {} [0xF4] 0x1000 0x1000 {} = .ok (.error ENOMEM, withRegion r {}) := by
    rw [place_of_create hc, if_neg (by decide)]
  have hload : load {} {} tooSmall {} = .ok (some ENOMEM, withRegion r {}) := by
    simp [load, tooSmall, hplace]
  have hocc : Occupied {} (withRegion r {}) tooSmall.memorySize :=
    occupied_load (by simp [tooSmall]) (by decide) hload
  exact ⟨_, hload, hocc.ne, fun _ _ _ hkvm => load_of_occupied hocc (by decide) hkvm,
    load_flatBinary_ok rfl (by simp [tooSmall]) (by decide) (by decide)⟩

/-! ## Guests in real mode -/

/-- A vCPU that `setupRealModeVCpu` has set up starts at the instruction pointer it was given, in a
code segment at zero. -/
theorem realModeRip_setupRealModeVCpu {v v' : VCpu} {ip : UInt16}
    (h : setupRealModeVCpu v ip = (none, v')) : v'.realModeRip = ip.toNat := by
  unfold setupRealModeVCpu VCpu.getSregs at h
  rcases hg : v.faults .guestLoader .getSregs with _ | e
  · rcases hs : v.faults .guestLoader .setSregs with _ | e
    · rcases hr : v.faults .guestLoader .setRegs with _ | e
      · simp only [hg, VCpu.setSregs, VCpu.setRegs, hs, hr, Prod.mk.injEq, true_and] at h
        rw [← h, VCpu.realModeRip]
        simp [setupSeg]
      · simp [hg, VCpu.setSregs, VCpu.setRegs, hs, hr] at h
    · simp [hg, VCpu.setSregs, hs] at h
  · simp [hg] at h

/-- The address of the first instruction of the vCPU that was added last. -/
def firstFetch (vm : VirtualMachine) : Option ℕ :=
  vm.vcpus.getLast?.map VCpu.realModeRip

/-- The guest starts at its code. -/
def StartsAtCode (vm : VirtualMachine) (loadAddr : UInt64) (code : List UInt8) : Prop :=
  firstFetch vm = some loadAddr.toNat ∧ guestByte vm.memoryRegions loadAddr.toNat = code.head?

section RealMode

variable {mapOs : MapOutcome} {vcpuOs : VCpuOutcome} {params : GuestLoadParams}
  {code : List UInt8} {loadAddr memorySize : UInt64} {vm vm' vm₁ : VirtualMachine}

/-- The vCPU that `place` has added, set up for real mode. -/
theorem firstFetch_setup {i : ℕ} {ip : UInt16}
    (hplace : place mapOs vcpuOs code loadAddr memorySize vm = .ok (.ok i, vm₁))
    (h : setup (setupRealModeVCpu · ip) i vm₁ = .ok (none, vm')) :
    firstFetch vm' = some ip.toNat := by
  obtain ⟨r, v, -, -, rfl, rfl⟩ := exists_placed hplace
  simp only [setup, List.getElem?_concat_length, Except.ok.injEq, Prod.mk.injEq] at h
  obtain ⟨hok, rfl⟩ := h
  have hset : setupRealModeVCpu v ip = (none, (setupRealModeVCpu v ip).2) := Prod.ext hok rfl
  simp [firstFetch, realModeRip_setupRealModeVCpu hset]

/-- The code is in the guest's memory after a successful `loadBytes`. -/
theorem guestByte_loadBytes (hne : code ≠ [])
    (h : loadBytes mapOs vcpuOs code loadAddr memorySize vm = .ok (none, vm'))
    (hsep : Separate vm'.memoryRegions) :
    guestByte vm'.memoryRegions loadAddr.toNat = code.head? := by
  obtain ⟨e, he, -⟩ | ⟨i, vm₁, hplace, hsetup⟩ := exists_place_of_loadBytes h
  · simp at he
  · obtain ⟨r, v, hpl, -, rfl, rfl⟩ := exists_placed hplace
    have hregions : vm'.memoryRegions = vm.memoryRegions ++ [r] := memoryRegions_setup hsetup
    have hlen := List.length_pos_of_ne_nil hne
    have hfits := hpl.fits
    have hcov : r.Covers loadAddr.toNat := by
      rw [MemoryRegion.Covers, hpl.addr, hpl.size, UInt64.toNat_zero]
      omega
    have hbyte := hpl.byteAt hlen
    rw [Nat.add_zero, guestByte, if_pos hcov] at hbyte
    rw [guestByte_of_mem hsep (by simp [hregions]) hcov, hbyte, List.head?_eq_getElem?]

/-- A successful `load` in real mode has gone through `place`. -/
theorem exists_place_of_load (hmode : params.mode = .realMode16)
    (h : load mapOs vcpuOs params vm = .ok (none, vm')) :
    ∃ i vm₁, place mapOs vcpuOs params.image params.loadAddress params.memorySize vm =
        .ok (.ok i, vm₁) ∧
      setup (setupRealModeVCpu · params.entryPoint.toUInt16) i vm₁ = .ok (none, vm') := by
  rcases loadEnd_of_load h with _ | _ | ⟨-, hplace, hsetup⟩ | _ | ⟨hflat, -, -, -⟩
  · exact ⟨_, _, hplace, hsetup⟩
  · simp [hmode] at hflat

end RealMode

/-- Cutting an address to sixteen bits keeps it exactly if it is in the first segment. -/
theorem toUInt16_toNat_eq_iff (a : UInt64) : a.toUInt16.toNat = a.toNat ↔ a.toNat < 0x10000 := by
  rw [UInt64.toNat_toUInt16]
  omega

/-- A guest loaded by `loadBytes` starts at its code if and only if the load address is below
`0x10000`, and a guest loaded by `load` in real mode starts at its entry point if and only if that
is below `0x10000`. -/
theorem realMode_start_iff (mapOs : MapOutcome) (vcpuOs : VCpuOutcome) (vm vm' : VirtualMachine) :
    (∀ code loadAddr memorySize, code ≠ [] →
      loadBytes mapOs vcpuOs code loadAddr memorySize vm = .ok (none, vm') →
      Separate vm'.memoryRegions →
      (StartsAtCode vm' loadAddr code ↔ loadAddr.toNat < 0x10000)) ∧
    ∀ params : GuestLoadParams, params.mode = .realMode16 →
      load mapOs vcpuOs params vm = .ok (none, vm') →
      (firstFetch vm' = some params.entryPoint.toNat ↔ params.entryPoint.toNat < 0x10000) := by
  refine ⟨fun code loadAddr memorySize hne h hsep => ?_, fun params hmode h => ?_⟩
  · have hcode := guestByte_loadBytes hne h hsep
    obtain ⟨e, he, -⟩ | ⟨i, vm₁, hplace, hsetup⟩ := exists_place_of_loadBytes h
    · simp at he
    · rw [StartsAtCode, firstFetch_setup hplace hsetup, Option.some.injEq,
        toUInt16_toNat_eq_iff, and_iff_left hcode]
  · obtain ⟨i, vm₁, hplace, hsetup⟩ := exists_place_of_load hmode h
    rw [firstFetch_setup hplace hsetup, Option.some.injEq, toUInt16_toNat_eq_iff]

/-- On a new VM `loadBytes` succeeds if the system calls do and the code fits. -/
theorem loadBytes_ok {code : List UInt8} {loadAddr memorySize : UInt64} (hz : memorySize ≠ 0)
    (hfit : loadAddr.toNat + code.length ≤ memorySize.toNat) :
    ∃ vm', loadBytes {} {} code loadAddr memorySize {} = .ok (none, vm') ∧
      Separate vm'.memoryRegions := by
  obtain ⟨vm₁, hplace, hv⟩ := place_ok hz hfit
  obtain ⟨-, r, -, hr, -, -⟩ := place_eq rfl rfl hplace
  refine ⟨{ vm₁ with vcpus := [(setupRealModeVCpu {} loadAddr.toUInt16).2] }, ?_, ?_⟩
  · simp [loadBytes, hplace, setup, hv, setupRealModeVCpu, VCpu.getSregs, VCpu.setSregs,
      VCpu.setRegs]
  · rw [hr]
    exact List.pairwise_singleton _ r

/-- On a new VM `load` in real mode succeeds if the system calls do and the image fits. -/
theorem load_realMode_ok {params : GuestLoadParams} (hmode : params.mode = .realMode16)
    (hne : params.image ≠ []) (hz : params.memorySize ≠ 0)
    (hfit : params.loadAddress.toNat + params.image.length ≤ params.memorySize.toNat) :
    ∃ vm', load {} {} params {} = .ok (none, vm') := by
  obtain ⟨vm₁, hplace, hv⟩ := place_ok hz hfit
  refine ⟨{ vm₁ with vcpus := [(setupRealModeVCpu {} params.entryPoint.toUInt16).2] }, ?_⟩
  simp [load, hne, hplace, hmode, setup, hv, setupRealModeVCpu, VCpu.getSregs, VCpu.setSregs,
    VCpu.setRegs]

/-- One byte loaded at `0x1000`, and a boot sector at `0x7C00`. -/
theorem realMode_start_low :
    (∃ vm', loadBytes {} {} [0xF4] 0x1000 0x400000 {} = .ok (none, vm') ∧
      StartsAtCode vm' 0x1000 [0xF4]) ∧
    ∃ vm', load {} {} { image := [0xF4], mode := .realMode16, loadAddress := 0x7C00
                        entryPoint := 0x7C00 } {} = .ok (none, vm') ∧
      firstFetch vm' = some 0x7C00 := by
  obtain ⟨vm', h, hsep⟩ := @loadBytes_ok [0xF4] 0x1000 0x400000 (by decide) (by decide)
  obtain ⟨vm'', h'⟩ := @load_realMode_ok { image := [0xF4], mode := .realMode16
                                           loadAddress := 0x7C00, entryPoint := 0x7C00 }
    rfl (by simp) (by decide) (by decide)
  exact ⟨⟨vm', h, ((realMode_start_iff {} {} {} vm').1 [0xF4] 0x1000 0x400000 (by simp) h hsep).2
      (by decide)⟩,
    vm'', h', ((realMode_start_iff {} {} {} vm'').2 _ rfl h').2 (by decide)⟩

/-- Code at `0x10000`, or with its entry point there, starts at zero. -/
theorem realMode_start_zero :
    (∃ vm', loadBytes {} {} [0xF4] 0x10000 0x400000 {} = .ok (none, vm') ∧
      firstFetch vm' = some 0 ∧ ¬StartsAtCode vm' 0x10000 [0xF4]) ∧
    ∃ vm', load {} {} { image := [0xF4], mode := .realMode16, loadAddress := 0x10000
                        entryPoint := 0x10000 } {} = .ok (none, vm') ∧
      firstFetch vm' = some 0 := by
  obtain ⟨vm', h, -⟩ := @loadBytes_ok [0xF4] 0x10000 0x400000 (by decide) (by decide)
  obtain ⟨vm'', h'⟩ := @load_realMode_ok { image := [0xF4], mode := .realMode16
                                           loadAddress := 0x10000, entryPoint := 0x10000 }
    rfl (by simp) (by decide) (by decide)
  obtain ⟨e, he, -⟩ | ⟨i, vm₁, hplace, hsetup⟩ := exists_place_of_loadBytes h
  · simp at he
  · obtain ⟨i', vm₂, hplace', hsetup'⟩ := exists_place_of_load rfl h'
    have hzero : firstFetch vm' = some 0 := firstFetch_setup hplace hsetup
    refine ⟨⟨vm', h, hzero, fun hs => ?_⟩, vm'', h', firstFetch_setup hplace' hsetup'⟩
    have hfetch := hs.1
    rw [hzero] at hfetch
    exact absurd hfetch (by decide)

end GuestLoader

end MinBp
