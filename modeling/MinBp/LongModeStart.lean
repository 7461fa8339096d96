import MinBp.Startup

/-!
# The start of a long-mode guest

`load` in the mode `flatBinary` starts a guest in 64-bit mode. `Loads64` is when it succeeds on a
new VM, and `startByte` is the address space that the guest then finds, as a function of the
parameters alone : page tables over the image over zeros, up to the size of memory, and nothing from
the end of the first gibibyte on.

`flatBinary_start` says that this is all, and what follows from what the loader does not check. The
first byte the guest fetches, at a canonical entry point, is that of the image only if there is one,
below the end of the first gibibyte and not hidden by the tables. The stack that `setup64BitVCpu`
gives it is in memory only if that has two mebibytes.
-/

open Bytes Paging Ranges

namespace MinBp

namespace GuestLoader

variable {mapOs : MapOutcome} {vcpuOs : VCpuOutcome} {params : GuestLoadParams}
  {vm : VirtualMachine}

/-- The calls of `load` succeed on a new VM, and both the image and the tables fit. -/
structure Loads64 (mapOs : MapOutcome) (vcpuOs : VCpuOutcome) (params : GuestLoadParams) :
    Prop where
  image : params.image ≠ []
  mappable : MemoryRegion.Mappable mapOs params.memorySize
  fits : params.loadAddress.toNat + params.image.length ≤ params.memorySize.toNat
  tables : 0x5000 ≤ params.memorySize.toNat
  createVcpu : vcpuOs.createVcpu = none
  mmap : vcpuOs.mmap = none
  getSregs : vcpuOs.faults .guestLoader .getSregs = none
  setSregs : vcpuOs.faults .guestLoader .setSregs = none
  setRegs : vcpuOs.faults .guestLoader .setRegs = none

/-- The byte of the image at an address. -/
def imageByte (params : GuestLoadParams) (a : ℕ) : Option UInt8 :=
  if params.loadAddress.toNat ≤ a then params.image[a - params.loadAddress.toNat]? else none

/-- The byte that the guest finds at a virtual address when it starts. -/
def startByte (params : GuestLoadParams) (va : ℕ) : Option UInt8 :=
  if 2 ^ 30 ≤ va then none
  else if 0x2000 ≤ va ∧ va < 0x5000 then some (tableByte 0x2000 (va - 0x2000))
  else if params.memorySize.toNat ≤ va then none
  else some ((imageByte params va).getD 0)

/-- A vCPU in 64-bit mode at the entry point, which finds the bytes of `startByte`. -/
structure Starts64 (params : GuestLoadParams) (vm : VirtualMachine) (v : VCpu) : Prop where
  vcpus : vm.vcpus = [v]
  longMode : v.sregs.LongMode
  /-- `CS.L` is set, `CS.D` is not. -/
  code : v.sregs.cs.l = 1 ∧ v.sregs.cs.db = 0
  rip : v.regs.rip = params.entryPoint
  rsp : v.regs.rsp = 0x200000
  loadByte : ∀ va, Canonical va →
    v.loadByte (guestByte vm.memoryRegions) va = startByte params va

/-- The first byte the vCPU fetches is that of the image at the entry point. -/
def FetchesImage (params : GuestLoadParams) (vm : VirtualMachine) (v : VCpu) : Prop :=
  ∃ b, imageByte params params.entryPoint.toNat = some b ∧
    v.loadByte (guestByte vm.memoryRegions) v.regs.rip.toNat = some b

/-- The eight bytes below the stack pointer are in memory. -/
def HasStack (vm : VirtualMachine) (v : VCpu) : Prop :=
  ∀ i < 8, (v.loadByte (guestByte vm.memoryRegions) (v.regs.rsp.toNat - 8 + i)).isSome

/-- `setup64BitVCpu` succeeds exactly if its three ioctls do. -/
theorem setup64BitVCpu_none_iff (v : VCpu) (rip cr3 : UInt64) :
    (setup64BitVCpu v rip cr3).1 = none ↔
      v.faults .guestLoader .getSregs = none ∧ v.faults .guestLoader .setSregs = none ∧
        v.faults .guestLoader .setRegs = none := by
  unfold setup64BitVCpu VCpu.getSregs VCpu.setSregs VCpu.setRegs
  rcases hg : v.faults .guestLoader .getSregs with _ | e <;>
    rcases hs : v.faults .guestLoader .setSregs with _ | e <;>
      rcases hr : v.faults .guestLoader .setRegs with _ | e <;> simp [hr]

/-- The registers after a `setup64BitVCpu` that succeeds. -/
theorem regs_setup64BitVCpu {v v' : VCpu} {rip cr3 : UInt64}
    (h : setup64BitVCpu v rip cr3 = (none, v')) :
    v'.regs = { rip, rsp := 0x200000, rflags := 0x0002 } := by
  obtain ⟨hg, hs, hr⟩ := (setup64BitVCpu_none_iff v rip cr3).1 (by rw [h])
  simp only [setup64BitVCpu, VCpu.getSregs, VCpu.setSregs, VCpu.setRegs, hg, hs, hr,
    Prod.mk.injEq, true_and] at h
  rw [← h]

/-- The region before the tables are built : the image, and zeros around it. -/
theorem Placed.guestByte_eq {r : MemoryRegion}
    (h : Placed params.image params.loadAddress params.memorySize r) (a : ℕ) :
    guestByte [r] a =
      if params.memorySize.toNat ≤ a then none else some ((imageByte params a).getD 0) := by
  have hfits := h.fits
  have hcovers : r.Covers a ↔ ¬params.memorySize.toNat ≤ a := by
    rw [MemoryRegion.Covers, h.addr, h.size, UInt64.toNat_zero]
    omega
  unfold guestByte
  by_cases ha : params.memorySize.toNat ≤ a
  · rw [if_neg fun hc => hcovers.1 hc ha, if_pos ha]
    rfl
  · rw [if_pos (hcovers.2 ha), if_neg ha, MemoryRegion.byteAt, h.host, Option.bind_some, h.addr,
      UInt64.toNat_zero, Nat.sub_zero, getElem?_overwrite (by rwa [List.length_replicate])]
    unfold imageByte
    split_ifs with h₁ h₂
    · rw [List.getElem?_eq_getElem (by omega)]
      rfl
    · omega
    · rw [List.getElem?_replicate, if_pos (by omega), List.getElem?_eq_none (by omega)]
      rfl
    · rw [List.getElem?_replicate, if_pos (by omega)]
      rfl

/-- A flat binary that has been loaded into a new VM. -/
theorem exists_starts64 (hmode : params.mode = .flatBinary)
    (h : load mapOs vcpuOs params {} = .ok (none, vm)) : ∃ v, Starts64 params vm v := by
  rcases loadEnd_of_load h with _ | _ | ⟨hreal, -, -⟩ | _ | ⟨-, hplace, hbuild, hsetup⟩
  · simp [hmode] at hreal
  obtain ⟨rfl, r, v, hr, hv₁, hpl⟩ := place_eq rfl rfl hplace
  obtain ⟨hv₂, hbytes⟩ := guestByte_buildIdentityPageTables hr hpl.addr hpl.host hbuild
  simp only [setup, hv₂, hv₁, List.getElem?_cons_zero, List.set_cons_zero, Except.ok.injEq,
    Prod.mk.injEq] at hsetup
  obtain ⟨hok, rfl⟩ := hsetup
  rename_i vm₂
  have hset : setup64BitVCpu v params.entryPoint pgtableBase =
      (none, (setup64BitVCpu v params.entryPoint pgtableBase).2) := Prod.ext hok rfl
  have hsregs := sregs_setup64BitVCpu hset
  have hregs := regs_setup64BitVCpu hset
  have hgib : FirstGiB (guestByte vm₂.memoryRegions) pgtableBase.toNat := by
    refine firstGiB_of_bytes (by decide) (by decide) fun o ho => ?_
    change guestByte vm₂.memoryRegions (0x2000 + o) = some (tableByte 0x2000 o)
    rw [hbytes, if_pos (by omega), Nat.add_sub_cancel_left]
  refine ⟨_, rfl, ?_, ?_, by rw [hregs], by rw [hregs], fun va hva => ?_⟩
  · rw [hsregs]
    refine ⟨?_, ?_, ?_, ?_⟩ <;> simp only [sregs64] <;> decide
  · rw [hsregs]
    exact ⟨rfl, rfl⟩
  · rw [VCpu.loadByte, translate_setup64BitVCpu hset, startByte]
    by_cases hlow : 2 ^ 30 ≤ va
    · rw [hgib.walk_of_canonical hva hlow, if_pos hlow]
    · rw [hgib.walk_of_lt (not_le.1 hlow), if_neg hlow]
      show guestByte vm₂.memoryRegions va = _
      rw [hbytes, hpl.guestByte_eq]

/-- When the calls succeed and everything fits, so does `load`. -/
theorem Loads64.exists_load (hmode : params.mode = .flatBinary)
    (h : Loads64 mapOs vcpuOs params) : ∃ vm, load mapOs vcpuOs params {} = .ok (none, vm) := by
  obtain ⟨r, hc⟩ := MemoryRegion.exists_create h.mappable ({} : VirtualMachine).nextSlot 0
  obtain ⟨r', hpl, hplace⟩ := place_of_fits vcpuOs hc h.fits
  obtain ⟨v, hv, hfaults⟩ : ∃ v, VCpu.create vcpuOs 0 = .ok v ∧ v.faults = vcpuOs.faults :=
    ⟨_, Main.create_eq_ok_iff.2 ⟨h.createVcpu, h.mmap, rfl⟩, rfl⟩
  obtain ⟨rs', hrs', -⟩ :=
    buildRegions_singleton hpl.addr (by rw [hpl.host]; rfl) (by rw [hpl.size]; exact h.tables)
  have hset : (setup64BitVCpu v params.entryPoint pgtableBase).1 = none := by
    rw [setup64BitVCpu_none_iff, hfaults]
    exact ⟨h.getSregs, h.setSregs, h.setRegs⟩
  simp [load, h.image, hplace, VirtualMachine.addVCpu, hv, hmode, buildIdentityPageTables,
    withRegion, hrs', setup, hset]

/-- A `load` that succeeds has met no error. -/
theorem loads64_of_load (hmode : params.mode = .flatBinary)
    (h : load mapOs vcpuOs params {} = .ok (none, vm)) : Loads64 mapOs vcpuOs params := by
  have himage : params.image ≠ [] := by
    intro hnil
    rw [load, if_pos hnil] at h
    cases h
  rcases loadEnd_of_load h with _ | _ | ⟨hreal, -, -⟩ | _ | ⟨-, hplace, hbuild, hsetup⟩
  · simp [hmode] at hreal
  have hmappable : MemoryRegion.Mappable mapOs params.memorySize := by
    by_contra hm
    obtain ⟨e, herror⟩ := place_of_not_mappable vcpuOs params.image params.loadAddress {} hm
    rw [herror] at hplace
    cases hplace
  obtain ⟨r, v, hpl, hv, rfl, rfl⟩ := exists_placed hplace
  have hregions : ({ withRegion r {} with vcpus := ({} : VirtualMachine).vcpus ++ [v] } :
      VirtualMachine).memoryRegions = [r] := rfl
  have htables : 0x5000 ≤ params.memorySize.toNat := by
    have hcases := buildIdentityPageTables_singleton hregions hpl.addr hpl.host
    rw [hbuild, hpl.size] at hcases
    split_ifs at hcases with h₁ h₂
    · cases hcases
    · exact not_lt.1 h₂
  obtain ⟨hv₂, -⟩ := guestByte_buildIdentityPageTables hregions hpl.addr hpl.host hbuild
  obtain ⟨hcreate, hmmap, rfl⟩ := Main.create_eq_ok_iff.1 hv
  rw [setup, hv₂] at hsetup
  have hset := (setup64BitVCpu_none_iff _ _ _).1 (congrArg Prod.fst (Except.ok.inj hsetup))
  exact ⟨himage, hmappable, hpl.fits, htables, hcreate, hmmap, hset.1, hset.2.1, hset.2.2⟩

theorem lt_of_imageByte {a : ℕ} {b : UInt8} (h : imageByte params a = some b) :
    a < params.loadAddress.toNat + params.image.length := by
  unfold imageByte at h
  split_ifs at h with ha
  have hlt := (List.getElem?_eq_some_iff.1 h).1
  omega

namespace Starts64

variable {v : VCpu}

theorem fetchesImage_iff (h : Starts64 params vm v) (hentry : Canonical params.entryPoint.toNat)
    (hfits : params.loadAddress.toNat + params.image.length ≤ params.memorySize.toNat) :
    FetchesImage params vm v ↔
      (imageByte params params.entryPoint.toNat).isSome ∧ params.entryPoint.toNat < 2 ^ 30 ∧
        (0x2000 ≤ params.entryPoint.toNat → params.entryPoint.toNat < 0x5000 →
          imageByte params params.entryPoint.toNat =
            some (tableByte 0x2000 (params.entryPoint.toNat - 0x2000))) := by
  unfold FetchesImage
  rw [h.rip, h.loadByte _ hentry, startByte]
  rcases hb : imageByte params params.entryPoint.toNat with _ | b
  · simp
  · have hlt := (lt_of_imageByte hb).trans_le hfits
    by_cases hlow : 2 ^ 30 ≤ params.entryPoint.toNat
    · rw [if_pos hlow]
      exact ⟨fun ⟨_, _, hfetch⟩ => absurd hfetch nofun, fun hr => absurd hr.2.1 (not_lt.2 hlow)⟩
    · rw [if_neg hlow]
      by_cases htab : 0x2000 ≤ params.entryPoint.toNat ∧ params.entryPoint.toNat < 0x5000
      · rw [if_pos htab]
        constructor
        · rintro ⟨c, hc, hfetch⟩
          exact ⟨rfl, not_le.1 hlow, fun _ _ => hc.trans hfetch.symm⟩
        · rintro ⟨-, -, hagree⟩
          exact ⟨b, rfl, (hagree htab.1 htab.2).symm⟩
      · rw [if_neg htab, if_neg (not_le.2 hlt)]
        exact ⟨fun _ => ⟨rfl, not_le.1 hlow, fun h₁ h₂ => absurd ⟨h₁, h₂⟩ htab⟩,
          fun _ => ⟨b, rfl, rfl⟩⟩

theorem hasStack_iff (h : Starts64 params vm v) :
    HasStack vm v ↔ 0x200000 ≤ params.memorySize.toNat := by
  have hbyte : ∀ i < 8, v.loadByte (guestByte vm.memoryRegions) (v.regs.rsp.toNat - 8 + i) =
      if params.memorySize.toNat ≤ 0x1FFFF8 + i then none
      else some ((imageByte params (0x1FFFF8 + i)).getD 0) := by
    intro i hi
    have hrsp : v.regs.rsp.toNat - 8 + i = 0x1FFFF8 + i := by
      rw [h.rsp]
      rfl
    rw [hrsp, h.loadByte _ (.inl (by omega)), startByte, if_neg (by omega), if_neg (by omega)]
  constructor
  · intro hstack
    by_contra hlt
    have hlast := hstack 7 (by decide)
    rw [hbyte 7 (by decide), if_pos (by omega)] at hlast
    cases hlast
  · intro hsize i hi
    rw [hbyte i hi, if_neg (by omega)]
    rfl

end Starts64

/-- The start of a long-mode guest, for every image, address, entry point, size of memory and
outcome of the system calls. At a canonical entry point the guest fetches the byte of the image if
and only if there is one, below the end of the first gibibyte, and it is not under the tables or
happens to be the byte that the tables have there. -/
theorem flatBinary_start (mapOs : MapOutcome) (vcpuOs : VCpuOutcome)
    (hmode : params.mode = .flatBinary) :
    ((∃ vm, load mapOs vcpuOs params {} = .ok (none, vm)) ↔ Loads64 mapOs vcpuOs params) ∧
    ∀ vm, load mapOs vcpuOs params {} = .ok (none, vm) → ∃ v, Starts64 params vm v ∧
      (Canonical params.entryPoint.toNat →
        (FetchesImage params vm v ↔
          (imageByte params params.entryPoint.toNat).isSome ∧ params.entryPoint.toNat < 2 ^ 30 ∧
            (0x2000 ≤ params.entryPoint.toNat → params.entryPoint.toNat < 0x5000 →
              imageByte params params.entryPoint.toNat =
                some (tableByte 0x2000 (params.entryPoint.toNat - 0x2000))))) ∧
      (HasStack vm v ↔ 0x200000 ≤ params.memorySize.toNat) := by
  refine ⟨⟨fun ⟨vm, h⟩ => loads64_of_load hmode h, fun h => h.exists_load hmode⟩,
    fun vm h => ?_⟩
  obtain ⟨v, hv⟩ := exists_starts64 hmode h
  exact ⟨v, hv, fun hentry => hv.fetchesImage_iff hentry (loads64_of_load hmode h).fits,
    hv.hasStack_iff⟩

/-- A `HLT` at `0x1000` is fetched, in the four mebibytes that are the default. -/
theorem flatBinary_start_hlt :
    ∃ vm v, load {} {} { image := [0xF4], loadAddress := 0x1000, entryPoint := 0x1000 } {} =
        .ok (none, vm) ∧ vm.vcpus = [v] ∧ HasStack vm v ∧
      FetchesImage { image := [0xF4], loadAddress := 0x1000, entryPoint := 0x1000 } vm v := by
  obtain ⟨hiff, hstart⟩ := @flatBinary_start
    { image := [0xF4], loadAddress := 0x1000, entryPoint := 0x1000 } {} {} rfl
  obtain ⟨vm, h⟩ := hiff.2 ⟨by decide, by decide, by decide, by decide, rfl, rfl, rfl, rfl, rfl⟩
  obtain ⟨v, hv, hfetch, hstack⟩ := hstart vm h
  exact ⟨vm, v, h, hv.vcpus, hstack.2 (by decide),
    (hfetch (.inl (by decide))).2 ⟨rfl, by decide, fun hle => absurd hle (by decide)⟩⟩

end GuestLoader

end MinBp
