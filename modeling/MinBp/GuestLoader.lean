import MinBp.VirtualMachine
import MinBp.Paging
import MinBp.Ranges

/-!
# The guest loader

`load` adds one region of guest memory at address zero, copies the image into it, adds a vCPU and
sets it up. In the mode `flatBinary` it also builds page tables at `0x2000` that map the first
gibibyte to itself (`buildIdentityPageTables`) and points the vCPU at them (`setup64BitVCpu`).

The file system is outside the repository : the bytes of the image are a parameter. The guest's view
of memory is the first region that contains an address. KVM refuses slots that overlap, so there is
at most one (`Separate`).

`identityPageTables` is what the processor makes of the tables. `flatBinary_visible_iff` is what the
guest then reads at the addresses of the image : the copy and the tables share the region, and
nothing keeps them apart.
-/

open Bytes Paging Ranges

namespace MinBp

/-! ## Guest-physical memory -/

namespace MemoryRegion

/-- An address is in the guest-physical range of the region. -/
def Covers (r : MemoryRegion) (a : ℕ) : Prop :=
  r.guestPhysAddr.toNat ≤ a ∧ a < r.guestPhysAddr.toNat + r.size.toNat

instance (r : MemoryRegion) (a : ℕ) : Decidable (r.Covers a) :=
  inferInstanceAs (Decidable (_ ∧ _))

@[simp] theorem covers_setHost (r : MemoryRegion) (bs : List UInt8) (h : bs.length = r.size.toNat)
    (a : ℕ) : (r.setHost bs h).Covers a ↔ r.Covers a :=
  Iff.rfl

/-- The byte of the region at an address in it. -/
def byteAt (r : MemoryRegion) (a : ℕ) : Option UInt8 :=
  r.host.bind fun bs => bs[a - r.guestPhysAddr.toNat]?

end MemoryRegion

/-- The byte at a guest-physical address, `none` where there is no memory. -/
def guestByte : List MemoryRegion → Memory
  | [], _ => none
  | r :: rs, a => if r.Covers a then r.byteAt a else guestByte rs a

/-- No address is in two regions. -/
def Separate (rs : List MemoryRegion) : Prop :=
  rs.Pairwise fun r r' => ∀ a, ¬(r.Covers a ∧ r'.Covers a)

/-- The byte at an address is that of the region the address is in. -/
theorem guestByte_of_mem {rs : List MemoryRegion} (hsep : Separate rs) {r : MemoryRegion}
    (hr : r ∈ rs) {a : ℕ} (ha : r.Covers a) : guestByte rs a = r.byteAt a := by
  induction rs with
  | nil => cases hr
  | cons r0 rs ih =>
    obtain ⟨hsep0, hsep⟩ := List.pairwise_cons.1 hsep
    rw [guestByte]
    rcases List.mem_cons.1 hr with rfl | hr
    · rw [if_pos ha]
    · rw [if_neg fun h0 => hsep0 r hr a ⟨h0, ha⟩, ih hsep hr]

/-! ## Registers -/

namespace GuestLoader

/-- `setupSeg` of `setupRealModeVCpu`. -/
def setupSeg (seg : KvmSegment) (selector : UInt16) : KvmSegment :=
  { seg with
    selector, base := selector.toUInt64 <<< 4, limit := 0xFFFF, type := 3, present := 1, dpl := 0
    db := 0, s := 1, l := 0, g := 0 }

/-- `GuestLoader::setupRealModeVCpu`. -/
def setupRealModeVCpu (vcpu : VCpu) (entryIp : UInt16) : Option Errno × VCpu :=
  match vcpu.getSregs .guestLoader with
  | .error e => (some e, vcpu)
  | .ok sregs =>
    let sregs := { sregs with
      cs := setupSeg sregs.cs 0, ds := setupSeg sregs.ds 0, es := setupSeg sregs.es 0
      fs := setupSeg sregs.fs 0, gs := setupSeg sregs.gs 0, ss := setupSeg sregs.ss 0
      cr0 := sregs.cr0 &&& ~~~1 }
    match vcpu.setSregs .guestLoader sregs with
    | (some e, vcpu) => (some e, vcpu)
    | (none, vcpu) =>
      vcpu.setRegs .guestLoader { rip := entryIp.toUInt64, rsp := 0xFFF0, rflags := 0x0002 }

/-- The code segment of `setup64BitVCpu`. -/
def csSeg : KvmSegment where
  selector := 0x08
  limit := 0xFFFFFFFF
  type := 11
  present := 1
  l := 1
  s := 1
  g := 1

/-- The data segments of `setup64BitVCpu`. -/
def dsSeg : KvmSegment where
  selector := 0x10
  limit := 0xFFFFFFFF
  type := 3
  present := 1
  db := 1
  s := 1
  g := 1

/-- The special registers `setup64BitVCpu` writes. -/
def sregs64 (sregs : KvmSregs) (cr3 : UInt64) : KvmSregs :=
  { sregs with
    cs := csSeg, ds := dsSeg, es := dsSeg, fs := dsSeg, gs := dsSeg, ss := dsSeg
    cr0 := 0x80050033, cr3, cr4 := 0x20, efer := 0x500 }

/-- `GuestLoader::setup64BitVCpu`. -/
def setup64BitVCpu (vcpu : VCpu) (rip cr3 : UInt64) : Option Errno × VCpu :=
  match vcpu.getSregs .guestLoader with
  | .error e => (some e, vcpu)
  | .ok sregs =>
    match vcpu.setSregs .guestLoader (sregs64 sregs cr3) with
    | (some e, vcpu) => (some e, vcpu)
    | (none, vcpu) => vcpu.setRegs .guestLoader { rip, rsp := 0x200000, rflags := 0x0002 }

/-! ## Page tables -/

/-- A store through a `uint64_t*`. -/
def store64 (bs : List UInt8) (off : ℕ) (v : UInt64) : List UInt8 :=
  overwrite bs off (encode 8 v.toNat)

/-- `memset` of one page to zero. -/
def clearPage (bs : List UInt8) (off : ℕ) : List UInt8 :=
  overwrite bs off (List.replicate 4096 0)

/-- The three `memset` calls of `buildIdentityPageTables`. -/
def clearTables (off : ℕ) (bs : List UInt8) : List UInt8 :=
  let pml4 := off
  let pdpt := off + 8 * 512
  let pd := off + 8 * 1024
  clearPage (clearPage (clearPage bs pml4) pdpt) pd

/-- The loop of `buildIdentityPageTables` over the first `n` entries of the page directory. -/
def fillPd (pd n : ℕ) (bs : List UInt8) : List UInt8 :=
  (List.range n).foldl
    (fun bs i => store64 bs (pd + 8 * i) ((UInt64.ofNat i <<< 21) ||| 0x83)) bs

/-- The stores of `buildIdentityPageTables`, `off` the offset of the tables in the mapping. -/
def fillTables (baseAddr : UInt64) (off : ℕ) (bs : List UInt8) : List UInt8 :=
  let pml4 := off
  let pdpt := off + 8 * 512
  let pd := off + 8 * 1024
  let bs := clearTables off bs
  let bs := store64 bs pml4 ((baseAddr + 0x1000) ||| 0x03)
  let bs := store64 bs pdpt ((baseAddr + 0x2000) ||| 0x03)
  fillPd pd 512 bs

theorem length_store64 {bs : List UInt8} {off : ℕ} (h : off + 8 ≤ bs.length) (v : UInt64) :
    (store64 bs off v).length = bs.length :=
  length_overwrite (by rwa [length_encode])

theorem length_clearPage {bs : List UInt8} {off : ℕ} (h : off + 4096 ≤ bs.length) :
    (clearPage bs off).length = bs.length :=
  length_overwrite (by rwa [List.length_replicate])

theorem length_clearTables {bs : List UInt8} {off : ℕ} (h : off + 0x3000 ≤ bs.length) :
    (clearTables off bs).length = bs.length := by
  have h1 : (clearPage bs off).length = bs.length := length_clearPage (by omega)
  have h2 : (clearPage (clearPage bs off) (off + 8 * 512)).length = bs.length :=
    (length_clearPage (by omega)).trans h1
  exact (length_clearPage (by omega)).trans h2

theorem length_fillPd {bs : List UInt8} {pd n : ℕ} (h : pd + 8 * n ≤ bs.length) :
    (fillPd pd n bs).length = bs.length := by
  induction n with
  | zero => rfl
  | succ n ih =>
    have ih := ih (by omega)
    rw [fillPd, List.range_succ, List.foldl_append] at *
    exact (length_store64 (by omega) _).trans ih

/-- The links to the second and third table keep the length. -/
theorem length_links {bs : List UInt8} {off : ℕ} (h : off + 0x3000 ≤ bs.length) (v w : UInt64) :
    (store64 bs off v).length = bs.length ∧
      (store64 (store64 bs off v) (off + 8 * 512) w).length = bs.length := by
  have hv : (store64 bs off v).length = bs.length := length_store64 (by omega) v
  exact ⟨hv, (length_store64 (by omega) w).trans hv⟩

theorem length_fillTables {bs : List UInt8} {off : ℕ} (h : off + 0x3000 ≤ bs.length)
    (baseAddr : UInt64) : (fillTables baseAddr off bs).length = bs.length := by
  have hc := length_clearTables h
  obtain ⟨-, hs⟩ := length_links (hc.symm ▸ h) ((baseAddr + 0x1000) ||| 0x03)
    ((baseAddr + 0x2000) ||| 0x03)
  exact (length_fillPd (by omega)).trans (hs.trans hc)

/-- The loop of `buildIdentityPageTables` : the first region that covers the tables gets them. -/
def buildRegions (baseAddr : UInt64) : List MemoryRegion → Except Fault (Option (List MemoryRegion))
  | [] => .ok none
  | r :: rs =>
    if baseAddr < r.guestPhysAddr ∨ baseAddr ≥ r.guestPhysAddr + r.size then
      match buildRegions baseAddr rs with
      | .error f => .error f
      | .ok none => .ok none
      | .ok (some rs') => .ok (some (r :: rs'))
    else
      match hr : r.host with
      | none => .error .nullPointer
      | some bs =>
        let off := (baseAddr - r.guestPhysAddr).toNat
        -- the stores reach every byte of the three pages
        if h : off + 0x3000 ≤ bs.length then
          .ok (some (r.setHost (fillTables baseAddr off bs)
            ((length_fillTables h _).trans (r.host_length bs (by simp [hr]))) :: rs))
        else .error .outOfBounds

/-- `GuestLoader::buildIdentityPageTables`. -/
def buildIdentityPageTables (vm : VirtualMachine) (baseAddr : UInt64) :
    Except Fault (Option Errno × VirtualMachine) :=
  match buildRegions baseAddr vm.memoryRegions with
  | .error f => .error f
  | .ok none => .ok (some ENONET, vm)
  | .ok (some memoryRegions) => .ok (none, { vm with memoryRegions })

/-! ## Loading -/

/-- `GuestLoadMode`. -/
inductive GuestLoadMode where
  | flatBinary | realMode16
  deriving DecidableEq, Repr

/-- `GuestLoadParams`, with the bytes of the file in place of its path. A file that cannot be opened
has none. -/
structure GuestLoadParams where
  image : List UInt8
  mode : GuestLoadMode := .flatBinary
  loadAddress : UInt64 := 0
  entryPoint : UInt64 := 0
  memorySize : UInt64 := 0x400000

/-- The part that `load` and `loadBytes` share : a region with the image in it, and a vCPU. It gives
the index of the vCPU. -/
def place (mapOs : MapOutcome) (vcpuOs : VCpuOutcome) (code : List UInt8)
    (loadAddr memorySize : UInt64) (vm : VirtualMachine) :
    Except Fault (Except Errno ℕ × VirtualMachine) :=
  match vm.addMemoryRegion mapOs 0 memorySize 0 with
  | (.error e, vm) => .ok (.error e, vm)
  | (.ok i, vm) =>
    match vm.memoryRegions[i]? with
    | none => .error .outOfBounds
    | some region =>
      -- the sum of two `size_t`
      if loadAddr + UInt64.ofNat code.length > region.size then .ok (.error ENOMEM, vm)
      else
        match region.write loadAddr code with
        | .error f => .error f
        | .ok region =>
          .ok ({ vm with memoryRegions := vm.memoryRegions.set i region }.addVCpu vcpuOs 0)

/-- A setup function applied to vCPU `i`. -/
def setup (f : VCpu → Option Errno × VCpu) (i : ℕ) (vm : VirtualMachine) :
    Except Fault (Option Errno × VirtualMachine) :=
  match vm.vcpus[i]? with
  | none => .error .outOfBounds
  | some vcpu => .ok ((f vcpu).1, { vm with vcpus := vm.vcpus.set i (f vcpu).2 })

/-- The address of the page tables. -/
def pgtableBase : UInt64 := 0x2000

/-- `GuestLoader::load`. -/
def load (mapOs : MapOutcome) (vcpuOs : VCpuOutcome) (params : GuestLoadParams)
    (vm : VirtualMachine) : Except Fault (Option Errno × VirtualMachine) :=
  if params.image = [] then .ok (some ENONET, vm)
  else
    match place mapOs vcpuOs params.image params.loadAddress params.memorySize vm with
    | .error f => .error f
    | .ok (.error e, vm) => .ok (some e, vm)
    | .ok (.ok i, vm) =>
      match params.mode with
      | .realMode16 => setup (setupRealModeVCpu · params.entryPoint.toUInt16) i vm
      | .flatBinary =>
        match buildIdentityPageTables vm pgtableBase with
        | .error f => .error f
        | .ok (some e, vm) => .ok (some e, vm)
        | .ok (none, vm) => setup (setup64BitVCpu · params.entryPoint pgtableBase) i vm

/-- `GuestLoader::loadBytes`. -/
def loadBytes (mapOs : MapOutcome) (vcpuOs : VCpuOutcome) (code : List UInt8)
    (loadAddr memorySize : UInt64) (vm : VirtualMachine) :
    Except Fault (Option Errno × VirtualMachine) :=
  match place mapOs vcpuOs code loadAddr memorySize vm with
  | .error f => .error f
  | .ok (.error e, vm) => .ok (some e, vm)
  | .ok (.ok i, vm) => setup (setupRealModeVCpu · loadAddr.toUInt16) i vm

/-! ## The bytes of the tables -/

/-- The byte at an offset into the three tables. -/
def tableByte (base o : ℕ) : UInt8 :=
  (encode 8 (tableEntry base (o / 8))).getD (o % 8) 0

theorem getElem?_encode_tableEntry (base o : ℕ) :
    (encode 8 (tableEntry base (o / 8)))[o % 8]? = some (tableByte base o) := by
  have h : o % 8 < (encode 8 (tableEntry base (o / 8))).length := by
    rw [length_encode]
    omega
  rw [tableByte, List.getD_eq_getElem?_getD, List.getElem?_eq_getElem h, Option.getD_some]

theorem getElem?_store64 {bs : List UInt8} {off : ℕ} (h : off + 8 ≤ bs.length) (v : UInt64)
    (i : ℕ) : (store64 bs off v)[i]? =
      if off ≤ i ∧ i < off + 8 then (encode 8 v.toNat)[i - off]? else bs[i]? := by
  rw [store64, getElem?_overwrite (by rwa [length_encode]), length_encode]

theorem getElem?_clearPage {bs : List UInt8} {off : ℕ} (h : off + 4096 ≤ bs.length) (i : ℕ) :
    (clearPage bs off)[i]? = if off ≤ i ∧ i < off + 4096 then some 0 else bs[i]? := by
  rw [clearPage, getElem?_overwrite (by rwa [List.length_replicate]), List.length_replicate]
  refine if_ctx_congr Iff.rfl (fun hi => ?_) fun _ => rfl
  rw [List.getElem?_replicate, if_pos (by omega)]

theorem getElem?_clearTables {bs : List UInt8} {off : ℕ} (h : off + 0x3000 ≤ bs.length) (i : ℕ) :
    (clearTables off bs)[i]? = if off ≤ i ∧ i < off + 0x3000 then some 0 else bs[i]? := by
  have h1 : (clearPage bs off).length = bs.length := length_clearPage (by omega)
  have h2 : (clearPage (clearPage bs off) (off + 8 * 512)).length = bs.length :=
    (length_clearPage (by omega)).trans h1
  rw [clearTables, getElem?_clearPage (by omega), getElem?_clearPage (by omega),
    getElem?_clearPage (by omega)]
  split_ifs <;> first | rfl | omega

/-- The entry that the loop stores in step `i`. -/
theorem toNat_pdEntry {i : ℕ} (hi : i < 512) :
    ((UInt64.ofNat i <<< 21) ||| 0x83).toNat = i * 2 ^ 21 + 0x83 := by
  have hor := Nat.two_pow_add_eq_or_of_lt (i := 21) (b := 0x83) (by decide) i
  rw [UInt64.toNat_or, UInt64.toNat_shiftLeft, UInt64.toNat_ofNat_of_lt' (by
    rw [UInt64.size]
    omega)]
  change i <<< 21 % 2 ^ 64 ||| 0x83 = _
  rw [Nat.shiftLeft_eq, Nat.mod_eq_of_lt (by omega), Nat.mul_comm, ← hor, Nat.mul_comm]

/-- The entry for a table at `t`. -/
theorem toNat_link {t : UInt64} (ht : t.toNat % 4096 = 0) : (t ||| 0x03).toNat = t.toNat + 3 := by
  have hor := Nat.two_pow_add_eq_or_of_lt (i := 12) (b := 3) (by decide) (t.toNat / 4096)
  have hdiv : 2 ^ 12 * (t.toNat / 4096) = t.toNat := Nat.mul_div_cancel' (Nat.dvd_of_mod_eq_zero ht)
  rw [hdiv] at hor
  rw [UInt64.toNat_or, hor]
  rfl

/-- The bytes after `n` steps of the loop. -/
theorem getElem?_fillPd {bs : List UInt8} {pd n : ℕ} (hn : n ≤ 512) (h : pd + 8 * n ≤ bs.length)
    (i : ℕ) : (fillPd pd n bs)[i]? =
      if pd ≤ i ∧ i < pd + 8 * n then (encode 8 ((i - pd) / 8 * 2 ^ 21 + 0x83))[(i - pd) % 8]?
      else bs[i]? := by
  induction n with
  | zero => rw [if_neg (by omega), fillPd, List.range_zero, List.foldl_nil]
  | succ n ih =>
    have hlen : (fillPd pd n bs).length = bs.length := length_fillPd (by omega)
    have hstep : fillPd pd (n + 1) bs =
        store64 (fillPd pd n bs) (pd + 8 * n) ((UInt64.ofNat n <<< 21) ||| 0x83) := by
      rw [fillPd, List.range_succ, List.foldl_append]
      rfl
    rw [hstep, getElem?_store64 (by omega), toNat_pdEntry (by omega), ih (by omega) (by omega)]
    rcases Nat.lt_or_ge i (pd + 8 * n) with hi | hi
    · rw [if_neg (by omega)]
      exact if_congr (by omega) rfl rfl
    · rw [if_neg (c := pd ≤ i ∧ i < pd + 8 * n) (by omega)]
      refine if_ctx_congr (by omega) (fun hi' => ?_) fun _ => rfl
      have hq : (i - pd) / 8 = n := by omega
      have hr : (i - pd) % 8 = i - (pd + 8 * n) := by omega
      rw [hq, hr]

/-- The bytes after all the stores : the three tables, and what was there before around them. -/
theorem getElem?_fillTables {bs : List UInt8} {off : ℕ} {baseAddr : UInt64}
    (hal : baseAddr.toNat % 4096 = 0) (hb : baseAddr.toNat < 2 ^ 51)
    (h : off + 0x3000 ≤ bs.length) (i : ℕ) : (fillTables baseAddr off bs)[i]? =
      if off ≤ i ∧ i < off + 0x3000 then some (tableByte baseAddr.toNat (i - off))
      else bs[i]? := by
  have h1 : (baseAddr + 0x1000).toNat = baseAddr.toNat + 0x1000 := by
    rw [UInt64.toNat_add]
    change (baseAddr.toNat + 0x1000) % 2 ^ 64 = _
    omega
  have h2 : (baseAddr + 0x2000).toNat = baseAddr.toNat + 0x2000 := by
    rw [UInt64.toNat_add]
    change (baseAddr.toNat + 0x2000) % 2 ^ 64 = _
    omega
  have hc := length_clearTables h
  obtain ⟨hs, hs'⟩ := length_links (hc.symm ▸ h) ((baseAddr + 0x1000) ||| 0x03)
    ((baseAddr + 0x2000) ||| 0x03)
  rw [fillTables, getElem?_fillPd le_rfl (by omega), getElem?_store64 (by omega),
    getElem?_store64 (by omega), getElem?_clearTables h, toNat_link (by omega),
    toNat_link (by omega), h1, h2]
  rcases em (off ≤ i ∧ i < off + 0x3000) with hin | hout
  · obtain ⟨o, rfl⟩ := Nat.exists_eq_add_of_le hin.1
    have hzero : ∀ k < 8, (encode 8 0)[k]? = some 0 := by decide
    rw [if_pos hin, if_pos hin, Nat.add_sub_cancel_left, ← getElem?_encode_tableEntry, tableEntry]
    -- which of the four kinds of entry the byte belongs to
    split_ifs <;> try omega
    · have hq : (off + o - (off + 8 * 1024)) / 8 = o / 8 - 1024 := by omega
      have hr : (off + o - (off + 8 * 1024)) % 8 = o % 8 := by omega
      rw [hq, hr]
    · have hr : off + o - (off + 8 * 512) = o % 8 := by omega
      rw [hr, Nat.add_assoc]
    · have hr : o = o % 8 := by omega
      rw [← hr, Nat.add_assoc]
    · exact (hzero _ (by omega)).symm
  · rw [if_neg (by omega), if_neg (by omega), if_neg (by omega), if_neg hout, if_neg hout]

/-! ## Guest memory with the tables -/

/-- The test of the loop is coverage. -/
theorem test_iff (r : MemoryRegion) (a : UInt64) :
    (a < r.guestPhysAddr ∨ a ≥ r.guestPhysAddr + r.size) ↔ ¬r.Covers a.toNat := by
  have hr := r.no_wrap
  rw [ge_iff_le, UInt64.lt_iff_toNat_lt, UInt64.le_iff_toNat_le, UInt64.toNat_add,
    Nat.mod_eq_of_lt hr, MemoryRegion.Covers]
  omega

/-- The region with the tables in it. -/
theorem byteAt_fillTables {r : MemoryRegion} {baseAddr : UInt64} {bs : List UInt8}
    (hal : baseAddr.toNat % 4096 = 0) (hb : baseAddr.toNat < 2 ^ 51) (hr : r.host = some bs)
    (hle : r.guestPhysAddr.toNat ≤ baseAddr.toNat)
    (h : (baseAddr - r.guestPhysAddr).toNat + 0x3000 ≤ bs.length)
    (hlen : (fillTables baseAddr (baseAddr - r.guestPhysAddr).toNat bs).length = r.size.toNat)
    {a : ℕ} (ha : r.guestPhysAddr.toNat ≤ a) : (r.setHost _ hlen).byteAt a =
      if baseAddr.toNat ≤ a ∧ a < baseAddr.toNat + 0x3000 then
        some (tableByte baseAddr.toNat (a - baseAddr.toNat))
      else r.byteAt a := by
  have hoff : (baseAddr - r.guestPhysAddr).toNat = baseAddr.toNat - r.guestPhysAddr.toNat :=
    UInt64.toNat_sub_of_le _ _ (UInt64.le_iff_toNat_le.2 hle)
  simp only [MemoryRegion.byteAt, MemoryRegion.setHost, Option.bind_some, hr]
  rw [getElem?_fillTables hal hb h, hoff]
  refine if_ctx_congr (by omega) (fun ha' => ?_) fun _ => rfl
  have ho : a - r.guestPhysAddr.toNat - (baseAddr.toNat - r.guestPhysAddr.toNat) =
      a - baseAddr.toNat := by omega
  rw [ho]

theorem buildRegions_of_covers {baseAddr : UInt64} {r : MemoryRegion} {bs : List UInt8}
    (hc : r.Covers baseAddr.toNat) (hr : r.host = some bs)
    (h : (baseAddr - r.guestPhysAddr).toNat + 0x3000 ≤ bs.length)
    (hlen : (fillTables baseAddr (baseAddr - r.guestPhysAddr).toNat bs).length = r.size.toNat)
    (rs : List MemoryRegion) :
    buildRegions baseAddr (r :: rs) = .ok (some (r.setHost _ hlen :: rs)) := by
  rw [buildRegions, if_neg fun ht => (test_iff r baseAddr).1 ht hc]
  split
  · rename_i hnone
    simp [hr] at hnone
  · rename_i bs' hbs'
    obtain rfl : bs = bs' := by simpa [hr] using hbs'
    rw [dif_pos h]

/-- The loop finds the first region that covers the tables. Afterwards the guest's memory holds the
tables, and is otherwise as before. -/
theorem buildRegions_eq {baseAddr : UInt64} (hal : baseAddr.toNat % 4096 = 0)
    (hb : baseAddr.toNat < 2 ^ 51) {rs : List MemoryRegion} (hsep : Separate rs)
    {r : MemoryRegion} (hr : rs.find? (fun r => r.Covers baseAddr.toNat) = some r)
    (hmap : r.host.isSome)
    (hin : baseAddr.toNat + 0x3000 ≤ r.guestPhysAddr.toNat + r.size.toNat) :
    ∃ rs', buildRegions baseAddr rs = .ok (some rs') ∧ ∀ a, guestByte rs' a =
      if baseAddr.toNat ≤ a ∧ a < baseAddr.toNat + 0x3000 then
        some (tableByte baseAddr.toNat (a - baseAddr.toNat))
      else guestByte rs a := by
  induction rs with
  | nil => cases hr
  | cons r0 rs ih =>
    obtain ⟨hsep0, hsep⟩ := List.pairwise_cons.1 hsep
    by_cases hc : r0.Covers baseAddr.toNat
    · obtain rfl : r0 = r := by simpa [hc] using hr
      obtain ⟨bs, hbs⟩ := Option.isSome_iff_exists.1 hmap
      have hlen := r0.host_length bs (by simp [hbs])
      have hoff : (baseAddr - r0.guestPhysAddr).toNat =
          baseAddr.toNat - r0.guestPhysAddr.toNat :=
        UInt64.toNat_sub_of_le _ _ (UInt64.le_iff_toNat_le.2 hc.1)
      have hfit : (baseAddr - r0.guestPhysAddr).toNat + 0x3000 ≤ bs.length := by
        have := hc.1
        omega
      refine ⟨_, buildRegions_of_covers hc hbs hfit ((length_fillTables hfit _).trans hlen) rs,
        fun a => ?_⟩
      simp only [guestByte, MemoryRegion.covers_setHost]
      by_cases hca : r0.Covers a
      · rw [if_pos hca, if_pos hca]
        exact byteAt_fillTables hal hb hbs hc.1 hfit _ hca.1
      · rw [if_neg hca, if_neg hca, if_neg]
        simp only [MemoryRegion.Covers] at hc hca
        omega
    · rw [List.find?_cons_of_neg (by simpa using hc)] at hr
      obtain ⟨rs', hrs', hbytes⟩ := ih hsep hr
      refine ⟨r0 :: rs', ?_, fun a => ?_⟩
      · rw [buildRegions, if_pos ((test_iff r0 baseAddr).2 hc), hrs']
      · have hmem := List.mem_of_find?_eq_some hr
        have hcov : r.Covers baseAddr.toNat := by simpa using List.find?_some hr
        rw [guestByte, guestByte]
        by_cases hca : r0.Covers a
        · have hna : ¬r.Covers a := fun h => hsep0 r hmem a ⟨hca, h⟩
          rw [if_pos hca, if_pos hca, if_neg]
          simp only [MemoryRegion.Covers] at hcov hna
          omega
        · rw [if_neg hca, if_neg hca, hbytes a]

/-- Memory that holds the bytes of the tables holds their entries. -/
theorem firstGiB_of_bytes {mem : Memory} {base : ℕ} (hal : base % 4096 = 0) (hb : base < 2 ^ 51)
    (h : ∀ o < 0x3000, mem (base + o) = some (tableByte base o)) : FirstGiB mem base := by
  refine ⟨hal, hb, fun j hj => readWord_encode ?_ fun i hi => ?_⟩
  · rw [tableEntry]
    split_ifs <;> omega
  · have hq : (8 * j + i) / 8 = j := by omega
    have hr : (8 * j + i) % 8 = i := by omega
    have hbyte := getElem?_encode_tableEntry base (8 * j + i)
    rw [hq, hr] at hbyte
    rw [hbyte, Nat.add_assoc]
    exact h _ (by omega)

end GuestLoader

/-! ## Address translation -/

/-- Four-level paging is on : `CR0.PG`, `CR4.PAE` and `EFER.LMA` are set, `CR4.LA57` is not. -/
def KvmSregs.LongMode (sr : KvmSregs) : Prop :=
  sr.cr0.toNat.testBit 31 = true ∧ sr.cr4.toNat.testBit 5 = true ∧
    sr.cr4.toNat.testBit 12 = false ∧ sr.efer.toNat.testBit 10 = true

instance (sr : KvmSregs) : Decidable sr.LongMode :=
  inferInstanceAs (Decidable (_ ∧ _))

/-- The translation of a virtual address on a vCPU in long mode. -/
def VCpu.translate (v : VCpu) (mem : Memory) (va : ℕ) : Option Translation :=
  if v.sregs.LongMode then some (walk mem v.sregs.cr3.toNat va) else none

/-- The byte a load from a virtual address gives. -/
def VCpu.loadByte (v : VCpu) (mem : Memory) (va : ℕ) : Option UInt8 :=
  match v.translate mem va with
  | some (.page physAddr _) => mem physAddr
  | _ => none

/-- The linear address of the next instruction in real mode. -/
def VCpu.realModeRip (v : VCpu) : ℕ :=
  v.sregs.cs.base.toNat + v.regs.rip.toNat

namespace GuestLoader

/-- Setting up a vCPU whose register ioctls succeed. -/
theorem setup64BitVCpu_ok {v : VCpu} (h : ∀ i, v.faults .guestLoader i = none)
    (rip cr3 : UInt64) : setup64BitVCpu v rip cr3 =
      (none, { v with
        sregs := sregs64 v.sregs cr3
        regs := { rip, rsp := 0x200000, rflags := 0x0002 } }) := by
  simp [setup64BitVCpu, VCpu.getSregs, VCpu.setSregs, VCpu.setRegs, h]

/-- What a successful `setup64BitVCpu` leaves in the special registers. -/
theorem sregs_setup64BitVCpu {v v' : VCpu} {rip cr3 : UInt64}
    (h : setup64BitVCpu v rip cr3 = (none, v')) : v'.sregs = sregs64 v.sregs cr3 := by
  unfold setup64BitVCpu VCpu.getSregs at h
  cases hg : v.faults .guestLoader .getSregs with
  | some e => simp [hg] at h
  | none =>
    cases hs : v.faults .guestLoader .setSregs with
    | some e => simp [hg, VCpu.setSregs, hs] at h
    | none =>
      cases hr : v.faults .guestLoader .setRegs with
      | some e => simp [hg, VCpu.setSregs, VCpu.setRegs, hs, hr] at h
      | none =>
        simp only [hg, VCpu.setSregs, VCpu.setRegs, hs, hr, Prod.mk.injEq, true_and] at h
        rw [← h]

/-- The vCPU translates through the tables that `setup64BitVCpu` was given. -/
theorem translate_setup64BitVCpu {v v' : VCpu} {rip cr3 : UInt64}
    (h : setup64BitVCpu v rip cr3 = (none, v')) (mem : Memory) (va : ℕ) :
    v'.translate mem va = some (walk mem cr3.toNat va) := by
  have hlong : (sregs64 v.sregs cr3).LongMode := by
    refine ⟨?_, ?_, ?_, ?_⟩ <;> simp only [sregs64] <;> decide
  rw [VCpu.translate, sregs_setup64BitVCpu h, if_pos hlong]
  rfl

/-- `buildIdentityPageTables` on tables that fit into the first region that covers `baseAddr`, in a
VM whose regions do not overlap. It succeeds. On a vCPU with these tables every address of the first
gibibyte is mapped to itself, present and writable, and every other canonical address is not
present. The guest's memory outside the tables is unchanged. -/
theorem identityPageTables {vm : VirtualMachine} {baseAddr : UInt64} {r : MemoryRegion}
    (hsep : Separate vm.memoryRegions) (hal : baseAddr.toNat % 4096 = 0)
    (hb : baseAddr.toNat < 2 ^ 51)
    (hr : vm.memoryRegions.find? (fun r => r.Covers baseAddr.toNat) = some r)
    (hmap : r.host.isSome)
    (hin : baseAddr.toNat + 0x3000 ≤ r.guestPhysAddr.toNat + r.size.toNat) :
    ∃ vm', buildIdentityPageTables vm baseAddr = .ok (none, vm') ∧
      (∀ v v' rip, setup64BitVCpu v rip baseAddr = (none, v') →
        (∀ va < 2 ^ 30,
          v'.translate (guestByte vm'.memoryRegions) va = some (.page va true)) ∧
        ∀ va, Canonical va → 2 ^ 30 ≤ va →
          v'.translate (guestByte vm'.memoryRegions) va = some .notPresent) ∧
      ∀ a, a < baseAddr.toNat ∨ baseAddr.toNat + 0x3000 ≤ a →
        guestByte vm'.memoryRegions a = guestByte vm.memoryRegions a := by
  obtain ⟨rs', hrs', hbytes⟩ := buildRegions_eq hal hb hsep hr hmap hin
  have hgib : FirstGiB (guestByte rs') baseAddr.toNat := by
    refine firstGiB_of_bytes hal hb fun o ho => ?_
    rw [hbytes, if_pos (by omega), Nat.add_sub_cancel_left]
  refine ⟨{ vm with memoryRegions := rs' }, by rw [buildIdentityPageTables, hrs'],
    fun v v' rip hv => ⟨fun va hva => ?_, fun va hc hva => ?_⟩, fun a ha => ?_⟩
  · rw [translate_setup64BitVCpu hv, hgib.walk_of_lt hva]
  · rw [translate_setup64BitVCpu hv, hgib.walk_of_canonical hc hva]
  · rw [hbytes, if_neg (by omega)]

/-- A VM with three pages of memory at `0x2000`. -/
def threePageVm : VirtualMachine where
  memoryRegions :=
    [{ slot := 0, guestPhysAddr := 0x2000, size := 0x3000
       host := some (List.replicate 0x3000 0)
       host_length := by
         rintro bs ⟨⟩
         exact List.length_replicate
       no_wrap := by decide }]

/-- The tables at `0x2000` map `0x1234` to itself. -/
theorem identityPageTables_threePageVm :
    ∃ vm', buildIdentityPageTables threePageVm 0x2000 = .ok (none, vm') ∧
      ∃ v', setup64BitVCpu {} 0x1000 0x2000 = (none, v') ∧
        v'.translate (guestByte vm'.memoryRegions) 0x1234 = some (.page 0x1234 true) := by
  obtain ⟨vm', hvm', hmapped, -⟩ := @identityPageTables threePageVm 0x2000 _
    (List.pairwise_singleton _ _) (by decide) (by decide) rfl rfl (by decide)
  have hv := setup64BitVCpu_ok (v := {}) (fun _ => rfl) 0x1000 0x2000
  exact ⟨vm', hvm', _, hv, (hmapped _ _ _ hv).1 0x1234 (by decide)⟩

/-! ## A loaded image -/

/-- What `place` leaves in a VM that had no region and no vCPU. -/
structure Placed (code : List UInt8) (loadAddr memorySize : UInt64) (r : MemoryRegion) : Prop where
  addr : r.guestPhysAddr = 0
  size : r.size = memorySize
  fits : loadAddr.toNat + code.length ≤ memorySize.toNat
  host : r.host = some (overwrite (List.replicate memorySize.toNat 0) loadAddr.toNat code)

/-- The VM with a new region. -/
def withRegion (r : MemoryRegion) (vm : VirtualMachine) : VirtualMachine :=
  { vm with memoryRegions := vm.memoryRegions ++ [r], nextSlot := vm.nextSlot + 1 }

section Place

variable {mapOs : MapOutcome} {vcpuOs : VCpuOutcome} {code : List UInt8}
  {loadAddr memorySize : UInt64} {vm : VirtualMachine}

theorem place_of_create_error {e : Errno}
    (hc : MemoryRegion.create mapOs vm.nextSlot 0 memorySize 0 = .error e) :
    place mapOs vcpuOs code loadAddr memorySize vm = .ok (.error e, vm) := by
  simp [place, VirtualMachine.addMemoryRegion, hc]

/-- `place` once the region is there : a range check, a write, and a vCPU. -/
theorem place_of_create {r : MemoryRegion}
    (hc : MemoryRegion.create mapOs vm.nextSlot 0 memorySize 0 = .ok r) :
    place mapOs vcpuOs code loadAddr memorySize vm =
      if loadAddr + UInt64.ofNat code.length ≤ memorySize then
        match r.write loadAddr code with
        | .error f => .error f
        | .ok r' => .ok ((withRegion r' vm).addVCpu vcpuOs 0)
      else .ok (.error ENOMEM, withRegion r vm) := by
  obtain ⟨-, hsize, -⟩ := MemoryRegion.create_eq hc
  by_cases ht : loadAddr + UInt64.ofNat code.length ≤ memorySize
  · rw [if_pos ht]
    simp only [place, VirtualMachine.addMemoryRegion, hc, List.getElem?_concat_length, hsize,
      gt_iff_lt, UInt64.not_lt.2 ht, if_false]
    rcases r.write loadAddr code with f | r'
    · rfl
    · simp [withRegion]
  · rw [if_neg ht]
    simp [place, VirtualMachine.addMemoryRegion, hc, hsize, UInt64.not_le.1 ht, withRegion]

/-- An image that fits into the new region is placed in it. -/
theorem place_of_fits (vcpuOs : VCpuOutcome) {r : MemoryRegion}
    (hc : MemoryRegion.create mapOs vm.nextSlot 0 memorySize 0 = .ok r)
    (hfit : loadAddr.toNat + code.length ≤ memorySize.toNat) :
    ∃ r', Placed code loadAddr memorySize r' ∧
      place mapOs vcpuOs code loadAddr memorySize vm =
        .ok ((withRegion r' vm).addVCpu vcpuOs 0) := by
  obtain ⟨haddr, hsize, hhost⟩ := MemoryRegion.create_eq hc
  have hlt := memorySize.toNat_lt
  have ht : loadAddr + UInt64.ofNat code.length ≤ memorySize := by
    refine add_le_iff.2 (.inl ?_)
    rwa [Fits, UInt64.toNat_ofNat_of_lt' (by rw [UInt64.size]; omega)]
  obtain ⟨r', hw⟩ : ∃ r', r.write loadAddr code = .ok r' :=
    MemoryRegion.write_ok hhost (by rwa [List.length_replicate])
  obtain ⟨bs, hbs, -, hhost', hshape⟩ := MemoryRegion.write_eq hw
  obtain rfl : List.replicate memorySize.toNat 0 = bs := by simpa [hhost] using hbs
  refine ⟨r', ⟨hshape.guestPhysAddr.trans haddr, hshape.size.trans hsize, hfit, hhost'⟩, ?_⟩
  rw [place_of_create hc, if_pos ht, hw]

/-- An image that passes the range check and does not fit is written outside the region. -/
theorem place_of_not_fits {r : MemoryRegion}
    (hc : MemoryRegion.create mapOs vm.nextSlot 0 memorySize 0 = .ok r)
    (ht : loadAddr + UInt64.ofNat code.length ≤ memorySize)
    (hfit : ¬loadAddr.toNat + code.length ≤ memorySize.toNat) :
    place mapOs vcpuOs code loadAddr memorySize vm = .error .outOfBounds := by
  obtain ⟨-, hsize, hhost⟩ := MemoryRegion.create_eq hc
  have hw : r.write loadAddr code = .error .outOfBounds := by
    rw [MemoryRegion.write, if_pos (by rwa [hsize])]
    split
    · rename_i hnone
      simp [hhost] at hnone
    · rename_i bs hbs
      obtain rfl : List.replicate memorySize.toNat 0 = bs := by simpa [hhost] using hbs
      rw [dif_neg (by rwa [List.length_replicate])]
  rw [place_of_create hc, if_pos ht, hw]

/-- A `place` that gets to its end has placed the image and added a vCPU. -/
theorem exists_placed {i : ℕ} {vm' : VirtualMachine}
    (h : place mapOs vcpuOs code loadAddr memorySize vm = .ok (.ok i, vm')) :
    ∃ r v, Placed code loadAddr memorySize r ∧ VCpu.create vcpuOs 0 = .ok v ∧
      i = vm.vcpus.length ∧ vm' = { withRegion r vm with vcpus := vm.vcpus ++ [v] } := by
  rcases hc : MemoryRegion.create mapOs vm.nextSlot 0 memorySize 0 with e | r
  · simp [place_of_create_error hc] at h
  · by_cases ht : loadAddr + UInt64.ofNat code.length ≤ memorySize
    · by_cases hfit : loadAddr.toNat + code.length ≤ memorySize.toNat
      · obtain ⟨r', hpl, hplace⟩ := place_of_fits vcpuOs hc hfit
        rw [hplace, VirtualMachine.addVCpu] at h
        rcases hv : VCpu.create vcpuOs 0 with e | v
        · simp [hv] at h
        · simp only [hv, Except.ok.injEq, Prod.mk.injEq] at h
          exact ⟨r', v, hpl, rfl, h.1.symm, h.2.symm⟩
      · rw [place_of_not_fits hc ht hfit] at h
        cases h
    · rw [place_of_create hc, if_neg ht] at h
      simp at h

/-- The ways in which a `load` comes to its end, with the error it returns and the VM it leaves. -/
inductive LoadEnd (mapOs : MapOutcome) (vcpuOs : VCpuOutcome) (params : GuestLoadParams)
    (vm : VirtualMachine) : Option Errno → VirtualMachine → Prop
  | noImage (hnil : params.image = []) : LoadEnd mapOs vcpuOs params vm (some ENONET) vm
  | notPlaced {e : Errno} {vm' : VirtualMachine}
      (hplace : place mapOs vcpuOs params.image params.loadAddress params.memorySize vm =
        .ok (.error e, vm')) : LoadEnd mapOs vcpuOs params vm (some e) vm'
  | realMode {i : ℕ} {vm₁ vm' : VirtualMachine} {e : Option Errno}
      (hmode : params.mode = .realMode16)
      (hplace : place mapOs vcpuOs params.image params.loadAddress params.memorySize vm =
        .ok (.ok i, vm₁))
      (hsetup : setup (setupRealModeVCpu · params.entryPoint.toUInt16) i vm₁ = .ok (e, vm')) :
      LoadEnd mapOs vcpuOs params vm e vm'
  | noTables {i : ℕ} {vm₁ vm' : VirtualMachine} {e : Errno} (hmode : params.mode = .flatBinary)
      (hplace : place mapOs vcpuOs params.image params.loadAddress params.memorySize vm =
        .ok (.ok i, vm₁))
      (hbuild : buildIdentityPageTables vm₁ pgtableBase = .ok (some e, vm')) :
      LoadEnd mapOs vcpuOs params vm (some e) vm'
  | flatBinary {i : ℕ} {vm₁ vm₂ vm' : VirtualMachine} {e : Option Errno}
      (hmode : params.mode = .flatBinary)
      (hplace : place mapOs vcpuOs params.image params.loadAddress params.memorySize vm =
        .ok (.ok i, vm₁))
      (hbuild : buildIdentityPageTables vm₁ pgtableBase = .ok (none, vm₂))
      (hsetup : setup (setup64BitVCpu · params.entryPoint pgtableBase) i vm₂ = .ok (e, vm')) :
      LoadEnd mapOs vcpuOs params vm e vm'

theorem loadEnd_of_load {params : GuestLoadParams} {e : Option Errno} {vm' : VirtualMachine}
    (h : load mapOs vcpuOs params vm = .ok (e, vm')) : LoadEnd mapOs vcpuOs params vm e vm' := by
  by_cases hnil : params.image = []
  · simp only [load, if_pos hnil, Except.ok.injEq, Prod.mk.injEq] at h
    obtain ⟨rfl, rfl⟩ := h
    exact .noImage hnil
  rw [load, if_neg hnil] at h
  rcases hplace : place mapOs vcpuOs params.image params.loadAddress params.memorySize vm with
    f | ⟨e' | i, vm₁⟩
  · simp [hplace] at h
  · simp only [hplace, Except.ok.injEq, Prod.mk.injEq] at h
    obtain ⟨rfl, rfl⟩ := h
    exact .notPlaced hplace
  · rcases hmode : params.mode with _ | _
    · simp only [hplace, hmode] at h
      rcases hbuild : buildIdentityPageTables vm₁ pgtableBase with f | ⟨_ | e', vm₂⟩
      · simp [hbuild] at h
      · simp only [hbuild] at h
        exact .flatBinary hmode hplace hbuild h
      · simp only [hbuild, Except.ok.injEq, Prod.mk.injEq] at h
        obtain ⟨rfl, rfl⟩ := h
        exact .noTables hmode hplace hbuild
    · simp only [hplace, hmode] at h
      exact .realMode hmode hplace h

end Place

/-- `place` on a VM without regions and vCPUs. -/
theorem place_eq {mapOs : MapOutcome} {vcpuOs : VCpuOutcome} {code : List UInt8}
    {loadAddr memorySize : UInt64} {vm vm' : VirtualMachine} {i : ℕ}
    (hvm : vm.memoryRegions = []) (hv : vm.vcpus = [])
    (h : place mapOs vcpuOs code loadAddr memorySize vm = .ok (.ok i, vm')) :
    i = 0 ∧ ∃ r v, vm'.memoryRegions = [r] ∧ vm'.vcpus = [v] ∧
      Placed code loadAddr memorySize r := by
  obtain ⟨r, v, hpl, -, rfl, rfl⟩ := exists_placed h
  exact ⟨by rw [hv]; rfl, r, v, by simp [withRegion, hvm], by simp [hv], hpl⟩

/-- The image in the new region, before the tables are built. -/
theorem Placed.byteAt {code : List UInt8} {loadAddr memorySize : UInt64} {r : MemoryRegion}
    (h : Placed code loadAddr memorySize r) {k : ℕ} (hk : k < code.length) :
    guestByte [r] (loadAddr.toNat + k) = code[k]? := by
  have hfits := h.fits
  have hc : r.Covers (loadAddr.toNat + k) := by
    rw [MemoryRegion.Covers, h.addr, h.size]
    change 0 ≤ _ ∧ _ < 0 + _
    omega
  rw [guestByte, if_pos hc, MemoryRegion.byteAt, h.host, Option.bind_some, h.addr,
    getElem?_overwrite (by rwa [List.length_replicate])]
  change (if _ ≤ loadAddr.toNat + k - 0 ∧ loadAddr.toNat + k - 0 < _ then _ else _) = _
  rw [if_pos (by omega)]
  congr 1
  change loadAddr.toNat + k - 0 - loadAddr.toNat = k
  omega

/-- A single mapped region at address zero gets the tables as soon as they fit. -/
theorem buildRegions_singleton {r : MemoryRegion} (haddr : r.guestPhysAddr = 0)
    (hmap : r.host.isSome) (hfits : 0x5000 ≤ r.size.toNat) :
    ∃ rs', buildRegions pgtableBase [r] = .ok (some rs') ∧ ∀ a, guestByte rs' a =
      if 0x2000 ≤ a ∧ a < 0x5000 then some (tableByte 0x2000 (a - 0x2000))
      else guestByte [r] a := by
  have hcov : r.Covers pgtableBase.toNat := by
    rw [MemoryRegion.Covers, haddr]
    change 0 ≤ 0x2000 ∧ 0x2000 < 0 + r.size.toNat
    omega
  have hin : pgtableBase.toNat + 0x3000 ≤ r.guestPhysAddr.toNat + r.size.toNat := by
    rw [haddr]
    change 0x2000 + 0x3000 ≤ 0 + r.size.toNat
    omega
  exact buildRegions_eq (by decide) (by decide) (List.pairwise_singleton _ r)
    (List.find?_cons_of_pos (by simpa using hcov)) hmap hin

/-- The three outcomes for a single region at address zero, by its size. -/
theorem buildIdentityPageTables_singleton {vm : VirtualMachine} {r : MemoryRegion}
    (hr : vm.memoryRegions = [r]) (haddr : r.guestPhysAddr = 0) {bs : List UInt8}
    (hhost : r.host = some bs) :
    if r.size.toNat ≤ 0x2000 then
      buildIdentityPageTables vm pgtableBase = .ok (some ENONET, vm)
    else if r.size.toNat < 0x5000 then
      buildIdentityPageTables vm pgtableBase = .error .outOfBounds
    else ∃ vm', buildIdentityPageTables vm pgtableBase = .ok (none, vm') := by
  have hlen := r.host_length bs (by simp [hhost])
  have hcov : r.Covers pgtableBase.toNat ↔ 0x2000 < r.size.toNat := by
    rw [MemoryRegion.Covers, haddr]
    change 0 ≤ 0x2000 ∧ 0x2000 < 0 + r.size.toNat ↔ _
    omega
  rw [buildIdentityPageTables, hr]
  split_ifs with hsmall hmid
  · have hnot : ¬r.Covers pgtableBase.toNat := fun hc => absurd (hcov.1 hc) (by omega)
    rw [buildRegions, if_pos ((test_iff r pgtableBase).2 hnot), buildRegions]
  · have hout : ¬(pgtableBase - r.guestPhysAddr).toNat + 0x3000 ≤ bs.length := by
      rw [haddr]
      change ¬0x2000 + 0x3000 ≤ bs.length
      omega
    have hbuild : buildRegions pgtableBase [r] = .error .outOfBounds := by
      rw [buildRegions, if_neg fun ht => (test_iff r pgtableBase).1 ht (hcov.2 (by omega))]
      split
      · rename_i hnone
        simp [hhost] at hnone
      · rename_i bs' hbs'
        obtain rfl : bs = bs' := by simpa [hhost] using hbs'
        rw [dif_neg hout]
    rw [hbuild]
  · obtain ⟨rs', hrs', -⟩ := buildRegions_singleton haddr (by simp [hhost]) (by omega)
    exact ⟨_, by rw [hrs']⟩

/-- A VM with a single region at address zero after its tables are built. -/
theorem guestByte_buildIdentityPageTables {vm vm' : VirtualMachine} {r : MemoryRegion}
    (hvm : vm.memoryRegions = [r]) (haddr : r.guestPhysAddr = 0) {bs : List UInt8}
    (hhost : r.host = some bs) (h : buildIdentityPageTables vm pgtableBase = .ok (none, vm')) :
    vm'.vcpus = vm.vcpus ∧ ∀ a, guestByte vm'.memoryRegions a =
      if 0x2000 ≤ a ∧ a < 0x5000 then some (tableByte 0x2000 (a - 0x2000))
      else guestByte [r] a := by
  have hfits : 0x5000 ≤ r.size.toNat := by
    have hends := buildIdentityPageTables_singleton hvm haddr hhost
    rw [h] at hends
    split_ifs at hends with hsmall hmid
    · simp at hends
    · omega
  obtain ⟨rs', hrs', hbytes⟩ := buildRegions_singleton haddr (by simp [hhost]) hfits
  rw [buildIdentityPageTables, hvm, hrs'] at h
  cases h
  exact ⟨rfl, hbytes⟩

/-- `load` of a flat binary into a VM without regions and vCPUs. The image is copied, then the
tables are stored over it. -/
theorem load_flatBinary {mapOs : MapOutcome} {vcpuOs : VCpuOutcome} {params : GuestLoadParams}
    {vm vm' : VirtualMachine} (hvm : vm.memoryRegions = []) (hv : vm.vcpus = [])
    (hmode : params.mode = .flatBinary) (h : load mapOs vcpuOs params vm = .ok (none, vm')) :
    ∃ v, vm'.vcpus = [v] ∧
      (∀ va < 2 ^ 30, v.loadByte (guestByte vm'.memoryRegions) va =
        guestByte vm'.memoryRegions va) ∧
      ∀ k < params.image.length, guestByte vm'.memoryRegions (params.loadAddress.toNat + k) =
        if 0x2000 ≤ params.loadAddress.toNat + k ∧ params.loadAddress.toNat + k < 0x5000 then
          some (tableByte 0x2000 (params.loadAddress.toNat + k - 0x2000))
        else params.image[k]? := by
  rcases loadEnd_of_load h with _ | _ | ⟨hreal, -, -⟩ | _ | ⟨-, hplace, hbuild, hsetup⟩
  · simp [hmode] at hreal
  · obtain ⟨rfl, r, v, hr, hv₁, hpl⟩ := place_eq hvm hv hplace
    obtain ⟨hv₂, hbytes⟩ := guestByte_buildIdentityPageTables hr hpl.addr hpl.host hbuild
    simp only [setup, hv₂, hv₁, List.getElem?_cons_zero, List.set_cons_zero, Except.ok.injEq,
      Prod.mk.injEq] at hsetup
    obtain ⟨hok, rfl⟩ := hsetup
    rename_i vm₂
    have hgib : FirstGiB (guestByte vm₂.memoryRegions) pgtableBase.toNat := by
      refine firstGiB_of_bytes (by decide) (by decide) fun o ho => ?_
      change guestByte vm₂.memoryRegions (0x2000 + o) = some (tableByte 0x2000 o)
      rw [hbytes, if_pos (by omega), Nat.add_sub_cancel_left]
    refine ⟨_, rfl, fun va hva => ?_, fun k hk => ?_⟩
    · rw [VCpu.loadByte, translate_setup64BitVCpu (Prod.ext hok rfl), hgib.walk_of_lt hva]
    · rw [hbytes, hpl.byteAt hk]

/-- A guest with one vCPU that reads the image at its load address, as far as that is below the end
of the first gibibyte. -/
def GuestSees (vm : VirtualMachine) (loadAddr : UInt64) (image : List UInt8) : Prop :=
  ∃ v, vm.vcpus = [v] ∧ ∀ k < image.length, loadAddr.toNat + k < 2 ^ 30 →
    v.loadByte (guestByte vm.memoryRegions) (loadAddr.toNat + k) = image[k]?

/-- Where an image lies on the page tables at `0x2000`, it has the bytes of the tables. -/
def AgreesWithTables (loadAddr : UInt64) (image : List UInt8) : Prop :=
  ∀ k < image.length, 0x2000 ≤ loadAddr.toNat + k → loadAddr.toNat + k < 0x5000 →
    image[k]? = some (tableByte 0x2000 (loadAddr.toNat + k - 0x2000))

/-- After a successful `load` of a flat binary the guest sees the image if and only if the image
agrees with the page tables wherever it lies on them. -/
theorem flatBinary_visible_iff {mapOs : MapOutcome} {vcpuOs : VCpuOutcome}
    {params : GuestLoadParams} {vm vm' : VirtualMachine} (hvm : vm.memoryRegions = [])
    (hv : vm.vcpus = []) (hmode : params.mode = .flatBinary)
    (h : load mapOs vcpuOs params vm = .ok (none, vm')) :
    GuestSees vm' params.loadAddress params.image ↔
      AgreesWithTables params.loadAddress params.image := by
  obtain ⟨v, hv', hload, hbytes⟩ := load_flatBinary hvm hv hmode h
  constructor
  · rintro ⟨w, hw, hsees⟩ k hk h2 h5
    obtain rfl : w = v := by simpa [hv'] using hw.symm
    rw [← hsees k hk (by omega), hload _ (by omega), hbytes k hk, if_pos ⟨h2, h5⟩]
  · refine fun hag => ⟨v, hv', fun k hk hlt => ?_⟩
    rw [hload _ hlt, hbytes k hk]
    split_ifs with hin
    · exact (hag k hk hin.1 hin.2).symm
    · rfl

/-- `place` succeeds if the system calls do and the image fits. -/
theorem place_ok {code : List UInt8} {loadAddr memorySize : UInt64} (hne : memorySize ≠ 0)
    (hfit : loadAddr.toNat + code.length ≤ memorySize.toNat) :
    ∃ vm', place {} {} code loadAddr memorySize {} = .ok (.ok 0, vm') ∧ vm'.vcpus = [{}] := by
  have hlt := memorySize.toNat_lt
  obtain ⟨r, hr⟩ : ∃ r, MemoryRegion.create {} 0 0 memorySize 0 = .ok r :=
    MemoryRegion.create_ok hne (by rw [UInt64.toNat_zero]; omega)
  obtain ⟨r', -, hplace⟩ : ∃ r', Placed code loadAddr memorySize r' ∧
      place {} {} code loadAddr memorySize {} = .ok ((withRegion r' {}).addVCpu {} 0) :=
    place_of_fits {} hr hfit
  exact ⟨{ withRegion r' {} with vcpus := [{}] }, hplace, rfl⟩

/-- `load` of a flat binary into an empty VM succeeds if the system calls do and both the image and
the tables fit. -/
theorem load_flatBinary_ok {params : GuestLoadParams} (hmode : params.mode = .flatBinary)
    (hne : params.image ≠ []) (h5 : 0x5000 ≤ params.memorySize.toNat)
    (hfit : params.loadAddress.toNat + params.image.length ≤ params.memorySize.toNat) :
    ∃ vm', load {} {} params {} = .ok (none, vm') := by
  have hz : params.memorySize ≠ 0 := by
    intro hz
    rw [hz, UInt64.toNat_zero] at h5
    omega
  obtain ⟨vm₁, hplace, hv⟩ := place_ok hz hfit
  obtain ⟨-, r, -, hr, -, hpl⟩ := place_eq rfl rfl hplace
  obtain ⟨rs', hrs', -⟩ :=
    buildRegions_singleton hpl.addr (by rw [hpl.host]; rfl) (by rwa [hpl.size])
  have hset := setup64BitVCpu_ok (v := {}) (fun _ => rfl) params.entryPoint pgtableBase
  simp [load, hne, hplace, hmode, buildIdentityPageTables, hr, hrs', setup, hv, hset]

/-- One byte loaded at `0x1000` is seen. -/
theorem flatBinary_visible_iff_below :
    ∃ vm', load {} {} { image := [0xF4], loadAddress := 0x1000 } {} = .ok (none, vm') ∧
      GuestSees vm' 0x1000 [0xF4] := by
  obtain ⟨vm', h⟩ := @load_flatBinary_ok { image := [0xF4], loadAddress := 0x1000 } rfl
    (by simp) (by decide) (by decide)
  refine ⟨vm', h, (flatBinary_visible_iff rfl rfl rfl h).2 fun k hk h2 _ => ?_⟩
  obtain rfl : k = 0 := by simpa using hk
  exact absurd h2 (by decide)

/-- One byte loaded at `0x2000` is lost to the page tables : the guest reads the first byte of the
root entry. -/
theorem flatBinary_overwritten :
    ∃ vm' v, load {} {} { image := [0xF4], loadAddress := 0x2000 } {} = .ok (none, vm') ∧
      vm'.vcpus = [v] ∧ v.loadByte (guestByte vm'.memoryRegions) 0x2000 = some 0x03 ∧
      ¬GuestSees vm' 0x2000 [0xF4] := by
  obtain ⟨vm', h⟩ := @load_flatBinary_ok { image := [0xF4], loadAddress := 0x2000 } rfl
    (by simp) (by decide) (by decide)
  obtain ⟨v, hv, hload, hbytes⟩ := load_flatBinary rfl rfl rfl h
  have hbyte : guestByte vm'.memoryRegions 0x2000 = some (tableByte 0x2000 0) := by
    simpa using hbytes 0 (by decide)
  have htable : tableByte 0x2000 0 = 0x03 := by decide
  have hread : v.loadByte (guestByte vm'.memoryRegions) 0x2000 = some 0x03 := by
    rw [hload 0x2000 (by decide), hbyte, htable]
  refine ⟨vm', v, h, hv, hread, ?_⟩
  rintro ⟨w, hw, hsees⟩
  obtain rfl : w = v := by simpa [hv] using hw.symm
  have := (hsees 0 (by decide) (by decide)).symm.trans hread
  exact absurd this (by decide)

end GuestLoader

end MinBp
