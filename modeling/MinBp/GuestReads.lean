import MinBp.GuestLoader
import MinBp.Ranges
import MinBp.VmiAgent

/-!
# Reads of guest-physical memory

`readGuestPhysMemory` takes an address and a size from its caller, also by way of the dump window,
and looks for a region that contains the range. Both bounds of its test are 64-bit sums. The upper
bound of a region does not wrap, the end of the range can.

`ReadsExactly` is what the read is for : the bytes of the range if one region contains it, nothing
otherwise, and no access outside a mapping. The read does this for exactly the ranges that do not
slip through the test of any region (`readGuestPhysMemory_exact_iff`). A size that `std::vector`
refuses throws before the copy. The model counts it as an access outside too : nothing is returned.
-/

open Ranges

namespace MinBp

variable {κ : Type}

namespace MemoryRegion

/-- The end of the guest-physical range, as the source computes it. -/
def bound (r : MemoryRegion) : UInt64 :=
  r.guestPhysAddr + r.size

theorem toNat_bound (r : MemoryRegion) :
    r.bound.toNat = r.guestPhysAddr.toNat + r.size.toNat := by
  rw [bound, UInt64.toNat_add, Nat.mod_eq_of_lt r.no_wrap]

/-- The range starts in or after the region, and its wrapped end passes the test. -/
def Fooled (r : MemoryRegion) (addr size : UInt64) : Prop :=
  r.guestPhysAddr.toNat ≤ addr.toNat ∧ Slips addr size r.bound

instance (r : MemoryRegion) (addr size : UInt64) : Decidable (r.Fooled addr size) :=
  inferInstanceAs (Decidable (_ ∧ _))

theorem contains_iff (r : MemoryRegion) (addr size : UInt64) :
    r.Contains addr size ↔ r.guestPhysAddr.toNat ≤ addr.toNat ∧ Fits addr size r.bound := by
  rw [Contains, Fits, toNat_bound]

/-- The addresses of a range in a region are in the region. -/
theorem Contains.covers {r : MemoryRegion} {addr size : UInt64} (h : r.Contains addr size) {i : ℕ}
    (hi : i < size.toNat) : r.Covers (addr.toNat + i) := by
  obtain ⟨hlow, hhigh⟩ := h
  rw [Covers]
  omega

/-- The bytes of a window are those at its addresses. -/
theorem getElem?_window {r : MemoryRegion} {addr size : UInt64} (h : r.Contains addr size) {i : ℕ}
    (hi : i < size.toNat) : (r.window addr size)[i]? = r.byteAt (addr.toNat + i) := by
  have hoff : addr.toNat - r.guestPhysAddr.toNat + i = addr.toNat + i - r.guestPhysAddr.toNat := by
    have := h.1
    omega
  rw [window, List.getElem?_take_of_lt hi, List.getElem?_drop, hoff, byteAt]
  cases r.host <;> rfl

end MemoryRegion

namespace VmiAgent

/-- The test of the loop passes if the region contains the range, or is fooled by it. -/
theorem test_iff_or (r : MemoryRegion) (addr size : UInt64) :
    (addr ≥ r.guestPhysAddr ∧ addr + size ≤ r.guestPhysAddr + r.size) ↔
      r.Contains addr size ∨ r.Fooled addr size := by
  rw [ge_iff_le, UInt64.le_iff_toNat_le, r.contains_iff, MemoryRegion.Fooled, ← and_or_left,
    ← add_le_iff]
  rfl

/-- The read gives the bytes of a range inside one region, and nothing for any other range. It makes
no access outside a mapping. -/
def ReadsExactly (rs : List MemoryRegion) (addr size : UInt64)
    (result : Except Fault (List UInt8)) : Prop :=
  ∃ bs, result = .ok bs ∧
    ((∃ r ∈ rs, r.Contains addr size) → bs.length = size.toNat ∧
      ∀ i < size.toNat, bs[i]? = guestByte rs (addr.toNat + i)) ∧
    ((∀ r ∈ rs, ¬r.Contains addr size) → bs = [])

/-- A range that wraps is in no region. -/
theorem not_contains_of_wraps {addr size : UInt64} (h : 2 ^ 64 ≤ addr.toNat + size.toNat)
    (r : MemoryRegion) : ¬r.Contains addr size := by
  have hr := r.no_wrap
  rw [MemoryRegion.Contains]
  omega

/-- A range that fools no region is read from the first region that contains it. -/
theorem readRegions_of_not_fooled {addr size : UInt64} {rs : List MemoryRegion}
    (hm : ∀ r ∈ rs, r.host.isSome) (h : ∀ r ∈ rs, ¬r.Fooled addr size) :
    readRegions addr size rs =
      .ok ((rs.find? fun r => r.Contains addr size).elim [] fun r => r.window addr size) := by
  rcases Nat.lt_or_ge (addr.toNat + size.toNat) (2 ^ 64) with hlt | hge
  · exact readRegions_eq hlt rs hm
  · induction rs with
    | nil => rfl
    | cons r rs ih =>
      have hc := not_contains_of_wraps hge r
      have htest : ¬(addr ≥ r.guestPhysAddr ∧ addr + size ≤ r.guestPhysAddr + r.size) := by
        rw [test_iff_or]
        exact not_or_intro hc (h r List.mem_cons_self)
      rw [readRegions, if_neg htest, List.find?_cons_of_neg (by simpa using hc)]
      exact ih (fun r' hr' => hm r' (List.mem_cons_of_mem _ hr'))
        fun r' hr' => h r' (List.mem_cons_of_mem _ hr')

/-- A range that fools a region is copied from outside of a mapping. -/
theorem readRegions_of_fooled {addr size : UInt64} {rs : List MemoryRegion}
    (hm : ∀ r ∈ rs, r.host.isSome) {r : MemoryRegion} (hr : r ∈ rs) (h : r.Fooled addr size) :
    readRegions addr size rs = .error .outOfBounds := by
  induction rs with
  | nil => cases hr
  | cons r0 rs ih =>
    rw [readRegions]
    by_cases htest : addr ≥ r0.guestPhysAddr ∧ addr + size ≤ r0.guestPhysAddr + r0.size
    · obtain ⟨bs, hbs⟩ := Option.isSome_iff_exists.1 (hm r0 List.mem_cons_self)
      have hlen := r0.host_length bs (by simp [hbs])
      have hout : ¬(addr - r0.guestPhysAddr).toNat + size.toNat ≤ bs.length := by
        have hnc := not_contains_of_wraps h.2.1 r0
        rw [UInt64.toNat_sub_of_le _ _ htest.1, hlen]
        have hle := UInt64.le_iff_toNat_le.1 htest.1
        rw [MemoryRegion.Contains] at hnc
        omega
      rw [if_pos htest, hbs]
      exact if_neg hout
    · rw [if_neg htest]
      rcases List.mem_cons.1 hr with rfl | hr
      · exact absurd ((test_iff_or r addr size).2 (.inr h)) htest
      · exact ih (fun r' hr' => hm r' (List.mem_cons_of_mem _ hr')) hr

/-- On a VM whose regions are mapped and do not overlap, a read is exact if and only if the range
fools no region : no region starts at or below the address and reaches the wrapped end. -/
theorem readGuestPhysMemory_exact_iff {a : VmiAgent κ} {vm : VirtualMachine} (ha : a.hasVm)
    (hm : vm.Mapped) (hsep : Separate vm.memoryRegions) (addr size : UInt64) :
    ReadsExactly vm.memoryRegions addr size (a.readGuestPhysMemory vm addr size) ↔
      ∀ r ∈ vm.memoryRegions, ¬r.Fooled addr size := by
  rw [readGuestPhysMemory, if_pos ha]
  constructor
  · rintro ⟨bs, hbs, -⟩ r hr hf
    rw [readRegions_of_fooled hm hr hf] at hbs
    cases hbs
  · intro h
    refine ⟨_, readRegions_of_not_fooled hm h, fun hex => ?_, fun hall => ?_⟩
    · obtain ⟨r, hfind⟩ : ∃ r, vm.memoryRegions.find? (fun r => r.Contains addr size) = some r :=
        Option.isSome_iff_exists.1 (List.find?_isSome.2 (by simpa using hex))
      have hr := List.mem_of_find?_eq_some hfind
      have hc : r.Contains addr size := by simpa using List.find?_some hfind
      rw [hfind, Option.elim_some]
      refine ⟨length_window (hm r hr) hc, fun i hi => ?_⟩
      rw [guestByte_of_mem hsep hr (hc.covers hi)]
      exact MemoryRegion.getElem?_window hc hi
    · have hnone : vm.memoryRegions.find? (fun r => r.Contains addr size) = none :=
        List.find?_eq_none.2 fun r hr => by simpa using hall r hr
      rw [hnone, Option.elim_none]

/-- A page of memory at address zero. -/
def zeroPage : MemoryRegion where
  slot := 0
  guestPhysAddr := 0
  size := 0x1000
  host := some (List.replicate 0x1000 0)
  host_length := by
    rintro bs ⟨⟩
    exact List.length_replicate
  no_wrap := by decide

/-- A VM with one page of memory. -/
def onePageVm : VirtualMachine where
  nextSlot := 1
  memoryRegions := [zeroPage]

theorem mapped_onePageVm : onePageVm.Mapped := by
  intro r hr
  obtain rfl := List.mem_singleton.1 hr
  rfl

/-- The last sixteen bytes of the page are read. -/
theorem readGuestPhysMemory_exact_onePageVm :
    ReadsExactly onePageVm.memoryRegions 0xFF0 0x10
      (({} : VmiAgent Unit).readGuestPhysMemory onePageVm 0xFF0 0x10) := by
  refine (readGuestPhysMemory_exact_iff rfl mapped_onePageVm (List.pairwise_singleton _ _) _ _).2
    fun r hr => ?_
  obtain rfl := List.mem_singleton.1 hr
  decide

/-- Thirty-two bytes that start sixteen below the end of the address space are copied from before
the mapping. No region contains them, so nothing should be read. -/
theorem readGuestPhysMemory_outside :
    ({} : VmiAgent Unit).readGuestPhysMemory onePageVm 0xFFFFFFFFFFFFFFF0 0x20 =
        .error .outOfBounds ∧
      ¬ReadsExactly onePageVm.memoryRegions 0xFFFFFFFFFFFFFFF0 0x20
        (({} : VmiAgent Unit).readGuestPhysMemory onePageVm 0xFFFFFFFFFFFFFFF0 0x20) := by
  have hfooled : zeroPage.Fooled 0xFFFFFFFFFFFFFFF0 0x20 := by decide
  have hread : ({} : VmiAgent Unit).readGuestPhysMemory onePageVm 0xFFFFFFFFFFFFFFF0 0x20 =
      .error .outOfBounds := by
    rw [readGuestPhysMemory, if_pos rfl]
    exact readRegions_of_fooled mapped_onePageVm (List.mem_singleton.2 rfl) hfooled
  refine ⟨hread, ?_⟩
  rintro ⟨bs, hbs, -⟩
  rw [hread] at hbs
  cases hbs

end VmiAgent

end MinBp
