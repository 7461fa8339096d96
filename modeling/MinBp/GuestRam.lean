import MinBp.GuestReads
import MinBp.Runs
import MinBp.Stores

/-!
# Guest memory as one store

Guest memory is a list of regions, and there are two ways to read it : `MemoryRegion::read` takes an
offset in a region, `readGuestPhysMemory` looks for the region that contains an address. A history
adds regions and writes to them (`RamOp`). KVM refuses a region that is not made of whole pages or
that overlaps another (`kvmRefusal`), besides those that `MemoryRegion.create` knows about.

`Ram` is the VM with a log of all writes by guest-physical address. In every history both reads give
the most recent write to each address (`ram_consistent`) : regions do not overlap, so an address is
in one region only, and a new region starts out as zero at addresses that were never written to.
Slots are numbered by a 32-bit counter.
-/

open Stores

namespace MinBp

/-! ## Histories -/

/-- The range of `size` bytes at `addr` shares an address with the region. -/
def MemoryRegion.Overlaps (r : MemoryRegion) (addr size : UInt64) : Prop :=
  r.guestPhysAddr.toNat < addr.toNat + size.toNat ∧
    addr.toNat < r.guestPhysAddr.toNat + r.size.toNat

instance (r : MemoryRegion) (addr size : UInt64) : Decidable (r.Overlaps addr size) :=
  inferInstanceAs (Decidable (_ ∧ _))

namespace VirtualMachine

/-- Why KVM refuses a region, besides a size of zero and a range that wraps. -/
def kvmRefusal (addr size : UInt64) (vm : VirtualMachine) : Option Errno :=
  if addr.toNat % 4096 ≠ 0 ∨ size.toNat % 4096 ≠ 0 then some EINVAL
  else if ∃ r ∈ vm.memoryRegions, r.Overlaps addr size then some EEXIST
  else none

/-- The outcome of the system calls. KVM can refuse a region for other reasons too. -/
def kvmOutcome (os : MapOutcome) (addr size : UInt64) (vm : VirtualMachine) : MapOutcome :=
  { os with setUserMemoryRegion := os.setUserMemoryRegion.or (vm.kvmRefusal addr size) }

end VirtualMachine

/-- What is done with guest memory. -/
inductive RamOp where
  /-- `addMemoryRegion`, successful or not. -/
  | addMemoryRegion (os : MapOutcome) (guestPhysAddr size : UInt64) (flags : UInt32)
  /-- `memoryRegions()[i].write(guest_offset, data)`. -/
  | write (i : ℕ) (guestOffset : UInt64) (data : List UInt8)

namespace RamOp

/-- The operation on a VM, with KVM's answer. -/
def toVmOp (vm : VirtualMachine) : RamOp → VmOp
  | .addMemoryRegion os guestPhysAddr size flags =>
    .addMemoryRegion (vm.kvmOutcome os guestPhysAddr size) guestPhysAddr size flags
  | .write i guestOffset data => .write i guestOffset data

/-- The writes of an operation, by guest-physical address. -/
def writes (vm : VirtualMachine) : RamOp → List (ℕ × UInt8)
  | .addMemoryRegion .. => []
  | .write i guestOffset data =>
    (vm.memoryRegions[i]?).elim [] fun r =>
      block (r.guestPhysAddr.toNat + guestOffset.toNat) data

/-- A write is to a region and inside of it. -/
def InBounds (vm : VirtualMachine) : RamOp → Prop
  | .addMemoryRegion .. => True
  | .write i guestOffset data =>
    ∃ r, vm.memoryRegions[i]? = some r ∧ guestOffset.toNat + data.length ≤ r.size.toNat

end RamOp

/-- A VM and all writes to its memory so far. -/
structure Ram where
  vm : VirtualMachine := {}
  log : List (ℕ × UInt8) := []

namespace Ram

/-- One operation. -/
def exec (s : Ram) (op : RamOp) : Except Fault Ram :=
  match (op.toVmOp s.vm).exec s.vm with
  | .error f => .error f
  | .ok vm => .ok { vm, log := s.log ++ op.writes s.vm }

/-- Memory is one store. Region `i` has slot `i`, as a 32-bit number, and the next slot is the
number of regions. A failed call changes nothing and a write in bounds returns. Inside a region both
reads give the most recent write to each address. -/
structure Consistent (s : Ram) : Prop where
  nextSlot : s.vm.nextSlot = UInt32.ofNat s.vm.memoryRegions.length
  slot : ∀ (i : ℕ) (r : MemoryRegion), s.vm.memoryRegions[i]? = some r → r.slot = UInt32.ofNat i
  failed : ∀ os addr size flags e,
    (s.vm.addMemoryRegion (s.vm.kvmOutcome os addr size) addr size flags).1 = .error e →
      (s.vm.addMemoryRegion (s.vm.kvmOutcome os addr size) addr size flags).2 = s.vm
  returns : ∀ op : RamOp, op.InBounds s.vm → ∃ s', s.exec op = .ok s'
  reads : ∀ r ∈ s.vm.memoryRegions, ∀ off n : UInt64, 0 < n →
    off.toNat + n.toNat ≤ r.size.toNat → ∃ bs, r.read off n = .ok bs ∧
      (∀ (κ : Type) (a : VmiAgent κ), a.hasVm →
        a.readGuestPhysMemory s.vm (r.guestPhysAddr + off) n = .ok bs) ∧
      bs.length = n.toNat ∧ ∀ k < n.toNat,
        bs[k]? = some (lastWritten 0 s.log (r.guestPhysAddr.toNat + off.toNat + k))

end Ram

/-! ## Regions that do not overlap -/

namespace MemoryRegion

theorem SameShape.covers_iff {r r' : MemoryRegion} (h : SameShape r r') (a : ℕ) :
    r'.Covers a ↔ r.Covers a := by
  rw [Covers, Covers, h.guestPhysAddr, h.size]

/-- A region that a range does not overlap has no address in the range. -/
theorem not_covers_of_not_overlaps {r r' : MemoryRegion}
    (h : ¬r.Overlaps r'.guestPhysAddr r'.size) (a : ℕ) : ¬(r.Covers a ∧ r'.Covers a) := by
  rw [Overlaps] at h
  rw [Covers, Covers]
  omega

end MemoryRegion

theorem Separate.not_covers {rs : List MemoryRegion} (h : Separate rs) {i j : ℕ} (hij : i ≠ j)
    {r r' : MemoryRegion} (hr : rs[i]? = some r) (hr' : rs[j]? = some r') {a : ℕ}
    (ha : r.Covers a) : ¬r'.Covers a := by
  obtain ⟨hi, rfl⟩ := List.getElem?_eq_some_iff.1 hr
  obtain ⟨hj, rfl⟩ := List.getElem?_eq_some_iff.1 hr'
  intro ha'
  rcases Nat.lt_or_gt_of_ne hij with hlt | hgt
  · exact List.pairwise_iff_getElem.1 h i j hi hj hlt a ⟨ha, ha'⟩
  · exact List.pairwise_iff_getElem.1 h j i hj hi hgt a ⟨ha', ha⟩

/-- An address is in one region only. -/
theorem Separate.eq_of_covers {rs : List MemoryRegion} (h : Separate rs) {r r' : MemoryRegion}
    (hr : r ∈ rs) (hr' : r' ∈ rs) {a : ℕ} (ha : r.Covers a) (ha' : r'.Covers a) : r = r' := by
  obtain ⟨i, hi⟩ := List.mem_iff_getElem?.1 hr
  obtain ⟨j, hj⟩ := List.mem_iff_getElem?.1 hr'
  rcases eq_or_ne i j with rfl | hij
  · exact Option.some.inj (hi.symm.trans hj)
  · exact absurd ha' (h.not_covers hij hi hj ha)

/-- Regions that keep their shape stay apart. -/
theorem Keeps.separate {rs rs' : List MemoryRegion} (h : Keeps rs rs')
    (hlen : rs'.length = rs.length) (hsep : Separate rs) : Separate rs' := by
  refine List.pairwise_iff_getElem.2 fun i j hi hj hij a => ?_
  obtain ⟨r, hr, hshape⟩ := h i rs[i] (List.getElem?_eq_getElem (hlen ▸ hi))
  obtain ⟨r', hr', hshape'⟩ := h j rs[j] (List.getElem?_eq_getElem (hlen ▸ hj))
  obtain rfl : rs'[i] = r := Option.some.inj ((List.getElem?_eq_getElem hi).symm.trans hr)
  obtain rfl : rs'[j] = r' := Option.some.inj ((List.getElem?_eq_getElem hj).symm.trans hr')
  rw [hshape.covers_iff, hshape'.covers_iff]
  exact List.pairwise_iff_getElem.1 hsep i j _ _ hij a

/-- The first region that contains a range that is not empty is the only one. -/
theorem Separate.find?_contains {rs : List MemoryRegion} (h : Separate rs) {r : MemoryRegion}
    (hr : r ∈ rs) {addr n : UInt64} (hn : 0 < n) (hc : r.Contains addr n) :
    rs.find? (fun r => r.Contains addr n) = some r := by
  have hpos : 0 < n.toNat := UInt64.lt_iff_toNat_lt.1 hn
  obtain ⟨r', hfind⟩ : ∃ r', rs.find? (fun r => r.Contains addr n) = some r' :=
    Option.isSome_iff_exists.1 (List.find?_isSome.2 ⟨r, hr, by simpa using hc⟩)
  have hc' : r'.Contains addr n := by simpa using List.find?_some hfind
  rw [hfind, h.eq_of_covers hr (List.mem_of_find?_eq_some hfind) (hc.covers hpos)
    (hc'.covers hpos)]

/-! ## One operation -/

namespace Ram

/-- Invariant of a history. -/
structure Inv (s : Ram) : Prop where
  nextSlot : s.vm.nextSlot = UInt32.ofNat s.vm.memoryRegions.length
  slot : ∀ (i : ℕ) (r : MemoryRegion), s.vm.memoryRegions[i]? = some r → r.slot = UInt32.ofNat i
  separate : Separate s.vm.memoryRegions
  mapped : s.vm.Mapped
  bytes : ∀ r ∈ s.vm.memoryRegions, ∀ a, r.Covers a → r.byteAt a = some (lastWritten 0 s.log a)
  logged : ∀ w ∈ s.log, ∃ r ∈ s.vm.memoryRegions, r.Covers w.1

variable {s s' : Ram}

/-- A region of a list with a new one at the end is an old one, or the new one. -/
theorem getElem?_concat_cases {rs : List MemoryRegion} {i : ℕ} {r r' : MemoryRegion}
    (h : (rs ++ [r])[i]? = some r') : rs[i]? = some r' ∨ (i = rs.length ∧ r' = r) := by
  rcases Nat.lt_or_ge i rs.length with hi | hi
  · rw [List.getElem?_append_left hi] at h
    exact .inl h
  · rw [List.getElem?_append_right hi, List.getElem?_singleton] at h
    split_ifs at h with hlast
    exact .inr ⟨by omega, (Option.some.inj h).symm⟩

theorem not_overlaps_of_accepted {os : MapOutcome} {addr size : UInt64} {vm : VirtualMachine}
    (h : (vm.kvmOutcome os addr size).setUserMemoryRegion = none) :
    ∀ r ∈ vm.memoryRegions, ¬r.Overlaps addr size := by
  have hrefusal : vm.kvmRefusal addr size = none := (Option.or_eq_none_iff.1 h).2
  unfold VirtualMachine.kvmRefusal at hrefusal
  split_ifs at hrefusal with halign hoverlap
  intro r hr ho
  exact hoverlap ⟨r, hr, ho⟩

/-- The invariant is kept by calls of `addMemoryRegion`, successful or not. -/
theorem Inv.addMemoryRegion (h : s.Inv) (os : MapOutcome) (addr size : UInt64) (flags : UInt32) :
    Inv { s with
      vm := (s.vm.addMemoryRegion (s.vm.kvmOutcome os addr size) addr size flags).2 } := by
  unfold VirtualMachine.addMemoryRegion
  split
  · exact h
  · rename_i r hr
    obtain ⟨haccepted, hslot, haddr, hsize, hhost⟩ := MemoryRegion.create_inv hr
    have hapart : ∀ r' ∈ s.vm.memoryRegions, ∀ a, ¬(r'.Covers a ∧ r.Covers a) := by
      intro r' hr' a
      refine MemoryRegion.not_covers_of_not_overlaps ?_ a
      rw [haddr, hsize]
      exact not_overlaps_of_accepted haccepted r' hr'
    constructor
    case nextSlot =>
      rw [List.length_append, List.length_singleton, UInt32.ofNat_add, ← h.nextSlot]
      rfl
    case slot =>
      intro i r' hr'
      rcases getElem?_concat_cases hr' with hr' | ⟨rfl, rfl⟩
      · exact h.slot i r' hr'
      · rw [hslot, h.nextSlot]
    case separate =>
      refine List.pairwise_append.2 ⟨h.separate, List.pairwise_singleton _ _, ?_⟩
      intro r' hr' x hx
      cases List.mem_singleton.1 hx
      exact hapart r' hr'
    case mapped =>
      intro r' hr'
      rcases List.mem_append.1 hr' with hr' | hr'
      · exact h.mapped r' hr'
      · cases List.mem_singleton.1 hr'
        rw [hhost]
        rfl
    case bytes =>
      intro r' hr' a ha
      rcases List.mem_append.1 hr' with hr' | hr'
      · exact h.bytes r' hr' a ha
      · -- no write went to the addresses of a new region
        cases List.mem_singleton.1 hr'
        have hfresh : ∀ w ∈ s.log, w.1 ≠ a := by
          rintro w hw rfl
          obtain ⟨r', hr', hc⟩ := h.logged w hw
          exact hapart r' hr' w.1 ⟨hc, ha⟩
        rw [lastWritten_of_forall_ne hfresh, MemoryRegion.byteAt, hhost, Option.bind_some, haddr]
        rw [MemoryRegion.Covers, haddr, hsize] at ha
        exact List.getElem?_replicate_of_lt (by omega)
    case logged =>
      intro w hw
      obtain ⟨r', hr', hc⟩ := h.logged w hw
      exact ⟨r', List.mem_append_left _ hr', hc⟩

/-- After a write the region holds the new bytes at their addresses, and the old ones elsewhere. -/
theorem byteAt_write {r r' : MemoryRegion} {off : UInt64} {data : List UInt8}
    (h : r.write off data = .ok r') {log : List (ℕ × UInt8)} {a : ℕ} (ha : r.Covers a)
    (hbyte : r.byteAt a = some (lastWritten 0 log a)) :
    r'.byteAt a =
      some (lastWritten 0 (log ++ block (r.guestPhysAddr.toNat + off.toNat) data) a) := by
  obtain ⟨bs, hbs, hfit, hhost, hshape⟩ := MemoryRegion.write_eq h
  rw [MemoryRegion.byteAt, hbs, Option.bind_some] at hbyte
  rw [MemoryRegion.byteAt, hhost, Option.bind_some, hshape.guestPhysAddr, getElem?_overwrite hfit,
    lastWritten_append_block]
  rw [MemoryRegion.Covers] at ha
  by_cases hin : r.guestPhysAddr.toNat + off.toNat ≤ a ∧
      a < r.guestPhysAddr.toNat + off.toNat + data.length
  · have hlt : a - (r.guestPhysAddr.toNat + off.toNat) < data.length := by omega
    rw [if_pos hin, if_pos (by omega), Nat.sub_sub, List.getElem?_eq_getElem hlt, Option.getD_some]
  · rw [if_neg hin, if_neg (by omega), hbyte]

/-- The addresses of a write are in its region. -/
theorem covers_of_write {r r' : MemoryRegion} {off : UInt64} {data : List UInt8}
    (h : r.write off data = .ok r') {a : ℕ} (hin : r.guestPhysAddr.toNat + off.toNat ≤ a ∧
      a < r.guestPhysAddr.toNat + off.toNat + data.length) : r.Covers a := by
  obtain ⟨bs, hbs, hfit, -⟩ := MemoryRegion.write_eq h
  have hlen := r.host_length bs (by simp [hbs])
  rw [MemoryRegion.Covers]
  omega

/-- The invariant is kept by writes. -/
theorem Inv.write (h : s.Inv) {i : ℕ} {off : UInt64} {data : List UInt8} {vm' : VirtualMachine}
    (hexec : VmOp.exec s.vm (.write i off data) = .ok vm') :
    Inv { vm := vm', log := s.log ++ (RamOp.write i off data).writes s.vm } := by
  have hkeeps := (grown_exec hexec).regions
  obtain ⟨r, r', hr, hw, rfl⟩ := VmOp.exec_write_eq hexec
  have hi := (List.getElem?_eq_some_iff.1 hr).1
  have hshape := MemoryRegion.sameShape_of_write hw
  have hwrites : (RamOp.write i off data).writes s.vm =
      block (r.guestPhysAddr.toNat + off.toNat) data := by
    rw [RamOp.writes, hr, Option.elim_some]
  -- a region of the new list is the one written to, or an old one at another position
  have hcases : ∀ (j : ℕ) (x : MemoryRegion), (s.vm.memoryRegions.set i r')[j]? = some x →
      (j = i ∧ x = r') ∨ (i ≠ j ∧ s.vm.memoryRegions[j]? = some x) := by
    intro j x hx
    rcases eq_or_ne i j with rfl | hij
    · rw [List.getElem?_set_self hi] at hx
      exact .inl ⟨rfl, (Option.some.inj hx).symm⟩
    · rw [List.getElem?_set_ne hij] at hx
      exact .inr ⟨hij, hx⟩
  rw [hwrites]
  constructor
  case nextSlot =>
    rw [List.length_set]
    exact h.nextSlot
  case slot =>
    intro j x hx
    rcases hcases j x hx with ⟨rfl, rfl⟩ | ⟨-, hx⟩
    · rw [hshape.slot]
      exact h.slot j r hr
    · exact h.slot j x hx
  case separate =>
    exact hkeeps.separate List.length_set h.separate
  case mapped =>
    intro x hx
    obtain ⟨j, hj⟩ := List.mem_iff_getElem?.1 hx
    rcases hcases j x hj with ⟨rfl, rfl⟩ | ⟨-, hj⟩
    · rw [hshape.mapped]
      exact h.mapped r (List.mem_of_getElem? hr)
    · exact h.mapped x (List.mem_of_getElem? hj)
  case bytes =>
    intro x hx a ha
    obtain ⟨j, hj⟩ := List.mem_iff_getElem?.1 hx
    rcases hcases j x hj with ⟨rfl, rfl⟩ | ⟨hij, hj⟩
    · rw [hshape.covers_iff] at ha
      exact byteAt_write hw ha (h.bytes r (List.mem_of_getElem? hr) a ha)
    · -- the write went to another region
      have hout : ¬(r.guestPhysAddr.toNat + off.toNat ≤ a ∧
          a < r.guestPhysAddr.toNat + off.toNat + data.length) := fun hin =>
        h.separate.not_covers hij hr hj (covers_of_write hw hin) ha
      rw [lastWritten_append_block, if_neg hout]
      exact h.bytes x (List.mem_of_getElem? hj) a ha
  case logged =>
    intro w hmem
    obtain ⟨j, x, hx, hc⟩ : ∃ (j : ℕ) (x : MemoryRegion),
        s.vm.memoryRegions[j]? = some x ∧ x.Covers w.1 := by
      rcases List.mem_append.1 hmem with hmem | hmem
      · obtain ⟨x, hx, hc⟩ := h.logged w hmem
        obtain ⟨j, hj⟩ := List.mem_iff_getElem?.1 hx
        exact ⟨j, x, hj, hc⟩
      · exact ⟨i, r, hr, covers_of_write hw (mem_block hmem)⟩
    obtain ⟨x', hx', hshape'⟩ := hkeeps j x hx
    exact ⟨x', List.mem_of_getElem? hx', (hshape'.covers_iff w.1).2 hc⟩

theorem Inv.exec (h : s.Inv) {op : RamOp} (hexec : s.exec op = .ok s') : s'.Inv := by
  unfold Ram.exec at hexec
  split at hexec
  · cases hexec
  · rename_i vm' hvm'
    cases hexec
    cases op with
    | addMemoryRegion os addr size flags =>
      cases hvm'
      rw [RamOp.writes, List.append_nil]
      exact h.addMemoryRegion os addr size flags
    | write i off data => exact h.write hvm'

/-! ## Whole histories -/

theorem inv_start (vcpus : List VCpu) : Inv { vm := { vcpus } } where
  nextSlot := rfl
  slot := by simp
  separate := List.Pairwise.nil
  mapped := by simp [VirtualMachine.Mapped]
  bytes := by simp
  logged := by simp

theorem inv_run {vcpus : List VCpu} {ops : List RamOp}
    (h : ops.foldlM exec { vm := { vcpus } } = .ok s) : s.Inv :=
  Runs.execM_inv Inv (fun _ _ _ hs hx => hs.exec hx) ops (inv_start vcpus) h

/-- A write in bounds returns. -/
theorem Inv.returns (h : s.Inv) {op : RamOp} (hop : op.InBounds s.vm) :
    ∃ s', s.exec op = .ok s' := by
  cases op with
  | addMemoryRegion os addr size flags => exact ⟨_, rfl⟩
  | write i off data =>
    obtain ⟨r, hr, hfit⟩ := hop
    obtain ⟨bs, hbs⟩ := Option.isSome_iff_exists.1 (h.mapped r (List.mem_of_getElem? hr))
    rw [← r.host_length bs (by simp [hbs])] at hfit
    obtain ⟨r', hr'⟩ := MemoryRegion.write_ok hbs hfit
    simp only [Ram.exec, RamOp.toVmOp, VmOp.exec, hr, hr']
    exact ⟨_, rfl⟩

/-- `MemoryRegion::read` gives the window that the agent reads by address. -/
theorem read_eq_window {r : MemoryRegion} (hr : r.host.isSome) {off n : UInt64}
    (hfit : off.toNat + n.toNat ≤ r.size.toNat)
    (hoff : (r.guestPhysAddr + off).toNat = r.guestPhysAddr.toNat + off.toNat) :
    r.read off n = .ok (r.window (r.guestPhysAddr + off) n) := by
  obtain ⟨bs, hbs⟩ := Option.isSome_iff_exists.1 hr
  have hlen := r.host_length bs (by simp [hbs])
  rw [MemoryRegion.read_ok hbs (by omega), MemoryRegion.window, hbs, Option.getD_some, hoff,
    Nat.add_sub_cancel_left]

/-- Inside a region both reads give the most recent write to each address. -/
theorem Inv.reads (h : s.Inv) {r : MemoryRegion} (hr : r ∈ s.vm.memoryRegions) {off n : UInt64}
    (hn : 0 < n) (hfit : off.toNat + n.toNat ≤ r.size.toNat) : ∃ bs, r.read off n = .ok bs ∧
      (∀ (κ : Type) (a : VmiAgent κ), a.hasVm →
        a.readGuestPhysMemory s.vm (r.guestPhysAddr + off) n = .ok bs) ∧
      bs.length = n.toNat ∧ ∀ k < n.toNat,
        bs[k]? = some (lastWritten 0 s.log (r.guestPhysAddr.toNat + off.toNat + k)) := by
  have hwrap := r.no_wrap
  have hmapped := h.mapped r hr
  have hoff : (r.guestPhysAddr + off).toNat = r.guestPhysAddr.toNat + off.toNat := by
    rw [UInt64.toNat_add, Nat.mod_eq_of_lt (by omega)]
  have hc : r.Contains (r.guestPhysAddr + off) n := by
    rw [MemoryRegion.Contains, hoff]
    omega
  refine ⟨_, read_eq_window hmapped hfit hoff, fun κ a ha => ?_,
    VmiAgent.length_window hmapped hc, fun k hk => ?_⟩
  · rw [VmiAgent.readGuestPhysMemory, if_pos ha, VmiAgent.readRegions_eq (by omega) _ h.mapped,
      h.separate.find?_contains hr hn hc, Option.elim_some]
  · rw [MemoryRegion.getElem?_window hc hk, ← hoff]
    exact h.bytes r hr _ (hc.covers hk)

theorem Inv.consistent (h : s.Inv) : s.Consistent where
  nextSlot := h.nextSlot
  slot := h.slot
  failed os addr size flags e he := by
    unfold VirtualMachine.addMemoryRegion at he ⊢
    split at he
    · rfl
    · cases he
  returns _ hop := h.returns hop
  reads _ hr _ _ hn hfit := h.reads hr hn hfit

/-- In every history of a new VM, whatever vCPUs it has, memory is one store. -/
theorem ram_consistent {vcpus : List VCpu} {ops : List RamOp}
    (h : ops.foldlM exec { vm := { vcpus } } = .ok s) : s.Consistent :=
  (inv_run h).consistent

/-- A call for page `i`. -/
def addPage (i : ℕ) : RamOp :=
  .addMemoryRegion {} (UInt64.ofNat (4096 * i)) 4096 0

/-- Calls for `n` pages, one after the other. -/
def pages (n : ℕ) : List RamOp :=
  (List.range n).map addPage

/-- The regions are the first `n` pages, and nothing has been written to them. -/
structure Paged (n : ℕ) (s : Ram) : Prop where
  length : s.vm.memoryRegions.length = n
  page : ∀ (i : ℕ) (r : MemoryRegion), s.vm.memoryRegions[i]? = some r →
    r.guestPhysAddr.toNat = 4096 * i ∧ r.size = 4096
  log : s.log = []

/-- The next page overlaps none, so it is added. -/
theorem Paged.exec {n : ℕ} (h : s.Paged n) (hn : n + 1 < 2 ^ 52) :
    ∃ s', s.exec (addPage n) = .ok s' ∧ s'.Paged (n + 1) := by
  have haddr : (UInt64.ofNat (4096 * n)).toNat = 4096 * n :=
    UInt64.toNat_ofNat_of_lt' (by rw [UInt64.size]; omega)
  have hsize : (4096 : UInt64).toNat = 4096 := rfl
  have hno : ¬∃ r ∈ s.vm.memoryRegions, r.Overlaps (UInt64.ofNat (4096 * n)) 4096 := by
    rintro ⟨r, hr, ho⟩
    obtain ⟨i, hi⟩ := List.mem_iff_getElem?.1 hr
    have hlt := (List.getElem?_eq_some_iff.1 hi).1
    have hlen := h.length
    obtain ⟨hbase, hrsize⟩ := h.page i r hi
    rw [MemoryRegion.Overlaps, haddr, hbase, hrsize, hsize] at ho
    omega
  have haccepted : s.vm.kvmOutcome {} (UInt64.ofNat (4096 * n)) 4096 = {} := by
    rw [VirtualMachine.kvmOutcome, VirtualMachine.kvmRefusal, haddr, hsize, if_neg (by omega),
      if_neg hno]
    rfl
  obtain ⟨r, hr⟩ := @MemoryRegion.create_ok s.vm.nextSlot (UInt64.ofNat (4096 * n)) 4096 0
    (by decide) (by omega)
  obtain ⟨hbase, hrsize, -⟩ := MemoryRegion.create_eq hr
  simp only [Ram.exec, addPage, RamOp.toVmOp, VmOp.exec, haccepted,
    VirtualMachine.addMemoryRegion, hr]
  refine ⟨_, rfl, ?_, fun i r' hr' => ?_, ?_⟩
  · rw [List.length_append, h.length, List.length_singleton]
  · rcases getElem?_concat_cases hr' with hr' | ⟨rfl, rfl⟩
    · exact h.page i r' hr'
    · rw [hbase, haddr, hrsize, h.length]
      exact ⟨rfl, rfl⟩
  · rw [h.log]
    rfl

/-- Pages can be added up to the end of the address space. -/
theorem exists_paged {n : ℕ} (hn : n < 2 ^ 52) :
    ∃ s, (pages n).foldlM exec {} = .ok s ∧ s.Paged n := by
  induction n with
  | zero => exact ⟨{}, rfl, rfl, by simp, rfl⟩
  | succ n ih =>
    obtain ⟨s, hrun, hpaged⟩ := ih (by omega)
    obtain ⟨s', hstep, hpaged'⟩ := hpaged.exec hn
    refine ⟨s', ?_, hpaged'⟩
    rw [pages, List.range_succ, List.map_append, List.foldlM_append, ← pages, hrun]
    simp only [bind, Except.bind, List.map_singleton, List.foldlM_cons, List.foldlM_nil, hstep]
    rfl

theorem log_exec {op : RamOp} (h : s.exec op = .ok s') : s'.log = s.log ++ op.writes s.vm := by
  unfold exec at h
  split at h
  · cases h
  · cases h
    rfl

/-- Two pages and a write to the second. -/
theorem ram_consistent_twoPages :
    ∃ s, (pages 2 ++ [RamOp.write 1 0x10 [5]]).foldlM exec {} = .ok s ∧ s.log = [(0x1010, 5)] ∧
      s.Consistent := by
  obtain ⟨s, hrun, hpaged⟩ := exists_paged (n := 2) (by norm_num)
  have hlt : 1 < s.vm.memoryRegions.length := by
    rw [hpaged.length]
    exact Nat.one_lt_two
  have hsecond := List.getElem?_eq_getElem hlt
  have hfit : (0x10 : UInt64).toNat + [(5 : UInt8)].length ≤ s.vm.memoryRegions[1].size.toNat := by
    rw [(hpaged.page 1 _ hsecond).2]
    decide
  obtain ⟨s', hstep⟩ : ∃ s', s.exec (.write 1 0x10 [5]) = .ok s' :=
    (@inv_run s [] _ hrun).returns ⟨_, hsecond, hfit⟩
  have hrun' : (pages 2 ++ [RamOp.write 1 0x10 [5]]).foldlM exec {} = .ok s' := by
    rw [List.foldlM_append, hrun]
    simp only [bind, Except.bind, List.foldlM_cons, List.foldlM_nil, hstep]
    rfl
  refine ⟨s', hrun', ?_, @ram_consistent s' [] _ hrun'⟩
  rw [log_exec hstep, hpaged.log, RamOp.writes, hsecond, Option.elim_some,
    (hpaged.page 1 _ hsecond).1]
  rfl

/-- After `2 ^ 32` pages the next slot is zero again. -/
theorem nextSlot_wraps : ∃ s, (pages (2 ^ 32)).foldlM exec {} = .ok s ∧
    s.vm.memoryRegions.length = 2 ^ 32 ∧ s.vm.nextSlot = 0 ∧
    s.vm.nextSlot.toNat ≠ s.vm.memoryRegions.length := by
  obtain ⟨s, hrun, hpaged⟩ := exists_paged (n := 2 ^ 32) (by norm_num)
  have hslot : s.vm.nextSlot = 0 := by
    rw [(@inv_run s [] _ hrun).nextSlot, hpaged.length]
    rfl
  refine ⟨s, hrun, hpaged.length, hslot, ?_⟩
  rw [hslot, hpaged.length]
  decide

end Ram

end MinBp
