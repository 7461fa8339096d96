import MinBp.VCpu

/-!
# Guest memory regions

`MemoryRegion` owns one host mapping. Its bytes are `host`, `none` for the null pointer that a move
leaves behind, and the structure carries the two facts the code relies on : the mapping is `size`
bytes long, and the guest-physical range does not wrap, since `KVM_SET_USER_MEMORY_REGION` refuses a
range that does.

`mmap` and the ioctl are outside the repository. `MapOutcome` says whether they fail.

Memory accesses that C++ leaves undefined, and failed assertions, are values of `Fault`.
-/

open Bytes

namespace MinBp

/-- How an operation can go wrong without returning an error. -/
inductive Fault where
  /-- An `assert` fails. -/
  | assertFailed
  /-- An access outside an array, a vector or a mapping. -/
  | outOfBounds
  /-- An access through a null pointer. -/
  | nullPointer
  deriving DecidableEq, Repr

/-- `memcpy` of `n` bytes between two objects, checked against the extent of both. -/
def memcpy (dst src : List UInt8) (n : ℕ) : Except Fault (List UInt8) :=
  if n ≤ dst.length ∧ n ≤ src.length then .ok (src.take n ++ dst.drop n) else .error .outOfBounds

/-- `bs` with `data` written from offset `off` on. -/
def overwrite (bs : List UInt8) (off : ℕ) (data : List UInt8) : List UInt8 :=
  bs.take off ++ data ++ bs.drop (off + data.length)

theorem length_overwrite {bs data : List UInt8} {off : ℕ} (h : off + data.length ≤ bs.length) :
    (overwrite bs off data).length = bs.length := by
  simp only [overwrite, List.length_append, List.length_take, List.length_drop]
  omega

/-- The bytes after an overwrite that stays inside. -/
theorem getElem?_overwrite {bs data : List UInt8} {off : ℕ} (h : off + data.length ≤ bs.length)
    (i : ℕ) : (overwrite bs off data)[i]? =
      if off ≤ i ∧ i < off + data.length then data[i - off]? else bs[i]? := by
  have htake : (bs.take off).length = off := by
    rw [List.length_take]
    omega
  rcases Nat.lt_or_ge i off with hi | hi
  · rw [overwrite, List.append_assoc, List.getElem?_append_left (by omega), if_neg (by omega),
      List.getElem?_take_of_lt hi]
  · rw [overwrite, List.append_assoc, List.getElem?_append_right (by omega), htake]
    rcases Nat.lt_or_ge i (off + data.length) with hi' | hi'
    · rw [List.getElem?_append_left (by omega), if_pos ⟨hi, hi'⟩]
    · rw [List.getElem?_append_right (by omega), if_neg (by omega), List.getElem?_drop]
      congr 1
      omega

/-- A region of guest-physical memory and the host mapping behind it. -/
@[ext] structure MemoryRegion where
  slot : UInt32
  guestPhysAddr : UInt64
  size : UInt64
  /-- The bytes at `m_hostAddr`, `none` for the null pointer. -/
  host : Option (List UInt8)
  host_length : ∀ bs ∈ host, bs.length = size.toNat
  no_wrap : guestPhysAddr.toNat + size.toNat < 2 ^ 64

/-- The outcome of the two system calls of `MemoryRegion::create`. -/
structure MapOutcome where
  mmap : Option Errno := none
  setUserMemoryRegion : Option Errno := none

namespace MemoryRegion

/-- `MemoryRegion::create`. A fresh anonymous mapping is zero. `mmap` refuses length zero, and KVM
refuses a range that wraps. -/
def create (os : MapOutcome) (slot : UInt32) (guestPhysAddr size : UInt64) (_flags : UInt32) :
    Except Errno MemoryRegion :=
  match os.mmap with
  | some e => .error e
  | none =>
    if size = 0 then .error EINVAL
    else
      match os.setUserMemoryRegion with
      | some e => .error e
      | none =>
        if h : guestPhysAddr.toNat + size.toNat < 2 ^ 64 then
          .ok
            { slot, guestPhysAddr, size
              host := some (List.replicate size.toNat 0)
              host_length := by simp
              no_wrap := h }
        else .error EINVAL

/-- The region with the mapping `bs` in place of its own. -/
def setHost (r : MemoryRegion) (bs : List UInt8) (h : bs.length = r.size.toNat) : MemoryRegion :=
  { r with
    host := some bs
    host_length := by simpa using h }

/-- `MemoryRegion::write`. The assertion adds two `size_t`, so it can wrap. -/
def write (r : MemoryRegion) (guestOffset : UInt64) (data : List UInt8) :
    Except Fault MemoryRegion :=
  if guestOffset + UInt64.ofNat data.length ≤ r.size then
    match hr : r.host with
    | none => .error .nullPointer
    | some bs =>
      if h : guestOffset.toNat + data.length ≤ bs.length then
        .ok (r.setHost (overwrite bs guestOffset.toNat data)
          ((length_overwrite h).trans (r.host_length bs (by simp [hr]))))
      else .error .outOfBounds
  else .error .assertFailed

/-- `MemoryRegion::read` of `n` bytes. The assertion can wrap as in `write`. -/
def read (r : MemoryRegion) (guestOffset n : UInt64) : Except Fault (List UInt8) :=
  if guestOffset + n ≤ r.size then
    match r.host with
    | none => .error .nullPointer
    | some bs =>
      if guestOffset.toNat + n.toNat ≤ bs.length then
        .ok ((bs.drop guestOffset.toNat).take n.toNat)
      else .error .outOfBounds
  else .error .assertFailed

/-- The region after the guest has stored the bytes `ram` in it. -/
def setRam (ram : Buffer) (r : MemoryRegion) : MemoryRegion :=
  { r with
    host := r.host.map fun bs => bs.mapIdx fun i _ => ram i
    host_length := by
      intro bs hbs
      obtain ⟨bs', hbs', rfl⟩ := Option.mem_map.1 hbs
      simpa using r.host_length bs' hbs' }

/-! ## Shape -/

/-- Two regions that differ at most in the bytes of their mapping. -/
structure SameShape (r r' : MemoryRegion) : Prop where
  slot : r'.slot = r.slot
  guestPhysAddr : r'.guestPhysAddr = r.guestPhysAddr
  size : r'.size = r.size
  mapped : r'.host.isSome = r.host.isSome

theorem SameShape.refl (r : MemoryRegion) : SameShape r r :=
  ⟨rfl, rfl, rfl, rfl⟩

theorem SameShape.trans {r r' r'' : MemoryRegion} (h : SameShape r r') (h' : SameShape r' r'') :
    SameShape r r'' :=
  ⟨h'.slot.trans h.slot, h'.guestPhysAddr.trans h.guestPhysAddr, h'.size.trans h.size,
    h'.mapped.trans h.mapped⟩

/-- A region is created only if no call fails. It is in the slot that is asked for, and zero. -/
theorem create_inv {os : MapOutcome} {slot : UInt32} {addr size : UInt64} {flags : UInt32}
    {r : MemoryRegion} (h : create os slot addr size flags = .ok r) :
    os.setUserMemoryRegion = none ∧ r.slot = slot ∧ r.guestPhysAddr = addr ∧ r.size = size ∧
      r.host = some (List.replicate size.toNat 0) := by
  unfold create at h
  cases hm : os.mmap with
  | some e => simp [hm] at h
  | none =>
    cases hs : os.setUserMemoryRegion with
    | some e =>
      simp only [hm, hs] at h
      split at h <;> cases h
    | none =>
      simp only [hm, hs] at h
      split_ifs at h
      cases h
      exact ⟨rfl, rfl, rfl, rfl, rfl⟩

/-- A new region is zero. -/
theorem create_eq {os : MapOutcome} {slot : UInt32} {addr size : UInt64} {flags : UInt32}
    {r : MemoryRegion} (h : create os slot addr size flags = .ok r) :
    r.guestPhysAddr = addr ∧ r.size = size ∧ r.host = some (List.replicate size.toNat 0) :=
  (create_inv h).2.2

/-- A region is created if its size is not zero, its range does not wrap and no call fails. -/
theorem create_ok {slot : UInt32} {addr size : UInt64} {flags : UInt32} (hne : size ≠ 0)
    (hwrap : addr.toNat + size.toNat < 2 ^ 64) : ∃ r, create {} slot addr size flags = .ok r := by
  simp only [create, hne, if_false]
  rw [dif_pos hwrap]
  exact ⟨_, rfl⟩

/-- A read inside the mapping returns its bytes. -/
theorem read_ok {r : MemoryRegion} {off n : UInt64} {bs : List UInt8} (hr : r.host = some bs)
    (hfit : off.toNat + n.toNat ≤ bs.length) :
    r.read off n = .ok ((bs.drop off.toNat).take n.toNat) := by
  have hlen := r.host_length bs (by simp [hr])
  have hlt := r.size.toNat_lt
  have hle : off + n ≤ r.size := by
    rw [UInt64.le_iff_toNat_le, UInt64.toNat_add, Nat.mod_eq_of_lt (by omega)]
    omega
  simp only [read, if_pos hle, hr, if_pos hfit]

/-- A write inside the mapping returns. -/
theorem write_ok {r : MemoryRegion} {off : UInt64} {data bs : List UInt8} (hr : r.host = some bs)
    (hfit : off.toNat + data.length ≤ bs.length) : ∃ r', r.write off data = .ok r' := by
  have hlen := r.host_length bs (by simp [hr])
  have hlt := r.size.toNat_lt
  have hsum : (off + UInt64.ofNat data.length).toNat = off.toNat + data.length := by
    rw [UInt64.toNat_add, UInt64.toNat_ofNat_of_lt' (by rw [UInt64.size]; omega),
      Nat.mod_eq_of_lt (by omega)]
  have hle : off + UInt64.ofNat data.length ≤ r.size := by
    rw [UInt64.le_iff_toNat_le, hsum]
    omega
  rw [write, if_pos hle]
  split
  · rename_i hnone
    simp [hr] at hnone
  · rename_i bs' hbs'
    obtain rfl : bs = bs' := by simpa [hr] using hbs'
    exact ⟨_, dif_pos hfit⟩

/-- A write that returns stays inside the mapping. -/
theorem write_eq {r r' : MemoryRegion} {off : UInt64} {data : List UInt8}
    (h : r.write off data = .ok r') : ∃ bs, r.host = some bs ∧
      off.toNat + data.length ≤ bs.length ∧ r'.host = some (overwrite bs off.toNat data) ∧
      SameShape r r' := by
  unfold write at h
  split at h
  · split at h
    · cases h
    · rename_i bs hbs
      split at h
      · rename_i hfit
        cases h
        exact ⟨bs, hbs, hfit, rfl, rfl, rfl, rfl, by simp [setHost, hbs]⟩
      · cases h
  · cases h

/-- A write keeps the shape. -/
theorem sameShape_of_write {r r' : MemoryRegion} {off : UInt64} {data : List UInt8}
    (h : r.write off data = .ok r') : SameShape r r' := by
  obtain ⟨-, -, -, -, hs⟩ := write_eq h
  exact hs

/-- Guest stores keep the shape. -/
theorem sameShape_setRam (ram : Buffer) (r : MemoryRegion) : SameShape r (r.setRam ram) :=
  ⟨rfl, rfl, rfl, by simp [setRam]⟩

/-- Memory that the guest fills with one byte. -/
theorem host_setRam_const (r : MemoryRegion) (b : UInt8) :
    (r.setRam fun _ => b).host = r.host.map fun _ => List.replicate r.size.toNat b := by
  rcases hr : r.host with _ | bs
  · simp [setRam, hr]
  · have hlen := r.host_length bs (by simp [hr])
    simp [setRam, hr, ← hlen, List.eq_replicate_iff]

/-- A region of the same shape with the same bytes is the same region. -/
theorem SameShape.eq_of_host {r r' : MemoryRegion} (h : SameShape r r') (hh : r'.host = r.host) :
    r' = r :=
  MemoryRegion.ext h.slot h.guestPhysAddr h.size hh

end MemoryRegion

end MinBp
