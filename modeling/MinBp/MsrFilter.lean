import MinBp.Handlers
import Mathlib.Data.Finset.Card

/-!
# The MSR filter

`installFilter` turns the two callback tables of `MsrHandler` into a `kvm_msr_filter` : one range of
one MSR per registered index, with a bitmap of one word. `KvmMsrFilter.allows` is how KVM reads such
a filter. The first range that covers an index and has the flag of the access decides by its bit,
and a one allows. An access that no range covers is decided by the filter's own flags. Only a denied
access leaves the guest.

Every bitmap holds a one, so the filter denies nothing (`allows_installFilter`) and the indices with
callbacks are not trapped (`filter_traps_iff`). The merge of the tables is right : it has no
duplicates and loses nothing (`nodup_indices`, `mem_indices`). But a filter has room for sixteen
ranges, and `installFilter` drops the indices beyond without an error (`filter_complete_iff`).

`std::unordered_map` promises no order. What is proved holds for tables with their entries in any
order.
-/

namespace MinBp

variable {δ : Type}

/-! ## Filters as KVM reads them -/

/-- `KVM_MSR_FILTER_READ`. -/
def KVM_MSR_FILTER_READ : UInt32 := 1

/-- `KVM_MSR_FILTER_WRITE`. -/
def KVM_MSR_FILTER_WRITE : UInt32 := 2

/-- `KVM_MSR_FILTER_DEFAULT_ALLOW`. -/
def KVM_MSR_FILTER_DEFAULT_ALLOW : UInt32 := 0

/-- `KVM_MSR_FILTER_DEFAULT_DENY`. -/
def KVM_MSR_FILTER_DEFAULT_DENY : UInt32 := 1

/-- `KVM_MSR_FILTER_MAX_RANGES`. -/
def KVM_MSR_FILTER_MAX_RANGES : ℕ := 16

/-- `kvm_msr_filter_range`. The bitmap is the words that its pointer leads to, none for a null
pointer. -/
structure KvmMsrFilterRange where
  (flags nmsrs base : UInt32 := 0)
  bitmap : List UInt64 := []
  deriving DecidableEq, Repr

/-- `kvm_msr_filter`, an array of sixteen ranges and the flags for what they do not cover. -/
structure KvmMsrFilter where
  flags : UInt32 := 0
  ranges : List KvmMsrFilterRange
  length_ranges : ranges.length = KVM_MSR_FILTER_MAX_RANGES

/-- The two ways to access an MSR. -/
inductive MsrAccess where
  | read | write
  deriving DecidableEq, Repr

/-- The flag of a range for an access. -/
def MsrAccess.flag : MsrAccess → UInt32
  | .read => KVM_MSR_FILTER_READ
  | .write => KVM_MSR_FILTER_WRITE

namespace KvmMsrFilterRange

/-- The range decides about an access to the index. -/
def Covers (r : KvmMsrFilterRange) (access : MsrAccess) (index : UInt32) : Prop :=
  r.base.toNat ≤ index.toNat ∧ index.toNat < r.base.toNat + r.nmsrs.toNat ∧
    r.flags &&& access.flag ≠ 0

instance (r : KvmMsrFilterRange) (access : MsrAccess) (index : UInt32) :
    Decidable (r.Covers access index) :=
  inferInstanceAs (Decidable (_ ∧ _ ∧ _))

/-- A bit of the bitmap. -/
def bit (i : ℕ) (r : KvmMsrFilterRange) : Bool :=
  (r.bitmap.getD (i / 64) 0).toNat.testBit (i % 64)

end KvmMsrFilterRange

/-- KVM lets the guest access the index. A denied access is trapped. -/
def KvmMsrFilter.allows (access : MsrAccess) (index : UInt32) (f : KvmMsrFilter) : Bool :=
  match f.ranges.find? (fun r => r.Covers access index) with
  | some r => r.bit (index.toNat - r.base.toNat)
  | none => f.flags &&& KVM_MSR_FILTER_DEFAULT_DENY == 0

/-! ## The handler's filter -/

/-- `push_back` of what `find` does not find. -/
def pushAbsent {α : Type*} [DecidableEq α] (as : List α) (a : α) : List α :=
  if a ∈ as then as else as ++ [a]

namespace MsrHandler

/-- The indices of both tables, as `installFilter` collects them. -/
def indices (h : MsrHandler δ) : List UInt32 :=
  h.writeCallbacks.keys.foldl pushAbsent h.readCallbacks.keys

/-- The range of an index. Its bitmap is `std::vector<uint64_t>(1, 1ULL)`. -/
def filterRange (index : UInt32) : KvmMsrFilterRange where
  flags := KVM_MSR_FILTER_READ ||| KVM_MSR_FILTER_WRITE
  nmsrs := 1
  base := index
  bitmap := [1]

/-- The filter that is handed to `KVM_X86_SET_MSR_FILTER`. Ranges beyond the array are not
copied. -/
def filter (h : MsrHandler δ) : KvmMsrFilter :=
  let rangeCount := min h.indices.length KVM_MSR_FILTER_MAX_RANGES
  { flags := KVM_MSR_FILTER_DEFAULT_ALLOW
    ranges := (h.indices.take rangeCount).map filterRange ++
      List.replicate (KVM_MSR_FILTER_MAX_RANGES - rangeCount) {}
    length_ranges := by
      simp only [List.length_append, List.length_map, List.length_take, List.length_replicate]
      omega }

/-- `MsrHandler::installFilter` : the error it returns, and the filter it hands to KVM. `os` is the
outcome of the ioctl. Without an index there is no ioctl. -/
def installFilter (os : Option Errno) (h : MsrHandler δ) : Option Errno × Option KvmMsrFilter :=
  if h.indices = [] then (none, none) else (os, some h.filter)

/-- The index has a callback. -/
def Registered (h : MsrHandler δ) (index : UInt32) : Prop :=
  index ∈ h.readCallbacks ∨ index ∈ h.writeCallbacks

end MsrHandler

/-! ## The merge of the tables -/

section PushAbsent

variable {α : Type*} [DecidableEq α]

theorem mem_pushAbsent {as : List α} {a b : α} : b ∈ pushAbsent as a ↔ b ∈ as ∨ b = a := by
  unfold pushAbsent
  split_ifs with ha
  · constructor
    · exact Or.inl
    · rintro (hb | rfl)
      · exact hb
      · exact ha
  · simp

theorem mem_foldl_pushAbsent {bs as : List α} {b : α} :
    b ∈ bs.foldl pushAbsent as ↔ b ∈ as ∨ b ∈ bs := by
  induction bs generalizing as with
  | nil => simp
  | cons a bs ih => rw [List.foldl_cons, ih, mem_pushAbsent, List.mem_cons, or_assoc]

theorem nodup_foldl_pushAbsent {bs as : List α} (h : as.Nodup) :
    (bs.foldl pushAbsent as).Nodup := by
  induction bs generalizing as with
  | nil => exact h
  | cons a bs ih =>
    refine ih ?_
    unfold pushAbsent
    split_ifs with ha
    · exact h
    · exact h.append (List.nodup_singleton a) (by simpa using ha)

end PushAbsent

namespace MsrHandler

theorem mem_indices {h : MsrHandler δ} {index : UInt32} :
    index ∈ h.indices ↔ h.Registered index := by
  rw [indices, mem_foldl_pushAbsent, Registered, AList.mem_keys, AList.mem_keys]

theorem nodup_indices (h : MsrHandler δ) : h.indices.Nodup :=
  nodup_foldl_pushAbsent h.readCallbacks.keys_nodup

theorem indices_eq_nil_iff {h : MsrHandler δ} :
    h.indices = [] ↔ ∀ index, ¬h.Registered index := by
  simp only [List.eq_nil_iff_forall_not_mem, mem_indices]

/-! ## What the filter traps -/

/-- KVM's decision under the filter that was handed to it, if any. -/
def allowed (passed : Option KvmMsrFilter) (access : MsrAccess) (index : UInt32) : Bool :=
  passed.elim true (·.allows access index)

/-- Accesses to the indices with callbacks are trapped, and no others. -/
def TrapsRegistered (h : MsrHandler δ) (passed : Option KvmMsrFilter) : Prop :=
  ∀ access index, allowed passed access index = false ↔ h.Registered index

/-- A range that covers an index is the range of that index. -/
theorem eq_filterRange_of_covers {h : MsrHandler δ} {r : KvmMsrFilterRange} {access : MsrAccess}
    {index : UInt32} (hr : r ∈ h.filter.ranges) (hc : r.Covers access index) :
    r = filterRange index := by
  rcases List.mem_append.1 hr with hr | hr
  · obtain ⟨base, -, rfl⟩ := List.mem_map.1 hr
    obtain ⟨hle, hlt, -⟩ := hc
    change base.toNat ≤ index.toNat at hle
    change index.toNat < base.toNat + 1 at hlt
    rw [UInt32.toNat_inj.1 (Nat.le_antisymm hle (Nat.lt_succ_iff.1 hlt))]
  · obtain rfl := List.eq_of_mem_replicate hr
    exact absurd hc.2.1 (Nat.not_lt.2 hc.1)

/-- The filter allows every access. -/
theorem allows_filter (h : MsrHandler δ) (access : MsrAccess) (index : UInt32) :
    h.filter.allows access index = true := by
  unfold KvmMsrFilter.allows
  split
  · rename_i r hfind
    have hcov : r.Covers access index := by simpa using List.find?_some hfind
    obtain rfl := eq_filterRange_of_covers (List.mem_of_find?_eq_some hfind) hcov
    simp [KvmMsrFilterRange.bit, filterRange]
  · change (KVM_MSR_FILTER_DEFAULT_ALLOW &&& KVM_MSR_FILTER_DEFAULT_DENY == 0) = true
    decide

theorem allows_installFilter (h : MsrHandler δ) (os : Option Errno) (access : MsrAccess)
    (index : UInt32) : allowed (h.installFilter os).2 access index = true := by
  unfold installFilter
  split_ifs
  · rfl
  · exact h.allows_filter access index

/-- The filter traps the indices with callbacks, and no others, if and only if there is none. -/
theorem filter_traps_iff (h : MsrHandler δ) (os : Option Errno) :
    h.TrapsRegistered (h.installFilter os).2 ↔ ∀ index, ¬h.Registered index := by
  simp only [TrapsRegistered, allows_installFilter]
  constructor
  · intro htraps index hreg
    exact Bool.noConfusion ((htraps .read index).2 hreg)
  · intro hnone access index
    exact ⟨fun hf => Bool.noConfusion hf, fun hreg => absurd hreg (hnone index)⟩

/-- A handler with a callback for reads of the time-stamp counter. -/
def tscReader : MsrHandler Unit :=
  ({} : MsrHandler Unit).registerRead 0x10 fun _ dev => (0x1234, dev)

/-- The filter allows what it was installed to trap. -/
theorem filter_allows_tsc :
    tscReader.Registered 0x10 ∧
      (∃ f, tscReader.installFilter none = (none, some f) ∧ f.allows .read 0x10 = true) ∧
      ¬tscReader.TrapsRegistered (tscReader.installFilter none).2 := by
  have hreg : tscReader.Registered 0x10 := .inl (AList.mem_insert _ |>.2 (.inl rfl))
  refine ⟨hreg, ⟨_, rfl, tscReader.allows_filter .read 0x10⟩, fun htraps => ?_⟩
  have hdenied := (htraps .read 0x10).2 hreg
  rw [allows_installFilter] at hdenied
  cases hdenied

/-! ## What the filter holds -/

/-- The indices with callbacks. -/
def registered (h : MsrHandler δ) : Finset UInt32 :=
  h.readCallbacks.keys.toFinset ∪ h.writeCallbacks.keys.toFinset

theorem card_registered (h : MsrHandler δ) : h.registered.card = h.indices.length := by
  rw [← List.toFinset_card_of_nodup h.nodup_indices]
  congr 1
  ext index
  rw [registered, Finset.mem_union, List.mem_toFinset, List.mem_toFinset, List.mem_toFinset,
    mem_indices, Registered, AList.mem_keys, AList.mem_keys]

end MsrHandler

/-- The range at a position is not empty and starts at the index. -/
def KvmMsrFilter.RangeAt (f : KvmMsrFilter) (i : ℕ) (index : UInt32) : Prop :=
  ∃ r, f.ranges[i]? = some r ∧ r.nmsrs ≠ 0 ∧ r.base = index

namespace MsrHandler

/-- An `installFilter` that succeeds has handed over one range for each index with a callback and no
others, and it fails if they do not fit. -/
structure FilterComplete (h : MsrHandler δ) (os : Option Errno) : Prop where
  complete : (h.installFilter os).1 = none → ∀ index, h.Registered index →
    ∃ f, (h.installFilter os).2 = some f ∧ ∃! i, f.RangeAt i index
  sound : (h.installFilter os).1 = none → ∀ f ∈ (h.installFilter os).2, ∀ i index,
    f.RangeAt i index → h.Registered index
  fits : KVM_MSR_FILTER_MAX_RANGES < h.registered.card → (h.installFilter os).1 ≠ none

/-- The ranges are those of the first sixteen indices. -/
theorem rangeAt_filter_iff {h : MsrHandler δ} {i : ℕ} {index : UInt32} :
    h.filter.RangeAt i index ↔
      i < KVM_MSR_FILTER_MAX_RANGES ∧ h.indices[i]? = some index := by
  have hlen : ((h.indices.take (min h.indices.length KVM_MSR_FILTER_MAX_RANGES)).map
      filterRange).length = min h.indices.length KVM_MSR_FILTER_MAX_RANGES := by
    simp
  unfold KvmMsrFilter.RangeAt filter
  constructor
  · rintro ⟨r, hr, hne, rfl⟩
    dsimp only at hr
    by_cases hi : i < min h.indices.length KVM_MSR_FILTER_MAX_RANGES
    · rw [List.getElem?_append_left (by rwa [hlen]), List.getElem?_map,
        List.getElem?_take_of_lt hi] at hr
      obtain ⟨index, hindex, rfl⟩ := Option.map_eq_some_iff.1 hr
      exact ⟨by omega, hindex⟩
    · rw [List.getElem?_append_right (by omega)] at hr
      obtain rfl := List.eq_of_mem_replicate (List.mem_of_getElem? hr)
      exact absurd rfl hne
  · rintro ⟨hi, hindex⟩
    have hlt := (List.getElem?_eq_some_iff.1 hindex).1
    refine ⟨filterRange index, ?_, by simp [filterRange], rfl⟩
    dsimp only
    rw [List.getElem?_append_left (by rw [hlen]; omega), List.getElem?_map,
      List.getElem?_take_of_lt (by omega), hindex, Option.map_some]

/-- While the indices fit, each has its range. -/
theorem existsUnique_rangeAt {h : MsrHandler δ}
    (hfits : h.indices.length ≤ KVM_MSR_FILTER_MAX_RANGES) {index : UInt32}
    (hreg : h.Registered index) : ∃! i, h.filter.RangeAt i index := by
  obtain ⟨i, hi, hindex⟩ := List.getElem_of_mem (mem_indices.2 hreg)
  have hsome : h.indices[i]? = some index := by rw [List.getElem?_eq_getElem hi, hindex]
  refine ⟨i, rangeAt_filter_iff.2 ⟨by omega, hsome⟩, fun j hj => ?_⟩
  obtain ⟨-, hj⟩ := rangeAt_filter_iff.1 hj
  exact ((List.getElem?_inj hi h.nodup_indices).1 (hsome.trans hj.symm)).symm

/-- No index is dropped if and only if there are at most sixteen or the ioctl fails. -/
theorem filter_complete_iff (h : MsrHandler δ) (os : Option Errno) :
    h.FilterComplete os ↔ h.registered.card ≤ KVM_MSR_FILTER_MAX_RANGES ∨ os ≠ none := by
  constructor
  · intro hc
    by_contra hnot
    rw [not_or, not_le, not_not] at hnot
    obtain ⟨hcard, rfl⟩ := hnot
    refine hc.fits hcard ?_
    unfold installFilter
    split_ifs <;> rfl
  · intro hcond
    rw [card_registered] at hcond
    have hsuccess : h.indices ≠ [] → (h.installFilter os).1 = none →
        h.indices.length ≤ KVM_MSR_FILTER_MAX_RANGES := by
      intro hne hok
      rw [installFilter, if_neg hne] at hok
      exact hcond.resolve_right fun hos => hos hok
    refine ⟨fun hok index hreg => ?_, fun hok f hf i index hrange => ?_, fun hcard hok => ?_⟩
    · have hne : h.indices ≠ [] := fun hnil => indices_eq_nil_iff.1 hnil index hreg
      exact ⟨h.filter, by rw [installFilter, if_neg hne],
        existsUnique_rangeAt (hsuccess hne hok) hreg⟩
    · unfold installFilter at hf
      split_ifs at hf with hnil
      · simp at hf
      · obtain rfl : h.filter = f := by simpa using hf
        exact mem_indices.1 (List.mem_of_getElem? (rangeAt_filter_iff.1 hrange).2)
    · rw [card_registered] at hcard
      have hne : h.indices ≠ [] := fun hnil => by simp [hnil] at hcard
      exact absurd (hsuccess hne hok) (Nat.not_le.2 hcard)

/-- A handler with seventeen read callbacks. -/
def seventeenReaders : MsrHandler Unit :=
  (List.range 17).foldl (fun h i => h.registerRead (UInt32.ofNat i) fun _ dev => (0, dev)) {}

/-- With seventeen indices `installFilter` succeeds, and one of them has no range. -/
theorem filter_drops_index :
    seventeenReaders.registered.card = 17 ∧
      seventeenReaders.installFilter none = (none, some seventeenReaders.filter) ∧
      seventeenReaders.Registered 0 ∧ (∀ i, ¬seventeenReaders.filter.RangeAt i 0) ∧
      ¬seventeenReaders.FilterComplete none := by
  have hindices : seventeenReaders.indices =
      [16, 15, 14, 13, 12, 11, 10, 9, 8, 7, 6, 5, 4, 3, 2, 1, 0] := by decide
  have hcard : seventeenReaders.registered.card = 17 := by rw [card_registered, hindices]; rfl
  have hreg : seventeenReaders.Registered 0 := mem_indices.1 (by rw [hindices]; decide)
  refine ⟨hcard, by rw [installFilter, if_neg (by simp [hindices])], hreg, fun i hi => ?_, ?_⟩
  · obtain ⟨hlt, hi⟩ := rangeAt_filter_iff.1 hi
    rw [hindices] at hi
    have hmem : (0 : UInt32) ∈ [16, 15, 14, 13, 12, 11, 10, 9, 8, 7, 6, 5, 4, 3, 2, 1] := by
      refine List.mem_of_getElem? (i := i) ?_
      rw [← hi]
      exact (List.getElem?_append_left hlt).symm
    exact absurd hmem (by decide)
  · intro hc
    exact hc.fits (by rw [hcard]; decide) (by rw [installFilter, if_neg (by simp [hindices])])

end MsrHandler

end MinBp
