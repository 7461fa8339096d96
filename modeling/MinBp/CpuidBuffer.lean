import MinBp.CpuidTable
import MinBp.Layout

/-!
# The bytes of `KVM_SET_CPUID2`

`VCpu::installCpuid` builds the argument of the ioctl by hand. It reserves a header and the entries
in a zeroed byte vector, puts the number of entries, cut to 32 bits, into the header and copies the
entries behind it.

`cpuidBytes_image` says which bytes the ioctl is handed. No store leaves the vector, every entry
lies where the struct has it, and different tables give different vectors. The header announces all
of the entries if and only if there are fewer than `2 ^ 32` : with more, the count has wrapped.
What KVM makes of the vector is not part of the model.
-/

namespace MinBp

open Bytes

/-- `kvm_cpuid_entry2` with its `padding[3]`. -/
structure PaddedCpuidEntry2 extends KvmCpuidEntry2 where
  padding : UInt32 × UInt32 × UInt32 := (0, 0, 0)
  deriving DecidableEq, Repr

namespace PaddedCpuidEntry2

/-- `kvm_cpuid_entry2` in memory : ten words. -/
def layout : Layout PaddedCpuidEntry2 :=
  let w := Layout.word
  Layout.fields
    (w.prod <| w.prod <| w.prod <| w.prod <| w.prod <| w.prod <| w.prod <| w.prod <| w.prod w)
    (fun e => (e.function, e.index, e.flags, e.eax, e.ebx, e.ecx, e.edx, e.padding))
    (fun (function, index, flags, eax, ebx, ecx, edx, padding) =>
      { function, index, flags, eax, ebx, ecx, edx, padding })
    (fun _ => rfl)

/-- `sizeof(kvm_cpuid_entry2)`. -/
theorem size_layout : layout.size = 40 := rfl

end PaddedCpuidEntry2

/-- `std::vector<kvm_cpuid_entry2>`. Its bytes are counted by a `ptrdiff_t`. -/
structure CpuidEntries where
  elems : List PaddedCpuidEntry2
  bytes_lt : elems.length * 40 < 2 ^ 63

/-- `sizeof(kvm_cpuid2)` : `nent` and a word of padding. The entries start behind it. -/
def sizeofKvmCpuid2 : UInt64 := 8

/-- `sizeof(kvm_cpuid_entry2)`. -/
def sizeofKvmCpuidEntry2 : UInt64 := 40

/-- The vector `VCpu::installCpuid` fills, unless it writes outside of it. -/
def VCpu.cpuidBytes (entries : CpuidEntries) : Option (List UInt8) := do
  let count := UInt64.ofNat entries.elems.length
  let size := sizeofKvmCpuid2 + count * sizeofKvmCpuidEntry2
  let buf := List.replicate size.toNat 0
  let buf ← patch buf 0 (Layout.word.bytes count.toUInt32)
  patch buf sizeofKvmCpuid2.toNat
    ((PaddedCpuidEntry2.layout.arrayBytes entries.elems).take (count * sizeofKvmCpuidEntry2).toNat)

/-- The bytes of a `kvm_cpuid2` : the count, a word of zeros and the entries behind each other. -/
structure Cpuid2Image (buf : List UInt8) (nent : UInt32) (es : List PaddedCpuidEntry2) : Prop where
  length : buf.length = 8 + 40 * es.length
  nent : buf.take 4 = Layout.word.bytes nent
  padding : (buf.drop 4).take 4 = List.replicate 4 0
  entry : ∀ (i : ℕ) (e : PaddedCpuidEntry2), es[i]? = some e →
    (buf.drop (8 + 40 * i)).take 40 = PaddedCpuidEntry2.layout.bytes e

/-! ## What `installCpuid` writes -/

/-- The sizes of `installCpuid` do not wrap. -/
theorem CpuidEntries.toNat_bytes (entries : CpuidEntries) :
    (UInt64.ofNat entries.elems.length * sizeofKvmCpuidEntry2).toNat =
      entries.elems.length * 40 := by
  have := entries.bytes_lt
  rw [UInt64.toNat_mul, UInt64.toNat_ofNat']
  simp only [sizeofKvmCpuidEntry2, UInt64.reduceToNat]
  omega

theorem CpuidEntries.toNat_size (entries : CpuidEntries) :
    (sizeofKvmCpuid2 + UInt64.ofNat entries.elems.length * sizeofKvmCpuidEntry2).toNat =
      8 + entries.elems.length * 40 := by
  have := entries.bytes_lt
  rw [UInt64.toNat_add, entries.toNat_bytes]
  simp only [sizeofKvmCpuid2, UInt64.reduceToNat]
  omega

/-- The header : a count, then a word of zeros. -/
def cpuidHeader (nent : UInt32) : List UInt8 :=
  Layout.word.bytes nent ++ List.replicate 4 0

theorem length_cpuidHeader (nent : UInt32) : (cpuidHeader nent).length = 8 := by
  rw [cpuidHeader, List.length_append, Layout.word.length_bytes, List.length_replicate]
  rfl

/-- The count goes to the front of the zeroed vector. -/
theorem patch_nent (nent : UInt32) (k : ℕ) :
    patch (List.replicate (8 + k) 0) 0 (Layout.word.bytes nent) =
      some (cpuidHeader nent ++ List.replicate k 0) := by
  have hzeros : List.replicate (8 + k) (0 : UInt8) =
      [] ++ List.replicate 4 0 ++ (List.replicate 4 0 ++ List.replicate k 0) := by
    simp only [List.nil_append, List.replicate_append_replicate]
    congr 1
    omega
  have h := patch_append [] (List.replicate 4 0) (List.replicate 4 0 ++ List.replicate k 0)
    (Layout.word.bytes nent) (by rw [List.length_replicate, Layout.word.length_bytes]; rfl)
  rwa [← hzeros, List.nil_append, ← List.append_assoc] at h

/-- The vector holds the header and the entries. -/
theorem VCpu.cpuidBytes_eq (entries : CpuidEntries) :
    VCpu.cpuidBytes entries = some (cpuidHeader (UInt32.ofNat entries.elems.length) ++
      PaddedCpuidEntry2.layout.arrayBytes entries.elems) := by
  set header := cpuidHeader (UInt32.ofNat entries.elems.length)
  set table := PaddedCpuidEntry2.layout.arrayBytes entries.elems with htable
  have hlength : table.length = entries.elems.length * 40 := by
    rw [htable, Layout.length_arrayBytes, PaddedCpuidEntry2.size_layout]
  have hcopy := patch_append header (List.replicate (entries.elems.length * 40) 0) [] table
    (by rw [List.length_replicate, hlength])
  rw [length_cpuidHeader, List.append_nil, List.append_nil] at hcopy
  simp only [VCpu.cpuidBytes, entries.toNat_size, entries.toNat_bytes, UInt64.toUInt32_ofNat',
    patch_nent, Option.bind_eq_bind, Option.bind_some, ← htable]
  rw [List.take_of_length_le hlength.le]
  exact hcopy

/-! ## What the vector holds -/

namespace Cpuid2Image

/-- A header with the entries behind it. -/
theorem of_append (nent : UInt32) (es : List PaddedCpuidEntry2) :
    Cpuid2Image (cpuidHeader nent ++ PaddedCpuidEntry2.layout.arrayBytes es) nent es where
  length := by
    rw [List.length_append, length_cpuidHeader, Layout.length_arrayBytes,
      PaddedCpuidEntry2.size_layout, Nat.mul_comm]
  nent := by
    rw [cpuidHeader, List.append_assoc]
    exact List.take_left' (Layout.word.length_bytes nent)
  padding := by
    have hword : (Layout.word.bytes nent).length = 4 := Layout.word.length_bytes nent
    rw [cpuidHeader, List.append_assoc, List.drop_left' hword]
    exact List.take_left' List.length_replicate
  entry i e he := by
    rw [← List.drop_drop, List.drop_left' (length_cpuidHeader nent)]
    exact PaddedCpuidEntry2.layout.slice_arrayBytes he

/-- The vector determines the entries, whatever its header says. -/
theorem entries_eq {buf : List UInt8} {nent nent' : UInt32} {es es' : List PaddedCpuidEntry2}
    (h : Cpuid2Image buf nent es) (h' : Cpuid2Image buf nent' es') : es = es' := by
  have hlen : es.length = es'.length := by
    have := h.length.symm.trans h'.length
    omega
  refine List.ext_getElem hlen fun i hi hi' => ?_
  exact PaddedCpuidEntry2.layout.bytes_injective
    ((h.entry i _ (List.getElem?_eq_getElem hi)).symm.trans
      (h'.entry i _ (List.getElem?_eq_getElem hi')))

end Cpuid2Image

/-- The argument of `KVM_SET_CPUID2`. What `installCpuid` writes stays in its vector, which is the
image of `VCpu.cpuidBuffer` and tells tables apart. The count in the header is the number of entries
modulo `2 ^ 32`, so the entries that it announces lie in the vector, and they are all of them if and
only if there are fewer than `2 ^ 32`. -/
theorem cpuidBytes_image (entries : CpuidEntries) :
    ∃ buf, VCpu.cpuidBytes entries = some buf ∧
      Cpuid2Image buf (VCpu.cpuidBuffer (entries.elems.map (·.toKvmCpuidEntry2))).nent
        entries.elems ∧
      (∀ entries', VCpu.cpuidBytes entries' = some buf → entries' = entries) ∧
      value (buf.take 4) = entries.elems.length % 2 ^ 32 ∧
      8 + 40 * value (buf.take 4) ≤ buf.length ∧
      (8 + 40 * value (buf.take 4) = buf.length ↔ entries.elems.length < 2 ^ 32) := by
  have himage := Cpuid2Image.of_append (UInt32.ofNat entries.elems.length) entries.elems
  have hcount : value ((cpuidHeader (UInt32.ofNat entries.elems.length) ++
      PaddedCpuidEntry2.layout.arrayBytes entries.elems).take 4) =
        entries.elems.length % 2 ^ 32 := by
    rw [himage.nent]
    show value (encode 4 _) = _
    rw [value_encode, UInt32.toNat_ofNat']
    exact Nat.mod_mod ..
  refine ⟨_, VCpu.cpuidBytes_eq entries, ?_, ?_, hcount, ?_, ?_⟩
  · rwa [VCpu.cpuidBuffer, List.length_map]
  · intro entries' h
    have himage' := Cpuid2Image.of_append (UInt32.ofNat entries'.elems.length) entries'.elems
    rw [Option.some_inj.1 ((VCpu.cpuidBytes_eq entries').symm.trans h)] at himage'
    cases entries
    cases entries'
    congr 1
    exact himage'.entries_eq himage
  · rw [hcount, himage.length]
    have := Nat.mod_le entries.elems.length (2 ^ 32)
    omega
  · rw [hcount, himage.length]
    omega

end MinBp
