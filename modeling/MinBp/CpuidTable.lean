import MinBp.InstructionTrapper

/-!
# The CPUID table of `main`

Before the guest runs, `main` asks the host for a list of leaves, masks the hypervisor-present bit
of leaf one, caps the highest leaf, publishes each leaf as an event and installs the table. The
entry is copied into the table before it is masked, so the events show the masked values and the
installed table the host's.

`Intended` is the table the comment above the loop describes, logged and masked. `cpuidTable_iff`
says for which hosts the code produces it.
-/

namespace MinBp

variable {δ ω : Type}

/-- `kvm_cpuid_entry2`, without its padding. -/
structure KvmCpuidEntry2 where
  (function index flags : UInt32 := 0)
  (eax ebx ecx edx : UInt32 := 0)
  deriving DecidableEq, Repr

/-- `kvm_cpuid2`, the argument of `KVM_SET_CPUID2`. -/
structure KvmCpuid2 where
  nent : UInt32
  entries : List KvmCpuidEntry2
  deriving DecidableEq, Repr

/-- The buffer `VCpu::installCpuid` passes to KVM. -/
def VCpu.cpuidBuffer (entries : List KvmCpuidEntry2) : KvmCpuid2 where
  nent := UInt32.ofNat entries.length
  entries := entries

namespace Main

/-- The leaves of the table. -/
def cpuidLeaves : List UInt32 :=
  [0x00, 0x01, 0x02, 0x07, 0x80000000, 0x80000001, 0x80000002, 0x80000003, 0x80000004]

/-- The entry for a leaf as the host answers it. -/
def hostEntry (host : HostCpuid) (leaf : UInt32) : KvmCpuidEntry2 where
  function := leaf
  eax := (host leaf 0).eax
  ebx := (host leaf 0).ebx
  ecx := (host leaf 0).ecx
  edx := (host leaf 0).edx

/-- The two modifications of an entry. -/
def modifyEntry (leaf : UInt32) (e : KvmCpuidEntry2) : KvmCpuidEntry2 :=
  let e := if leaf = 0x01 then { e with ecx := e.ecx &&& ~~~((1 : UInt32) <<< 31) } else e
  if leaf = 0x00 then { e with eax := min e.eax 0x0B } else e

/-- The event for an entry. -/
def cpuidEvent (leaf : UInt32) (e : KvmCpuidEntry2) (t : TimePoint) : HvEvent where
  type := .cpuidAccess
  vcpuId := 0
  rip := 0
  payload := .cpuid
    { leaf, subleaf := 0, eax := e.eax, ebx := e.ebx, ecx := e.ecx, edx := e.edx }
  timestamp := t

/-- One round of the loop. -/
def cpuidRound (host : HostCpuid) (p : List KvmCpuidEntry2 × Hypervisor δ ω) (leaf : UInt32) :
    List KvmCpuidEntry2 × Hypervisor δ ω :=
  let e := hostEntry host leaf
  -- `push_back` copies the entry as it is here
  let cpuidEntries := p.1 ++ [e]
  let e := modifyEntry leaf e
  (cpuidEntries, p.2.emit fun _ t => cpuidEvent leaf e t)

/-- The loop : the table passed to `installCpuid`, and the events published on the way. -/
def cpuidTable (host : HostCpuid) (s : Hypervisor δ ω) :
    List KvmCpuidEntry2 × Hypervisor δ ω :=
  cpuidLeaves.foldl (cpuidRound host) ([], s)

/-! ## What is asked of the table -/

/-- The events `evs` report the entries one by one. -/
def Logged (entries : List KvmCpuidEntry2) (evs : List HvEvent) : Prop :=
  evs.map (·.payload) = entries.map fun e => .cpuid
    { leaf := e.function, subleaf := 0, eax := e.eax, ebx := e.ebx, ecx := e.ecx, edx := e.edx }

/-- The entry hides the hypervisor, and is otherwise the host's. -/
structure Masked (host : HostCpuid) (e : KvmCpuidEntry2) : Prop where
  ecx_one : e.function = 1 → e.ecx.toNat.testBit 31 = false ∧
    ∀ i < 31, e.ecx.toNat.testBit i = (host 1 0).ecx.toNat.testBit i
  eax_zero : e.function = 0 → e.eax = min (host 0 0).eax 0x0B
  eax : e.function ≠ 0 → e.eax = (host e.function 0).eax
  ebx : e.ebx = (host e.function 0).ebx
  ecx : e.function ≠ 1 → e.ecx = (host e.function 0).ecx
  edx : e.edx = (host e.function 0).edx

/-- The table is the one that is logged, covers the leaves, and hides the hypervisor. -/
structure Intended (host : HostCpuid) (cpuid2 : KvmCpuid2) (evs : List HvEvent) : Prop where
  count : cpuid2.nent.toNat = cpuid2.entries.length
  leaves : cpuid2.entries.map (·.function) = cpuidLeaves
  logged : Logged cpuid2.entries evs
  masked : ∀ e ∈ cpuid2.entries, Masked host e

/-! ## The loop -/

/-- The event maker for a leaf. -/
def leafEvent (host : HostCpuid) (leaf : UInt32) : EventMaker := fun _ t =>
  cpuidEvent leaf (modifyEntry leaf (hostEntry host leaf)) t

/-- The loop copies the host's entries and publishes the modified ones. -/
theorem foldl_cpuidRound (host : HostCpuid) (leaves : List UInt32) (es : List KvmCpuidEntry2)
    {s : Hypervisor δ ω} (hd : s.dispatch.isSome) :
    (leaves.foldl (cpuidRound host) (es, s)).1 = es ++ leaves.map (hostEntry host) ∧
      (leaves.foldl (cpuidRound host) (es, s)).2.published.map (·.event.payload) =
        s.published.map (·.event.payload) ++
          leaves.map fun leaf => (leafEvent host leaf {} 0).payload := by
  induction leaves generalizing es s with
  | nil => simp
  | cons leaf leaves ih =>
    obtain ⟨d, hd⟩ := Option.isSome_iff_exists.1 hd
    have hemit : s.emit (leafEvent host leaf) = _ := Hypervisor.emit_of_some hd
    have hround : cpuidRound host (es, s) leaf =
      (es ++ [hostEntry host leaf], s.emit (leafEvent host leaf)) := rfl
    obtain ⟨h1, h2⟩ := ih (es ++ [hostEntry host leaf]) (s := s.emit (leafEvent host leaf))
      (by rw [hemit]; rfl)
    rw [List.foldl_cons, hround]
    refine ⟨by simpa using h1, ?_⟩
    rw [h2, hemit]
    simp [leafEvent, cpuidEvent]

/-- Clearing bit `31` changes nothing if it is clear. -/
theorem and_not_bit31 {x : UInt32} (h : x.toNat.testBit 31 = false) :
    x &&& ~~~((1 : UInt32) <<< 31) = x := by
  have hlt : x.toNat < 2 ^ 31 := by
    have hx := x.toNat_lt
    rw [Nat.testBit_eq_decide_div_mod_eq, decide_eq_false_iff_not] at h
    omega
  refine UInt32.toNat_inj.1 ?_
  have hmask : (~~~((1 : UInt32) <<< 31)).toNat = 2 ^ 31 - 1 := by decide
  rw [UInt32.toNat_and, hmask, Nat.and_two_pow_sub_one_of_lt_two_pow hlt]

/-- On a host that hides itself and has no leaf above `0x0B`, the modifications do nothing. -/
theorem modifyEntry_hostEntry {host : HostCpuid} (h1 : (host 1 0).ecx.toNat.testBit 31 = false)
    (h0 : (host 0 0).eax ≤ 0x0B) (leaf : UInt32) :
    modifyEntry leaf (hostEntry host leaf) = hostEntry host leaf := by
  unfold modifyEntry
  by_cases hl1 : leaf = 1
  · subst hl1
    simp [hostEntry, and_not_bit31 h1]
  · by_cases hl0 : leaf = 0
    · subst hl0
      simp [hostEntry, Std.LawfulOrderLeftLeaningMin.min_eq_left _ _ h0]
    · simp [hl1, hl0]

/-- `main` installs the table it logs, with the hypervisor hidden, if and only if the host's leaf
one has bit `31` of `ECX` clear and its leaf zero has `EAX` at most `0x0B`. -/
theorem cpuidTable_iff (host : HostCpuid) {s : Hypervisor δ ω} (hd : s.dispatch.isSome) :
    Intended host (VCpu.cpuidBuffer (cpuidTable host s).1)
        (((cpuidTable host s).2.published.drop s.published.length).map (·.event)) ↔
      (host 1 0).ecx.toNat.testBit 31 = false ∧ (host 0 0).eax ≤ 0x0B := by
  obtain ⟨htable, hevents⟩ := foldl_cpuidRound host cpuidLeaves [] hd
  rw [List.nil_append] at htable
  have hentries : (VCpu.cpuidBuffer (cpuidTable host s).1).entries =
      cpuidLeaves.map (hostEntry host) := htable
  have hevs : ((cpuidTable host s).2.published.drop s.published.length).map (·.event.payload) =
      cpuidLeaves.map fun leaf => (leafEvent host leaf {} 0).payload := by
    rw [List.map_drop, cpuidTable, hevents, List.drop_left' (by simp)]
  constructor
  · intro h
    have hmem : ∀ leaf ∈ cpuidLeaves, Masked host (hostEntry host leaf) := fun leaf hleaf =>
      h.masked _ (by rw [hentries]; exact List.mem_map_of_mem hleaf)
    refine ⟨((hmem 1 (by decide)).ecx_one rfl).1, ?_⟩
    have heax : (host 0 0).eax = min (host 0 0).eax 0x0B := (hmem 0 (by decide)).eax_zero rfl
    rw [heax]
    exact Std.min_le_right
  · rintro ⟨h1, h0⟩
    refine ⟨?_, ?_, ?_, ?_⟩
    · rw [VCpu.cpuidBuffer, cpuidTable, htable, List.length_map]
      rfl
    · rw [hentries, List.map_map]
      exact List.map_id _
    · rw [Logged, List.map_map, hentries, List.map_map]
      refine hevs.trans (List.map_congr_left fun leaf _ => ?_)
      rw [leafEvent, modifyEntry_hostEntry h1 h0]
      rfl
    · intro e he
      obtain ⟨leaf, -, rfl⟩ := List.mem_map.1 (hentries ▸ he)
      refine ⟨?_, ?_, fun _ => rfl, rfl, fun _ => rfl, rfl⟩
      · rintro ⟨⟩
        exact ⟨h1, fun _ _ => rfl⟩
      · rintro ⟨⟩
        exact (Std.LawfulOrderLeftLeaningMin.min_eq_left _ _ h0).symm

/-- A hypervisor with a dispatcher and one vCPU. -/
def idle : Hypervisor Unit Unit where
  world :=
    { machine := { vm := { vcpus := [{}] }, vcpuIndex_lt := Nat.one_pos, dev := () }, obs := () }
  dispatch := some {}

/-- On a host with all registers zero the table is as intended. -/
theorem cpuidTable_iff_zero :
    Intended (fun _ _ => {}) (VCpu.cpuidBuffer (cpuidTable (fun _ _ => {}) idle).1)
      (((cpuidTable (fun _ _ => {}) idle).2.published.drop 0).map (·.event)) :=
  (cpuidTable_iff (fun _ _ => {}) (s := idle) rfl).2 ⟨by decide, by decide⟩

/-- A host that is itself a guest and has leaves up to `0x16`. -/
def nestedHost : HostCpuid := fun leaf _ =>
  { eax := if leaf = 0 then 0x16 else 0, ecx := if leaf = 1 then 0x80000000 else 0 }

/-- There the installed table has the hypervisor-present bit set and leaf `0x16` as the highest,
while the events show the bit clear and `0x0B`. -/
theorem cpuidTable_nestedHost :
    ((cpuidTable nestedHost idle).1.take 2).map (fun e => (e.function, e.eax, e.ecx)) =
        [(0, 0x16, 0), (1, 0, 0x80000000)] ∧
      ((cpuidTable nestedHost idle).2.published.take 2).map (·.event.payload) =
        [.cpuid { leaf := 0, eax := 0x0B }, .cpuid { leaf := 1 }] ∧
      ¬Intended nestedHost (VCpu.cpuidBuffer (cpuidTable nestedHost idle).1)
        ((cpuidTable nestedHost idle).2.published.map (·.event)) := by
  refine ⟨by decide, by decide, fun h => ?_⟩
  have hbit := ((h.masked { function := 1, ecx := 0x80000000 } (by decide)).ecx_one rfl).1
  exact absurd hbit (by decide)

end Main

end MinBp
