import MinBp.Bytes

/-!
# Four-level paging

The page walk of an x86-64 processor in long mode, over guest-physical memory with bytes at some
addresses. A table is 512 little-endian words of eight bytes. Level `3` is the root, level `0` the
last table, and an entry of level `1` or `2` with the page-size bit maps a large page itself. All
address bits up to bit `51` are taken as implemented.

`FirstGiB mem base` says that `base` is the root of tables which map the first gibibyte to itself
with pages of two mebibytes and nothing else. `FirstGiB.walk_of_lt` and `FirstGiB.walk_of_canonical`
are what the processor makes of such tables.
-/

namespace Paging

open Bytes

/-- Guest-physical memory, `none` where there is none. -/
abbrev Memory := ℕ → Option UInt8

/-- The bytes from an address on, `none` if one of them is missing. -/
def readBytes (mem : Memory) : ℕ → ℕ → Option (List UInt8)
  | _, 0 => some []
  | a, k + 1 =>
    match mem a, readBytes mem (a + 1) k with
    | some b, some bs => some (b :: bs)
    | _, _ => none

/-- The eight-byte word at an address. -/
def readWord (mem : Memory) (a : ℕ) : Option ℕ :=
  (readBytes mem a 8).map value

/-- What a walk ends with. -/
inductive Translation where
  | page (physAddr : ℕ) (writable : Bool)
  | notPresent
  /-- A reserved bit of an entry is set. -/
  | reservedBit
  /-- An entry lies outside memory. -/
  | noMemory
  deriving DecidableEq, Repr

/-- The number of low bits of an address below the index of a level. -/
def shift (level : ℕ) : ℕ :=
  12 + 9 * level

/-- The index of an address into its table at a level. -/
def index (level va : ℕ) : ℕ :=
  va / 2 ^ shift level % 512

/-- The address in an entry, bits `51` down to the shift of the level. -/
def frame (level e : ℕ) : ℕ :=
  e % 2 ^ 52 / 2 ^ shift level * 2 ^ shift level

/-- The bits of a large-page entry between bit `12` and the address. -/
def lowFrame (level e : ℕ) : ℕ :=
  e % 2 ^ shift level / 2 ^ 13

/-- The walk from a table of a level on. `w` says that all entries so far are writable. -/
def walkFrom (mem : Memory) (va : ℕ) : ℕ → ℕ → Bool → Translation
  | 0, table, w =>
    match readWord mem (table + 8 * index 0 va) with
    | none => .noMemory
    | some e =>
      if e.testBit 0 then .page (frame 0 e + va % 2 ^ shift 0) (w && e.testBit 1) else .notPresent
  | level + 1, table, w =>
    match readWord mem (table + 8 * index (level + 1) va) with
    | none => .noMemory
    | some e =>
      if !e.testBit 0 then .notPresent
      else if e.testBit 7 then
        -- the root has no large pages
        if level = 2 ∨ lowFrame (level + 1) e ≠ 0 then .reservedBit
        else .page (frame (level + 1) e + va % 2 ^ shift (level + 1)) (w && e.testBit 1)
      else walkFrom mem va level (frame 0 e) (w && e.testBit 1)

/-- The walk of a virtual address from the root that `cr3` names. -/
def walk (mem : Memory) (cr3 va : ℕ) : Translation :=
  walkFrom mem va 3 (frame 0 cr3) true

/-- Bits `63` to `47` of the address are equal. -/
def Canonical (va : ℕ) : Prop :=
  va < 2 ^ 47 ∨ 2 ^ 64 - 2 ^ 47 ≤ va ∧ va < 2 ^ 64

/-! ## One level -/

/-- Bytes that are in memory are read. -/
theorem readBytes_eq {mem : Memory} (bs : List UInt8) {a : ℕ}
    (h : ∀ i < bs.length, mem (a + i) = bs[i]?) : readBytes mem a bs.length = some bs := by
  induction bs generalizing a with
  | nil => rfl
  | cons b bs ih =>
    have hb : mem a = some b := by simpa using h 0 (by simp)
    have hbs := ih (a := a + 1) fun i hi => by
      rw [Nat.add_assoc, Nat.add_comm 1 i]
      exact h (i + 1) (by simpa using hi)
    simp [readBytes, hb, hbs]

/-- A word whose eight bytes are in memory is read. -/
theorem readWord_encode {mem : Memory} {a e : ℕ} (he : e < 2 ^ 64)
    (h : ∀ i < 8, mem (a + i) = (encode 8 e)[i]?) : readWord mem a = some e := by
  have hb : readBytes mem a (encode 8 e).length = some (encode 8 e) :=
    readBytes_eq _ (by simpa using h)
  rw [length_encode] at hb
  rw [readWord, hb, Option.map_some, value_encode]
  exact congrArg some (Nat.mod_eq_of_lt he)

theorem walkFrom_notPresent {mem : Memory} {va table level e : ℕ} {w : Bool}
    (he : readWord mem (table + 8 * index level va) = some e) (hp : e.testBit 0 = false) :
    walkFrom mem va level table w = .notPresent := by
  rcases level with _ | level <;> simp [walkFrom, he, hp]

theorem walkFrom_table {mem : Memory} {va table level e : ℕ} {w : Bool}
    (he : readWord mem (table + 8 * index (level + 1) va) = some e) (hp : e.testBit 0 = true)
    (hps : e.testBit 7 = false) :
    walkFrom mem va (level + 1) table w = walkFrom mem va level (frame 0 e) (w && e.testBit 1) := by
  simp [walkFrom, he, hp, hps]

/-- An entry that links the writable table `t`. -/
theorem walkFrom_link {mem : Memory} {va table level t : ℕ} {w : Bool} (hal : t % 4096 = 0)
    (hb : t < 2 ^ 52) (he : readWord mem (table + 8 * index (level + 1) va) = some (t + 3)) :
    walkFrom mem va (level + 1) table w = walkFrom mem va level t w := by
  have hbits : (t + 3).testBit 0 = true ∧ (t + 3).testBit 1 = true ∧
      (t + 3).testBit 7 = false := by
    simp only [Nat.testBit_eq_decide_div_mod_eq, decide_eq_true_eq, decide_eq_false_iff_not]
    omega
  have hframe : frame 0 (t + 3) = t := by
    simp only [frame, shift]
    omega
  rw [walkFrom_table he hbits.1 hbits.2.2, hbits.2.1, hframe, Bool.and_true]

theorem walkFrom_large {mem : Memory} {va table e : ℕ} {w : Bool}
    (he : readWord mem (table + 8 * index 1 va) = some e) (hp : e.testBit 0 = true)
    (hps : e.testBit 7 = true) (hlow : lowFrame 1 e = 0) :
    walkFrom mem va 1 table w = .page (frame 1 e + va % 2 ^ shift 1) (w && e.testBit 1) := by
  simp [walkFrom, he, hp, hps, hlow]

/-! ## Tables of the first gibibyte -/

/-- The entries of the three tables at `base`, `base + 0x1000` and `base + 0x2000`. -/
def tableEntry (base j : ℕ) : ℕ :=
  if j = 0 then base + 0x1003
  else if j = 512 then base + 0x2003
  else if 1024 ≤ j then (j - 1024) * 2 ^ 21 + 0x83
  else 0

/-- Three tables at `base` that map the first gibibyte to itself, and no other address. -/
structure FirstGiB (mem : Memory) (base : ℕ) : Prop where
  aligned : base % 4096 = 0
  bound : base < 2 ^ 51
  entry : ∀ j < 1536, readWord mem (base + 8 * j) = some (tableEntry base j)

namespace FirstGiB

variable {mem : Memory} {base : ℕ} (h : FirstGiB mem base)

include h

theorem frame_base : frame 0 base = base := by
  have := h.aligned
  have := h.bound
  simp only [frame, shift]
  omega

/-- An address outside the first 512 gibibytes has no entry in the root. -/
theorem walk_of_root_index {va : ℕ} (hva : index 3 va ≠ 0) : walk mem base va = .notPresent := by
  have hlt : index 3 va < 512 := Nat.mod_lt _ (by decide)
  have he : readWord mem (base + 8 * index 3 va) = some 0 := by
    rw [h.entry _ (by omega), tableEntry, if_neg hva, if_neg (by omega), if_neg (by omega)]
  rw [walk, h.frame_base]
  exact walkFrom_notPresent he rfl

/-- The walk of the other addresses goes on in the second table. -/
theorem walk_root {va : ℕ} (hva : index 3 va = 0) :
    walk mem base va = walkFrom mem va 2 (base + 0x1000) true := by
  have hal := h.aligned
  have hb := h.bound
  rw [walk, h.frame_base]
  refine walkFrom_link (by omega) (by omega) ?_
  rw [hva]
  exact h.entry 0 (by decide)

/-- An address outside the first gibibyte has no entry in the second table. -/
theorem walkFrom_of_pdpt_index {va : ℕ} (hva : index 2 va ≠ 0) :
    walkFrom mem va 2 (base + 0x1000) true = .notPresent := by
  have hlt : index 2 va < 512 := Nat.mod_lt _ (by decide)
  have he : readWord mem (base + 8 * (512 + index 2 va)) = some 0 := by
    rw [h.entry _ (by omega), tableEntry, if_neg (by omega), if_neg (by omega), if_neg (by omega)]
  have haddr : base + 8 * (512 + index 2 va) = base + 0x1000 + 8 * index 2 va := by omega
  rw [haddr] at he
  exact walkFrom_notPresent he rfl

/-- The walk of the other addresses goes on in the third table. -/
theorem walkFrom_pdpt {va : ℕ} (hva : index 2 va = 0) :
    walkFrom mem va 2 (base + 0x1000) true = walkFrom mem va 1 (base + 0x2000) true := by
  have hal := h.aligned
  have hb := h.bound
  refine walkFrom_link (by omega) (by omega) ?_
  rw [hva]
  exact h.entry 512 (by decide)

/-- The third table maps every two mebibytes of the first gibibyte to themselves. -/
theorem walkFrom_pd {va : ℕ} (hva : va < 2 ^ 30) :
    walkFrom mem va 1 (base + 0x2000) true = .page va true := by
  have hi : index 1 va = va / 2 ^ 21 := by
    simp only [index, shift]
    omega
  have haddr : base + 8 * (1024 + va / 2 ^ 21) = base + 0x2000 + 8 * index 1 va := by omega
  set e := va / 2 ^ 21 * 2 ^ 21 + 0x83 with he
  have hread : readWord mem (base + 0x2000 + 8 * index 1 va) = some e := by
    rw [← haddr, h.entry _ (by omega), tableEntry, if_neg (by omega), if_neg (by omega),
      if_pos (by omega), Nat.add_sub_cancel_left]
  have hbits : e.testBit 0 = true ∧ e.testBit 1 = true ∧ e.testBit 7 = true := by
    simp only [Nat.testBit_eq_decide_div_mod_eq, decide_eq_true_eq]
    omega
  have hlow : lowFrame 1 e = 0 := by
    simp only [lowFrame, shift]
    omega
  have hlt : e < 2 ^ 52 := by omega
  have hframe : frame 1 e + va % 2 ^ shift 1 = va := by
    have hdiv : e / 2 ^ 21 = va / 2 ^ 21 := by omega
    rw [frame, Nat.mod_eq_of_lt hlt]
    change e / 2 ^ 21 * 2 ^ 21 + va % 2 ^ 21 = va
    rw [hdiv, Nat.div_add_mod']
  rw [walkFrom_large hread hbits.1 hbits.2.2 hlow, hframe, hbits.2.1, Bool.and_true]

/-- Every address of the first gibibyte is mapped to itself, writable. -/
theorem walk_of_lt {va : ℕ} (hva : va < 2 ^ 30) : walk mem base va = .page va true := by
  have h3 : index 3 va = 0 := by
    simp only [index, shift]
    omega
  have h2 : index 2 va = 0 := by
    simp only [index, shift]
    omega
  rw [h.walk_root h3, h.walkFrom_pdpt h2, h.walkFrom_pd hva]

/-- Every other canonical address is not present. -/
theorem walk_of_canonical {va : ℕ} (hc : Canonical va) (hva : 2 ^ 30 ≤ va) :
    walk mem base va = .notPresent := by
  by_cases h3 : index 3 va = 0
  · have h2 : index 2 va ≠ 0 := by
      simp only [index, shift, Canonical] at h3 hc ⊢
      omega
    rw [h.walk_root h3, h.walkFrom_of_pdpt_index h2]
  · exact h.walk_of_root_index h3

end FirstGiB

end Paging
