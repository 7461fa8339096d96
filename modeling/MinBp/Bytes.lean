import Mathlib.Data.Nat.Digits.Defs

/-!
# Little-endian words in byte buffers

A buffer gives the byte at every offset. `load` reads a run of bytes, `store` overwrites one.
`value` reads bytes as a little-endian number and `encode k n` writes the low `k` bytes of `n`, so
a word that is stored at some width and loaded back at the same width comes back truncated to that
width (`value_load_store`). Bytes that are loaded as a word and stored at another width are cut, or
filled up with zeros (`store_encode_value_load`).
-/

namespace Bytes

/-- Bytes by offset. -/
abbrev Buffer := ℕ → UInt8

/-- The number whose little-endian bytes are `bs`. -/
def value (bs : List UInt8) : ℕ :=
  Nat.ofDigits 256 (bs.map UInt8.toNat)

/-- The low `k` bytes of `n`, least significant first. -/
def encode : ℕ → ℕ → List UInt8
  | 0, _ => []
  | k + 1, n => UInt8.ofNat n :: encode k (n / 256)

/-- The `k` bytes of `buf` from offset `off` on. -/
def load (buf : Buffer) (off k : ℕ) : List UInt8 :=
  (List.range k).map fun i => buf (off + i)

/-- `buf` with `bs` written from offset `off` on. -/
def store (buf : Buffer) (off : ℕ) (bs : List UInt8) : Buffer := fun i =>
  if off ≤ i then bs.getD (i - off) (buf i) else buf i

/-- `dst` with the `n` bytes from offset `off` on replaced by the `m` bytes of `src` from offset `o`
on, cut or filled up with zeros. -/
def copied (src : Buffer) (o m : ℕ) (dst : Buffer) (off n : ℕ) : Buffer := fun i =>
  if off ≤ i ∧ i < off + n then if i - off < m then src (o + (i - off)) else 0 else dst i

@[simp] theorem value_nil : value [] = 0 :=
  rfl

@[simp] theorem value_cons (b : UInt8) (bs : List UInt8) :
    value (b :: bs) = b.toNat + 256 * value bs := by
  simp [value, Nat.ofDigits_cons]

@[simp] theorem length_encode (k n : ℕ) : (encode k n).length = k := by
  induction k generalizing n with
  | zero => rfl
  | succ k ih => simp [encode, ih]

/-- Encoding keeps the low `k` bytes. -/
theorem value_encode (k n : ℕ) : value (encode k n) = n % 256 ^ k := by
  induction k generalizing n with
  | zero => simp [encode, Nat.mod_one]
  | succ k ih =>
    rw [encode, value_cons, ih, pow_succ', Nat.mod_mul]
    simp

/-- Two numbers have the same low `k` bytes if they agree modulo `256 ^ k`. -/
theorem encode_eq_iff (k m n : ℕ) : encode k m = encode k n ↔ m % 256 ^ k = n % 256 ^ k := by
  refine ⟨fun h => ?_, fun h => ?_⟩
  · rw [← value_encode, h, value_encode]
  · induction k generalizing m n with
    | zero => rfl
    | succ k ih =>
      rw [pow_succ', Nat.mod_mul, Nat.mod_mul] at h
      have hlow : m % 256 = n % 256 := by omega
      have hhigh : m / 256 % 256 ^ k = n / 256 % 256 ^ k := by omega
      rw [encode, encode, ih _ _ hhigh]
      congr 1
      exact UInt8.toNat_inj.1 (by simpa using hlow)

@[simp] theorem length_load (buf : Buffer) (off k : ℕ) : (load buf off k).length = k := by
  simp [load]

/-- Bytes written at an offset are the bytes read back there. -/
theorem load_store (buf : Buffer) (off : ℕ) (bs : List UInt8) :
    load (store buf off bs) off bs.length = bs := by
  refine List.ext_getElem (by simp) fun i hi _ => ?_
  have hi' : i < bs.length := by simpa using hi
  simp [load, store, hi']

/-- A word stored at width `k` and loaded at width `k` comes back modulo `256 ^ k`. -/
theorem value_load_store (buf : Buffer) (off k n : ℕ) :
    value (load (store buf off (encode k n)) off k) = n % 256 ^ k := by
  have h := load_store buf off (encode k n)
  rw [length_encode] at h
  rw [h, value_encode]

theorem value_lt (bs : List UInt8) : value bs < 256 ^ bs.length := by
  induction bs with
  | nil => simp
  | cons b bs ih =>
    rw [value_cons, List.length_cons, pow_succ']
    have hb := b.toNat_lt
    omega

/-- At most `k` bytes make a word of `k` bytes. -/
theorem value_load_lt (buf : Buffer) (off : ℕ) {m k : ℕ} (h : m ≤ k) :
    value (load buf off m) < 256 ^ k :=
  calc value (load buf off m) < 256 ^ m := by simpa using value_lt (load buf off m)
    _ ≤ 256 ^ k := Nat.pow_le_pow_right (by omega) h

/-- The bytes of a word are the bytes it was read from, then zeros. -/
theorem getD_encode_value (bs : List UInt8) {k i : ℕ} (hi : i < k) (d : UInt8) :
    (encode k (value bs)).getD i d = bs.getD i 0 := by
  induction k generalizing bs i with
  | zero => omega
  | succ k ih =>
    cases bs with
    | nil =>
      cases i with
      | zero => rfl
      | succ i => simpa [encode] using ih [] (i := i) (by omega)
    | cons b bs =>
      have hlow : UInt8.ofNat (b.toNat + 256 * value bs) = b := by
        rw [← UInt8.toNat_inj, UInt8.toNat_ofNat']
        have hb := b.toNat_lt
        omega
      have hhigh : (b.toNat + 256 * value bs) / 256 = value bs := by
        have hb := b.toNat_lt
        omega
      rw [value_cons, encode, hlow, hhigh]
      cases i with
      | zero => rfl
      | succ i => simpa using ih bs (i := i) (by omega)

/-- A word that is loaded at width `m` and stored at width `n` is a copy of the bytes. -/
theorem store_encode_value_load (src : Buffer) (o m : ℕ) (dst : Buffer) (off n : ℕ) :
    store dst off (encode n (value (load src o m))) = copied src o m dst off n := by
  funext i
  unfold store copied
  by_cases hoff : off ≤ i
  · by_cases hn : i < off + n
    · have hlt : i - off < n := by omega
      rw [if_pos hoff, if_pos ⟨hoff, hn⟩, getD_encode_value _ hlt]
      by_cases hm : i - off < m <;> simp [load, hm]
    · have hge : n ≤ i - off := by omega
      rw [if_pos hoff, if_neg (fun h => hn h.2), List.getD_eq_getElem?_getD,
        List.getElem?_eq_none (by rwa [length_encode]), Option.getD_none]
  · rw [if_neg hoff, if_neg (fun h => hoff h.1)]

/-- Bytes outside the window that is written stay. -/
theorem store_of_outside (buf : Buffer) {off : ℕ} {bs : List UInt8} {i : ℕ}
    (h : ¬(off ≤ i ∧ i < off + bs.length)) : store buf off bs i = buf i := by
  unfold store
  by_cases hoff : off ≤ i
  · have hge : bs.length ≤ i - off := by omega
    rw [if_pos hoff, List.getD_eq_getElem?_getD, List.getElem?_eq_none hge, Option.getD_none]
  · rw [if_neg hoff]

/-- Buffers that agree outside a window are equal if the words in the window are. -/
theorem eq_of_value_load {buf buf' : Buffer} {off k : ℕ}
    (hout : ∀ i, ¬(off ≤ i ∧ i < off + k) → buf i = buf' i)
    (h : value (load buf off k) = value (load buf' off k)) : buf = buf' := by
  funext i
  by_cases hi : off ≤ i ∧ i < off + k
  · have hlt : i - off < k := by omega
    have hget : ∀ b : Buffer, (load b off k).getD (i - off) 0 = b i := by
      intro b
      simp [load, hlt, Nat.add_sub_cancel' hi.1]
    rw [← hget buf, ← hget buf', ← getD_encode_value (load buf off k) hlt 0, h,
      getD_encode_value _ hlt]
  · exact hout i hi

end Bytes
