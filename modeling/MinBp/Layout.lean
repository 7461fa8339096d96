import MinBp.Bytes

/-!
# Values of a fixed size in memory

A `Layout` says how many bytes a value takes, which bytes they are and how it is read back. Layouts
of the fields give the layout of a struct (`Layout.prod`, `Layout.fields`), and a layout of the
elements the bytes of an array, where the element `i` lies `i` sizes from the front
(`Layout.slice_arrayBytes`).

`patch` is a write into a buffer that has an end.
-/

namespace Bytes

/-- Values of `α` as `size` bytes each. -/
structure Layout (α : Type*) where
  size : ℕ
  bytes : α → List UInt8
  read : List UInt8 → α
  length_bytes : ∀ a, (bytes a).length = size
  read_bytes : ∀ a, read (bytes a) = a

namespace Layout

variable {α β : Type*}

/-- A 32-bit word, least significant byte first. -/
def word : Layout UInt32 where
  size := 4
  bytes w := encode 4 w.toNat
  read bs := UInt32.ofNat (value bs)
  length_bytes w := length_encode 4 w.toNat
  read_bytes w := by
    have hlt : w.toNat < 256 ^ 4 := w.toNat_lt
    rw [value_encode, Nat.mod_eq_of_lt hlt, UInt32.ofNat_toNat]

/-- One field behind the other. -/
def prod (l : Layout α) (m : Layout β) : Layout (α × β) where
  size := l.size + m.size
  bytes p := l.bytes p.1 ++ m.bytes p.2
  read bs := (l.read (bs.take l.size), m.read (bs.drop l.size))
  length_bytes p := by rw [List.length_append, l.length_bytes, m.length_bytes]
  read_bytes p := by
    rw [← l.length_bytes p.1, List.take_left, List.drop_left, l.read_bytes, m.read_bytes]

/-- A struct is laid out as its fields are. -/
def fields (l : Layout α) (unpack : β → α) (pack : α → β) (h : ∀ b, pack (unpack b) = b) :
    Layout β where
  size := l.size
  bytes b := l.bytes (unpack b)
  read bs := pack (l.read bs)
  length_bytes b := l.length_bytes (unpack b)
  read_bytes b := by rw [l.read_bytes, h]

/-- The bytes of an array. -/
def arrayBytes (l : Layout α) (as : List α) : List UInt8 :=
  as.flatMap l.bytes

@[simp] theorem length_arrayBytes (l : Layout α) (as : List α) :
    (l.arrayBytes as).length = as.length * l.size := by
  simp only [arrayBytes, List.length_flatMap, l.length_bytes, List.map_const',
    List.sum_replicate_nat]

/-- Values with the same bytes are the same. -/
theorem bytes_injective (l : Layout α) : Function.Injective l.bytes :=
  Function.LeftInverse.injective l.read_bytes

/-- The element `i` of an array lies `i` sizes from its front. -/
theorem slice_arrayBytes (l : Layout α) {as : List α} {i : ℕ} {a : α} (h : as[i]? = some a) :
    ((l.arrayBytes as).drop (l.size * i)).take l.size = l.bytes a := by
  induction as generalizing i with
  | nil => cases h
  | cons b as ih =>
    have hsplit : l.arrayBytes (b :: as) = l.bytes b ++ l.arrayBytes as := List.flatMap_cons
    cases i with
    | zero =>
      obtain rfl : b = a := Option.some_inj.1 h
      rw [hsplit, Nat.mul_zero, List.drop_zero, ← l.length_bytes b, List.take_left]
    | succ i =>
      rw [hsplit, Nat.mul_succ, Nat.add_comm, ← List.drop_drop]
      nth_rewrite 3 [← l.length_bytes b]
      rw [List.drop_left]
      exact ih h

end Layout

/-- `buf` with `bs` written from offset `off` on, if it ends inside the buffer. -/
def patch (buf : List UInt8) (off : ℕ) (bs : List UInt8) : Option (List UInt8) :=
  if off + bs.length ≤ buf.length then
    some (buf.take off ++ bs ++ buf.drop (off + bs.length))
  else none

/-- A write replaces as many bytes as it has. -/
theorem patch_append (hd mid tl bs : List UInt8) (h : mid.length = bs.length) :
    patch (hd ++ mid ++ tl) hd.length bs = some (hd ++ bs ++ tl) := by
  have hfits : hd.length + bs.length ≤ (hd ++ mid ++ tl).length := by
    simp only [List.length_append, h]
    exact Nat.le_add_right ..
  have htake : (hd ++ mid ++ tl).take hd.length = hd := by
    rw [List.append_assoc, List.take_left]
  have hdrop : (hd ++ mid ++ tl).drop (hd.length + bs.length) = tl := by
    rw [← h, ← List.length_append, List.drop_left]
  rw [patch, if_pos hfits, htake, hdrop]

end Bytes
