import Mathlib.Data.List.Basic
import Mathlib.Order.Nat

/-!
# Growing vectors and range loops over them

A vector has its elements in a buffer of some capacity. `push` moves to a new buffer when the old
one is full, `eraseIf` shifts the elements that stay down in place. Buffers are told apart by a
number that every move increases.

`rangeFor` is a range loop whose body may change the vector that it iterates over. The bounds are
taken once, so a step faults if the elements have moved to another buffer or if its position is
beyond the last element (`Stale`). `turns` has the states that a loop without these checks goes
through, and the loop returns if and only if every check on the way succeeds
(`rangeFor_eq_ok_iff`). If the body leaves the vector alone, the loop is a fold over the elements
(`rangeFor_eq_foldl`).
-/

namespace Vectors

/-- Elements in a buffer. -/
structure Vec (α : Type*) where
  elems : List α := []
  capacity : ℕ := elems.length
  length_le : elems.length ≤ capacity := by simp
  /-- Which buffer the elements are in. -/
  buffer : ℕ := 0

namespace Vec

variable {α σ : Type*}

/-- `std::vector::push_back`, with the growth by a factor of two. -/
def push (a : α) (v : Vec α) : Vec α :=
  if h : v.elems.length < v.capacity then
    { v with
      elems := v.elems ++ [a]
      length_le := by
        rw [List.length_append, List.length_singleton]
        exact h }
  else
    { elems := v.elems ++ [a]
      capacity := v.elems.length + max v.elems.length 1
      length_le := by
        rw [List.length_append, List.length_singleton]
        exact Nat.add_le_add_left (Nat.le_max_right _ _) _
      buffer := v.buffer + 1 }

/-- `std::erase_if`. -/
def eraseIf (p : α → Bool) (v : Vec α) : Vec α :=
  { v with
    elems := v.elems.filter fun a => !p a
    length_le := Nat.le_trans (List.length_filter_le _ _) v.length_le }

/-- What a range loop can run into. -/
inductive Stale where
  /-- The elements have moved to another buffer. -/
  | moved
  /-- The position is beyond the last element. -/
  | outside
  deriving DecidableEq, Repr

/-- The steps of a range loop from position `i` on, with iterators into `buffer`. -/
def loop (vec : σ → Vec α) (body : α → σ → σ) (buffer : ℕ) : ℕ → ℕ → σ → Except Stale σ
  | 0, _, s => .ok s
  | k + 1, i, s =>
    if (vec s).buffer = buffer then
      match (vec s).elems[i]? with
      | some a => loop vec body buffer k (i + 1) (body a s)
      | none => .error .outside
    else .error .moved

/-- A range loop over `vec s`, whose body may change it. -/
def rangeFor (vec : σ → Vec α) (body : α → σ → σ) (s : σ) : Except Stale σ :=
  loop vec body (vec s).buffer (vec s).elems.length 0 s

/-- The state before position `p` is visited, if the loop makes no checks and passes over positions
without an element. -/
def turns (vec : σ → Vec α) (body : α → σ → σ) (s : σ) : ℕ → σ
  | 0 => s
  | p + 1 =>
    match (vec (turns vec body s p)).elems[p]? with
    | some a => body a (turns vec body s p)
    | none => turns vec body s p

theorem elems_push (a : α) (v : Vec α) : (v.push a).elems = v.elems ++ [a] := by
  unfold push
  split <;> rfl

variable {vec : σ → Vec α} {body : α → σ → σ} {v : Vec α}

theorem turns_succ_of_some {s : σ} {p : ℕ} {a : α}
    (h : (vec (turns vec body s p)).elems[p]? = some a) :
    turns vec body s (p + 1) = body a (turns vec body s p) := by
  rw [turns, h]

theorem turns_succ_of_none {s : σ} {p : ℕ} (h : (vec (turns vec body s p)).elems[p]? = none) :
    turns vec body s (p + 1) = turns vec body s p := by
  rw [turns, h]

/-- The rest of a loop returns if and only if its checks succeed. -/
theorem loop_turns_eq_ok_iff {buffer : ℕ} {s s' : σ} (k i : ℕ) :
    loop vec body buffer k i (turns vec body s i) = .ok s' ↔
      (∀ p, i ≤ p → p < i + k → (vec (turns vec body s p)).buffer = buffer ∧
        p < (vec (turns vec body s p)).elems.length) ∧
      turns vec body s (i + k) = s' := by
  induction k generalizing i with
  | zero =>
    rw [loop, Except.ok.injEq]
    exact ⟨fun h => ⟨fun p hi hp => absurd hi (Nat.not_le.2 hp), h⟩, And.right⟩
  | succ k ih =>
    have hshift : i + (k + 1) = i + 1 + k := by omega
    rw [loop]
    split_ifs with hbuffer
    · rcases ha : (vec (turns vec body s i)).elems[i]? with _ | a
      · -- the vector ends before the position
        refine ⟨fun h => (nomatch h), fun h => ?_⟩
        exact absurd (h.1 i le_rfl (by omega)).2 (Nat.not_lt.2 (List.getElem?_eq_none_iff.1 ha))
      · obtain ⟨hi, -⟩ := List.getElem?_eq_some_iff.1 ha
        change loop vec body buffer k (i + 1) (body a (turns vec body s i)) = _ ↔ _
        rw [← turns_succ_of_some ha, ih, hshift]
        refine and_congr_left fun _ => ⟨fun h p hip hp => ?_, fun h p hip hp => h p (by omega) hp⟩
        rcases hip.eq_or_lt with rfl | hlt
        · exact ⟨hbuffer, hi⟩
        · exact h p hlt hp
    · refine ⟨fun h => (nomatch h), fun h => ?_⟩
      exact absurd (h.1 i le_rfl (by omega)).1 hbuffer

/-- A range loop returns if and only if at each of its positions the elements are in the old buffer
and there is one at the position. -/
theorem rangeFor_eq_ok_iff {s s' : σ} :
    rangeFor vec body s = .ok s' ↔
      (∀ p < (vec s).elems.length, (vec (turns vec body s p)).buffer = (vec s).buffer ∧
        p < (vec (turns vec body s p)).elems.length) ∧
      turns vec body s (vec s).elems.length = s' := by
  have h := @loop_turns_eq_ok_iff α σ vec body (vec s).buffer s s' (vec s).elems.length 0
  rw [Nat.zero_add] at h
  exact h.trans (and_congr_left fun _ =>
    ⟨fun h p => h p p.zero_le, fun h p _ => h p⟩)

/-- If the body leaves the vector alone, the states are those of a fold over the elements. -/
theorem turns_eq_foldl {s : σ}
    (hbody : ∀ a ∈ (vec s).elems, ∀ t, vec t = vec s → vec (body a t) = vec s) {p : ℕ}
    (hp : p ≤ (vec s).elems.length) :
    turns vec body s p = ((vec s).elems.take p).foldl (fun s a => body a s) s ∧
      vec (turns vec body s p) = vec s := by
  induction p with
  | zero => exact ⟨rfl, rfl⟩
  | succ p ih =>
    obtain ⟨hfold, hvec⟩ := ih (Nat.le_of_succ_le hp)
    have ha : (vec (turns vec body s p)).elems[p]? = some ((vec s).elems[p]) := by
      rw [hvec, List.getElem?_eq_getElem hp]
    rw [turns_succ_of_some ha]
    refine ⟨?_, hbody _ (List.getElem_mem hp) _ hvec⟩
    rw [hfold, List.take_succ_eq_append_getElem hp, List.foldl_append]
    rfl

/-- A loop whose body leaves the vector alone. -/
theorem rangeFor_eq_foldl {s : σ}
    (hbody : ∀ a ∈ (vec s).elems, ∀ t, vec t = vec s → vec (body a t) = vec s) :
    rangeFor vec body s = .ok ((vec s).elems.foldl (fun s a => body a s) s) := by
  refine rangeFor_eq_ok_iff.2 ⟨fun p hp => ?_, ?_⟩
  · rw [(turns_eq_foldl hbody hp.le).2]
    exact ⟨rfl, hp⟩
  · rw [(turns_eq_foldl hbody le_rfl).1, List.take_length]

theorem vec_foldl {pre : List α} (hbody : ∀ a ∈ pre, ∀ t, vec t = v → vec (body a t) = v) {s : σ}
    (hs : vec s = v) : vec (pre.foldl (fun s a => body a s) s) = v :=
  List.foldlRecOn pre (fun s a => body a s) hs fun t ht a ha => hbody a ha t ht

end Vec

end Vectors
