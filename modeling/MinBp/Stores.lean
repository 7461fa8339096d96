import Mathlib.Data.List.Induction

/-!
# Stores as logs of writes

A log lists writes in order of time, each with its address. `lastWritten` reads the value of the
most recent write to an address. `block` are the writes of a run of values to consecutive addresses.
-/

namespace Stores

variable {α β : Type*} [DecidableEq α] {zero : β}

/-- The value most recently written to `a`, `zero` if there was no write to it. -/
def lastWritten (zero : β) (log : List (α × β)) (a : α) : β :=
  ((log.reverse.find? fun w => w.1 = a).map Prod.snd).getD zero

theorem lastWritten_append_singleton (log : List (α × β)) (w : α × β) (a : α) :
    lastWritten zero (log ++ [w]) a = if w.1 = a then w.2 else lastWritten zero log a := by
  rw [lastWritten, List.reverse_append, List.reverse_singleton, List.singleton_append,
    List.find?_cons]
  by_cases h : w.1 = a
  · simp [h]
  · simp [h, lastWritten]

/-- An address that was never written to holds zero. -/
theorem lastWritten_of_forall_ne {log : List (α × β)} {a : α} (h : ∀ w ∈ log, w.1 ≠ a) :
    lastWritten zero log a = zero := by
  have hnone : (log.reverse.find? fun w => w.1 = a) = none :=
    List.find?_eq_none.2 fun w hw => by simpa using h w (List.mem_reverse.1 hw)
  rw [lastWritten, hnone, Option.map_none, Option.getD_none]

/-- The writes of `data` from `base` on. -/
def block (base : ℕ) (data : List β) : List (ℕ × β) :=
  data.mapIdx fun k b => (base + k, b)

theorem mem_block {base : ℕ} {data : List β} {w : ℕ × β} (h : w ∈ block base data) :
    base ≤ w.1 ∧ w.1 < base + data.length := by
  obtain ⟨k, hk, rfl⟩ := List.mem_mapIdx.1 h
  exact ⟨Nat.le_add_right _ _, Nat.add_lt_add_left hk _⟩

/-- A block sets its own addresses and no others. -/
theorem lastWritten_append_block (log : List (ℕ × β)) (base : ℕ) (data : List β) (a : ℕ) :
    lastWritten zero (log ++ block base data) a =
      if base ≤ a ∧ a < base + data.length then (data[a - base]?).getD zero
      else lastWritten zero log a := by
  induction data using List.reverseRecOn with
  | nil =>
    rw [if_neg (by rw [List.length_nil]; omega), block, List.mapIdx_nil, List.append_nil]
  | append_singleton data b ih =>
    have hblock : block base (data ++ [b]) = block base data ++ [(base + data.length, b)] :=
      List.mapIdx_concat
    rw [hblock, ← List.append_assoc, lastWritten_append_singleton, ih, List.length_append,
      List.length_singleton]
    by_cases hlast : base + data.length = a
    · -- the new last address
      subst hlast
      rw [if_pos rfl, if_pos (by omega), Nat.add_sub_cancel_left, List.getElem?_concat_length,
        Option.getD_some]
    · rw [if_neg hlast]
      by_cases hin : base ≤ a ∧ a < base + data.length
      · rw [if_pos hin, if_pos (by omega), List.getElem?_append_left (by omega)]
      · rw [if_neg hin, if_neg (by omega)]

end Stores
