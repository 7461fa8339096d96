import Mathlib.Data.UInt

/-!
# Range checks on 64-bit words

A check that `n` units from `a` on end at or before `e` is often written `a + n ≤ e`. The sum is a
word, so the check passes for two reasons : the range really ends there (`Fits`), or the sum leaves
the word and what remains of it is small (`Slips`). The two exclude each other.
-/

namespace Ranges

variable {a n e : UInt64}

/-- The range of `n` units from `a` on ends at or before `e`. -/
def Fits (a n e : UInt64) : Prop :=
  a.toNat + n.toNat ≤ e.toNat

/-- The range leaves the word, and its wrapped end is at or before `e`. -/
def Slips (a n e : UInt64) : Prop :=
  2 ^ 64 ≤ a.toNat + n.toNat ∧ a.toNat + n.toNat - 2 ^ 64 ≤ e.toNat

instance (a n e : UInt64) : Decidable (Fits a n e) :=
  inferInstanceAs (Decidable (_ ≤ _))

instance (a n e : UInt64) : Decidable (Slips a n e) :=
  inferInstanceAs (Decidable (_ ∧ _))

/-- What the check on words says. -/
theorem add_le_iff : a + n ≤ e ↔ Fits a n e ∨ Slips a n e := by
  have ha := a.toNat_lt
  have hn := n.toNat_lt
  have he := e.toNat_lt
  rw [UInt64.le_iff_toNat_le, UInt64.toNat_add, Fits, Slips]
  rcases Nat.lt_or_ge (a.toNat + n.toNat) (2 ^ 64) with hlt | hge
  · rw [Nat.mod_eq_of_lt hlt]
    omega
  · rw [Nat.mod_eq_sub_mod hge, Nat.mod_eq_of_lt (by omega)]
    omega

/-- A range that slips through does not fit. -/
theorem Slips.not_fits (h : Slips a n e) : ¬Fits a n e := by
  have he := e.toNat_lt
  rw [Slips] at h
  rw [Fits]
  omega

/-- Where no range slips through, the check is right. -/
theorem add_le_iff_fits (h : ¬Slips a n e) : a + n ≤ e ↔ Fits a n e := by
  rw [add_le_iff, or_iff_left h]

end Ranges
