import Mathlib.Data.Nat.Find
import Mathlib.Logic.Function.Iterate

/-!
# Loops that a verdict ends

A step gives a verdict and a new state, and a loop takes steps as long as the verdict is `go`.
`upTo` is the loop with a bound, `after` the sequence of states, and `StopsAfter` says which step
ends the loop. A bounded loop either takes all its steps or ends with the first step that says
something else than `go` (`upTo_of_goes`, `StopsAfter.upTo_eq`), and two bounds add up (`upTo_add`).
-/

namespace Loops

variable {σ ρ : Type*} [DecidableEq ρ] {step : σ → ρ × σ} {go : ρ}

/-- At most `n` steps, up to the first that does not say `go`. -/
def upTo (step : σ → ρ × σ) (go : ρ) : ℕ → σ → ρ × σ
  | 0, s => (go, s)
  | n + 1, s => if (step s).1 = go then upTo step go n (step s).2 else step s

/-- The state after `n` steps, whatever they say. -/
def after (step : σ → ρ × σ) (n : ℕ) (s : σ) : σ :=
  (fun s => (step s).2)^[n] s

/-- Exactly the first `k` steps say `go`. -/
structure StopsAfter (step : σ → ρ × σ) (go : ρ) (k : ℕ) (s : σ) : Prop where
  goes : ∀ i < k, (step (after step i s)).1 = go
  stops : (step (after step k s)).1 ≠ go

omit [DecidableEq ρ] in
theorem after_succ (n : ℕ) (s : σ) : after step (n + 1) s = after step n (step s).2 :=
  Function.iterate_succ_apply _ n s

omit [DecidableEq ρ] in
theorem after_succ_eq (n : ℕ) (s : σ) : after step (n + 1) s = (step (after step n s)).2 :=
  Function.iterate_succ_apply' _ n s

omit [DecidableEq ρ] in
theorem stopsAfter_succ_iff {k : ℕ} {s : σ} : StopsAfter step go (k + 1) s ↔
    (step s).1 = go ∧ StopsAfter step go k (step s).2 := by
  constructor
  · intro h
    refine ⟨h.goes 0 k.succ_pos, fun i hi => ?_, ?_⟩
    · rw [← after_succ]
      exact h.goes (i + 1) (Nat.succ_lt_succ hi)
    · rw [← after_succ]
      exact h.stops
  · rintro ⟨hgo, h⟩
    refine ⟨fun i hi => ?_, ?_⟩
    · rcases i with _ | i
      · exact hgo
      · rw [after_succ]
        exact h.goes i (Nat.lt_of_succ_lt_succ hi)
    · rw [after_succ]
      exact h.stops

/-- Among the first `n` steps there is one that ends the loop, or all of them say `go`. -/
theorem goes_or_stops (step : σ → ρ × σ) (go : ρ) (n : ℕ) (s : σ) :
    (∀ i < n, (step (after step i s)).1 = go) ∨ ∃ k < n, StopsAfter step go k s := by
  by_cases h : ∃ k < n, (step (after step k s)).1 ≠ go
  · have hex : ∃ k, (step (after step k s)).1 ≠ go := h.imp fun _ hk => hk.2
    obtain ⟨k, hk, hstop⟩ := h
    have hle : Nat.find hex ≤ k := Nat.find_min' hex hstop
    refine .inr ⟨Nat.find hex, by omega, fun i hi => ?_, Nat.find_spec hex⟩
    exact not_not.1 (Nat.find_min hex hi)
  · refine .inl fun i hi => ?_
    by_contra hne
    exact h ⟨i, hi, hne⟩

theorem upTo_of_goes {n : ℕ} {s : σ} (h : ∀ i < n, (step (after step i s)).1 = go) :
    upTo step go n s = (go, after step n s) := by
  induction n generalizing s with
  | zero => rfl
  | succ n ih =>
    have hgo : (step s).1 = go := h 0 n.succ_pos
    rw [upTo, if_pos hgo, ih fun i hi => ?_, after_succ]
    rw [← after_succ]
    exact h (i + 1) (Nat.succ_lt_succ hi)

theorem StopsAfter.upTo_eq {n k : ℕ} {s : σ} (h : StopsAfter step go k s) (hk : k < n) :
    upTo step go n s = step (after step k s) := by
  induction n generalizing s k with
  | zero => exact absurd hk k.not_lt_zero
  | succ n ih =>
    rcases k with _ | k
    · exact if_neg h.stops
    · obtain ⟨hgo, h⟩ := stopsAfter_succ_iff.1 h
      rw [upTo, if_pos hgo, ih h (Nat.lt_of_succ_lt_succ hk), after_succ]

/-- A loop over `m + n` steps goes on with a loop over `n` steps where the one over `m` is not
ended. -/
theorem upTo_add (m n : ℕ) (s : σ) : upTo step go (m + n) s =
    if (upTo step go m s).1 = go then upTo step go n (upTo step go m s).2
    else upTo step go m s := by
  induction m generalizing s with
  | zero => rw [Nat.zero_add, upTo, if_pos rfl]
  | succ m ih =>
    rw [Nat.succ_add, upTo, upTo]
    by_cases hgo : (step s).1 = go
    · rw [if_pos hgo, if_pos hgo, ih]
    · rw [if_neg hgo, if_neg hgo, if_neg hgo]

end Loops
