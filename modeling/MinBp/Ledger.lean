import Mathlib.Algebra.BigOperators.Group.Multiset.Basic

/-!
# Ledgers of resources

A ledger says which resources are held, and logs every acquisition and release. A release of
something that is not held is logged as stray. The number of acquisitions of a resource is always
the number of its releases and of the copies held (`Ledger.balanced`). So a ledger without stray
entries that holds nothing has released every resource as often as it was acquired, and each time
while it was held (`Ledger.released_eq_acquired`).

`Gains L L' rs` and `Settles L L' rs` say what code that takes up or gives up `rs` does to the
ledger. Both compose, and the second extends to loops (`Settles.foldl`).
-/

variable {ρ σ α : Type*} [DecidableEq ρ]

/-- One line of a ledger. -/
inductive Entry (ρ : Type*) where
  | acquired (r : ρ)
  | released (r : ρ)
  /-- A release of something that is not held. -/
  | stray (r : ρ)
  deriving DecidableEq, Repr

/-- Resources held, and how they came and went. -/
structure Ledger (ρ : Type*) [DecidableEq ρ] where
  held : Multiset ρ := 0
  log : List (Entry ρ) := []
  balanced : ∀ r, log.count (.acquired r) = log.count (.released r) + held.count r := by simp

namespace Ledger

/-- A resource is acquired. -/
def acquire (r : ρ) (L : Ledger ρ) : Ledger ρ where
  held := r ::ₘ L.held
  log := L.log ++ [.acquired r]
  balanced s := by
    have := L.balanced s
    by_cases h : s = r
    · subst h
      simp
      omega
    · have h' : r ≠ s := fun e => h e.symm
      simpa [List.count_cons, Multiset.count_cons_of_ne h, h'] using this

/-- A resource is released. -/
def release (r : ρ) (L : Ledger ρ) : Ledger ρ :=
  if h : r ∈ L.held then
    { held := L.held.erase r
      log := L.log ++ [.released r]
      balanced := fun s => by
        have hb := L.balanced s
        have hpos := Multiset.count_pos.2 h
        by_cases hs : s = r
        · subst hs
          simp
          omega
        · have hs' : r ≠ s := fun e => hs e.symm
          simpa [List.count_cons, Multiset.count_erase_of_ne hs, hs'] using hb }
  else
    { held := L.held
      log := L.log ++ [.stray r]
      balanced := fun s => by simpa using L.balanced s }

/-- Nothing was released that was not held. -/
def Clean (L : Ledger ρ) : Prop :=
  ∀ r, Entry.stray r ∉ L.log

/-- A clean ledger that holds nothing has released every resource exactly as often as it was
acquired. -/
theorem released_eq_acquired {L : Ledger ρ} (h : L.held = 0) (r : ρ) :
    L.log.count (.released r) = L.log.count (.acquired r) := by
  have := L.balanced r
  rw [h, Multiset.count_zero] at this
  omega

theorem clean_acquire {L : Ledger ρ} (h : L.Clean) (r : ρ) : (L.acquire r).Clean := by
  intro s hs
  simp only [acquire, List.mem_append, List.mem_singleton, reduceCtorEq, or_false] at hs
  exact h s hs

theorem held_release_le (L : Ledger ρ) (r : ρ) : (L.release r).held ≤ L.held := by
  rw [release]
  split
  · exact Multiset.erase_le _ _
  · exact le_rfl

/-! ## Taking up resources -/

/-- From `L` to `L'` the resources `rs` were acquired. -/
structure Gains (L L' : Ledger ρ) (rs : Multiset ρ) : Prop where
  held : L'.held = L.held + rs
  clean : L.Clean → L'.Clean

namespace Gains

variable {L L' L'' : Ledger ρ} {rs rs' : Multiset ρ}

theorem refl (L : Ledger ρ) : Gains L L 0 :=
  ⟨(add_zero _).symm, id⟩

theorem trans (h : Gains L L' rs) (h' : Gains L' L'' rs') : Gains L L'' (rs + rs') where
  held := by rw [h'.held, h.held, add_assoc]
  clean hc := h'.clean (h.clean hc)

theorem acquire (L : Ledger ρ) (r : ρ) : Gains L (L.acquire r) {r} where
  held := by rw [Ledger.acquire, add_comm, Multiset.singleton_add]
  clean hc := clean_acquire hc r

end Gains

/-! ## Giving up resources -/

/-- From `L` to `L'` the resources `rs` were released, each while held. -/
structure Settles (L L' : Ledger ρ) (rs : Multiset ρ) : Prop where
  held : L'.held + rs = L.held
  clean : L.Clean → L'.Clean

namespace Settles

variable {L L' L'' : Ledger ρ} {rs rs' : Multiset ρ}

theorem refl (L : Ledger ρ) : Settles L L 0 :=
  ⟨add_zero _, id⟩

theorem trans (h : Settles L L' rs) (h' : Settles L' L'' rs') : Settles L L'' (rs + rs') where
  held := by rw [← h.held, ← h'.held, add_assoc, add_comm rs']
  clean hc := h'.clean (h.clean hc)

/-- Releasing a resource that is held. -/
theorem release {r : ρ} (h : {r} ≤ L.held) : Settles L (L.release r) {r} := by
  have hmem : r ∈ L.held := Multiset.singleton_le.1 h
  rw [Ledger.release, dif_pos hmem]
  refine ⟨?_, fun hc s hs => ?_⟩
  · rw [add_comm, Multiset.singleton_add, Multiset.cons_erase hmem]
  · simp only [List.mem_append, List.mem_singleton, reduceCtorEq, or_false] at hs
    exact hc s hs

/-- What is left still covers what comes next. -/
theorem le_of_add_le (h : Settles L L' rs) (hle : rs + rs' ≤ L.held) : rs' ≤ L'.held := by
  rw [← h.held, add_comm] at hle
  exact le_of_add_le_add_right hle

/-- Giving up again what was just acquired. -/
theorem gains_zero (h : Gains L L' rs) (h' : Settles L' L'' rs) : Gains L L'' 0 where
  held := by
    rw [add_zero]
    exact add_right_cancel (h'.held.trans h.held)
  clean hc := h'.clean (h.clean hc)

/-- A loop that gives up what belongs to each element gives up the sum. -/
theorem foldl {ledger : σ → Ledger ρ} {f : σ → α → σ} {own : α → Multiset ρ}
    (hf : ∀ s x, own x ≤ (ledger s).held → Settles (ledger s) (ledger (f s x)) (own x)) :
    ∀ (xs : List α) (s : σ), (xs.map own).sum ≤ (ledger s).held →
      Settles (ledger s) (ledger (xs.foldl f s)) (xs.map own).sum
  | [], s, _ => .refl _
  | x :: xs, s, h => by
    rw [List.map_cons, List.sum_cons] at h ⊢
    have hx := hf s x ((Multiset.le_add_right _ _).trans h)
    exact hx.trans (foldl hf xs (f s x) (hx.le_of_add_le h))

end Settles

end Ledger

/-- An exchanged owner changes what a list of owners owns by what the two own. -/
theorem List.sum_map_set {β : Type*} {l : List α} {i : ℕ} {x : α} (own : α → Multiset β)
    (h : l[i]? = some x) (y : α) :
    ((l.set i y).map own).sum + own x = (l.map own).sum + own y := by
  induction l generalizing i with
  | nil => simp at h
  | cons a l ih =>
    rcases i with _ | i
    · obtain rfl : a = x := by simpa using h
      rw [List.set_cons_zero, List.map_cons, List.map_cons, List.sum_cons, List.sum_cons,
        add_right_comm, add_comm (own y), add_right_comm]
    · rw [List.getElem?_cons_succ] at h
      rw [List.set_cons_succ, List.map_cons, List.map_cons, List.sum_cons, List.sum_cons, add_assoc,
        add_assoc, ih h]
