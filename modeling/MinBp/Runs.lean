import Mathlib.Data.List.Basic
import Mathlib.Logic.Function.Iterate

/-!
# Runs of a step function

A run is a fold of a step function over a list of inputs. `along` lists the steps of a run, each
with the state it starts from, so that a statement about every step of every run is a statement
about the members of `along`. A log that every step extends holds the outputs of all steps at the
end of the run (`log_foldl`), a count counts them (`countP_foldl`), and a 64-bit counter follows a
count modulo `2 ^ 64` (`Tracks`).

`execM_inv` is the invariant rule for steps that can fail, and `iterate_rel` the rule for two step
functions side by side.
-/

namespace Runs

variable {σ ι β ε : Type*}

/-- A run whose first step succeeds. -/
theorem foldlM_cons_ok {step : σ → ι → Except ε σ} {s t : σ} {x : ι} (h : step s x = .ok t)
    (xs : List ι) : (x :: xs).foldlM step s = xs.foldlM step t := by
  rw [List.foldlM_cons, h]
  rfl

/-- An invariant of every successful step holds after every successful run. -/
theorem execM_inv {step : σ → ι → Except ε σ} (I : σ → Prop)
    (hstep : ∀ s x s', I s → step s x = .ok s' → I s') :
    ∀ (xs : List ι) {s s' : σ}, I s → xs.foldlM step s = .ok s' → I s'
  | [], s, s', hs, h => by
    cases h
    exact hs
  | x :: xs, s, s', hs, h => by
    cases hx : step s x with
    | error e => simp [List.foldlM_cons, hx, bind, Except.bind] at h
    | ok t =>
      rw [foldlM_cons_ok hx] at h
      exact execM_inv I hstep xs (hstep s x t hs hx) h

/-- The steps of a run, each with the state it starts from. -/
def along (f : σ → ι → σ) : σ → List ι → List (σ × ι)
  | _, [] => []
  | s, x :: xs => (s, x) :: along f (f s x) xs

/-- The steps of a run take its inputs in order. -/
theorem map_snd_along (f : σ → ι → σ) (s : σ) (xs : List ι) :
    (along f s xs).map Prod.snd = xs := by
  induction xs generalizing s with
  | nil => rfl
  | cons x xs ih => rw [along, List.map_cons, ih]

theorem exists_mem_along {f : σ → ι → σ} (s : σ) {x : ι} {xs : List ι} (h : x ∈ xs) :
    ∃ t, (t, x) ∈ along f s xs := by
  rw [← map_snd_along f s xs] at h
  obtain ⟨⟨t, y⟩, hmem, rfl⟩ := List.mem_map.1 h
  exact ⟨t, hmem⟩

theorem snd_mem_of_mem_along {f : σ → ι → σ} {s : σ} {p : σ × ι} {xs : List ι}
    (h : p ∈ along f s xs) : p.2 ∈ xs := by
  rw [← map_snd_along f s xs]
  exact List.mem_map_of_mem h

/-- An invariant of the steps a run takes holds in every state of the run. -/
theorem along_inv {f : σ → ι → σ} {I : σ → Prop} :
    ∀ (xs : List ι) {s : σ}, (∀ t, ∀ x ∈ xs, I t → I (f t x)) → I s →
      ∀ p ∈ along f s xs, I p.1
  | [], _, _, _, _, hp => by cases hp
  | x :: xs, s, hf, hs, p, hp => by
    rcases List.mem_cons.1 hp with rfl | hp
    · exact hs
    · exact along_inv xs (fun t y hy => hf t y (List.mem_cons_of_mem _ hy))
        (hf s x List.mem_cons_self hs) p hp

/-- A log that every step extends by `o` holds the outputs of all steps in order. -/
theorem log_foldl {f : σ → ι → σ} {l : σ → List β} {o : σ → ι → List β} :
    ∀ (xs : List ι) {s : σ},
      (∀ p ∈ along f s xs, l (f p.1 p.2) = l p.1 ++ o p.1 p.2) →
      l (xs.foldl f s) = l s ++ (along f s xs).flatMap fun p => o p.1 p.2
  | [], _, _ => by simp [along]
  | x :: xs, s, h => by
    have hx : l (f s x) = l s ++ o s x := h (s, x) List.mem_cons_self
    have hxs := log_foldl xs fun p hp => h p (List.mem_cons_of_mem _ hp)
    rw [List.foldl_cons, hxs, hx, along, List.flatMap_cons, List.append_assoc]

/-- A relation that composes holds across a run if it holds across each step. -/
theorem rel_foldl {f : σ → ι → σ} {R : σ → σ → Prop} (hrefl : ∀ s, R s s)
    (htrans : ∀ s t u, R s t → R t u → R s u) :
    ∀ (xs : List ι) {s : σ}, (∀ p ∈ along f s xs, R p.1 (f p.1 p.2)) →
      R s (xs.foldl f s)
  | [], s, _ => hrefl s
  | x :: xs, s, h =>
    htrans _ _ _ (h (s, x) List.mem_cons_self)
      (rel_foldl hrefl htrans xs fun p hp => h p (List.mem_cons_of_mem _ hp))

/-- A count that goes up by one exactly on the steps with `P` counts these steps. -/
theorem countP_foldl {f : σ → ι → σ} {c : σ → ℕ} {P : σ → ι → Bool} :
    ∀ (xs : List ι) {s : σ},
      (∀ p ∈ along f s xs, c (f p.1 p.2) = c p.1 + if P p.1 p.2 then 1 else 0) →
      c (xs.foldl f s) = c s + (along f s xs).countP fun p => P p.1 p.2
  | [], _, _ => rfl
  | x :: xs, s, h => by
    have hx : c (f s x) = c s + if P s x then 1 else 0 := h (s, x) List.mem_cons_self
    have hxs := countP_foldl xs fun p hp => h p (List.mem_cons_of_mem _ hp)
    simp only [List.foldl_cons, hxs, hx, along, List.countP_cons]
    omega

/-- The 64-bit counter goes up by as much as the count does, modulo `2 ^ 64`. -/
def Tracks (count : σ → ℕ) (counter : σ → UInt64) (s s' : σ) : Prop :=
  ∃ k, count s' = count s + k ∧ counter s' = counter s + UInt64.ofNat k

theorem Tracks.trans {count : σ → ℕ} {counter : σ → UInt64} {s t u : σ}
    (h : Tracks count counter s t) (h' : Tracks count counter t u) :
    Tracks count counter s u := by
  obtain ⟨k, hc, hw⟩ := h
  obtain ⟨k', hc', hw'⟩ := h'
  refine ⟨k + k', by omega, ?_⟩
  rw [hw', hw, UInt64.ofNat_add, UInt64.add_assoc]

/-- A counter that tracks a count on every step tracks it on the run. -/
theorem tracks_foldl {f : σ → ι → σ} {count : σ → ℕ} {counter : σ → UInt64} (xs : List ι)
    {s : σ} (h : ∀ p ∈ along f s xs, Tracks count counter p.1 (f p.1 p.2)) :
    Tracks count counter s (xs.foldl f s) :=
  rel_foldl (fun _ => ⟨0, rfl, by simp⟩) (fun _ _ _ => Tracks.trans) xs h

/-- A relation that two step functions keep holds after equally many steps of both. -/
theorem iterate_rel {τ : Type*} {f : σ → σ} {g : τ → τ} {R : σ → τ → Prop}
    (hstep : ∀ s t, R s t → R (f s) (g t)) {s : σ} {t : τ} (h : R s t) (n : ℕ) :
    R (f^[n] s) (g^[n] t) := by
  induction n generalizing s t with
  | zero => exact h
  | succ n ih =>
    rw [Function.iterate_succ_apply, Function.iterate_succ_apply]
    exact ih (hstep s t h)

end Runs
