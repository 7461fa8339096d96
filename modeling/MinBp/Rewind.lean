import Mathlib.Data.List.Forall2

/-!
# Histories with snapshots

A machine executes operations, which can fail, and has snapshots. Its history is a list of
operations, each executed, with snapshots taken in between and restored in any order, any number of
times (`Mark`). A restore takes back the operations since the snapshot, apart from those that a
snapshot does not cover. `live` are the operations of a history that are in effect at its end.

`Rewinds` states when restores do take operations back : a relation between the machine with
snapshots and one that executes nothing but the operations in effect, and what each operation, each
snapshot and each restore does to it. `Rewinds.run` is what follows for a whole history.
-/

namespace Rewind

variable {σ α π ε : Type*}

/-! ## Histories -/

/-- One point of a history. -/
inductive Mark (α : Type*) where
  | op (a : α)
  | save
  | restore (k : ℕ)

/-- The operations of a history. -/
def operations (marks : List (Mark α)) : List α :=
  marks.filterMap fun
    | .op a => some a
    | _ => none

/-- A machine with snapshots. -/
structure Checkpointed (σ α π ε : Type*) where
  exec : σ → α → Except ε σ
  take : σ → Except ε π
  restore : σ → π → Except ε σ

/-- A state of the machine with the snapshots taken so far, in order. A mark that restores a
snapshot nobody took does nothing. -/
def Checkpointed.next (m : Checkpointed σ α π ε) (s : σ × List π) : Mark α → Except ε (σ × List π)
  | .op a => (m.exec s.1 a).map fun s' => (s', s.2)
  | .save => (m.take s.1).map fun p => (s.1, s.2 ++ [p])
  | .restore k =>
    match s.2[k]? with
    | none => .ok s
    | some p => (m.restore s.1 p).map fun s' => (s', s.2)

namespace Checkpointed

variable {m : Checkpointed σ α π ε} {s s' : σ} {ps : List π} {p : π}

theorem next_op {a : α} (h : m.exec s a = .ok s') : m.next (s, ps) (.op a) = .ok (s', ps) := by
  rw [next, h]
  rfl

theorem next_save (h : m.take s = .ok p) : m.next (s, ps) .save = .ok (s, ps ++ [p]) := by
  rw [next, h]
  rfl

theorem next_restore {k : ℕ} (hk : ps[k]? = some p) (h : m.restore s p = .ok s') :
    m.next (s, ps) (.restore k) = .ok (s', ps) := by
  rw [next, hk]
  simp only [h]
  rfl

end Checkpointed

/-! ## Operations in effect -/

/-- The operations in effect now, and those in effect after a restore of each snapshot. -/
structure Timelines (α : Type*) where
  current : List α := []
  saved : List (List α) := []

/-- The timelines after one more mark. An operation with `keep` is not taken back by a restore, so
it goes to every timeline. -/
def Timelines.next (keep : α → Bool) (τ : Timelines α) : Mark α → Timelines α
  | .op a =>
    { current := τ.current ++ [a]
      saved := if keep a then τ.saved.map (· ++ [a]) else τ.saved }
  | .save => { τ with saved := τ.saved ++ [τ.current] }
  | .restore k => { τ with current := τ.saved[k]?.getD τ.current }

/-- The operations of a history that are in effect at its end. -/
def live (keep : α → Bool) (marks : List (Mark α)) : List α :=
  (marks.foldl (Timelines.next keep) {}).current

/-- Where nothing is taken back, all operations are in effect. -/
theorem live_of_keep (marks : List (Mark α)) : live (fun _ => true) marks = operations marks := by
  suffices h : ∀ (τ : Timelines α), (∀ l ∈ τ.saved, l = τ.current) →
      (marks.foldl (Timelines.next fun _ => true) τ).current = τ.current ++ operations marks by
    simpa [live] using h {} (by simp)
  induction marks with
  | nil => simp [operations]
  | cons mark marks ih =>
    intro τ hτ
    rw [List.foldl_cons]
    cases mark with
    | op a =>
      rw [ih]
      · simp [Timelines.next, operations]
      · intro l hl
        obtain ⟨l, hmem, rfl⟩ : ∃ l' ∈ τ.saved, l' ++ [a] = l := by simpa [Timelines.next] using hl
        rw [hτ l hmem, Timelines.next]
    | save =>
      rw [ih]
      · simp [Timelines.next, operations]
      · intro l hl
        rcases List.mem_append.1 hl with hl | hl
        · exact hτ l hl
        · exact List.mem_singleton.1 hl
    | restore k =>
      have hk : τ.saved[k]?.getD τ.current = τ.current := by
        cases h : τ.saved[k]? with
        | none => rfl
        | some l => exact hτ l (List.mem_of_getElem? h)
      rw [ih]
      · simp [Timelines.next, hk, operations]
      · intro l hl
        rw [Timelines.next, hk]
        exact hτ l hl

/-! ## Restores that take operations back -/

theorem map_eq_ok {β γ : Type*} {f : β → γ} {x : Except ε β} {c : γ} (h : x.map f = .ok c) :
    ∃ b, x = .ok b ∧ f b = c := by
  cases x with
  | error e => cases h
  | ok b => exact ⟨b, rfl, Except.ok.inj h⟩

theorem foldlM_concat {f : σ → α → Except ε σ} {l : List α} {a : α} {s t u : σ}
    (h : l.foldlM f s = .ok t) (ha : f t a = .ok u) : (l ++ [a]).foldlM f s = .ok u := by
  rw [List.foldlM_append, h]
  simp [bind, Except.bind, pure, Except.pure, ha]

/-- Restores of `m` take back all but the operations with `keep`, as far as `state` can see. -/
structure Rewinds (m : Checkpointed σ α π ε) (keep : α → Bool) (allowed : α → Prop) where
  /-- The machine, and one that executed the operations in effect. -/
  state : σ → σ → Prop
  /-- The machine, a snapshot of it, and a machine that executed the operations that are in effect
  after a restore. -/
  snapshot : σ → π → σ → Prop
  exec : ∀ {s t s' a}, allowed a → state s t → m.exec s a = .ok s' →
    ∃ t', m.exec t a = .ok t' ∧ state s' t'
  kept : ∀ {s p t s' a}, allowed a → keep a = true → snapshot s p t → m.exec s a = .ok s' →
    ∃ t', m.exec t a = .ok t' ∧ snapshot s' p t'
  undone : ∀ {s p t s' a}, allowed a → keep a = false → snapshot s p t → m.exec s a = .ok s' →
    snapshot s' p t
  take : ∀ {s t p}, state s t → m.take s = .ok p → snapshot s p t
  restore : ∀ {s p t s'}, snapshot s p t → m.restore s p = .ok s' → state s' t
  others : ∀ {s p t s' p' t'}, snapshot s p t → m.restore s p = .ok s' → snapshot s p' t' →
    snapshot s' p' t'

namespace Rewinds

variable {m : Checkpointed σ α π ε} {keep : α → Bool} {allowed : α → Prop}
  (r : Rewinds m keep allowed)

/-- Every timeline can be executed from `t₀`, and the machine and its snapshots are those of their
timelines. -/
structure Matches (t₀ : σ) (s : σ × List π) (τ : Timelines α) : Prop where
  current : ∃ t, τ.current.foldlM m.exec t₀ = .ok t ∧ r.state s.1 t
  saved : List.Forall₂ (fun p l => ∃ t, l.foldlM m.exec t₀ = .ok t ∧ r.snapshot s.1 p t) s.2 τ.saved

variable {r} {t₀ : σ} {s s' : σ × List π} {τ : Timelines α}

/-- One mark keeps the machine on its timelines. -/
theorem Matches.next (h : r.Matches t₀ s τ) {mark : Mark α} (ha : ∀ a, mark = .op a → allowed a)
    (hs : m.next s mark = .ok s') : r.Matches t₀ s' (τ.next keep mark) := by
  obtain ⟨t, ht, hst⟩ := h.current
  cases mark with
  | op a =>
    obtain ⟨u, hu, rfl⟩ := map_eq_ok hs
    obtain ⟨t', ht', hst'⟩ := r.exec (ha a rfl) hst hu
    refine ⟨⟨t', foldlM_concat ht ht', hst'⟩, ?_⟩
    by_cases hk : keep a = true
    · simp only [Timelines.next, hk, if_true, List.forall₂_map_right_iff]
      refine h.saved.imp fun p l ⟨v, hv, hp⟩ => ?_
      obtain ⟨v', hv', hp'⟩ := r.kept (ha a rfl) hk hp hu
      exact ⟨v', foldlM_concat hv hv', hp'⟩
    · simp only [Timelines.next, hk, if_false, Bool.false_eq_true]
      exact h.saved.imp fun p l ⟨v, hv, hp⟩ =>
        ⟨v, hv, r.undone (ha a rfl) (Bool.eq_false_iff.2 hk) hp hu⟩
  | save =>
    obtain ⟨p, hp, rfl⟩ := map_eq_ok hs
    exact ⟨⟨t, ht, hst⟩, List.rel_append h.saved (.cons ⟨t, ht, r.take hst hp⟩ .nil)⟩
  | restore k =>
    rw [Checkpointed.next] at hs
    split at hs
    · -- no such snapshot, and no such timeline
      rename_i hk
      cases hs
      have hτ : τ.saved[k]? = none := by
        rw [List.getElem?_eq_none_iff, ← h.saved.length_eq]
        exact List.getElem?_eq_none_iff.1 hk
      simpa [Timelines.next, hτ] using h
    · rename_i p hk
      obtain ⟨u, hu, rfl⟩ := map_eq_ok hs
      obtain ⟨hlt, rfl⟩ := List.getElem?_eq_some_iff.1 hk
      have hlt' := h.saved.length_eq ▸ hlt
      obtain ⟨v, hv, hp⟩ := (List.forall₂_iff_get.1 h.saved).2 k hlt hlt'
      refine ⟨⟨v, ?_, r.restore hp hu⟩,
        h.saved.imp fun p' l ⟨w, hw, hp'⟩ => ⟨w, hw, r.others hp hu hp'⟩⟩
      simpa [Timelines.next, List.getElem?_eq_getElem hlt'] using hv

theorem Matches.foldlM (marks : List (Mark α)) (ha : ∀ a ∈ operations marks, allowed a)
    (h : r.Matches t₀ s τ) (hs : marks.foldlM m.next s = .ok s') :
    r.Matches t₀ s' (marks.foldl (Timelines.next keep) τ) := by
  induction marks generalizing s τ with
  | nil =>
    cases hs
    exact h
  | cons mark marks ih =>
    rw [List.foldlM_cons] at hs
    cases hnext : m.next s mark with
    | error e => simp [hnext, bind, Except.bind] at hs
    | ok u =>
      simp only [hnext, bind, Except.bind] at hs
      refine ih (fun a hmem => ha a ?_) (h.next (fun a hop => ha a ?_) hnext) hs
      · rw [operations, List.filterMap_cons]
        split
        · exact hmem
        · exact List.mem_cons_of_mem _ hmem
      · simp [operations, hop]

variable (r)

/-- A history ends in the state that its operations in effect lead to, and each of its snapshots is
that of a state which can be restored. -/
theorem run {s t : σ} {marks : List (Mark α)} {s' : σ × List π} (h : r.state s t)
    (ha : ∀ a ∈ operations marks, allowed a) (hs : marks.foldlM m.next (s, []) = .ok s') :
    (∃ t', (live keep marks).foldlM m.exec t = .ok t' ∧ r.state s'.1 t') ∧
      ∀ p ∈ s'.2, ∃ t', r.snapshot s'.1 p t' := by
  have hstart : r.Matches t (s, []) {} := ⟨⟨t, rfl, h⟩, .nil⟩
  have hend := hstart.foldlM marks ha hs
  refine ⟨hend.current, fun p hp => ?_⟩
  obtain ⟨k, hk, rfl⟩ := List.getElem_of_mem hp
  obtain ⟨u, -, hu⟩ := (List.forall₂_iff_get.1 hend.saved).2 k hk (hend.saved.length_eq ▸ hk)
  exact ⟨u, hu⟩

end Rewinds

end Rewind
