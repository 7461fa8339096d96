import Mathlib.Data.List.Basic
import Mathlib.Data.Set.Function
import Mathlib.Tactic.NormNum

/-!
# Texts that can be taken apart

A text that is put together from values of any length determines the values if each of them can be
told from what follows. A `Field` prints its values with letters of one class and no two values
alike, so a separator that starts with another letter ends it (`Field.append_inj`). Labels from a
`PrefixFree` family end by themselves (`PrefixFree.append_inj`).

`field_digits` states that numbers in any base are a field, also if their digits are replaced by
others, such as capital letters.
-/

namespace Fields

variable {α κ γ : Type*}

/-- A printer that uses letters of the class `S` only and prints no two values alike. -/
structure Field (S : γ → Prop) (print : α → List γ) : Prop where
  letters : ∀ a, ∀ c ∈ print a, S c
  injective : Function.Injective print

/-- The text starts with a letter outside the class. -/
def Separates (S : γ → Prop) (sep : List γ) : Prop :=
  ∃ c ∈ sep.head?, ¬S c

instance (S : γ → Prop) [DecidablePred S] (sep : List γ) : Decidable (Separates S sep) :=
  match sep with
  | [] => isFalse (by simp [Separates])
  | c :: sep => decidable_of_iff (¬S c) (by simp [Separates])

/-- Letters of the class before a separator are determined by the whole text. -/
theorem append_inj_of_separates {S : γ → Prop} {l l' sep t t' : List γ} (hsep : Separates S sep)
    (hl : ∀ c ∈ l, S c) (hl' : ∀ c ∈ l', S c) (h : l ++ (sep ++ t) = l' ++ (sep ++ t')) :
    l = l' ∧ t = t' := by
  obtain ⟨c, hc, hS⟩ := hsep
  obtain ⟨sep, rfl⟩ := List.head?_eq_some_iff.1 hc
  induction l generalizing l' with
  | nil =>
    rcases l' with _ | ⟨d, l'⟩
    · exact ⟨rfl, List.append_cancel_left h⟩
    · -- the first letter of the separator would be in the class
      have hd : c = d := (List.cons.inj h).1
      exact absurd (hl' d List.mem_cons_self) (hd ▸ hS)
  | cons d l ih =>
    rcases l' with _ | ⟨d', l'⟩
    · have hd : d = c := (List.cons.inj h).1
      exact absurd (hl d List.mem_cons_self) (hd ▸ hS)
    · obtain ⟨rfl, htail⟩ := List.cons.inj h
      obtain ⟨rfl, ht⟩ := ih (fun c hc => hl c (List.mem_cons_of_mem _ hc))
        (fun c hc => hl' c (List.mem_cons_of_mem _ hc)) htail
      exact ⟨rfl, ht⟩

/-- The value of a field and the text after the separator are determined. -/
theorem Field.append_inj {S : γ → Prop} {print : α → List γ} (h : Field S print) {sep : List γ}
    (hsep : Separates S sep) {a b : α} {t t' : List γ} :
    print a ++ (sep ++ t) = print b ++ (sep ++ t') ↔ a = b ∧ t = t' := by
  constructor
  · intro heq
    obtain ⟨hprint, ht⟩ := append_inj_of_separates hsep (h.letters a) (h.letters b) heq
    exact ⟨h.injective hprint, ht⟩
  · rintro ⟨rfl, rfl⟩
    rfl

/-! ## Labels -/

/-- No label is the start of another. -/
def PrefixFree (label : κ → List γ) : Prop :=
  ∀ k k', label k <+: label k' → k = k'

/-- A label and the text after it are determined. -/
theorem PrefixFree.append_inj {label : κ → List γ} (h : PrefixFree label) {k k' : κ}
    {t t' : List γ} : label k ++ t = label k' ++ t' ↔ k = k' ∧ t = t' := by
  constructor
  · intro heq
    have hk : k = k' := by
      rcases List.prefix_or_prefix_of_prefix (List.prefix_append (label k) t)
        (heq ▸ List.prefix_append (label k') t') with hp | hp
      · exact h k k' hp
      · exact (h k' k hp).symm
    subst hk
    exact ⟨rfl, List.append_cancel_left heq⟩
  · rintro ⟨rfl, rfl⟩
    rfl

/-! ## Numbers -/

/-- The digits of a number are digits below the base. -/
theorem mem_toDigits {b : ℕ} (hb : 1 < b) {n : ℕ} {c : Char} (h : c ∈ Nat.toDigits b n) :
    ∃ d < b, c = Nat.digitChar d := by
  induction n using Nat.strong_induction_on with
  | _ n ih =>
    rw [Nat.toDigits_eq_if hb] at h
    split at h
    · rename_i hlt
      exact ⟨n, hlt, List.mem_singleton.1 h⟩
    · rename_i hle
      rcases List.mem_append.1 h with h | h
      · exact ih (n / b) (Nat.div_lt_self (by omega) hb) h
      · exact ⟨n % b, Nat.mod_lt _ (by omega), List.mem_singleton.1 h⟩

/-- Numbers in base `b` with the digits `f` are a field, if the digits are distinct. -/
theorem field_digits {b : ℕ} (hb : 1 < b) {f : Char → γ}
    (hf : Set.InjOn (fun d => f (Nat.digitChar d)) (Set.Iio b)) :
    Field (· ∈ (List.range b).map fun d => f (Nat.digitChar d))
      fun n => (Nat.toDigits b n).map f where
  letters n c hc := by
    obtain ⟨c, hmem, rfl⟩ := List.mem_map.1 hc
    obtain ⟨d, hd, rfl⟩ := mem_toDigits hb hmem
    exact List.mem_map_of_mem (List.mem_range.2 hd)
  injective := by
    intro m n h
    induction m using Nat.strong_induction_on generalizing n with
    | _ m ih =>
      dsimp only at h
      rw [Nat.toDigits_eq_if hb, Nat.toDigits_eq_if hb (n := n)] at h
      split at h <;> split at h
      · rename_i hm hn
        exact hf hm hn (List.singleton_inj.1 h)
      · have hlen := congrArg List.length h
        have hpos : 0 < (Nat.toDigits b (n / b)).length := Nat.length_toDigits_pos
        simp only [List.length_map, List.length_append, List.length_singleton] at hlen
        omega
      · have hlen := congrArg List.length h
        have hpos : 0 < (Nat.toDigits b (m / b)).length := Nat.length_toDigits_pos
        simp only [List.length_map, List.length_append, List.length_singleton] at hlen
        omega
      · -- the last digits agree, and the numbers before them
        rename_i hm hn
        rw [List.map_append, List.map_append] at h
        obtain ⟨hhigh, hlow⟩ := List.append_inj' h rfl
        have hdiv : m / b = n / b := ih (m / b) (Nat.div_lt_self (by omega) hb) hhigh
        have hmod : m % b = n % b :=
          hf (Nat.mod_lt m (by omega)) (Nat.mod_lt n (by omega)) (List.singleton_inj.1 hlow)
        rw [← Nat.div_add_mod m b, ← Nat.div_add_mod n b, hdiv, hmod]

end Fields
