import MinBp.Runs

/-!
# Components of a system

A transducer takes requests, one after the other, and gives an answer to each. A system embeds a
transducer (`Embeds`) if some of its inputs carry requests for it : on these the system does what
the transducer does, and on all others it leaves the transducer's state alone. Then in every run of
the system the transducer goes through its own requests as if it were alone (`Embeds.run`).
-/

namespace Components

variable {S E σ ρ α : Type*}

/-- A machine that answers requests. -/
structure Transducer (σ ρ α : Type*) where
  next : σ → ρ → σ
  answer : σ → ρ → α

namespace Transducer

/-- The state after a list of requests. -/
def run (T : Transducer σ ρ α) (s : σ) (rs : List ρ) : σ :=
  rs.foldl T.next s

/-- The answers to a list of requests. -/
def answers (T : Transducer σ ρ α) : σ → List ρ → List α
  | _, [] => []
  | s, r :: rs => T.answer s r :: answers T (T.next s r) rs

end Transducer

/-- The system `step` embeds the transducer, wherever `I` holds. `view` is the transducer's state,
`request` what an input asks of it, and `observed` what the system answers. -/
structure Embeds (T : Transducer σ ρ α) (step : S → E → S) (I : S → Prop) (view : S → σ)
    (request : E → Option ρ) (observed : S → E → α) : Prop where
  inv : ∀ s e, I s → I (step s e)
  next : ∀ s e r, I s → request e = some r → view (step s e) = T.next (view s) r
  answer : ∀ s e r, I s → request e = some r → observed s e = T.answer (view s) r
  other : ∀ s e, I s → request e = none → view (step s e) = view s

/-- In every run of the system the transducer takes its own requests, and these only. -/
theorem Embeds.run {T : Transducer σ ρ α} {step : S → E → S} {I : S → Prop} {view : S → σ}
    {request : E → Option ρ} {observed : S → E → α} (h : Embeds T step I view request observed) :
    ∀ (es : List E) {s : S}, I s →
      view (es.foldl step s) = T.run (view s) (es.filterMap request) ∧
        (Runs.along step s es).filterMap
            (fun p => (request p.2).map fun _ => observed p.1 p.2) =
          T.answers (view s) (es.filterMap request)
  | [], _, _ => ⟨rfl, rfl⟩
  | e :: es, s, hs => by
    obtain ⟨hview, hanswers⟩ := h.run es (h.inv s e hs)
    rw [List.foldl_cons, Runs.along, hview]
    cases hr : request e with
    | none =>
      simp only [List.filterMap_cons, hr, Option.map_none]
      rw [hanswers, h.other s e hs hr]
      exact ⟨rfl, rfl⟩
    | some r =>
      simp only [List.filterMap_cons, hr, Option.map_some]
      rw [hanswers, h.next s e r hs hr, h.answer s e r hs hr]
      exact ⟨rfl, rfl⟩

end Components
