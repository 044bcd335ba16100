import Mathlib

/-!
# Machines that answer

A machine gives an answer to every request and goes on in a new state. What two machines answer to
the same requests is compared by a relation between their states. Where the relation is kept under
a condition on the request, and the answers differ without it, the answers to a list of requests
agree exactly when every request meets the condition in the state that it comes in
(`answers_eq_iff`).
-/

namespace Machines

variable {σ τ α β : Type}

/-- What a machine answers to requests, one after the other. -/
def answers (step : σ → α → β × σ) : σ → List α → List β
  | _, [] => []
  | s, a :: as => (step s a).1 :: answers step (step s a).2 as

/-- Every request comes in a state that it fits. -/
def Always (step : σ → α → β × σ) (P : σ → α → Prop) : σ → List α → Prop
  | _, [] => True
  | s, a :: as => P s a ∧ Always step P (step s a).2 as

variable {f : σ → α → β × σ} {g : τ → α → β × τ} {s : σ} {t : τ} {as : List α}

theorem answers_eq_iff {R : σ → τ → Prop} {C : τ → α → Prop}
    (same : ∀ s t a, R s t → C t a → (f s a).1 = (g t a).1 ∧ R (f s a).2 (g t a).2)
    (differ : ∀ s t a, R s t → ¬C t a → (f s a).1 ≠ (g t a).1) (h : R s t) :
    answers f s as = answers g t as ↔ Always g C t as := by
  induction as generalizing s t with
  | nil => exact iff_of_true rfl trivial
  | cons a as ih =>
    rw [answers, answers, Always, List.cons.injEq]
    by_cases hC : C t a
    · obtain ⟨hsame, hnext⟩ := same s t a h hC
      rw [ih hnext]
      exact and_congr_left fun _ ↦ iff_of_true hsame hC
    · exact iff_of_false (fun heq ↦ differ s t a h hC heq.1) fun hall ↦ hC hall.1

/-- Two conditions that are the same under an invariant are met by the same requests. -/
theorem always_congr {Inv : σ → Prop} {P Q : σ → α → Prop}
    (keep : ∀ s a, Inv s → Inv (f s a).2) (congr : ∀ s a, Inv s → (P s a ↔ Q s a)) (h : Inv s) :
    Always f P s as ↔ Always f Q s as := by
  induction as generalizing s with
  | nil => exact Iff.rfl
  | cons a as ih => rw [Always, Always, congr s a h, ih (keep s a h)]

/-- What one condition gives in related states, it gives at every request. -/
theorem Always.imp_of_simulation {R : σ → τ → Prop} {C P : τ → α → Prop}
    (keep : ∀ s t a, R s t → C t a → R (f s a).2 (g t a).2)
    (give : ∀ s t a, R s t → C t a → P t a) (h : R s t) (hall : Always g C t as) :
    Always g P t as := by
  induction as generalizing s t with
  | nil => trivial
  | cons a as ih => exact ⟨give s t a h hall.1, ih (keep s t a h hall.1) hall.2⟩

end Machines
