import Mathlib

/-!
# Calls in two phases

A call first reads something of a shared state and later, with what it read, changes the state in
one transaction. Any number of calls may be under way, and between the two phases of one of them any
of the others can be completed. A call that never gets to its second phase is one that stays under
way.

**`Reaches.invariant`**: an invariant of the shared state, together with what a call knows after its
first phase, holds throughout if every change keeps both.
-/

namespace TwoPhase

variable {σ ρ : Type}

/-- The shared state and the calls under way, with what they have read. -/
structure System (σ ρ : Type) where
  shared : σ
  pending : List ρ

/-- How the shared state changes by itself, what a call can have read in a state, and what its
transaction does. -/
structure Protocol (σ ρ : Type) where
  drift : σ → σ → Prop
  reads : σ → ρ → Prop
  commits : σ → ρ → σ → Prop

inductive Step (p : Protocol σ ρ) : System σ ρ → System σ ρ → Prop
  | drift {s s' : σ} {pending : List ρ} (h : p.drift s s') : Step p ⟨s, pending⟩ ⟨s', pending⟩
  | read {s : σ} {pending : List ρ} (r : ρ) (h : p.reads s r) :
      Step p ⟨s, pending⟩ ⟨s, r :: pending⟩
  | commit {s s' : σ} (before after : List ρ) (r : ρ) (h : p.commits s r s') :
      Step p ⟨s, before ++ r :: after⟩ ⟨s', before ++ after⟩

/-- What can happen from a state in which no call is under way. -/
def Reaches (p : Protocol σ ρ) (start : σ) (c : System σ ρ) : Prop :=
  Relation.ReflTransGen (Step p) ⟨start, []⟩ c

variable {p : Protocol σ ρ} {start : σ} {c : System σ ρ}

/-- **An invariant and what a call knows, kept by every change, hold throughout.** -/
theorem Reaches.invariant (Inv : σ → Prop) (Knows : ρ → σ → Prop) (hstart : Inv start)
    (hdrift : ∀ s s', Inv s → p.drift s s' → Inv s' ∧ ∀ r, Knows r s → Knows r s')
    (hreads : ∀ s r, Inv s → p.reads s r → Knows r s)
    (hcommits : ∀ s r s', Inv s → Knows r s → p.commits s r s' →
      Inv s' ∧ ∀ r', Knows r' s → Knows r' s')
    (h : Reaches p start c) : Inv c.shared ∧ ∀ r ∈ c.pending, Knows r c.shared := by
  induction h with
  | refl => exact ⟨hstart, nofun⟩
  | tail _ hstep ih =>
    obtain ⟨hinv, hknows⟩ := ih
    cases hstep with
    | drift h =>
      obtain ⟨hinv', hkept⟩ := hdrift _ _ hinv h
      exact ⟨hinv', fun r hr ↦ hkept r (hknows r hr)⟩
    | read r h => exact ⟨hinv, List.forall_mem_cons.mpr ⟨hreads _ r hinv h, hknows⟩⟩
    | commit before after r h =>
      obtain ⟨hinv', hkept⟩ := hcommits _ r _ hinv
        (hknows r (List.mem_append_right before List.mem_cons_self)) h
      refine ⟨hinv', fun r' hr' ↦ hkept r' (hknows r' ?_)⟩
      rcases List.mem_append.mp hr' with hr' | hr'
      · exact List.mem_append_left _ hr'
      · exact List.mem_append_right _ (List.mem_cons_of_mem r hr')

end TwoPhase
