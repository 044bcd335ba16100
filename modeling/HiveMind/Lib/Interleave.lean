import HiveMind.Lib.Raise

/-!
# Programs that share a state

A program returns or raises, or it takes one step on a shared state, or it calls out and goes on
with the answer. A step is atomic and has a label; everything between two steps is local to the
program. Two semantics are given.

* `Runs` follows one program to its end while others change the state between its steps.
* `Config.Step` interleaves any number of programs, one step or call at a time.

## Guarantees

A program may count on what it has seen as long as the others only make changes in a relation that is
preserved (`Guarantees`). Programs that all keep an invariant and all stay within the relation, given
that the others do, keep the invariant however they are interleaved: **`inv_of_reaches`**.

## Credits

To bound how often the programs of a configuration call out, calls are paid for. A step that raises
a meter of the shared state hands out credit, and a call has to be paid with credit its program
holds (`Affords`). Credit is never shared, so that **`sum_cost_le`** holds: however the programs are
interleaved, the calls made so far have cost no more than the meter has gone up.
-/

open Raise

namespace Interleave

/-- A program with results in `α`, exceptions in `ε`, shared state `σ`, step labels `Λ`, and calls
`ι` that are answered in `ο`. A step goes on with the state it found. -/
inductive Proc (ε σ Λ ι : Type) (ο : ι → Type) (α : Type) : Type where
  | done (result : Except ε α)
  | step (label : Λ) (next : σ → σ) (rest : σ → Proc ε σ Λ ι ο α)
  | call (query : ι) (rest : ο query → Proc ε σ Λ ι ο α)

variable {ε σ Λ ι : Type} {ο : ι → Type} {α β : Type}

namespace Proc

/-! ## Putting programs together -/

def bind : Proc ε σ Λ ι ο α → (α → Proc ε σ Λ ι ο β) → Proc ε σ Λ ι ο β
  | done (.ok a), f => f a
  | done (.error e), _ => done (.error e)
  | step label next rest, f => step label next fun s ↦ (rest s).bind f
  | call query rest, f => call query fun o ↦ (rest o).bind f

instance : Monad (Proc ε σ Λ ι ο) where
  pure a := done (.ok a)
  bind := bind

/-- A computation that touches nothing shared. -/
def lift (x : Except ε α) : Proc ε σ Λ ι ο α := done x

def raise (e : ε) : Proc ε σ Λ ι ο α := done (.error e)

/-- Ask the outside world. -/
def ask (query : ι) : Proc ε σ Λ ι ο (ο query) := call query fun o ↦ done (.ok o)

def resultOf : EStateM.Result ε σ α → Except ε α
  | .ok a _ => .ok a
  | .error e _ => .error e

def stateOf : EStateM.Result ε σ α → σ
  | .ok _ s => s
  | .error _ s => s

/-- One step that runs code on the shared state. -/
def transact (label : Λ) (x : EStateM ε σ α) : Proc ε σ Λ ι ο α :=
  step label (fun s ↦ stateOf (x s)) fun s ↦ done (resultOf (x s))

/-- Run a program and hand its outcome on, so that what follows can deal with an exception. -/
def attempt : Proc ε σ Λ ι ο α → Proc ε σ Λ ι ο (Except ε α)
  | done r => done (.ok r)
  | step label next rest => step label next fun s ↦ (rest s).attempt
  | call query rest => call query fun o ↦ (rest o).attempt

end Proc

/-! ## One program alone -/

namespace Proc

variable (env : ∀ query, ο query)

/-- A program that runs with nothing between its steps, and what it leaves. -/
def exec : Proc ε σ Λ ι ο α → σ → Except ε α × σ
  | done r, s => (r, s)
  | step _ next rest, s => (rest s).exec (next s)
  | call query rest, s => (rest (env query)).exec s

@[simp] theorem exec_pure (a : α) (s : σ) :
    (pure a : Proc ε σ Λ ι ο α).exec env s = (.ok a, s) := rfl

@[simp] theorem exec_raise (e : ε) (s : σ) :
    (raise e : Proc ε σ Λ ι ο α).exec env s = (.error e, s) := rfl

@[simp] theorem exec_lift (x : Except ε α) (s : σ) :
    (lift x : Proc ε σ Λ ι ο α).exec env s = (x, s) := rfl

@[simp] theorem exec_ask (query : ι) (s : σ) :
    (ask query : Proc ε σ Λ ι ο (ο query)).exec env s = (.ok (env query), s) := rfl

@[simp] theorem exec_transact (label : Λ) (x : EStateM ε σ α) (s : σ) :
    (transact label x : Proc ε σ Λ ι ο α).exec env s = (resultOf (x s), stateOf (x s)) := rfl

theorem exec_bind (p : Proc ε σ Λ ι ο α) (f : α → Proc ε σ Λ ι ο β) (s : σ) :
    (p >>= f).exec env s = match p.exec env s with
      | (.ok a, t) => (f a).exec env t
      | (.error e, t) => (.error e, t) := by
  change (p.bind f).exec env s = _
  induction p generalizing s with
  | done r =>
    cases r with
    | ok a => rfl
    | error e => rfl
  | step label next rest ih => exact ih s (next s)
  | call query rest ih => exact ih (env query) s

theorem exec_bind_of_ok {p : Proc ε σ Λ ι ο α} {f : α → Proc ε σ Λ ι ο β} {s t : σ} {a : α}
    (h : p.exec env s = (.ok a, t)) : (p >>= f).exec env s = (f a).exec env t := by
  rw [exec_bind, h]

theorem exec_bind_of_error {p : Proc ε σ Λ ι ο α} {f : α → Proc ε σ Λ ι ο β} {s t : σ} {e : ε}
    (h : p.exec env s = (.error e, t)) : (p >>= f).exec env s = (.error e, t) := by
  rw [exec_bind, h]

theorem exec_bind_eq_ok {p : Proc ε σ Λ ι ο α} {f : α → Proc ε σ Λ ι ο β} {s u : σ} {b : β} :
    (p >>= f).exec env s = (.ok b, u) ↔
      ∃ a t, p.exec env s = (.ok a, t) ∧ (f a).exec env t = (.ok b, u) := by
  rw [exec_bind]
  rcases p.exec env s with ⟨e | a, t⟩
  · exact iff_of_false nofun fun ⟨_, _, h, _⟩ ↦ nomatch h
  · constructor
    · intro h
      exact ⟨a, t, rfl, h⟩
    · rintro ⟨_, _, ⟨⟩, h⟩
      exact h

/-- A guard was passed, and the rest returned. -/
theorem exec_guard_eq_ok {c : Prop} [Decidable c] {e : ε} {k : α → Proc ε σ Λ ι ο β}
    {p : Proc ε σ Λ ι ο β} {s t : σ} {b : β} :
    (if c then (raise e : Proc ε σ Λ ι ο α) >>= k else p).exec env s = (.ok b, t) ↔
      ¬c ∧ p.exec env s = (.ok b, t) := by
  by_cases h : c
  · rw [if_pos h]
    exact iff_of_false nofun fun h' ↦ h'.1 h
  · rw [if_neg h]
    exact ⟨fun h' ↦ ⟨h, h'⟩, And.right⟩

/-- The states in which a crash can find the program: before each of its steps and calls. -/
def stops : Proc ε σ Λ ι ο α → σ → List σ
  | done _, _ => []
  | step _ next rest, s => s :: (rest s).stops (next s)
  | call query rest, s => s :: (rest (env query)).stops s

theorem stops_bind_of_ok {p : Proc ε σ Λ ι ο α} {f : α → Proc ε σ Λ ι ο β} {s t : σ} {a : α}
    (h : p.exec env s = (.ok a, t)) :
    (p >>= f).stops env s = p.stops env s ++ (f a).stops env t := by
  change (p.bind f).stops env s = _
  induction p generalizing s with
  | done r =>
    obtain ⟨rfl, rfl⟩ := Prod.mk.inj h
    rfl
  | step label next rest ih => exact congrArg (s :: ·) (ih s h)
  | call query rest ih => exact congrArg (s :: ·) (ih (env query) h)

/-- A program that changes nothing shared. -/
def IsSilent : Proc ε σ Λ ι ο α → Prop
  | done _ => True
  | step _ next rest => (∀ s, next s = s) ∧ ∀ s, (rest s).IsSilent
  | call _ rest => ∀ o, (rest o).IsSilent

theorem isSilent_pure (a : α) : (pure a : Proc ε σ Λ ι ο α).IsSilent := trivial

theorem isSilent_raise (e : ε) : (raise e : Proc ε σ Λ ι ο α).IsSilent := trivial

theorem isSilent_ask (query : ι) : (ask query : Proc ε σ Λ ι ο (ο query)).IsSilent :=
  fun _ ↦ trivial

theorem isSilent_transact {label : Λ} {x : EStateM ε σ α} (h : ∀ s, stateOf (x s) = s) :
    (transact label x : Proc ε σ Λ ι ο α).IsSilent :=
  ⟨h, fun _ ↦ trivial⟩

theorem IsSilent.bind {p : Proc ε σ Λ ι ο α} {f : α → Proc ε σ Λ ι ο β} (hp : p.IsSilent)
    (hf : ∀ a, (f a).IsSilent) : (p >>= f).IsSilent := by
  change (p.bind f).IsSilent
  induction p with
  | done r =>
    cases r with
    | ok a => exact hf a
    | error e => trivial
  | step label next rest ih => exact ⟨hp.1, fun s ↦ ih s (hp.2 s)⟩
  | call query rest ih => exact fun o ↦ ih o (hp o)

/-- A guard before a program that changes nothing. -/
theorem isSilent_guard {c : Prop} [Decidable c] {e : ε} {k : α → Proc ε σ Λ ι ο β}
    {p : Proc ε σ Λ ι ο β} (h : p.IsSilent) :
    (if c then (raise e : Proc ε σ Λ ι ο α) >>= k else p).IsSilent := by
  split
  · trivial
  · exact h

variable {env} in
theorem IsSilent.exec_snd {p : Proc ε σ Λ ι ο α} (h : p.IsSilent) (s : σ) :
    (p.exec env s).2 = s := by
  induction p generalizing s with
  | done r => rfl
  | step label next rest ih => exact (ih s (h.2 s) (next s)).trans (h.1 s)
  | call query rest ih => exact ih (env query) (h (env query)) s

variable {env} in
theorem IsSilent.eq_of_mem_stops {p : Proc ε σ Λ ι ο α} (h : p.IsSilent) {s t : σ}
    (ht : t ∈ p.stops env s) : t = s := by
  induction p generalizing s with
  | done r => exact nomatch ht
  | step label next rest ih =>
    rcases List.mem_cons.1 ht with rfl | ht
    · rfl
    · exact (ih s (h.2 s) ht).trans (h.1 s)
  | call query rest ih =>
    rcases List.mem_cons.1 ht with rfl | ht
    · rfl
    · exact ih (env query) (h (env query)) ht

end Proc

/-! ## One program among others -/

/-- The program has run to its end. `env` answered its calls, which are listed in order, and before
each of its steps the others changed the state as `rely` allows. -/
inductive Runs (env : ∀ query, ο query) (rely : σ → σ → Prop) :
    Proc ε σ Λ ι ο α → σ → List ι → Except ε α → σ → Prop
  | done {r : Except ε α} {s : σ} : Runs env rely (.done r) s [] r s
  | step {label : Λ} {next : σ → σ} {rest : σ → Proc ε σ Λ ι ο α} {s t u : σ} {calls : List ι}
      {r : Except ε α} (others : rely s t) (run : Runs env rely (rest t) (next t) calls r u) :
      Runs env rely (.step label next rest) s calls r u
  | call {query : ι} {rest : ο query → Proc ε σ Λ ι ο α} {s u : σ} {calls : List ι}
      {r : Except ε α} (run : Runs env rely (rest (env query)) s calls r u) :
      Runs env rely (.call query rest) s (query :: calls) r u

namespace Runs

variable {env : ∀ query, ο query} {rely : σ → σ → Prop} {s u : σ} {calls : List ι}

theorem of_lift {x r : Except ε α} (h : Runs env rely (Proc.lift x : Proc ε σ Λ ι ο α) s calls r u) :
    r = x ∧ calls = [] ∧ u = s := by
  cases h
  exact ⟨rfl, rfl, rfl⟩

theorem of_pure {a : α} {r : Except ε α}
    (h : Runs env rely (pure a : Proc ε σ Λ ι ο α) s calls r u) :
    r = .ok a ∧ calls = [] ∧ u = s :=
  of_lift h

theorem of_raise {e : ε} {r : Except ε α}
    (h : Runs env rely (Proc.raise e : Proc ε σ Λ ι ο α) s calls r u) :
    r = .error e ∧ calls = [] ∧ u = s :=
  of_lift h

theorem of_transact {label : Λ} {x : EStateM ε σ α} {r : Except ε α}
    (h : Runs env rely (Proc.transact label x) s calls r u) :
    ∃ t, rely s t ∧ r = Proc.resultOf (x t) ∧ u = Proc.stateOf (x t) ∧ calls = [] := by
  cases h with
  | @step _ _ _ _ t _ _ _ others run =>
    cases run
    exact ⟨t, others, rfl, rfl, rfl⟩

theorem of_attempt {p : Proc ε σ Λ ι ο α} {r : Except ε (Except ε α)}
    (h : Runs env rely p.attempt s calls r u) :
    ∃ outcome, r = .ok outcome ∧ Runs env rely p s calls outcome u := by
  induction p generalizing s calls with
  | done outcome =>
    cases h
    exact ⟨outcome, rfl, .done⟩
  | step label next rest ih =>
    cases h with
    | step others run =>
      obtain ⟨outcome, hr, hrun⟩ := ih _ run
      exact ⟨outcome, hr, .step others hrun⟩
  | call query rest ih =>
    cases h with
    | call run =>
      obtain ⟨outcome, hr, hrun⟩ := ih _ run
      exact ⟨outcome, hr, .call hrun⟩

/-- A run of two programs in sequence: the first one raised, or it returned and the second one ran
from there. -/
theorem of_bind {p : Proc ε σ Λ ι ο α} {f : α → Proc ε σ Λ ι ο β} {r : Except ε β}
    (h : Runs env rely (p >>= f) s calls r u) :
    (∃ e, Runs env rely p s calls (.error e) u ∧ r = .error e) ∨
      ∃ a before after t, Runs env rely p s before (.ok a) t ∧
        Runs env rely (f a) t after r u ∧ calls = before ++ after := by
  change Runs env rely (p.bind f) s calls r u at h
  induction p generalizing s calls with
  | done outcome =>
    cases outcome with
    | error e =>
      cases h
      exact .inl ⟨e, .done, rfl⟩
    | ok a => exact .inr ⟨a, [], calls, s, .done, h, rfl⟩
  | step label next rest ih =>
    cases h with
    | step others run =>
      obtain ⟨e, hrun, hr⟩ | ⟨a, before, after, t, hrun, hrest, hcalls⟩ := ih _ run
      · exact .inl ⟨e, .step others hrun, hr⟩
      · exact .inr ⟨a, before, after, t, .step others hrun, hrest, hcalls⟩
  | call query rest ih =>
    cases h with
    | call run =>
      obtain ⟨e, hrun, hr⟩ | ⟨a, before, after, t, hrun, hrest, rfl⟩ := ih _ run
      · exact .inl ⟨e, .call hrun, hr⟩
      · exact .inr ⟨a, query :: before, after, t, .call hrun, hrest, rfl⟩

/-- A program that asks first. -/
theorem of_bind_ask (query : ι) {f : ο query → Proc ε σ Λ ι ο β} {r : Except ε β}
    (h : Runs env rely (Proc.ask query >>= f) s calls r u) :
    ∃ after, Runs env rely (f (env query)) s after r u ∧ calls = query :: after := by
  cases h with
  | @call _ _ _ _ after _ run => exact ⟨after, run, rfl⟩

/-- A program that takes a step first. -/
theorem of_bind_transact {label : Λ} {x : EStateM ε σ α} {f : α → Proc ε σ Λ ι ο β}
    {r : Except ε β} (h : Runs env rely (Proc.transact label x >>= f) s calls r u) :
    ∃ t, rely s t ∧ ((∃ e, x t = .error e u ∧ r = .error e ∧ calls = []) ∨
      ∃ a t', x t = .ok a t' ∧ Runs env rely (f a) t' calls r u) := by
  cases h with
  | @step _ _ _ _ t _ _ _ others run =>
    refine ⟨t, others, ?_⟩
    change Runs env rely (Proc.bind (Proc.done (Proc.resultOf (x t))) f) (Proc.stateOf (x t)) calls
      r u at run
    cases hx : x t with
    | error e t' =>
      rw [hx] at run
      cases run
      exact .inl ⟨e, rfl, rfl, rfl⟩
    | ok a t' =>
      rw [hx] at run
      exact .inr ⟨a, t', rfl, run⟩

/-- A program that computes first. -/
theorem of_bind_lift {x : Except ε α} {f : α → Proc ε σ Λ ι ο β} {r : Except ε β}
    (h : Runs env rely (Proc.lift x >>= f) s calls r u) :
    (∃ e, x = .error e ∧ r = .error e ∧ calls = [] ∧ u = s) ∨
      ∃ a, x = .ok a ∧ Runs env rely (f a) s calls r u := by
  cases x with
  | error e =>
    cases h
    exact .inl ⟨e, rfl, rfl, rfl, rfl⟩
  | ok a => exact .inr ⟨a, rfl, h⟩

end Runs

/-- A program advances some way without interruption. -/
inductive Advances (env : ∀ query, ο query) (admits : Λ → σ → Prop) :
    Proc ε σ Λ ι ο α → σ → List ι → Proc ε σ Λ ι ο α → σ → Prop
  | refl {p : Proc ε σ Λ ι ο α} {s : σ} : Advances env admits p s [] p s
  | step {label : Λ} {next : σ → σ} {rest : σ → Proc ε σ Λ ι ο α} {s u : σ} {calls : List ι}
      {p : Proc ε σ Λ ι ο α} (admitted : admits label s)
      (more : Advances env admits (rest s) (next s) calls p u) :
      Advances env admits (.step label next rest) s calls p u
  | call {query : ι} {rest : ο query → Proc ε σ Λ ι ο α} {s u : σ} {calls : List ι}
      {p : Proc ε σ Λ ι ο α} (more : Advances env admits (rest (env query)) s calls p u) :
      Advances env admits (.call query rest) s (query :: calls) p u

namespace Advances

variable {env : ∀ query, ο query} {admits : Λ → σ → Prop} {s t u : σ} {calls calls' : List ι}
  {p q : Proc ε σ Λ ι ο α}

theorem bind (h : Advances env admits p s calls q u) (f : α → Proc ε σ Λ ι ο β) :
    Advances env admits (p >>= f) s calls (q >>= f) u := by
  induction h with
  | refl => exact .refl
  | step admitted _ ih => exact .step admitted ih
  | call _ ih => exact .call ih

theorem trans {p' : Proc ε σ Λ ι ο α} (h : Advances env admits p s calls q t)
    (h' : Advances env admits q t calls' p' u) :
    Advances env admits p s (calls ++ calls') p' u := by
  induction h with
  | refl => exact h'
  | step admitted _ ih => exact .step admitted (ih h')
  | call _ ih => exact .call (ih h')

/-- One program returns, and the next one takes over. -/
theorem andThen {f : α → Proc ε σ Λ ι ο β} {q : Proc ε σ Λ ι ο β} {a : α}
    (h : Advances env admits p s calls (pure a) t)
    (h' : Advances env admits (f a) t calls' q u) :
    Advances env admits (p >>= f) s (calls ++ calls') q u :=
  (h.bind f).trans h'

/-- The same, where it does not matter which calls are made. -/
theorem exists_andThen {f : α → Proc ε σ Λ ι ο β} {q : Proc ε σ Λ ι ο β} {a : α}
    (h : ∃ calls, Advances env admits p s calls (pure a) t)
    (h' : ∃ calls, Advances env admits (f a) t calls q u) :
    ∃ calls, Advances env admits (p >>= f) s calls q u := by
  obtain ⟨calls, h⟩ := h
  obtain ⟨calls', h'⟩ := h'
  exact ⟨_, h.andThen h'⟩

theorem ask (query : ι) (s : σ) :
    Advances env admits (Proc.ask query : Proc ε σ Λ ι ο (ο query)) s [query]
      (pure (env query)) s :=
  .call .refl

theorem transact {label : Λ} {x : EStateM ε σ α} {a : α} (admitted : admits label s)
    (h : x s = .ok a u) :
    Advances env admits (Proc.transact label x : Proc ε σ Λ ι ο α) s [] (pure a) u := by
  refine .step admitted ?_
  rw [h]
  exact .refl

theorem runs {r : Except ε α} {rely : σ → σ → Prop} (hrely : ∀ s, rely s s)
    (h : Advances env admits p s calls (.done r) u) : Runs env rely p s calls r u := by
  generalize hq : Proc.done r = q at h
  induction h with
  | refl =>
    subst hq
    exact .done
  | step _ _ ih => exact .step (hrely _) (ih hq)
  | call _ ih => exact .call (ih hq)

end Advances

/-! ## Many programs -/

/-- The shared state, what is left of each program, and the calls made so far. -/
structure Config (ε σ Λ ι : Type) (ο : ι → Type) (α : Type) where
  shared : σ
  procs : List (Proc ε σ Λ ι ο α)
  calls : List ι

/-- One program takes a step that `admits` allows in the state it is taken in, or makes a call and
gets some answer. -/
inductive Config.Step (admits : Λ → σ → Prop) :
    Config ε σ Λ ι ο α → Config ε σ Λ ι ο α → Prop
  | step {c : Config ε σ Λ ι ο α} {i : ℕ} {label : Λ} {next : σ → σ}
      {rest : σ → Proc ε σ Λ ι ο α} (turn : c.procs[i]? = some (.step label next rest))
      (admitted : admits label c.shared) :
      Step admits c ⟨next c.shared, c.procs.set i (rest c.shared), c.calls⟩
  | call {c : Config ε σ Λ ι ο α} {i : ℕ} {query : ι} {rest : ο query → Proc ε σ Λ ι ο α}
      (turn : c.procs[i]? = some (.call query rest)) (answer : ο query) :
      Step admits c ⟨c.shared, c.procs.set i (rest answer), c.calls ++ [query]⟩

def Config.Reaches (admits : Λ → σ → Prop) :
    Config ε σ Λ ι ο α → Config ε σ Λ ι ο α → Prop :=
  Relation.ReflTransGen (Config.Step admits)

/-- A program of a configuration advances while the others wait. -/
theorem Advances.reaches {env : ∀ query, ο query} {admits : Λ → σ → Prop} {s u : σ}
    {calls : List ι} {p q : Proc ε σ Λ ι ο α} (h : Advances env admits p s calls q u)
    (procs : List (Proc ε σ Λ ι ο α)) (i : ℕ) (turn : procs[i]? = some p) (before : List ι) :
    Config.Reaches admits ⟨s, procs, before⟩ ⟨u, procs.set i q, before ++ calls⟩ := by
  induction h generalizing procs before with
  | refl =>
    obtain ⟨hi, hget⟩ := List.getElem?_eq_some_iff.mp turn
    rw [← hget, List.set_getElem_self, List.append_nil]
    exact .refl
  | step admitted _ ih =>
    refine .head (.step turn admitted) ?_
    have hnext := ih _ (List.getElem?_set_self (List.getElem?_eq_some_iff.mp turn).1) before
    rw [List.set_set] at hnext
    exact hnext
  | @call query _ _ _ _ _ _ ih =>
    refine .head (.call turn (env query)) ?_
    have hnext := ih _ (List.getElem?_set_self (List.getElem?_eq_some_iff.mp turn).1)
      (before ++ [query])
    rw [List.set_set, List.append_assoc] at hnext
    exact hnext

/-! ## Schedules -/

section Schedules

variable (env : ∀ query, ο query) (admits : Λ → σ → Prop)

/-- The program of the given number has a turn. A call is answered by `env`. -/
def Config.turn (c : Config ε σ Λ ι ο α) (i : ℕ) : Config ε σ Λ ι ο α :=
  match c.procs[i]? with
  | some (.step _ next rest) => ⟨next c.shared, c.procs.set i (rest c.shared), c.calls⟩
  | some (.call query rest) => ⟨c.shared, c.procs.set i (rest (env query)), c.calls ++ [query]⟩
  | _ => c

/-- The program waits for a step that is admitted, or for no step at all. -/
def Proc.Admitted (s : σ) : Option (Proc ε σ Λ ι ο α) → Prop
  | some (.step label _ _) => admits label s
  | _ => True

instance [h : ∀ label s, Decidable (admits label s)] (s : σ) :
    ∀ p : Option (Proc ε σ Λ ι ο α), Decidable (Proc.Admitted admits s p)
  | some (.step label _ _) => h label s
  | some (.call _ _) => isTrue trivial
  | some (.done _) => isTrue trivial
  | none => isTrue trivial

/-- Every turn is admitted when it comes. -/
def Config.Admitted (c : Config ε σ Λ ι ο α) : List ℕ → Prop
  | [] => True
  | i :: schedule => Proc.Admitted admits c.shared c.procs[i]? ∧ (c.turn env i).Admitted schedule

instance decidableAdmitted [∀ label s, Decidable (admits label s)] :
    ∀ (c : Config ε σ Λ ι ο α) (schedule : List ℕ), Decidable (c.Admitted env admits schedule)
  | _, [] => isTrue trivial
  | c, i :: schedule =>
    haveI := decidableAdmitted (c.turn env i) schedule
    inferInstanceAs (Decidable (_ ∧ _))

/-- Where every step is admitted, so is every turn. -/
theorem Config.admitted_true (c : Config ε σ Λ ι ο α) (schedule : List ℕ) :
    c.Admitted env (fun _ _ ↦ True) schedule := by
  induction schedule generalizing c with
  | nil => trivial
  | cons i schedule ih =>
    refine ⟨?_, ih _⟩
    rw [Proc.Admitted.eq_def]
    split
    · trivial
    · trivial

variable {admits}

/-- A schedule can be followed. -/
theorem Config.reaches_schedule {c : Config ε σ Λ ι ο α} {schedule : List ℕ}
    (h : c.Admitted env admits schedule) :
    Config.Reaches admits c (schedule.foldl (Config.turn env) c) := by
  induction schedule generalizing c with
  | nil => exact .refl
  | cons i schedule ih =>
    obtain ⟨hturn, hrest⟩ := h
    have hnext := ih hrest
    rw [List.foldl_cons]
    cases hproc : c.procs[i]? with
    | none =>
      have hsame : c.turn env i = c := by rw [turn, hproc]
      rwa [hsame] at hnext ⊢
    | some p =>
      cases p with
      | done r =>
        have hsame : c.turn env i = c := by rw [turn, hproc]
        rwa [hsame] at hnext ⊢
      | step label next rest =>
        rw [hproc] at hturn
        refine .head (.step hproc hturn) ?_
        rwa [turn, hproc] at hnext ⊢
      | call query rest =>
        refine .head (.call hproc (env query)) ?_
        rwa [turn, hproc] at hnext ⊢

end Schedules

/-! ## Credits -/

section Credits

variable (cost : ι → ℕ) (meter : σ → ℕ) (admits : Λ → σ → Prop) (Inv : σ → Prop)

/-- With the given credit the program can pay for all its calls, keeps the invariant with its steps,
and ends with an outcome and a rest of credit as in `Post`. -/
def Affords : Proc ε σ Λ ι ο α → ℕ → (Except ε α → ℕ → Prop) → Prop
  | .done r, credit, Post => Post r credit
  | .step label next rest, credit, Post => ∀ s, Inv s → admits label s →
      Inv (next s) ∧ ∃ credit', credit' + meter s ≤ credit + meter (next s) ∧
        Affords (rest s) credit' Post
  | .call query rest, credit, Post =>
      cost query ≤ credit ∧ ∀ answer, Affords (rest answer) (credit - cost query) Post

variable {cost meter admits Inv}

theorem Affords.mono {p : Proc ε σ Λ ι ο α} {credit : ℕ} {Post Post' : Except ε α → ℕ → Prop}
    (h : Affords cost meter admits Inv p credit Post) (himp : ∀ r c, Post r c → Post' r c) :
    Affords cost meter admits Inv p credit Post' := by
  induction p generalizing credit with
  | done r => exact himp r credit h
  | step label next rest ih =>
    intro s hs hadmits
    obtain ⟨hinv, credit', hcredit, hrest⟩ := h s hs hadmits
    exact ⟨hinv, credit', hcredit, ih s hrest⟩
  | call query rest ih => exact ⟨h.1, fun answer ↦ ih answer (h.2 answer)⟩

theorem affords_bind {p : Proc ε σ Λ ι ο α} {f : α → Proc ε σ Λ ι ο β} {credit : ℕ}
    {Post : Except ε β → ℕ → Prop}
    (h : Affords cost meter admits Inv p credit fun r c ↦ match r with
      | .ok a => Affords cost meter admits Inv (f a) c Post
      | .error e => Post (.error e) c) :
    Affords cost meter admits Inv (p >>= f) credit Post := by
  change Affords cost meter admits Inv (p.bind f) credit Post
  induction p generalizing credit with
  | done r =>
    cases r with
    | error e => exact h
    | ok a => exact h
  | step label next rest ih =>
    intro s hs hadmits
    obtain ⟨hinv, credit', hcredit, hrest⟩ := h s hs hadmits
    exact ⟨hinv, credit', hcredit, ih s hrest⟩
  | call query rest ih => exact ⟨h.1, fun answer ↦ ih answer (h.2 answer)⟩

theorem affords_attempt {p : Proc ε σ Λ ι ο α} {credit : ℕ}
    {Post : Except ε (Except ε α) → ℕ → Prop}
    (h : Affords cost meter admits Inv p credit fun r c ↦ Post (.ok r) c) :
    Affords cost meter admits Inv p.attempt credit Post := by
  induction p generalizing credit with
  | done r => exact h
  | step label next rest ih =>
    intro s hs hadmits
    obtain ⟨hinv, credit', hcredit, hrest⟩ := h s hs hadmits
    exact ⟨hinv, credit', hcredit, ih s hrest⟩
  | call query rest ih => exact ⟨h.1, fun answer ↦ ih answer (h.2 answer)⟩

/-- A call that costs nothing. -/
theorem affords_ask {query : ι} {credit : ℕ} {Post : Except ε (ο query) → ℕ → Prop}
    (hfree : cost query = 0) (h : ∀ answer, Post (.ok answer) credit) :
    Affords cost meter admits Inv (Proc.ask query) credit Post := by
  refine ⟨hfree ▸ Nat.zero_le credit, fun answer ↦ ?_⟩
  rw [hfree]
  exact h answer

theorem affords_transact {label : Λ} {x : EStateM ε σ α} {credit : ℕ}
    {Post : Except ε α → ℕ → Prop}
    (h : ∀ s, Inv s → admits label s → Inv (Proc.stateOf (x s)) ∧
      ∃ credit', credit' + meter s ≤ credit + meter (Proc.stateOf (x s)) ∧
        Post (Proc.resultOf (x s)) credit') :
    Affords cost meter admits Inv (Proc.transact label x : Proc ε σ Λ ι ο α) credit Post :=
  h

variable (cost meter admits Inv) in
/-- What the programs of a configuration hold together, and what their calls have cost. -/
private structure Solvent (start : σ) (c : Config ε σ Λ ι ο α) (credits : List ℕ) : Prop where
  inv : Inv c.shared
  affords : List.Forall₂ (fun p credit ↦ Affords cost meter admits Inv p credit fun _ _ ↦ True)
    c.procs credits
  paid : (c.calls.map cost).sum + credits.sum + meter start ≤ meter c.shared

private theorem sum_set {credits : List ℕ} {i credit : ℕ} (h : credits[i]? = some credit)
    (credit' : ℕ) : (credits.set i credit').sum + credit = credits.sum + credit' := by
  induction credits generalizing i with
  | nil => exact nomatch h
  | cons c credits ih =>
    cases i with
    | zero =>
      obtain rfl := Option.some.inj h
      rw [List.set_cons_zero, List.sum_cons, List.sum_cons]
      omega
    | succ i =>
      have hsum := ih (i := i) h
      rw [List.set_cons_succ, List.sum_cons, List.sum_cons]
      omega

private theorem forall₂_getElem? {R : α → β → Prop} {xs : List α} {ys : List β}
    (h : List.Forall₂ R xs ys) {i : ℕ} {x : α} (hx : xs[i]? = some x) :
    ∃ y, ys[i]? = some y ∧ R x y := by
  induction h generalizing i with
  | nil => exact nomatch hx
  | @cons a b _ _ hab _ ih =>
    cases i with
    | zero => exact ⟨b, rfl, Option.some.inj hx ▸ hab⟩
    | succ i => exact ih hx

private theorem forall₂_set {R : α → β → Prop} {xs : List α} {ys : List β}
    (h : List.Forall₂ R xs ys) (i : ℕ) {x : α} {y : β} (hxy : R x y) :
    List.Forall₂ R (xs.set i x) (ys.set i y) := by
  induction h generalizing i with
  | nil => exact .nil
  | cons hab hrest ih =>
    cases i with
    | zero => exact .cons hxy hrest
    | succ i => exact .cons hab (ih i)

private theorem Solvent.of_step {start : σ} {c c' : Config ε σ Λ ι ο α} {credits : List ℕ}
    (h : Solvent cost meter admits Inv start c credits) (hstep : Config.Step admits c c') :
    ∃ credits', Solvent cost meter admits Inv start c' credits' := by
  cases hstep with
  | @step i label next rest turn admitted =>
    obtain ⟨credit, hcredit, hafford⟩ := forall₂_getElem? h.affords turn
    obtain ⟨hinv, credit', hpay, hrest⟩ := hafford c.shared h.inv admitted
    refine ⟨credits.set i credit', hinv, forall₂_set h.affords i hrest, ?_⟩
    have hsum := sum_set hcredit credit'
    have hpaid := h.paid
    dsimp only
    omega
  | @call i query rest turn answer =>
    obtain ⟨credit, hcredit, hafford⟩ := forall₂_getElem? h.affords turn
    refine ⟨credits.set i (credit - cost query), h.inv,
      forall₂_set h.affords i (hafford.2 answer), ?_⟩
    have hsum := sum_set hcredit (credit - cost query)
    have henough := hafford.1
    have hpaid := h.paid
    rw [List.map_append, List.sum_append, List.map_singleton, List.sum_singleton]
    dsimp only
    omega

/-- **Programs that need no credit to begin with call out no more than the meter has gone up,
however they are interleaved, and keep the invariant.** -/
theorem sum_cost_le {c c' : Config ε σ Λ ι ο α} (hinv : Inv c.shared) (hcalls : c.calls = [])
    (hprocs : ∀ p ∈ c.procs, Affords cost meter admits Inv p 0 fun _ _ ↦ True)
    (h : Config.Reaches admits c c') :
    Inv c'.shared ∧ (c'.calls.map cost).sum + meter c.shared ≤ meter c'.shared := by
  have hsolvent : ∃ credits, Solvent cost meter admits Inv c.shared c' credits := by
    induction h with
    | refl =>
      refine ⟨List.replicate c.procs.length 0, hinv, ?_, ?_⟩
      · rw [List.forall₂_iff_get]
        refine ⟨(List.length_replicate ..).symm, fun i hi _ ↦ ?_⟩
        rw [List.get_eq_getElem, List.get_eq_getElem, List.getElem_replicate]
        exact hprocs _ (List.getElem_mem hi)
      · rw [hcalls, List.map_nil, List.sum_nil, List.sum_replicate]
        simp
    | tail _ hstep ih =>
      obtain ⟨credits, hsolvent⟩ := ih
      exact hsolvent.of_step hstep
  obtain ⟨credits, hsolvent⟩ := hsolvent
  have hpaid := hsolvent.paid
  exact ⟨hsolvent.inv, by omega⟩

end Credits

/-! ## Guarantees -/

section Guarantees

variable (admits : Λ → σ → Prop) (Inv : σ → Prop) (R G : σ → σ → Prop)

/-- From the state on, and as long as the others make changes in the relation `R`, each step of the
program keeps the invariant and makes a change in the relation `G`. The outcome is as in `Post`. -/
def Guarantees : Proc ε σ Λ ι ο α → σ → (Except ε α → σ → Prop) → Prop
  | .done r, s, Post => Post r s
  | .step label next rest, s, Post => ∀ t, R s t → Inv t → admits label t →
      Inv (next t) ∧ G t (next t) ∧ Guarantees (rest t) (next t) Post
  | .call _ rest, s, Post => ∀ answer, Guarantees (rest answer) s Post

variable {admits Inv R G} {p : Proc ε σ Λ ι ο α} {s t : σ}

theorem Guarantees.mono {Post Post' : Except ε α → σ → Prop}
    (h : Guarantees admits Inv R G p s Post) (himp : ∀ r t, Post r t → Post' r t) :
    Guarantees admits Inv R G p s Post' := by
  induction p generalizing s with
  | done r => exact himp r s h
  | step label next rest ih =>
    intro t hst ht hadmits
    obtain ⟨hinv, hG, hrest⟩ := h t hst ht hadmits
    exact ⟨hinv, hG, ih t hrest⟩
  | call query rest ih => exact fun answer ↦ ih answer (h answer)

theorem guarantees_bind {f : α → Proc ε σ Λ ι ο β} {Post : Except ε β → σ → Prop}
    (h : Guarantees admits Inv R G p s fun r t ↦ match r with
      | .ok a => Guarantees admits Inv R G (f a) t Post
      | .error e => Post (.error e) t) :
    Guarantees admits Inv R G (p >>= f) s Post := by
  change Guarantees admits Inv R G (p.bind f) s Post
  induction p generalizing s with
  | done r =>
    cases r with
    | error e => exact h
    | ok a => exact h
  | step label next rest ih =>
    intro t hst ht hadmits
    obtain ⟨hinv, hG, hrest⟩ := h t hst ht hadmits
    exact ⟨hinv, hG, ih t hrest⟩
  | call query rest ih => exact fun answer ↦ ih answer (h answer)

/-- A program before another one, where only what is returned matters. -/
theorem guarantees_andThen_ok {f : α → Proc ε σ Λ ι ο β} {Q : β → σ → Prop}
    (h : Guarantees admits Inv R G p s fun r t ↦ ∀ a, r = .ok a →
      Guarantees admits Inv R G (f a) t fun r u ↦ ∀ b, r = .ok b → Q b u) :
    Guarantees admits Inv R G (p >>= f) s fun r u ↦ ∀ b, r = .ok b → Q b u := by
  refine guarantees_bind (h.mono fun r t hr ↦ ?_)
  cases r with
  | ok a => exact hr a rfl
  | error e => exact fun _ h ↦ nomatch h

/-- A program before another one, where the outcome does not matter. -/
theorem guarantees_andThen {f : α → Proc ε σ Λ ι ο β}
    (h : Guarantees admits Inv R G p s fun r t ↦ ∀ a, r = .ok a →
      Guarantees admits Inv R G (f a) t fun _ _ ↦ True) :
    Guarantees admits Inv R G (p >>= f) s fun _ _ ↦ True := by
  refine guarantees_bind (h.mono fun r t hr ↦ ?_)
  cases r with
  | ok a => exact hr a rfl
  | error e => trivial

/-- A program of which the outcome is handed on. -/
theorem guarantees_attempt {Post : Except ε (Except ε α) → σ → Prop}
    (h : Guarantees admits Inv R G p s fun r t ↦ Post (.ok r) t) :
    Guarantees admits Inv R G p.attempt s Post := by
  induction p generalizing s with
  | done r => exact h
  | step label next rest ih =>
    intro t hst ht hadmits
    obtain ⟨hinv, hG, hrest⟩ := h t hst ht hadmits
    exact ⟨hinv, hG, ih t hrest⟩
  | call query rest ih => exact fun answer ↦ ih answer (h answer)

/-- A guard before a program. The shape is the one `if c then raise e` has in a `do` block. -/
theorem guarantees_guard_bind {c : Prop} [Decidable c] {e : ε} {k : α → Proc ε σ Λ ι ο β}
    {q : Proc ε σ Λ ι ο β} {Post : Except ε β → σ → Prop} (herror : c → Post (.error e) s)
    (h : ¬c → Guarantees admits Inv R G q s Post) :
    Guarantees admits Inv R G (if c then Proc.raise e >>= k else q) s Post := by
  by_cases hc : c
  · rw [if_pos hc]
    exact herror hc
  · rw [if_neg hc]
    exact h hc

theorem guarantees_guard {c : Prop} [Decidable c] {e : ε} {k : α → Proc ε σ Λ ι ο β}
    {q : Proc ε σ Λ ι ο β} (h : ¬c → Guarantees admits Inv R G q s fun _ _ ↦ True) :
    Guarantees admits Inv R G (if c then Proc.raise e >>= k else q) s fun _ _ ↦ True :=
  guarantees_guard_bind (fun _ ↦ trivial) h

theorem guarantees_guard_ok {c : Prop} [Decidable c] {e : ε} {k : α → Proc ε σ Λ ι ο β}
    {q : Proc ε σ Λ ι ο β} {Q : β → σ → Prop}
    (h : ¬c → Guarantees admits Inv R G q s fun r t ↦ ∀ b, r = .ok b → Q b t) :
    Guarantees admits Inv R G (if c then Proc.raise e >>= k else q) s
      fun r t ↦ ∀ b, r = .ok b → Q b t :=
  guarantees_guard_bind (fun _ _ h ↦ nomatch h) h

/-- A guard at the end of a program. -/
theorem guarantees_guard_last {c : Prop} [Decidable c] {e : ε} {a : α} :
    Guarantees admits Inv R G (if c then Proc.raise e else pure a : Proc ε σ Λ ι ο α) s
      fun _ _ ↦ True := by
  split
  · trivial
  · trivial

/-- A step that runs code on the shared state. -/
theorem guarantees_transact {label : Λ} {x : EStateM ε σ α} {Post : Except ε α → σ → Prop}
    (h : ∀ t, R s t → Inv t → admits label t → Inv (Proc.stateOf (x t)) ∧
      G t (Proc.stateOf (x t)) ∧ Post (Proc.resultOf (x t)) (Proc.stateOf (x t))) :
    Guarantees admits Inv R G (Proc.transact label x : Proc ε σ Λ ι ο α) s Post :=
  h

/-- What others do in the relation does not hurt, nor does it change the outcome. -/
theorem Guarantees.rely {Post : Except ε α → σ → Prop} (hR : ∀ s t u, R s t → R t u → R s u)
    (hstable : ∀ r s t, Post r s → R s t → Post r t) (hst : R s t)
    (h : Guarantees admits Inv R G p s Post) : Guarantees admits Inv R G p t Post := by
  induction p generalizing s t with
  | done r => exact hstable r s t h hst
  | step label next rest ih => exact fun u htu hu hadmits ↦ h u (hR s t u hst htu) hu hadmits
  | call query rest ih => exact fun answer ↦ ih answer hst (h answer)

/-- The state at the end is in the relation too, where the program itself stays within it. -/
theorem Guarantees.onward {Post : Except ε α → σ → Prop} (hrefl : ∀ s, R s s)
    (htrans : ∀ s t u, R s t → R t u → R s u) (h : Guarantees admits Inv R R p s Post) :
    Guarantees admits Inv R R p s fun r t ↦ R s t ∧ Post r t := by
  induction p generalizing s with
  | done r => exact ⟨hrefl s, h⟩
  | step label next rest ih =>
    intro t hst ht hadmits
    obtain ⟨hinv, hR, hrest⟩ := h t hst ht hadmits
    refine ⟨hinv, hR, (ih t hrest).mono fun r u hu ↦ ⟨?_, hu.2⟩⟩
    exact htrans _ _ _ (htrans _ _ _ hst hR) hu.1
  | call query rest ih => exact fun answer ↦ ih answer (h answer)

/-- A loop, whose turns are good programs whatever the others did since it began. -/
theorem guarantees_foldlM (hrefl : ∀ s, R s s) (htrans : ∀ s t u, R s t → R t u → R s u)
    {f : β → α → Proc ε σ Λ ι ο β} {xs : List α} (init : β)
    (h : ∀ b, ∀ x ∈ xs, ∀ t, R s t → Guarantees admits Inv R R (f b x) t fun _ _ ↦ True) :
    Guarantees admits Inv R R (xs.foldlM f init) s fun _ _ ↦ True := by
  induction xs generalizing s init with
  | nil => trivial
  | cons x xs ih =>
    rw [List.foldlM_cons]
    refine guarantees_andThen (((h init x List.mem_cons_self s (hrefl s)).onward hrefl htrans).mono
      fun r t ht b _ ↦ ih b fun b' y hy u htu ↦ ?_)
    exact h b' y (List.mem_cons_of_mem x hy) u (htrans _ _ _ ht.1 htu)

theorem guarantees_forM (hrefl : ∀ s, R s s) (htrans : ∀ s t u, R s t → R t u → R s u)
    {f : α → Proc ε σ Λ ι ο PUnit} {xs : List α}
    (h : ∀ x ∈ xs, ∀ t, R s t → Guarantees admits Inv R R (f x) t fun _ _ ↦ True) :
    Guarantees admits Inv R R (xs.forM f) s fun _ _ ↦ True := by
  induction xs generalizing s with
  | nil => trivial
  | cons x xs ih =>
    change Guarantees admits Inv R R (f x >>= fun _ ↦ xs.forM f) s fun _ _ ↦ True
    refine guarantees_andThen (((h x List.mem_cons_self s (hrefl s)).onward hrefl htrans).mono
      fun r t ht _ _ ↦ ih fun y hy u htu ↦ ?_)
    exact h y (List.mem_cons_of_mem x hy) u (htrans _ _ _ ht.1 htu)

/-- **Programs that keep an invariant, and make only changes that each other program allows, keep
it however they are interleaved, and end as they promised.** -/
theorem guarantees_of_reaches {rely : ℕ → σ → σ → Prop} {Post : ℕ → Except ε α → σ → Prop}
    {c c' : Config ε σ Λ ι ο α} (hrefl : ∀ i s, rely i s s)
    (htrans : ∀ i s t u, rely i s t → rely i t u → rely i s u)
    (hstable : ∀ i r s t, Post i r s → rely i s t → Post i r t) (hinv : Inv c.shared)
    (hprocs : ∀ i p, c.procs[i]? = some p → Guarantees admits Inv (rely i)
      (fun s t ↦ ∀ j, j ≠ i → rely j s t) p c.shared (Post i))
    (h : Config.Reaches admits c c') :
    Inv c'.shared ∧ ∀ i p, c'.procs[i]? = some p → Guarantees admits Inv (rely i)
      (fun s t ↦ ∀ j, j ≠ i → rely j s t) p c'.shared (Post i) := by
  induction h with
  | refl => exact ⟨hinv, hprocs⟩
  | tail _ hstep ih =>
    obtain ⟨hinv', hprocs'⟩ := ih
    cases hstep with
    | @step i label next rest turn admitted =>
      obtain ⟨hnext, hG, hrest⟩ := hprocs' i _ turn _ (hrefl i _) hinv' admitted
      refine ⟨hnext, fun j p hp ↦ ?_⟩
      by_cases hj : j = i
      · subst hj
        rw [List.getElem?_set_self (List.getElem?_eq_some_iff.mp turn).1] at hp
        exact Option.some.inj hp ▸ hrest
      · rw [List.getElem?_set_ne (Ne.symm hj)] at hp
        exact (hprocs' j p hp).rely (htrans j) (hstable j) (hG j hj)
    | @call i query rest turn answer =>
      refine ⟨hinv', fun j p hp ↦ ?_⟩
      by_cases hj : j = i
      · subst hj
        rw [List.getElem?_set_self (List.getElem?_eq_some_iff.mp turn).1] at hp
        exact Option.some.inj hp ▸ hprocs' j _ turn answer
      · rw [List.getElem?_set_ne (Ne.symm hj)] at hp
        exact hprocs' j p hp

theorem Guarantees.weaken {G' : σ → σ → Prop} {Post : Except ε α → σ → Prop}
    (h : Guarantees admits Inv R G p s Post) (hG : ∀ s t, G s t → G' s t) :
    Guarantees admits Inv R G' p s Post := by
  induction p generalizing s with
  | done r => exact h
  | step label next rest ih =>
    intro t hst ht hadmits
    obtain ⟨hinv, hchange, hrest⟩ := h t hst ht hadmits
    exact ⟨hinv, hG _ _ hchange, ih t hrest⟩
  | call query rest ih => exact fun answer ↦ ih answer (h answer)

/-- The same for programs that share one relation. -/
theorem inv_of_reaches {c c' : Config ε σ Λ ι ο α} (hrefl : ∀ s, R s s)
    (htrans : ∀ s t u, R s t → R t u → R s u) (hinv : Inv c.shared)
    (hprocs : ∀ p ∈ c.procs, Guarantees admits Inv R R p c.shared fun _ _ ↦ True)
    (h : Config.Reaches admits c c') : Inv c'.shared := by
  refine (guarantees_of_reaches (fun _ ↦ hrefl) (fun _ ↦ htrans) (fun _ _ _ _ _ _ ↦ trivial) hinv
    (fun i p hp ↦ ?_) h).1
  exact (hprocs p (List.mem_of_getElem? hp)).weaken fun _ _ hR _ _ ↦ hR

end Guarantees

end Interleave
