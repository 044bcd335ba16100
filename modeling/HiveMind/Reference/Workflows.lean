import HiveMind.Lib.Saturation
import HiveMind.Reference.Ooda

/-!
# Workflows

A workflow package describes states and the transitions between them. Its constructor refuses two
transitions for one state and event, and a name that cannot be reached from the initial state. The
terminal states are only names: a transition from a terminal state to another state is accepted.

* **`workflow_sound_iff`**: the transition system of every workflow that constructs is deterministic,
  every state is reached, and no run leaves a terminal state if and only if no transition leads from
  a terminal state to another state.
-/

open Raise

namespace HiveMind.Reference

/-! ## Checks -/

/-- The characters that an identifier may begin and end with. -/
def isAlphanumeric (c : Char) : Bool := c.isLower || c.isDigit

/-- `_IDENTIFIER`. -/
def isIdentifier (value : String) : Bool :=
  match value.toList with
  | [] => false
  | c :: cs =>
    isAlphanumeric c && cs.length ≤ 127 && cs.all (fun d ↦ isAlphanumeric d || d ∈ ['.', '_', '-']) &&
      cs.getLast?.all isAlphanumeric

/-- `_require_identifier`. -/
def requireIdentifier (value label : String) : Option String :=
  refuse (isIdentifier value = false) (label ++ " must be a lowercase portable identifier")

/-- `_require_unique`. -/
def requireUnique (values : List String) (label : String) : Option String :=
  refuse (¬values.Nodup) (label ++ " cannot contain duplicates") <|>
  refuse (∃ value ∈ values, isRequired value = false) (label ++ " cannot contain empty values")

/-- `_ROLE_BINDINGS`. -/
def roleBindings : List String :=
  ["orchestrator", "explorer", "architect", "builder", "curator", "integrator", "steward",
    "optimizer"]

/-! ## Transitions -/

structure WorkflowTransitionFields where
  fromState : String
  toState : String
  event : String
  allowedRoleBindings : List String
  requiredEvidence : List String
  deriving DecidableEq

/-- What `WorkflowTransition.__post_init__` raises. -/
def WorkflowTransitionFields.problem? (t : WorkflowTransitionFields) : Option String :=
  requireIdentifier t.fromState "from_state" <|>
  requireIdentifier t.toState "to_state" <|>
  requireIdentifier t.event "event" <|>
  requireUnique t.allowedRoleBindings "allowed_role_bindings" <|>
  refuse (∃ role ∈ t.allowedRoleBindings, role ∉ roleBindings)
    "workflow contains unknown role bindings" <|>
  requireUnique t.requiredEvidence "required_evidence" <|>
  refuse (t.allowedRoleBindings = []) "workflow transition requires an allowed role binding" <|>
  refuse (t.requiredEvidence = []) "workflow transition requires evidence"

/-- `WorkflowTransition`. -/
structure WorkflowTransition extends WorkflowTransitionFields where
  valid : toWorkflowTransitionFields.problem? = none
  deriving DecidableEq

/-! ## Workflows -/

structure WorkflowFields where
  componentId : String
  initialState : String
  terminalStates : List String
  transitions : List WorkflowTransition
  deriving DecidableEq

namespace WorkflowFields

variable (w : WorkflowFields)

/-- `state_names`, with the names in the order they are met. -/
def stateNames : List String :=
  (w.initialState :: w.terminalStates ++ w.transitions.flatMap fun t ↦ [t.fromState, t.toState]).dedup

/-- The set `reachable` after the loop. -/
def reachable : List String :=
  Saturation.saturate (fun t : WorkflowTransition ↦ t.fromState) (fun t ↦ t.toState) w.transitions
    (w.transitions.length + 1) [w.initialState]

/-- `", ".join(sorted(names))`. -/
def listed (names : List String) : String := ", ".intercalate (names.insertionSort (· ≤ ·))

/-- `unreachable`. -/
def unreachable : List String := w.stateNames.filter (· ∉ w.reachable)

/-- `missing_terminal`. -/
def missingTerminal : List String := w.terminalStates.dedup.filter (· ∉ w.reachable)

/-- What `WorkflowManifest.__post_init__` raises. -/
def problem? : Option String :=
  requireIdentifier w.componentId "component_id" <|>
  requireIdentifier w.initialState "initial_state" <|>
  requireUnique w.terminalStates "terminal_states" <|>
  refuse (w.terminalStates = []) "workflow requires at least one terminal state" <|>
  refuse (¬(w.transitions.map fun t ↦ (t.fromState, t.event)).Nodup)
    "workflow transitions must be deterministic by state and event" <|>
  refuse (w.initialState ∈ w.terminalStates) "initial_state cannot be terminal" <|>
  refuse (w.unreachable ≠ []) ("workflow contains unreachable states: " ++ listed w.unreachable) <|>
  refuse (w.missingTerminal ≠ [])
    ("workflow terminal states are unreachable: " ++ listed w.missingTerminal)

end WorkflowFields

/-- `WorkflowManifest`. -/
structure WorkflowManifest extends WorkflowFields where
  valid : toWorkflowFields.problem? = none
  deriving DecidableEq

namespace WorkflowManifest

/-- `WorkflowManifest(...)`. -/
def new (fields : WorkflowFields) : Except String WorkflowManifest :=
  match h : fields.problem? with
  | none => .ok ⟨fields, h⟩
  | some message => .error message

variable (w : WorkflowManifest)

/-! ## Runs -/

/-- On an event, a transition leads from one state to another. -/
def Step (state event state' : String) : Prop :=
  ∃ t ∈ w.transitions, t.fromState = state ∧ t.event = event ∧ t.toState = state'

/-- The states that a run goes through, the last one first. -/
inductive Run : List String → Prop
  | start : Run [w.initialState]
  | step {state event state' : String} {states : List String} :
      Run (state :: states) → w.Step state event state' → Run (state' :: state :: states)

def Deterministic : Prop :=
  ∀ state event state₁ state₂, w.Step state event state₁ → w.Step state event state₂ →
    state₁ = state₂

/-- Some run ends in the state. -/
def Reached (state : String) : Prop := ∃ states, w.Run (state :: states)

/-- Once a run is in a terminal state, it stays there. -/
def KeepsTerminal : Prop :=
  ∀ after state before, w.Run (after ++ state :: before) → state ∈ w.terminalStates →
    ∀ state' ∈ after, state' = state

variable {w}

/-- What the constructor has checked. -/
structure Checked (w : WorkflowFields) : Prop where
  identities : (w.transitions.map fun t ↦ (t.fromState, t.event)).Nodup
  initial : w.initialState ∉ w.terminalStates
  reachable : w.unreachable = []

theorem checked (w : WorkflowManifest) : Checked w.toWorkflowFields := by
  have h := w.valid
  simp only [WorkflowFields.problem?, orElse_eq_none, refuse_eq_none, not_not] at h
  obtain ⟨-, -, -, -, hidentities, hinitial, hreachable, -⟩ := h
  exact ⟨hidentities, hinitial, hreachable⟩

theorem deterministic (w : WorkflowManifest) : w.Deterministic := by
  rintro _ _ _ _ ⟨t₁, h₁, rfl, rfl, rfl⟩ ⟨t₂, h₂, hstate, hevent, rfl⟩
  have hsame : (t₁.fromState, t₁.event) = (t₂.fromState, t₂.event) := by
    rw [hstate, hevent]
  rw [List.inj_on_of_nodup_map w.checked.identities h₁ h₂ hsame]

theorem reach_of_run {states : List String} (h : w.Run states) :
    ∀ state ∈ states.head?,
      Saturation.Reach (fun t : WorkflowTransition ↦ t.fromState) (fun t ↦ t.toState) w.transitions
        w.initialState state := by
  induction h with
  | start =>
    rintro _ ⟨⟩
    exact .refl
  | step _ hstep ih =>
    rintro _ ⟨⟩
    obtain ⟨t, ht, hsource, -, htarget⟩ := hstep
    exact (ih _ rfl).tail ⟨t, ht, hsource, htarget⟩

theorem reached_iff {state : String} : w.Reached state ↔
    Saturation.Reach (fun t : WorkflowTransition ↦ t.fromState) (fun t ↦ t.toState) w.transitions
      w.initialState state := by
  constructor
  · rintro ⟨states, hrun⟩
    exact reach_of_run hrun _ rfl
  · intro hreach
    induction hreach with
    | refl => exact ⟨[], .start⟩
    | tail _ hlink ih =>
      obtain ⟨states, hrun⟩ := ih
      obtain ⟨t, ht, rfl, rfl⟩ := hlink
      exact ⟨_, hrun.step ⟨t, ht, rfl, rfl, rfl⟩⟩

/-- Every name is that of a state that is reached. -/
theorem reached_of_mem {state : String} (h : state ∈ w.stateNames) : w.Reached state := by
  have hmem : state ∈ w.reachable := by
    by_contra hnot
    have hunreachable : state ∈ w.unreachable := List.mem_filter.mpr ⟨h, decide_eq_true hnot⟩
    rw [w.checked.reachable] at hunreachable
    exact List.not_mem_nil hunreachable
  exact reached_iff.mpr ((Saturation.mem_saturate_iff (Nat.lt_succ_self _)).mp hmem)

theorem fromState_mem_stateNames {t : WorkflowTransition} (h : t ∈ w.transitions) :
    t.fromState ∈ w.stateNames := by
  refine List.mem_dedup.mpr (List.mem_append_right _ (List.mem_flatMap.mpr ⟨t, h, ?_⟩))
  exact List.mem_cons_self

theorem Run.of_cons {state state' : String} {states : List String}
    (h : w.Run (state' :: state :: states)) :
    w.Run (state :: states) ∧ ∃ event, w.Step state event state' := by
  cases h with
  | step hrun hstep => exact ⟨hrun, _, hstep⟩

/-- Runs stay in terminal states exactly where the transitions do: each terminal state is reached, so
each transition from it is taken in some run. -/
theorem keepsTerminal_iff : w.KeepsTerminal ↔
    ∀ t ∈ w.transitions, t.fromState ∈ w.terminalStates → t.toState = t.fromState := by
  constructor
  · intro h t ht hterminal
    obtain ⟨before, hrun⟩ := reached_of_mem (fromState_mem_stateNames ht)
    have hnext : w.Run ([t.toState] ++ t.fromState :: before) :=
      hrun.step ⟨t, ht, rfl, rfl, rfl⟩
    exact h _ _ _ hnext hterminal _ (List.mem_singleton_self _)
  · intro h after state before hrun hterminal
    induction after with
    | nil => exact nofun
    | cons last after ih =>
      -- the state before the last one is the terminal state, whether or not it is the first of them
      have hprevious : ∃ states, after ++ state :: before = state :: states ∧
          w.Run (after ++ state :: before) ∧ ∃ event, w.Step state event last := by
        cases after with
        | nil => exact ⟨before, rfl, hrun.of_cons⟩
        | cons previous after =>
          obtain ⟨hrun', hstep⟩ := hrun.of_cons
          obtain rfl := ih hrun' _ List.mem_cons_self
          exact ⟨_, rfl, hrun', hstep⟩
      obtain ⟨-, -, hrun', event, t, ht, rfl, -, rfl⟩ := hprevious
      exact List.forall_mem_cons.mpr ⟨h t ht hterminal, ih hrun'⟩

/-- **The transition system is deterministic, every state is reached, and a run stays in a terminal
state if and only if no transition leads from a terminal state to another one.** -/
theorem workflow_sound_iff (w : WorkflowManifest) :
    (w.Deterministic ∧ (∀ state ∈ w.stateNames, w.Reached state) ∧ w.KeepsTerminal) ↔
      ∀ t ∈ w.transitions, t.fromState ∈ w.terminalStates → t.toState = t.fromState := by
  rw [← keepsTerminal_iff]
  exact ⟨fun h ↦ h.2.2, fun h ↦ ⟨w.deterministic, fun _ hstate ↦ reached_of_mem hstate, h⟩⟩

/-- A workflow that goes on from its terminal state. -/
def resumed : WorkflowManifest where
  componentId := "workflow.resumed"
  initialState := "open"
  terminalStates := ["closed"]
  transitions := [⟨⟨"open", "closed", "close", ["builder"], ["receipt"]⟩, by decide⟩,
    ⟨⟨"closed", "open", "reopen", ["builder"], ["receipt"]⟩, by decide⟩]
  valid := by decide

theorem resumed_leaves_terminal :
    ¬∀ w : WorkflowManifest, w.Deterministic ∧ (∀ state ∈ w.stateNames, w.Reached state) ∧
      w.KeepsTerminal := by
  intro h
  exact absurd (keepsTerminal_iff.mp (h resumed).2.2) (by decide)

end WorkflowManifest

end HiveMind.Reference
