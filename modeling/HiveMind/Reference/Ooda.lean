import HiveMind.Kernel.Contracts
import HiveMind.Lib.Raise

/-!
# OODA cycles

A cycle goes from observing to orienting, deciding and acting, and around again. Its state keeps the
last transition and, once the cycle is stopped, the terminal record, each with its number.

* **`reachable_iff`**: a state is reached if and only if its phase and its iteration are those of the
  number of its transitions.
-/

open Raise

namespace HiveMind.Reference

inductive OODAPhase where
  | observe
  | orient
  | decide
  | act
  deriving DecidableEq, Repr

namespace OODAPhase

def value : OODAPhase → String
  | observe => "observe"
  | orient => "orient"
  | decide => "decide"
  | act => "act"

def all : List OODAPhase := [observe, orient, decide, act]

theorem value_injective : Function.Injective value := by
  intro phase phase' h
  rcases phase <;> rcases phase' <;> first | rfl | exact absurd h (by decide)

/-- `_NEXT_PHASE`. -/
def next : OODAPhase → OODAPhase
  | observe => orient
  | orient => decide
  | decide => act
  | act => observe

theorem next_injective : Function.Injective next := by
  intro phase phase' h
  rcases phase <;> rcases phase' <;> first | rfl | exact nomatch h

/-- The phase after so many transitions. -/
def after (transitions : ℕ) : OODAPhase :=
  match transitions % 4 with
  | 0 => observe
  | 1 => orient
  | 2 => decide
  | _ => act

theorem after_succ (n : ℕ) : after (n + 1) = (after n).next := by
  have hlt : n % 4 < 4 := Nat.mod_lt _ (by decide)
  rw [after, after, Nat.add_mod]
  interval_cases n % 4 <;> rfl

/-- The iteration goes on when a cycle comes around. -/
theorem after_eq_act {n : ℕ} : after n = act ↔ n % 4 = 3 := by
  have hlt : n % 4 < 4 := Nat.mod_lt _ (by decide)
  rw [after]
  interval_cases n % 4 <;> decide

end OODAPhase

inductive OODAStatus where
  | running
  | succeeded
  | blocked
  | failed
  deriving DecidableEq, Repr

namespace OODAStatus

def value : OODAStatus → String
  | running => "running"
  | succeeded => "succeeded"
  | blocked => "blocked"
  | failed => "failed"

def all : List OODAStatus := [running, succeeded, blocked, failed]

end OODAStatus

/-! ## Checks -/

/-- A check that raises if the condition holds. -/
def refuse (condition : Prop) [Decidable condition] (message : String) : Option String :=
  if condition then some message else none

@[simp] theorem refuse_eq_none {condition : Prop} [Decidable condition] {message : String} :
    refuse condition message = none ↔ ¬condition := by
  rw [refuse]
  split
  · next h => exact iff_of_false nofun (not_not.mpr h)
  · next h => exact iff_of_true rfl h

@[simp] theorem orElse_eq_none {a b : Option String} : (a <|> b) = none ↔ a = none ∧ b = none := by
  rcases a with _ | a
  · exact (and_iff_right rfl).symm
  · exact iff_of_false (fun h ↦ nomatch h) fun h ↦ nomatch h.1

/-- `_require_rfc3339`. -/
def requireRfc3339 (value label : String) : Option String :=
  refuse (isTime value = false) (label ++ " must be an RFC 3339 date-time")

/-- `_require_evidence`. -/
def requireEvidence (values : List String) (label : String) : Option String :=
  refuse (values = []) (label ++ " requires evidence") <|>
  refuse (¬values.Nodup) (label ++ " evidence_refs cannot contain duplicates") <|>
  refuse (∃ value ∈ values, isRequired value = false)
    (label ++ " evidence_refs cannot contain empty values")

/-- `_require_optional_ref`. -/
def requireOptionalRef (value : Option String) (label : String) : Option String :=
  refuse (∃ text ∈ value, isRequired text = false) (label ++ " cannot be empty")

/-- A reference that counts as true. -/
def isGiven (ref : Option String) : Bool := ref.any (· ≠ "")

/-! ## Transitions -/

structure TransitionFields where
  sequence : ℤ
  fromPhase : OODAPhase
  toPhase : OODAPhase
  actorId : String
  occurredAt : String
  evidenceRefs : List String
  decisionRef : Option String
  policyDecisionRef : Option String
  actionIntentRef : Option String
  actionReceiptRef : Option String
  outcomeRef : Option String
  deriving DecidableEq

/-- What `OODATransition.__post_init__` raises. -/
def TransitionFields.problem? (t : TransitionFields) : Option String :=
  refuse (t.sequence < 1) "transition sequence must be positive" <|>
  refuse (isRequired t.actorId = false) "transition actor_id cannot be empty" <|>
  requireRfc3339 t.occurredAt "transition occurred_at" <|>
  requireEvidence t.evidenceRefs "every OODA transition" <|>
  requireOptionalRef t.decisionRef "decision_ref" <|>
  requireOptionalRef t.policyDecisionRef "policy_decision_ref" <|>
  requireOptionalRef t.actionIntentRef "action_intent_ref" <|>
  requireOptionalRef t.actionReceiptRef "action_receipt_ref" <|>
  requireOptionalRef t.outcomeRef "outcome_ref" <|>
  refuse (t.toPhase ≠ t.fromPhase.next)
    ("illegal OODA transition: " ++ t.fromPhase.value ++ " to " ++ t.toPhase.value) <|>
  refuse (t.toPhase = .act ∧
      [t.decisionRef, t.policyDecisionRef, t.actionIntentRef].all isGiven = false)
    "entering act requires decision, policy, and action-intent refs" <|>
  refuse (t.fromPhase = .act ∧ [t.actionReceiptRef, t.outcomeRef].all isGiven = false)
    "act-to-observe requires action receipt and outcome refs"

/-- `OODATransition`. -/
structure OODATransition extends TransitionFields where
  valid : toTransitionFields.problem? = none
  deriving DecidableEq

/-! ## Terminal records -/

structure TerminalFields where
  sequence : ℤ
  status : OODAStatus
  actorId : String
  occurredAt : String
  evidenceRefs : List String
  outcomeRef : String
  reason : String
  deriving DecidableEq

/-- What `OODATerminalRecord.__post_init__` raises. -/
def TerminalFields.problem? (r : TerminalFields) : Option String :=
  refuse (r.sequence < 1) "terminal sequence must be positive" <|>
  refuse (r.status = .running) "terminal record status must be terminal" <|>
  refuse (isRequired r.actorId = false) "terminal actor_id cannot be empty" <|>
  requireRfc3339 r.occurredAt "terminal occurred_at" <|>
  requireEvidence r.evidenceRefs "terminal record" <|>
  refuse (isRequired r.reason = false ∨ isRequired r.outcomeRef = false)
    "terminal record requires reason and outcome_ref"

/-- `OODATerminalRecord`. -/
structure OODATerminalRecord extends TerminalFields where
  valid : toTerminalFields.problem? = none
  deriving DecidableEq

/-- `OODATerminalRecord(...)`. -/
def OODATerminalRecord.new (fields : TerminalFields) : Except String OODATerminalRecord :=
  match h : fields.problem? with
  | none => .ok ⟨fields, h⟩
  | some message => .error message

/-! ## States -/

@[ext]
structure StateFields where
  schemaVersion : ℤ
  cycleId : String
  missionId : String
  iteration : ℤ
  phase : OODAPhase
  status : OODAStatus
  sequence : ℤ
  lastTransition : Option OODATransition
  stopReason : Option String
  terminalRecord : Option OODATerminalRecord
  deriving DecidableEq

namespace StateFields

variable (s : StateFields)

/-- What `__post_init__` raises for a state that is running. -/
def runningProblem? : Option String :=
  refuse (s.terminalRecord.isSome) "running OODA state cannot have a terminal record" <|>
  refuse (s.stopReason.isSome) "running OODA state cannot have a stop reason" <|>
  if s.sequence = 0 then
    refuse (s.lastTransition.isSome) "initial OODA state cannot have a transition" <|>
    refuse (s.phase ≠ .observe ∨ s.iteration ≠ 1) "initial OODA state must be observe iteration 1"
  else
    refuse (s.lastTransition.map (·.sequence) ≠ some s.sequence)
      "running OODA sequence must match its last transition"

/-- What `__post_init__` raises for a state that is not running. -/
def terminalProblem? : Option String :=
  match s.terminalRecord with
  | none => some "terminal OODA state requires a terminal record"
  | some record =>
    refuse (record.status ≠ s.status) "terminal record status does not match state" <|>
    refuse (s.stopReason ≠ some record.reason) "stop_reason must mirror the terminal record" <|>
    refuse (record.sequence ≠ s.sequence) "terminal record sequence does not match state" <|>
    if s.sequence - 1 = 0 then
      refuse (s.lastTransition.isSome) "first terminal event cannot rewrite a transition"
    else
      refuse (s.lastTransition.map (·.sequence) ≠ some (s.sequence - 1))
        "terminal record must append directly after the last transition"

/-- What `OODAState.__post_init__` raises. -/
def problem? : Option String :=
  refuse (s.schemaVersion ≠ 1) "unsupported OODA schema_version" <|>
  refuse (isRequired s.cycleId = false ∨ isRequired s.missionId = false)
    "cycle_id and mission_id are required" <|>
  refuse (s.iteration < 1) "OODA iteration must be positive" <|>
  refuse (s.sequence < 0) "OODA sequence cannot be negative" <|>
  refuse (∃ t ∈ s.lastTransition, t.toPhase ≠ s.phase)
    "last transition phase does not match state" <|>
  if s.status = .running then s.runningProblem? else s.terminalProblem?

end StateFields

/-- `OODAState`. -/
structure OODAState extends StateFields where
  valid : toStateFields.problem? = none
  deriving DecidableEq

namespace OODAState

/-- `OODAState(...)`. -/
def new (fields : StateFields) : Except String OODAState :=
  match h : fields.problem? with
  | none => .ok ⟨fields, h⟩
  | some message => .error message

/-- `initial`. -/
def initial (cycleId missionId : String) : Except String OODAState := new {
  schemaVersion := 1
  cycleId
  missionId
  iteration := 1
  phase := .observe
  status := .running
  sequence := 0
  lastTransition := none
  stopReason := none
  terminalRecord := none }

/-- `apply`. -/
def apply (s : OODAState) (transition : OODATransition) : Except String OODAState := do
  if s.status ≠ .running then throw "cannot apply a transition to a stopped OODA cycle"
  if transition.sequence ≠ s.sequence + 1 then
    throw "OODA transition sequence must increase by exactly one"
  if transition.fromPhase ≠ s.phase then
    throw "OODA transition does not continue the current phase"
  let iteration :=
    if transition.fromPhase = .act ∧ transition.toPhase = .observe then s.iteration + 1
    else s.iteration
  new { s.toStateFields with
    iteration
    phase := transition.toPhase
    sequence := transition.sequence
    lastTransition := some transition }

/-- `stop`, with the values of the record but its number. -/
def stop (s : OODAState) (values : TerminalFields) : Except String OODAState := do
  if s.status ≠ .running then throw "OODA cycle is already stopped"
  let record ← OODATerminalRecord.new { values with sequence := s.sequence + 1 }
  new { s.toStateFields with
    status := record.status
    sequence := record.sequence
    stopReason := some record.reason
    terminalRecord := some record }

end OODAState

/-- A state that `initial`, `apply` and `stop` lead to. -/
inductive Reachable : OODAState → Prop
  | initial {cycleId missionId : String} {s : OODAState}
    (h : OODAState.initial cycleId missionId = .ok s) : Reachable s
  | apply {s s' : OODAState} (hs : Reachable s) (transition : OODATransition)
    (h : s.apply transition = .ok s') : Reachable s'
  | stop {s s' : OODAState} (hs : Reachable s) (values : TerminalFields)
    (h : s.stop values = .ok s') : Reachable s'

/-! ## What the calls do -/

namespace OODAState

variable {s s' : OODAState} {transition : OODATransition} {values : TerminalFields}

theorem new_eq_ok {fields : StateFields} : new fields = .ok s ↔ s.toStateFields = fields := by
  rw [new]
  constructor
  · intro h
    split at h
    · rw [← Except.ok.inj h]
    · exact nomatch h
  · rintro rfl
    split
    · rfl
    · next message h => exact nomatch s.valid.symm.trans h

theorem exists_new {fields : StateFields} (h : fields.problem? = none) :
    ∃ s, new fields = .ok s ∧ s.toStateFields = fields :=
  ⟨⟨fields, h⟩, new_eq_ok.mpr rfl, rfl⟩

theorem apply_eq_ok : s.apply transition = .ok s' ↔
    s.status = .running ∧ transition.sequence = s.sequence + 1 ∧ transition.fromPhase = s.phase ∧
      s'.toStateFields = { s.toStateFields with
        iteration :=
          if transition.fromPhase = .act ∧ transition.toPhase = .observe then s.iteration + 1
          else s.iteration
        phase := transition.toPhase
        sequence := transition.sequence
        lastTransition := some transition } := by
  simp only [apply, guard_eq_ok, new_eq_ok, not_not]

theorem newRecord_eq_ok {fields : TerminalFields} {record : OODATerminalRecord} :
    OODATerminalRecord.new fields = .ok record ↔ record.toTerminalFields = fields := by
  rw [OODATerminalRecord.new]
  constructor
  · intro h
    split at h
    · rw [← Except.ok.inj h]
    · exact nomatch h
  · rintro rfl
    split
    · rfl
    · next message h => exact nomatch record.valid.symm.trans h

theorem stop_eq_ok : s.stop values = .ok s' ↔
    s.status = .running ∧ ∃ record : OODATerminalRecord,
      record.toTerminalFields = { values with sequence := s.sequence + 1 } ∧
        s'.toStateFields = { s.toStateFields with
          status := record.status
          sequence := record.sequence
          stopReason := some record.reason
          terminalRecord := some record } := by
  simp only [stop, guard_eq_ok, bind_eq_ok, newRecord_eq_ok, new_eq_ok, not_not]

/-! ## The number of the transitions -/

/-- How many transitions a state has behind it. -/
def transitions (s : OODAState) : ℕ := (s.lastTransition.map (·.sequence.toNat)).getD 0

/-- The checks of a state that is running. -/
theorem valid_running (h : s.status = .running) : s.terminalRecord = none ∧ s.stopReason = none ∧
    s.sequence = s.transitions ∧ ∀ t ∈ s.lastTransition, t.sequence = s.sequence := by
  have hvalid := s.valid
  simp only [StateFields.problem?, h, if_true, StateFields.runningProblem?, orElse_eq_none,
    refuse_eq_none, Option.not_isSome_iff_eq_none, not_not, not_lt] at hvalid
  obtain ⟨-, -, -, hsequence, -, hrecord, hreason, hcount⟩ := hvalid
  refine ⟨hrecord, hreason, ?_⟩
  rw [transitions]
  by_cases hzero : s.sequence = 0
  · rw [if_pos hzero, orElse_eq_none, refuse_eq_none, Option.not_isSome_iff_eq_none] at hcount
    rw [hcount.1, hzero]
    exact ⟨rfl, fun _ h ↦ absurd h (Option.not_mem_none _)⟩
  · rw [if_neg hzero, refuse_eq_none, not_not] at hcount
    obtain ⟨t, ht, hsame⟩ := Option.map_eq_some_iff.mp hcount
    rw [ht, Option.map_some, Option.getD_some, hsame]
    refine ⟨by omega, fun t' ht' ↦ ?_⟩
    obtain rfl := Option.some.inj ht'
    exact hsame

/-- The checks of a transition that a reader of states needs. -/
theorem valid_transition (t : OODATransition) : 1 ≤ t.sequence ∧ t.toPhase = t.fromPhase.next := by
  have hvalid := t.valid
  simp only [TransitionFields.problem?, orElse_eq_none, refuse_eq_none, not_lt, not_not] at hvalid
  tauto

/-- The phase and the iteration are those of the number of transitions. -/
structure IsCounted (s : OODAState) : Prop where
  phase : s.phase = .after s.transitions
  iteration : s.iteration = s.transitions / 4 + 1

/-- The iteration after one more transition. -/
theorem iteration_succ (n : ℕ) :
    (if OODAPhase.after n = .act ∧ OODAPhase.after (n + 1) = .observe then (n / 4 + 1 : ℤ) + 1
      else n / 4 + 1) = (n + 1 : ℕ) / 4 + 1 := by
  have hact := OODAPhase.after_eq_act (n := n)
  rw [OODAPhase.after_succ]
  split
  · next h =>
    have := hact.mp h.1
    omega
  · next h =>
    have : n % 4 ≠ 3 := by
      intro hlast
      rw [hact.mpr hlast] at h
      exact h ⟨rfl, rfl⟩
    omega

theorem isCounted_of_reachable (h : Reachable s) : s.IsCounted := by
  induction h with
  | @initial cycleId missionId s hinitial =>
    have hfields := new_eq_ok.mp hinitial
    have hlast : s.lastTransition = none := by rw [hfields]
    have hzero : s.transitions = 0 := by rw [transitions, hlast]; rfl
    exact ⟨by rw [hzero, hfields]; rfl, by rw [hzero, hfields]; rfl⟩
  | @apply s s' hs transition happly ih =>
    obtain ⟨hrunning, hsequence, hfrom, hfields⟩ := apply_eq_ok.mp happly
    obtain ⟨-, -, hcount, -⟩ := valid_running hrunning
    have hnumber : s'.transitions = s.transitions + 1 := by
      rw [transitions, hfields]
      simp only [Option.map_some, Option.getD_some]
      omega
    have hphase := (valid_transition transition).2
    rw [hfrom, ih.phase, ← OODAPhase.after_succ] at hphase
    constructor
    · rw [hnumber, ← hphase, hfields]
    · rw [hnumber, hfields, ← iteration_succ]
      simp only [hphase, hfrom, ih.phase, ih.iteration]
  | @stop s s' hs values hstop ih =>
    obtain ⟨-, record, -, hfields⟩ := stop_eq_ok.mp hstop
    have hnumber : s'.transitions = s.transitions := by rw [transitions, hfields, transitions]
    exact ⟨by rw [hnumber, ← ih.phase, hfields], by rw [hnumber, ← ih.iteration, hfields]⟩

/-! ## Every counted state is reached -/

/-- A transition with everything that a transition can be asked for. -/
def step (n : ℕ) : OODATransition where
  sequence := n + 1
  fromPhase := .after n
  toPhase := .after (n + 1)
  actorId := "actor"
  occurredAt := "2026-07-28T12:00:00Z"
  evidenceRefs := ["evidence"]
  decisionRef := some "decision"
  policyDecisionRef := some "policy"
  actionIntentRef := some "intent"
  actionReceiptRef := some "receipt"
  outcomeRef := some "outcome"
  valid := by
    have hsequence : ¬(n : ℤ) + 1 < 1 := by omega
    have htime : isTime "2026-07-28T12:00:00Z" = true := by decide
    have hactor : isRequired "actor" = true := by decide
    simp only [TransitionFields.problem?, orElse_eq_none, refuse_eq_none, requireRfc3339, htime,
      hactor, hsequence, OODAPhase.after_succ, not_false_iff, true_and, reduceCtorEq]
    rcases OODAPhase.after n <;> decide

/-- A state before the terminal record. -/
def beforeStop (s : OODAState) : StateFields :=
  { s.toStateFields with
    status := .running
    sequence := s.transitions
    stopReason := none
    terminalRecord := none }

/-- The checks that do not depend on the status. -/
theorem valid_fields (s : OODAState) : s.schemaVersion = 1 ∧ isRequired s.cycleId = true ∧
    isRequired s.missionId = true ∧ 1 ≤ s.iteration ∧ 0 ≤ s.sequence ∧
      ∀ t ∈ s.lastTransition, t.toPhase = s.phase := by
  have hvalid := s.valid
  simp only [StateFields.problem?, orElse_eq_none, refuse_eq_none, not_not, not_or, not_lt,
    Bool.not_eq_false, not_exists, not_and] at hvalid
  tauto

/-- The checks of a state that is not running. -/
theorem valid_terminal (h : s.status ≠ .running) : ∃ record, s.terminalRecord = some record ∧
    record.status = s.status ∧ s.stopReason = some record.reason ∧ record.sequence = s.sequence ∧
      s.sequence = s.transitions + 1 ∧ ∀ t ∈ s.lastTransition, t.sequence = s.transitions := by
  have hvalid := s.valid
  simp only [StateFields.problem?, h, if_false, StateFields.terminalProblem?, orElse_eq_none] at hvalid
  obtain ⟨-, -, -, -, -, hterminal⟩ := hvalid
  rcases hrecord : s.terminalRecord with _ | record
  · rw [hrecord] at hterminal
    exact nomatch hterminal
  · rw [hrecord] at hterminal
    simp only [orElse_eq_none, refuse_eq_none, not_not] at hterminal
    obtain ⟨hstatus, hreason, hsequence, hcount⟩ := hterminal
    refine ⟨record, rfl, hstatus, hreason, hsequence, ?_⟩
    rw [transitions]
    by_cases hzero : s.sequence - 1 = 0
    · rw [if_pos hzero, refuse_eq_none, Option.not_isSome_iff_eq_none] at hcount
      rw [hcount]
      exact ⟨by simp only [Option.map_none, Option.getD_none]; omega,
        fun _ h ↦ absurd h (Option.not_mem_none _)⟩
    · rw [if_neg hzero, refuse_eq_none, not_not] at hcount
      obtain ⟨t, ht, hsame⟩ := Option.map_eq_some_iff.mp hcount
      have hpositive := (valid_transition t).1
      rw [ht, Option.map_some, Option.getD_some, hsame]
      refine ⟨by omega, fun t' ht' ↦ ?_⟩
      obtain rfl := Option.some.inj ht'
      omega

theorem transitions_eq (s : OODAState) : ∀ t ∈ s.lastTransition, t.sequence = s.transitions := by
  intro t ht
  have hpositive := (valid_transition t).1
  rw [transitions, ht, Option.map_some, Option.getD_some]
  omega

/-- A state that runs and has no transition observes for the first time. -/
theorem initial_of_none (h : s.status = .running) (hzero : s.sequence = 0) :
    s.phase = .observe ∧ s.iteration = 1 := by
  have hvalid := s.valid
  simp only [StateFields.problem?, h, if_true, StateFields.runningProblem?, orElse_eq_none,
    refuse_eq_none, hzero, not_or, not_not] at hvalid
  tauto

/-- The checks of a state that runs after its last transition. -/
theorem problem?_running {fields : StateFields} (hschema : fields.schemaVersion = 1)
    (hcycle : isRequired fields.cycleId = true) (hmission : isRequired fields.missionId = true)
    (hiteration : 1 ≤ fields.iteration) (hrunning : fields.status = .running)
    (hrecord : fields.terminalRecord = none) (hreason : fields.stopReason = none)
    {t : OODATransition} (hlast : fields.lastTransition = some t) (hphase : t.toPhase = fields.phase)
    (hsequence : t.sequence = fields.sequence) : fields.problem? = none := by
  have hpositive := (valid_transition t).1
  have hne : fields.sequence ≠ 0 := by omega
  have hnonneg : ¬fields.sequence < 0 := by omega
  have hiteration' : ¬fields.iteration < 1 := by omega
  simp [StateFields.problem?, StateFields.runningProblem?, hschema, hcycle, hmission, hiteration',
    hrunning, hrecord, hreason, hlast, hphase, hsequence, hne, hnonneg]

theorem exists_apply (hrunning : s.status = .running)
    (hsequence : transition.sequence = s.sequence + 1) (hfrom : transition.fromPhase = s.phase) :
    ∃ s', s.apply transition = .ok s' := by
  obtain ⟨hschema, hcycle, hmission, hiteration, -, -⟩ := s.valid_fields
  obtain ⟨hrecord, hreason, -, -⟩ := valid_running hrunning
  have hproblem : StateFields.problem? { s.toStateFields with
        iteration :=
          if transition.fromPhase = .act ∧ transition.toPhase = .observe then s.iteration + 1
          else s.iteration
        phase := transition.toPhase
        sequence := transition.sequence
        lastTransition := some transition } = none := by
    refine problem?_running hschema hcycle hmission ?_ hrunning hrecord hreason rfl rfl rfl
    simp only
    split <;> omega
  obtain ⟨s', -, hfields⟩ := exists_new hproblem
  exact ⟨s', apply_eq_ok.mpr ⟨hrunning, hsequence, hfrom, hfields⟩⟩

/-- After any number of transitions there is a state that is reached. -/
theorem exists_running {cycleId missionId : String} (hcycle : isRequired cycleId = true)
    (hmission : isRequired missionId = true) (n : ℕ) : ∃ r : OODAState, Reachable r ∧
      r.status = .running ∧ r.cycleId = cycleId ∧ r.missionId = missionId ∧ r.transitions = n := by
  induction n with
  | zero =>
    obtain ⟨r, hr, hfields⟩ := @exists_new ⟨1, cycleId, missionId, 1, .observe, .running, 0,
      none, none, none⟩ (by simp [StateFields.problem?, StateFields.runningProblem?, hcycle, hmission])
    exact ⟨r, .initial hr, by rw [hfields], by rw [hfields], by rw [hfields],
      by rw [transitions, hfields]; rfl⟩
  | succ n ih =>
    obtain ⟨r, hreachable, hrunning, rfl, rfl, hcount⟩ := ih
    have hsequence := (valid_running hrunning).2.2.1
    have hphase := (isCounted_of_reachable hreachable).phase
    obtain ⟨r', hr'⟩ := @exists_apply _ (step n) hrunning
      (by rw [hsequence, hcount]; rfl) (by rw [hphase, hcount]; rfl)
    obtain ⟨-, -, -, hfields⟩ := apply_eq_ok.mp hr'
    refine ⟨r', .apply hreachable _ hr', by rw [hfields]; exact hrunning, by rw [hfields],
      by rw [hfields], ?_⟩
    rw [transitions, hfields]
    exact Int.toNat_natCast (n + 1)

/-- A state that is counted and runs is reached. -/
theorem reachable_of_running (hrunning : s.status = .running) (hcounted : s.IsCounted) :
    Reachable s := by
  obtain ⟨hschema, hcycle, hmission, -, -, hlastPhase⟩ := s.valid_fields
  obtain ⟨hrecord, hreason, hsequence, -⟩ := valid_running hrunning
  rcases hlast : s.lastTransition with _ | t
  · have hzero : s.transitions = 0 := by rw [transitions, hlast]; rfl
    refine @Reachable.initial s.cycleId s.missionId _ (new_eq_ok.mpr ?_)
    ext1
    · exact hschema
    · rfl
    · rfl
    · rw [hcounted.iteration, hzero]; rfl
    · rw [hcounted.phase, hzero]; rfl
    · exact hrunning
    · rw [hsequence, hzero]; rfl
    · exact hlast
    · exact hreason
    · exact hrecord
  · -- The last transition is applied to a state with one transition less.
    obtain ⟨hpositive, hnext⟩ := valid_transition t
    have hnumber : t.sequence = s.transitions := s.transitions_eq t hlast
    obtain ⟨n, hn⟩ : ∃ n, s.transitions = n + 1 := ⟨s.transitions - 1, by omega⟩
    obtain ⟨r, hreachable, hrrunning, hrcycle, hrmission, hrcount⟩ := exists_running hcycle hmission n
    obtain ⟨hrrecord, hrreason, hrsequence, -⟩ := valid_running hrrunning
    have hrcounted := isCounted_of_reachable hreachable
    have hto : t.toPhase = .after (n + 1) := by
      rw [hlastPhase t hlast, hcounted.phase, hn]
    have hfrom : t.fromPhase = .after n := by
      rw [hnext, OODAPhase.after_succ] at hto
      exact OODAPhase.next_injective hto
    refine .apply hreachable t (apply_eq_ok.mpr ⟨hrrunning, by omega, ?_, ?_⟩)
    · rw [hfrom, hrcounted.phase, hrcount]
    · ext1
      · exact hschema.trans r.valid_fields.1.symm
      · exact hrcycle.symm
      · exact hrmission.symm
      · simp only [hfrom, hto, hrcounted.iteration, hrcount]
        rw [hcounted.iteration, hn, iteration_succ]
      · exact (hlastPhase t hlast).symm
      · exact hrunning.trans hrrunning.symm
      · exact hsequence.trans hnumber.symm
      · exact hlast
      · exact hreason.trans hrreason.symm
      · exact hrecord.trans hrrecord.symm

/-- A state before its terminal record is a state. -/
theorem exists_beforeStop (s : OODAState) (hcounted : s.IsCounted) :
    ∃ r : OODAState, r.toStateFields = s.beforeStop := by
  obtain ⟨hschema, hcycle, hmission, hiteration, -, hphase⟩ := s.valid_fields
  have hproblem : s.beforeStop.problem? = none := by
    rcases hlast : s.lastTransition with _ | t
    · have hzero : s.transitions = 0 := by rw [transitions, hlast]; rfl
      have hobserve : s.phase = .observe := by rw [hcounted.phase, hzero]; rfl
      have hone : s.iteration = 1 := by rw [hcounted.iteration, hzero]; rfl
      simp [StateFields.problem?, StateFields.runningProblem?, beforeStop, hschema, hcycle, hmission,
        hlast, hzero, hobserve, hone]
    · exact problem?_running hschema hcycle hmission hiteration rfl rfl rfl hlast (hphase t hlast)
        (s.transitions_eq t hlast)
  obtain ⟨r, -, hfields⟩ := exists_new hproblem
  exact ⟨r, hfields⟩

/-- **A state is reached if and only if it is counted.** -/
theorem reachable_iff : Reachable s ↔ s.IsCounted := by
  refine ⟨isCounted_of_reachable, fun hcounted ↦ ?_⟩
  by_cases hrunning : s.status = .running
  · exact reachable_of_running hrunning hcounted
  obtain ⟨record, hrecord, hstatus, hreason, hnumber, hsequence, -⟩ := valid_terminal hrunning
  obtain ⟨r, hfields⟩ := s.exists_beforeStop hcounted
  have htransitions : r.transitions = s.transitions := by rw [transitions, hfields]; rfl
  have hrrunning : r.status = .running := by rw [hfields]; rfl
  have hrcounted : r.IsCounted := by
    refine ⟨?_, ?_⟩
    · rw [htransitions, ← hcounted.phase, hfields]; rfl
    · rw [htransitions, ← hcounted.iteration, hfields]; rfl
  have hrsequence := (valid_running hrrunning).2.2.1
  refine .stop (reachable_of_running hrrunning hrcounted) record.toTerminalFields
    (stop_eq_ok.mpr ⟨hrrunning, record, ?_, ?_⟩)
  · have hsame : record.sequence = r.sequence + 1 := by omega
    rw [← hsame]
  · rw [hfields]
    ext1
    all_goals first | rfl | exact hrecord | exact hreason | exact hstatus.symm | exact hnumber.symm

end OODAState

end HiveMind.Reference
