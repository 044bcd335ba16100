import HiveMind.Reference.Ooda
import HiveMind.Runtime.Contracts

/-!
# Contracts of OODA cycles

A state is written as a document, and a validator checks documents. It compares the phase and the
number of a state with those of its last transition. It does not compare the phase and the iteration
with the number, except that of a state that runs and has no transition.

* **`ooda_contract_iff`**: the document of every state that is reached is accepted, and a document
  that is accepted is that of a state that is reached if and only if it is regular.
-/

open Raise

namespace HiveMind.Reference

/-! ## Documents -/

/-- `OODATransition.to_contract`, in the order of the names. -/
def TransitionFields.toContract (t : TransitionFields) : Json := .obj [
  ("action_intent_ref", Runtime.optionalText t.actionIntentRef),
  ("action_receipt_ref", Runtime.optionalText t.actionReceiptRef),
  ("actor_id", .str t.actorId),
  ("decision_ref", Runtime.optionalText t.decisionRef),
  ("evidence_refs", .arr (t.evidenceRefs.map .str)),
  ("from_phase", .str t.fromPhase.value),
  ("occurred_at", .str t.occurredAt),
  ("outcome_ref", Runtime.optionalText t.outcomeRef),
  ("policy_decision_ref", Runtime.optionalText t.policyDecisionRef),
  ("sequence", .int t.sequence),
  ("to_phase", .str t.toPhase.value)]

/-- `OODATerminalRecord.to_contract`. -/
def TerminalFields.toContract (r : TerminalFields) : Json := .obj [
  ("actor_id", .str r.actorId),
  ("evidence_refs", .arr (r.evidenceRefs.map .str)),
  ("occurred_at", .str r.occurredAt),
  ("outcome_ref", .str r.outcomeRef),
  ("reason", .str r.reason),
  ("sequence", .int r.sequence),
  ("status", .str r.status.value)]

/-- The document of `OODAState.to_contract`. -/
def StateFields.document (s : StateFields) : Json := .obj [
  ("cycle_id", .str s.cycleId),
  ("iteration", .int s.iteration),
  ("last_transition", (s.lastTransition.map (·.toContract)).getD .null),
  ("mission_id", .str s.missionId),
  ("phase", .str s.phase.value),
  ("schema_version", .int s.schemaVersion),
  ("sequence", .int s.sequence),
  ("status", .str s.status.value),
  ("stop_reason", Runtime.optionalText s.stopReason),
  ("terminal_record", (s.terminalRecord.map (·.toContract)).getD .null)]

/-! ## The validator -/

/-- `document.get(name)`. -/
def get (document : Json) (name : String) : Json := (document.get? name).getD .null

/-- An issue, if the condition holds. -/
def issue (condition : Prop) [Decidable condition] (message : String) : List String :=
  if condition then [message] else []

@[simp] theorem issue_eq_nil {condition : Prop} [Decidable condition] {message : String} :
    issue condition message = [] ↔ ¬condition := by
  rw [issue]
  split
  · next h => exact iff_of_false (List.cons_ne_nil _ _) (not_not.mpr h)
  · next h => exact iff_of_true rfl h

/-- `OODAPhase(value)`. -/
def phase? : Json → Option OODAPhase
  | .str s => OODAPhase.all.find? (·.value = s)
  | _ => none

/-- `OODAStatus(value)`. -/
def status? : Json → Option OODAStatus
  | .str s => OODAStatus.all.find? (·.value = s)
  | _ => none

def int? : Json → Option ℤ
  | .int n => some n
  | _ => none

/-- An integer that is positive. -/
def positive? (value : Json) : Option ℤ := (int? value).filter (1 ≤ ·)

/-- A text that is more than blanks. -/
def isText : Json → Bool
  | .str s => isRequired s
  | _ => false

/-- `_valid_evidence_contract`. -/
def isEvidence (value : Json) : Bool :=
  match value.asStrings? with
  | some values => values ≠ [] && values.all isRequired && values.Nodup
  | none => false

/-- `_valid_timestamp_contract`. -/
def isTimestamp : Json → Bool
  | .str s => isTime s
  | _ => false

/-- All of the members are texts that are more than blanks. -/
def allText (document : Json) (names : List String) : Bool :=
  names.all fun name ↦ isText (get document name)

section Transition

variable (transition : Json)

def transitionSequence : Option ℤ :=
  match transition with
  | .obj _ => positive? (get transition "sequence")
  | _ => none

/-- The phases of a transition, if both are phases. -/
def transitionPhases : Option (OODAPhase × OODAPhase) :=
  match phase? (get transition "from_phase"), phase? (get transition "to_phase") with
  | some fromPhase, some toPhase => some (fromPhase, toPhase)
  | _, _ => none

/-- The issues of the last transition. -/
def transitionIssues (phase : Option OODAPhase) : List String :=
  match transition with
  | .null => []
  | .obj _ =>
    issue (positive? (get transition "sequence") = none)
      "transition sequence must be a positive integer" ++
    issue (transitionPhases transition = none) "transition phases are invalid" ++
    issue (∃ phases ∈ transitionPhases transition, phases.1.next ≠ phases.2)
      "transition violates the legal OODA phase cycle" ++
    issue (∃ phases ∈ transitionPhases transition, ∃ expected ∈ phase, expected ≠ phases.2)
      "state phase does not match the last transition" ++
    issue (isTimestamp (get transition "occurred_at") = false)
      "transition occurred_at is not RFC 3339" ++
    issue (isEvidence (get transition "evidence_refs") = false)
      "transition requires unique nonempty evidence_refs" ++
    issue (∃ phases ∈ transitionPhases transition, phases.2 = .act ∧
        allText transition ["decision_ref", "policy_decision_ref", "action_intent_ref"] = false)
      "entering act requires decision, policy, and action-intent refs" ++
    issue (∃ phases ∈ transitionPhases transition, phases.1 = .act ∧
        allText transition ["action_receipt_ref", "outcome_ref"] = false)
      "act-to-observe requires action receipt and outcome refs"
  | _ => ["last_transition must be an object or null"]

end Transition

section Terminal

variable (terminal : Json)

def terminalSequence : Option ℤ :=
  match terminal with
  | .obj _ => positive? (get terminal "sequence")
  | _ => none

def terminalStatus : Option OODAStatus :=
  match terminal with
  | .obj _ => status? (get terminal "status")
  | _ => none

/-- The issues of the terminal record. -/
def terminalIssues : List String :=
  match terminal with
  | .null => []
  | .obj _ =>
    issue (positive? (get terminal "sequence") = none)
      "terminal sequence must be a positive integer" ++
    issue (status? (get terminal "status") = none) "terminal status is invalid" ++
    issue (status? (get terminal "status") = some .running)
      "terminal record status must be terminal" ++
    issue (isTimestamp (get terminal "occurred_at") = false)
      "terminal occurred_at is not RFC 3339" ++
    issue (isEvidence (get terminal "evidence_refs") = false)
      "terminal record requires unique nonempty evidence_refs" ++
    issue (isText (get terminal "actor_id") = false) "terminal actor_id is required" ++
    issue (isText (get terminal "reason") = false) "terminal reason is required" ++
    issue (isText (get terminal "outcome_ref") = false) "terminal outcome_ref is required"
  | _ => ["terminal_record must be an object or null"]

end Terminal

section Cross

variable (document : Json)

/-- The issues of a state that is running. Values are compared as they are written; where Python
takes others for the same, the type of one of them is an issue already. -/
def runningIssues : List String :=
  issue (get document "terminal_record" ≠ .null)
    "running state cannot contain a terminal record" ++
  issue (get document "stop_reason" ≠ .null) "running state cannot contain a stop reason" ++
  match int? (get document "sequence") with
  | none => []
  | some sequence =>
    if sequence = 0 then
      issue (get document "last_transition" ≠ .null)
        "initial state cannot contain a transition" ++
      issue (phase? (get document "phase") ≠ some .observe ∨ get document "iteration" ≠ .int 1)
        "initial state must be observe iteration 1"
    else
      issue (transitionSequence (get document "last_transition") ≠ some sequence)
        "running state sequence must match its last transition"

/-- The issues of a state that is stopped. -/
def stoppedIssues (status : OODAStatus) : List String :=
  let terminal := get document "terminal_record"
  let transition := get document "last_transition"
  let sequence := int? (get document "sequence")
  issue (terminal = .null) "terminal state requires a terminal record" ++
  issue (∃ found ∈ terminalStatus terminal, found ≠ status)
    "state status does not match terminal record" ++
  (match terminal with
    | .obj _ => issue (get terminal "reason" ≠ get document "stop_reason")
        "stop_reason does not mirror the terminal record"
    | _ => []) ++
  issue (sequence.isSome ∧ terminalSequence terminal ≠ sequence)
    "state sequence must match terminal record" ++
  if sequence.map (· - 1) = some 0 then
    issue (transition ≠ .null) "first terminal event cannot rewrite a transition"
  else
    issue (transitionSequence transition ≠ sequence.map (· - 1))
      "terminal sequence must append directly after the last transition"

def documentIssues : List String :=
  let phase := phase? (get document "phase")
  let status := status? (get document "status")
  issue (phase = none) "state phase is invalid" ++
  issue (status = none) "state status is invalid" ++
  issue ((int? (get document "sequence")).filter (0 ≤ ·) = none)
    "state sequence must be a nonnegative integer" ++
  issue (positive? (get document "iteration") = none)
    "state iteration must be a positive integer" ++
  transitionIssues (get document "last_transition") phase ++
  terminalIssues (get document "terminal_record") ++
  match status with
  | none => []
  | some .running => runningIssues document
  | some status => stoppedIssues document status

end Cross

/-- `OODAContractValidation`. -/
structure OODAContractValidation where
  valid : Bool
  issues : List String
  deriving DecidableEq

/-- `validate_ooda_contract`. -/
def validateOodaContract (document : Json) : OODAContractValidation :=
  match document with
  | .obj _ =>
    let issues := documentIssues document
    ⟨issues.isEmpty, issues.eraseDups⟩
  | _ => ⟨false, ["OODA contract must be an object"]⟩

/-- `OODAState.to_contract`. -/
def OODAState.toContract (s : OODAState) : Except String Json :=
  let validation := validateOodaContract s.document
  if validation.valid then .ok s.document
  else .error ("internal OODA state violates its contract: " ++
    "; ".intercalate validation.issues)

/-! ## Values that are read -/

theorem phase?_eq_some {value : Json} {phase : OODAPhase} :
    phase? value = some phase ↔ value = .str phase.value := by
  rcases value with _ | b | n | x | s | xs | ms
  case str =>
    rw [phase?, Json.str.injEq]
    constructor
    · intro h
      have hvalue := List.find?_some h
      exact (of_decide_eq_true hvalue).symm
    · rintro rfl
      rcases phase <;> decide
  all_goals exact iff_of_false nofun nofun

theorem status?_eq_some {value : Json} {status : OODAStatus} :
    status? value = some status ↔ value = .str status.value := by
  rcases value with _ | b | n | x | s | xs | ms
  case str =>
    rw [status?, Json.str.injEq]
    constructor
    · intro h
      have hvalue := List.find?_some h
      exact (of_decide_eq_true hvalue).symm
    · rintro rfl
      rcases status <;> decide
  all_goals exact iff_of_false nofun nofun

theorem int?_eq_some {value : Json} {n : ℤ} : int? value = some n ↔ value = .int n := by
  rcases value with _ | b | m | x | s | xs | ms
  case int => rw [int?, Option.some.injEq, Json.int.injEq]
  all_goals exact iff_of_false nofun nofun

theorem positive?_eq_some {value : Json} {n : ℤ} :
    positive? value = some n ↔ value = .int n ∧ 1 ≤ n := by
  rw [positive?, Option.filter_eq_some_iff, int?_eq_some, decide_eq_true_eq]

theorem isText_iff {value : Json} : isText value = true ↔ ∃ s, value = .str s ∧ isRequired s = true := by
  rcases value with _ | b | m | x | s | xs | ms
  case str => simp only [isText, Json.str.injEq, exists_eq_left']
  all_goals exact iff_of_false nofun fun ⟨_, h, _⟩ ↦ nomatch h

theorem isTimestamp_iff {value : Json} :
    isTimestamp value = true ↔ ∃ s, value = .str s ∧ isTime s = true := by
  rcases value with _ | b | m | x | s | xs | ms
  case str => simp only [isTimestamp, Json.str.injEq, exists_eq_left']
  all_goals exact iff_of_false nofun fun ⟨_, h, _⟩ ↦ nomatch h

theorem isEvidence_iff {value : Json} : isEvidence value = true ↔
    ∃ values, value = .arr (values.map .str) ∧ ∀ label, requireEvidence values label = none := by
  rw [isEvidence]
  rcases hvalues : value.asStrings? with _ | values
  · refine iff_of_false nofun ?_
    rintro ⟨values, hvalue, -⟩
    exact nomatch hvalues.symm.trans (Json.asStrings?_eq_some.mpr hvalue)
  · obtain rfl := Json.asStrings?_eq_some.mp hvalues
    have hinj : Function.Injective (List.map Json.str) :=
      List.map_injective_iff.mpr fun _ _ h ↦ Json.str.inj h
    simp only [requireEvidence, orElse_eq_none, refuse_eq_none, not_exists, not_and, not_not,
      Bool.not_eq_false, Bool.and_eq_true, decide_eq_true_eq, List.all_eq_true, forall_const]
    constructor
    · rintro ⟨⟨hne, hrequired⟩, hnodup⟩
      exact ⟨values, rfl, hne, hnodup, hrequired⟩
    · rintro ⟨values', hsame, hne, hnodup, hrequired⟩
      obtain rfl := hinj (Json.arr.inj hsame)
      exact ⟨⟨hne, hrequired⟩, hnodup⟩

/-- A reference that is not blank. -/
def IsRef (value : Json) : Prop := value = .null ∨ isText value = true

instance : DecidablePred IsRef := fun _ ↦ inferInstanceAs (Decidable (_ ∨ _))

theorem isRef_iff {value : Json} : IsRef value ↔
    ∃ ref, value = Runtime.optionalText ref ∧ ∀ label, requireOptionalRef ref label = none := by
  constructor
  · rintro (rfl | htext)
    · exact ⟨none, rfl, fun _ ↦ by simp [requireOptionalRef]⟩
    · obtain ⟨text, rfl, hrequired⟩ := isText_iff.mp htext
      exact ⟨some text, rfl, fun _ ↦ by simp [requireOptionalRef, hrequired]⟩
  · rintro ⟨_ | text, rfl, hrequired⟩
    · exact .inl rfl
    · have := hrequired ""
      simp only [requireOptionalRef, refuse_eq_none, Option.mem_some_iff, exists_eq_left',
        Bool.not_eq_false] at this
      exact .inr this

/-- A reference that is not blank is there if it counts as true. -/
theorem isText_optionalText {ref : Option String} {label : String}
    (h : requireOptionalRef ref label = none) :
    isText (Runtime.optionalText ref) = isGiven ref := by
  rcases ref with _ | text
  · rfl
  · simp only [requireOptionalRef, refuse_eq_none, Option.mem_some_iff, exists_eq_left',
      Bool.not_eq_false] at h
    have hne : text ≠ "" := by
      rintro rfl
      cases h
    rw [Runtime.optionalText, isText, h, isGiven, Option.any_some, decide_eq_true hne]

/-! ## Transitions -/

/-- The names of the members of a transition. -/
def transitionNames : List String :=
  ["action_intent_ref", "action_receipt_ref", "actor_id", "decision_ref", "evidence_refs",
    "from_phase", "occurred_at", "outcome_ref", "policy_decision_ref", "sequence", "to_phase"]

/-- The references of a transition. -/
def refNames : List String :=
  ["decision_ref", "policy_decision_ref", "action_intent_ref", "action_receipt_ref", "outcome_ref"]

def names : Json → List String
  | .obj ms => ms.map Prod.fst
  | _ => []

theorem transitionPhases_eq_some {transition : Json} {fromPhase toPhase : OODAPhase} :
    transitionPhases transition = some (fromPhase, toPhase) ↔
      get transition "from_phase" = .str fromPhase.value ∧
        get transition "to_phase" = .str toPhase.value := by
  rw [← phase?_eq_some, ← phase?_eq_some, transitionPhases]
  rcases phase? (get transition "from_phase") with _ | found
  · exact iff_of_false nofun fun h ↦ nomatch h.1
  · rcases phase? (get transition "to_phase") with _ | found'
    · exact iff_of_false nofun fun h ↦ nomatch h.2
    · simp only [Option.some.injEq, Prod.mk.injEq]

/-- What the validator asks of a transition that is there. -/
structure ReadsTransition (transition : Json) (phase : OODAPhase) (sequence : ℤ)
    (fromPhase : OODAPhase) (occurredAt : String) (evidenceRefs : List String) : Prop where
  sequence_eq : get transition "sequence" = .int sequence
  positive : 1 ≤ sequence
  fromPhase_eq : get transition "from_phase" = .str fromPhase.value
  toPhase_eq : get transition "to_phase" = .str phase.value
  next : fromPhase.next = phase
  occurredAt_eq : get transition "occurred_at" = .str occurredAt
  time : isTime occurredAt = true
  evidenceRefs_eq : get transition "evidence_refs" = .arr (evidenceRefs.map .str)
  evidence : ∀ label, requireEvidence evidenceRefs label = none
  decision : phase = .act →
    allText transition ["decision_ref", "policy_decision_ref", "action_intent_ref"] = true
  receipt : fromPhase = .act → allText transition ["action_receipt_ref", "outcome_ref"] = true

theorem not_eq_none_iff {α : Type} {value : Option α} :
    ¬value = none ↔ ∃ found, value = some found :=
  Option.ne_none_iff_exists'

theorem transitionIssues_eq_nil {ms : List (String × Json)} {phase : OODAPhase} :
    transitionIssues (.obj ms) (some phase) = [] ↔
      ∃ sequence fromPhase occurredAt evidenceRefs,
        ReadsTransition (.obj ms) phase sequence fromPhase occurredAt evidenceRefs := by
  simp only [transitionIssues, List.append_eq_nil_iff, issue_eq_nil, not_eq_none_iff, not_not,
    Bool.not_eq_false, positive?_eq_some, isTimestamp_iff, ne_eq,
    isEvidence_iff, Prod.exists, transitionPhases_eq_some, Option.mem_def, not_exists, not_and,
    Option.some.injEq, forall_eq', and_imp]
  constructor
  · rintro ⟨⟨⟨⟨⟨⟨⟨⟨sequence, hsequence, hpositive⟩, ⟨fromPhase, toPhase, hfrom, hto⟩⟩, hnext⟩, hphase⟩,
      ⟨occurredAt, hoccurred, htime⟩⟩, ⟨evidenceRefs, hevidence, hvalid⟩⟩, hact⟩, hreceipt⟩
    obtain rfl := hphase fromPhase toPhase hfrom hto
    exact ⟨sequence, fromPhase, occurredAt, evidenceRefs, hsequence, hpositive, hfrom, hto,
      hnext fromPhase phase hfrom hto, hoccurred, htime, hevidence, hvalid,
      hact fromPhase phase hfrom hto, hreceipt fromPhase phase hfrom hto⟩
  · rintro ⟨sequence, fromPhase, occurredAt, evidenceRefs, h⟩
    have hphases : ∀ found found' : OODAPhase, get (.obj ms) "from_phase" = .str found.value →
        get (.obj ms) "to_phase" = .str found'.value → found = fromPhase ∧ found' = phase := by
      intro found found' hfound hfound'
      have hfrom := h.fromPhase_eq
      have hto := h.toPhase_eq
      rw [← phase?_eq_some] at hfrom hto hfound hfound'
      exact ⟨Option.some.inj (hfound.symm.trans hfrom), Option.some.inj (hfound'.symm.trans hto)⟩
    refine ⟨⟨⟨⟨⟨⟨⟨⟨sequence, h.sequence_eq, h.positive⟩,
      ⟨fromPhase, phase, h.fromPhase_eq, h.toPhase_eq⟩⟩, ?_⟩, ?_⟩,
      ⟨occurredAt, h.occurredAt_eq, h.time⟩⟩, ⟨evidenceRefs, h.evidenceRefs_eq, h.evidence⟩⟩, ?_⟩, ?_⟩
    all_goals
      intro found found' hfound hfound'
      obtain ⟨rfl, rfl⟩ := hphases found found' hfound hfound'
    · exact h.next
    · rfl
    · exact h.decision
    · exact h.receipt

theorem requireEvidence_eq_none {values : List String} {label label' : String}
    (h : requireEvidence values label = none) : requireEvidence values label' = none := by
  simpa only [requireEvidence, orElse_eq_none, refuse_eq_none] using h

/-- The checks of a transition. -/
structure ValidTransition (t : TransitionFields) : Prop where
  positive : 1 ≤ t.sequence
  actorId : isRequired t.actorId = true
  time : isTime t.occurredAt = true
  evidence : ∀ label, requireEvidence t.evidenceRefs label = none
  refs : ∀ ref ∈ [t.decisionRef, t.policyDecisionRef, t.actionIntentRef, t.actionReceiptRef,
    t.outcomeRef], ∀ label, requireOptionalRef ref label = none
  next : t.fromPhase.next = t.toPhase
  decision : t.toPhase = .act →
    [t.decisionRef, t.policyDecisionRef, t.actionIntentRef].all isGiven = true
  receipt : t.fromPhase = .act → [t.actionReceiptRef, t.outcomeRef].all isGiven = true

theorem requireOptionalRef_eq_none {ref : Option String} {label label' : String} :
    requireOptionalRef ref label = none ↔ requireOptionalRef ref label' = none := by
  rw [requireOptionalRef, requireOptionalRef, refuse_eq_none, refuse_eq_none]

theorem TransitionFields.problem?_eq_none {t : TransitionFields} :
    t.problem? = none ↔ ValidTransition t := by
  simp only [problem?, orElse_eq_none, refuse_eq_none, requireRfc3339, Bool.not_eq_false, not_lt,
    not_not, not_and]
  constructor
  · rintro ⟨hpositive, hactor, htime, hevidence, hdecision, hpolicy, hintent, hreceipt, houtcome, hnext,
      hact, hlast⟩
    refine ⟨hpositive, hactor, htime, fun _ ↦ requireEvidence_eq_none hevidence, ?_, hnext.symm, hact,
      hlast⟩
    simp only [List.forall_mem_cons, List.not_mem_nil, false_imp_iff, implies_true, and_true]
    exact ⟨fun _ ↦ requireOptionalRef_eq_none.mp hdecision,
      fun _ ↦ requireOptionalRef_eq_none.mp hpolicy, fun _ ↦ requireOptionalRef_eq_none.mp hintent,
      fun _ ↦ requireOptionalRef_eq_none.mp hreceipt, fun _ ↦ requireOptionalRef_eq_none.mp houtcome⟩
  · intro h
    have hrefs := h.refs
    simp only [List.forall_mem_cons, List.not_mem_nil, false_imp_iff, implies_true, and_true] at hrefs
    obtain ⟨hdecision, hpolicy, hintent, hreceipt, houtcome⟩ := hrefs
    exact ⟨h.positive, h.actorId, h.time, h.evidence _, hdecision _, hpolicy _, hintent _, hreceipt _,
      houtcome _, h.next.symm, h.decision, h.receipt⟩

/-- A reference of the document is a text if the reference counts as true. -/
theorem ValidTransition.isText_eq {t : TransitionFields} (h : ValidTransition t) (ref : Option String)
    (hmem : ref ∈ [t.decisionRef, t.policyDecisionRef, t.actionIntentRef, t.actionReceiptRef,
      t.outcomeRef]) : isText (Runtime.optionalText ref) = isGiven ref :=
  isText_optionalText (h.refs ref hmem "")

theorem ValidTransition.allText_decision {t : TransitionFields} (h : ValidTransition t) :
    allText t.toContract ["decision_ref", "policy_decision_ref", "action_intent_ref"] =
      [t.decisionRef, t.policyDecisionRef, t.actionIntentRef].all isGiven := by
  have hdecision := h.isText_eq t.decisionRef (by simp)
  have hpolicy := h.isText_eq t.policyDecisionRef (by simp)
  have hintent := h.isText_eq t.actionIntentRef (by simp)
  simp only [List.all_cons, List.all_nil, ← hdecision, ← hpolicy, ← hintent]
  rfl

theorem ValidTransition.allText_receipt {t : TransitionFields} (h : ValidTransition t) :
    allText t.toContract ["action_receipt_ref", "outcome_ref"] =
      [t.actionReceiptRef, t.outcomeRef].all isGiven := by
  have hreceipt := h.isText_eq t.actionReceiptRef (by simp)
  have houtcome := h.isText_eq t.outcomeRef (by simp)
  simp only [List.all_cons, List.all_nil, ← hreceipt, ← houtcome]
  rfl

/-- The document of a transition is accepted. -/
theorem transitionIssues_toContract (t : OODATransition) :
    transitionIssues t.toContract (some t.toPhase) = [] := by
  have h := TransitionFields.problem?_eq_none.mp t.valid
  refine transitionIssues_eq_nil.mpr ⟨t.sequence, t.fromPhase, t.occurredAt, t.evidenceRefs, rfl,
    h.positive, rfl, rfl, h.next, rfl, h.time, rfl, h.evidence, fun hact ↦ ?_, fun hact ↦ ?_⟩
  · exact h.allText_decision.trans (h.decision hact)
  · exact h.allText_receipt.trans (h.receipt hact)

/-- The members of an object are their names and their values. -/
theorem exists_values {document : Json} {wanted : List String} (h : names document = wanted)
    (hne : wanted ≠ []) :
    ∃ values, values.length = wanted.length ∧ document = .obj (wanted.zip values) := by
  rcases document with _ | b | n | x | s | xs | ms
  case obj =>
    refine ⟨ms.map Prod.snd, ?_, ?_⟩
    · rw [List.length_map, ← h, names, List.length_map]
    · rw [← h]
      exact congrArg Json.obj (List.zip_of_prod rfl rfl)
  all_goals exact absurd h.symm hne

/-- A transition with the right members and references, that is accepted, is the document of a
transition. -/
theorem exists_transition {transition : Json} {phase : OODAPhase}
    (hnames : names transition = transitionNames)
    (hrefs : ∀ name ∈ refNames, IsRef (get transition name))
    (hactor : isText (get transition "actor_id") = true)
    (h : transitionIssues transition (some phase) = []) :
    ∃ t : OODATransition, t.toContract = transition ∧ t.toPhase = phase := by
  obtain ⟨values, hlength, rfl⟩ := exists_values hnames (by decide)
  obtain ⟨sequence, fromPhase, occurredAt, evidenceRefs, hreads⟩ := transitionIssues_eq_nil.mp h
  match values, hlength with
  | [intent, receipt, actor, decision, evidence, from', occurred, outcome, policy, sequence', to'], _ =>
    simp only [refNames, List.forall_mem_cons, List.not_mem_nil, false_imp_iff, implies_true,
      and_true, isRef_iff] at hrefs
    obtain ⟨⟨decisionRef, hdecision, hdecisionRef⟩, ⟨policyRef, hpolicy, hpolicyRef⟩,
      ⟨intentRef, hintent, hintentRef⟩, ⟨receiptRef, hreceipt, hreceiptRef⟩,
      ⟨outcomeRef, houtcome, houtcomeRef⟩⟩ := hrefs
    obtain ⟨actorId, hactorId, hrequired⟩ := isText_iff.mp hactor
    have hsequence := hreads.sequence_eq
    have hfrom := hreads.fromPhase_eq
    have hto := hreads.toPhase_eq
    have hoccurred := hreads.occurredAt_eq
    have hevidence := hreads.evidenceRefs_eq
    change decision = _ at hdecision
    change policy = _ at hpolicy
    change intent = _ at hintent
    change receipt = _ at hreceipt
    change outcome = _ at houtcome
    change actor = _ at hactorId
    change sequence' = _ at hsequence
    change from' = _ at hfrom
    change to' = _ at hto
    change occurred = _ at hoccurred
    change evidence = _ at hevidence
    subst hdecision hpolicy hintent hreceipt houtcome hactorId hsequence hfrom hto hoccurred hevidence
    have hdecided := hreads.decision
    have hreceived := hreads.receipt
    have hvalid : ValidTransition ⟨sequence, fromPhase, phase, actorId, occurredAt, evidenceRefs,
        decisionRef, policyRef, intentRef, receiptRef, outcomeRef⟩ := by
      refine ⟨hreads.positive, hrequired, hreads.time, hreads.evidence, ?_, hreads.next, ?_, ?_⟩
      · simp only [List.forall_mem_cons, List.not_mem_nil, false_imp_iff, implies_true, and_true]
        exact ⟨hdecisionRef, hpolicyRef, hintentRef, hreceiptRef, houtcomeRef⟩
      · intro hact
        have := hdecided hact
        simp only [allText, List.all_cons, List.all_nil, ← isText_optionalText (hdecisionRef ""),
          ← isText_optionalText (hpolicyRef ""), ← isText_optionalText (hintentRef "")] at this ⊢
        exact this
      · intro hact
        have := hreceived hact
        simp only [allText, List.all_cons, List.all_nil, ← isText_optionalText (hreceiptRef ""),
          ← isText_optionalText (houtcomeRef "")] at this ⊢
        exact this
    exact ⟨⟨_, TransitionFields.problem?_eq_none.mpr hvalid⟩, rfl, rfl⟩

theorem transitionSequence_toContract (t : OODATransition) :
    transitionSequence t.toContract = some t.sequence :=
  positive?_eq_some.mpr ⟨rfl, (OODAState.valid_transition t).1⟩

/-! ## Terminal records -/

/-- The names of the members of a terminal record. -/
def terminalNames : List String :=
  ["actor_id", "evidence_refs", "occurred_at", "outcome_ref", "reason", "sequence", "status"]

/-- The checks of a terminal record. -/
structure ValidRecord (r : TerminalFields) : Prop where
  positive : 1 ≤ r.sequence
  status : r.status ≠ .running
  actorId : isRequired r.actorId = true
  time : isTime r.occurredAt = true
  evidence : ∀ label, requireEvidence r.evidenceRefs label = none
  reason : isRequired r.reason = true
  outcomeRef : isRequired r.outcomeRef = true

theorem TerminalFields.problem?_eq_none {r : TerminalFields} :
    r.problem? = none ↔ ValidRecord r := by
  simp only [problem?, orElse_eq_none, refuse_eq_none, requireRfc3339, Bool.not_eq_false, not_lt,
    not_or]
  constructor
  · rintro ⟨hpositive, hstatus, hactor, htime, hevidence, hreason, houtcome⟩
    exact ⟨hpositive, hstatus, hactor, htime, fun _ ↦ requireEvidence_eq_none hevidence, hreason,
      houtcome⟩
  · intro h
    exact ⟨h.positive, h.status, h.actorId, h.time, h.evidence _, h.reason, h.outcomeRef⟩

/-- A document has the members of a record. -/
structure ReadsRecord (terminal : Json) (r : TerminalFields) : Prop where
  sequence : get terminal "sequence" = .int r.sequence
  status : get terminal "status" = .str r.status.value
  occurredAt : get terminal "occurred_at" = .str r.occurredAt
  evidenceRefs : get terminal "evidence_refs" = .arr (r.evidenceRefs.map .str)
  actorId : get terminal "actor_id" = .str r.actorId
  reason : get terminal "reason" = .str r.reason
  outcomeRef : get terminal "outcome_ref" = .str r.outcomeRef

theorem terminalIssues_eq_nil {ms : List (String × Json)} :
    terminalIssues (.obj ms) = [] ↔ ∃ r : TerminalFields, ValidRecord r ∧ ReadsRecord (.obj ms) r := by
  simp only [terminalIssues, List.append_eq_nil_iff, issue_eq_nil, not_eq_none_iff,
    Bool.not_eq_false, positive?_eq_some, isTimestamp_iff, isEvidence_iff, isText_iff,
    status?_eq_some]
  constructor
  · rintro ⟨⟨⟨⟨⟨⟨⟨⟨sequence, hsequence, hpositive⟩, ⟨status, hstatus⟩⟩, hstopped⟩,
      ⟨occurredAt, hoccurred, htime⟩⟩, ⟨evidenceRefs, hevidence, hvalid⟩⟩,
      ⟨actorId, hactor, hactorId⟩⟩, ⟨reason, hreason, hreasoned⟩⟩, ⟨outcomeRef, houtcome, houtcomeRef⟩⟩
    refine ⟨⟨sequence, status, actorId, occurredAt, evidenceRefs, outcomeRef, reason⟩,
      ⟨hpositive, ?_, hactorId, htime, hvalid, hreasoned, houtcomeRef⟩,
      ⟨hsequence, hstatus, hoccurred, hevidence, hactor, hreason, houtcome⟩⟩
    rintro rfl
    exact hstopped hstatus
  · rintro ⟨r, hvalid, hreads⟩
    refine ⟨⟨⟨⟨⟨⟨⟨⟨_, hreads.sequence, hvalid.positive⟩, ⟨_, hreads.status⟩⟩, fun hrunning ↦ ?_⟩,
      ⟨_, hreads.occurredAt, hvalid.time⟩⟩, ⟨_, hreads.evidenceRefs, hvalid.evidence⟩⟩,
      ⟨_, hreads.actorId, hvalid.actorId⟩⟩, ⟨_, hreads.reason, hvalid.reason⟩⟩,
      ⟨_, hreads.outcomeRef, hvalid.outcomeRef⟩⟩
    have hstatus := hreads.status
    rw [← status?_eq_some] at hstatus hrunning
    exact hvalid.status (Option.some.inj (hstatus.symm.trans hrunning))

/-- The document of a record is accepted. -/
theorem terminalIssues_toContract (r : OODATerminalRecord) : terminalIssues r.toContract = [] :=
  terminalIssues_eq_nil.mpr ⟨r.toTerminalFields, TerminalFields.problem?_eq_none.mp r.valid,
    ⟨rfl, rfl, rfl, rfl, rfl, rfl, rfl⟩⟩

theorem terminalSequence_toContract (r : OODATerminalRecord) :
    terminalSequence r.toContract = some r.sequence :=
  positive?_eq_some.mpr ⟨rfl, (TerminalFields.problem?_eq_none.mp r.valid).positive⟩

theorem terminalStatus_toContract (r : OODATerminalRecord) :
    terminalStatus r.toContract = some r.status := status?_eq_some.mpr rfl

/-- A record with the right members, that is accepted, is the document of a record. -/
theorem exists_record {terminal : Json} (hnames : names terminal = terminalNames)
    (h : terminalIssues terminal = []) : ∃ r : OODATerminalRecord, r.toContract = terminal := by
  obtain ⟨values, hlength, rfl⟩ := exists_values hnames (by decide)
  obtain ⟨r, hvalid, hreads⟩ := terminalIssues_eq_nil.mp h
  match values, hlength with
  | [actor, evidence, occurred, outcome, reason, sequence, status], _ =>
    have hactor : actor = _ := hreads.actorId
    have hevidence : evidence = _ := hreads.evidenceRefs
    have hoccurred : occurred = _ := hreads.occurredAt
    have houtcome : outcome = _ := hreads.outcomeRef
    have hreason : reason = _ := hreads.reason
    have hsequence : sequence = _ := hreads.sequence
    have hstatus : status = _ := hreads.status
    subst hactor hevidence hoccurred houtcome hreason hsequence hstatus
    exact ⟨⟨r, TerminalFields.problem?_eq_none.mpr hvalid⟩, rfl⟩

/-! ## States -/

/-- The names of the members of a state. -/
def stateNames : List String :=
  ["cycle_id", "iteration", "last_transition", "mission_id", "phase", "schema_version", "sequence",
    "status", "stop_reason", "terminal_record"]

/-- The identifiers of a document are not blank. -/
structure HasIdentifiers (document : Json) : Prop where
  cycleId : isText (get document "cycle_id") = true
  missionId : isText (get document "mission_id") = true
  actorId : ∀ ms, get document "last_transition" = .obj ms → isText (get (.obj ms) "actor_id") = true

/-- The document has the members of a state, with transitions and records that have theirs. -/
structure HasShape (document : Json) : Prop where
  names_eq : names document = stateNames
  schemaVersion : get document "schema_version" = .int 1
  transition : ∀ ms, get document "last_transition" = .obj ms →
    names (.obj ms) = transitionNames ∧ ∀ name ∈ refNames, IsRef (get (.obj ms) name)
  terminal : ∀ ms, get document "terminal_record" = .obj ms → names (.obj ms) = terminalNames

theorem documentIssues_eq_nil {document : Json} : documentIssues document = [] ↔
    ∃ phase status sequence iteration, get document "phase" = .str (OODAPhase.value phase) ∧
      get document "status" = .str (OODAStatus.value status) ∧
      get document "sequence" = .int sequence ∧ 0 ≤ sequence ∧
      get document "iteration" = .int iteration ∧ 1 ≤ iteration ∧
      transitionIssues (get document "last_transition") (some phase) = [] ∧
      terminalIssues (get document "terminal_record") = [] ∧
      (if status = .running then runningIssues document else stoppedIssues document status) = [] := by
  simp only [documentIssues, List.append_eq_nil_iff, issue_eq_nil, not_eq_none_iff,
    positive?_eq_some, Option.filter_eq_some_iff, int?_eq_some, decide_eq_true_eq]
  constructor
  · rintro ⟨⟨⟨⟨⟨⟨⟨phase, hphase⟩, ⟨status, hstatus⟩⟩, ⟨sequence, hsequence, hnonneg⟩⟩,
      ⟨iteration, hiteration, hpositive⟩⟩, htransition⟩, hterminal⟩, hcross⟩
    rw [hphase] at htransition
    rw [hstatus] at hcross
    refine ⟨phase, status, sequence, iteration, phase?_eq_some.mp hphase, status?_eq_some.mp hstatus,
      hsequence, hnonneg, hiteration, hpositive, htransition, hterminal, ?_⟩
    rcases status with _ | _ | _ | _ <;> exact hcross
  · rintro ⟨phase, status, sequence, iteration, hphase, hstatus, hsequence, hnonneg, hiteration,
      hpositive, htransition, hterminal, hcross⟩
    rw [← phase?_eq_some] at hphase
    rw [← status?_eq_some] at hstatus
    rw [hphase, hstatus]
    refine ⟨⟨⟨⟨⟨⟨⟨phase, rfl⟩, ⟨status, rfl⟩⟩, ⟨sequence, hsequence, hnonneg⟩⟩,
      ⟨iteration, hiteration, hpositive⟩⟩, htransition⟩, hterminal⟩, ?_⟩
    rcases status with _ | _ | _ | _ <;> exact hcross

section Cross

variable {document : Json} {sequence : ℤ} (hsequence : get document "sequence" = .int sequence)

include hsequence

theorem runningIssues_eq_nil : runningIssues document = [] ↔
    get document "terminal_record" = .null ∧ get document "stop_reason" = .null ∧
      if sequence = 0 then
        get document "last_transition" = .null ∧ get document "phase" = .str OODAPhase.observe.value ∧
          get document "iteration" = .int 1
      else transitionSequence (get document "last_transition") = some sequence := by
  rw [runningIssues, hsequence, int?]
  by_cases hzero : sequence = 0
  · simp only [hzero, if_true, List.append_eq_nil_iff, issue_eq_nil, not_not, not_or, ne_eq,
      phase?_eq_some, and_assoc]
  · simp only [hzero, if_false, List.append_eq_nil_iff, issue_eq_nil, not_not, ne_eq, and_assoc]

theorem stoppedIssues_eq_nil {status : OODAStatus} {ms : List (String × Json)}
    (hterminal : get document "terminal_record" = .obj ms) : stoppedIssues document status = [] ↔
      (∀ found ∈ terminalStatus (.obj ms), found = status) ∧
      get (.obj ms) "reason" = get document "stop_reason" ∧
      terminalSequence (.obj ms) = some sequence ∧
      if sequence - 1 = 0 then get document "last_transition" = .null
      else transitionSequence (get document "last_transition") = some (sequence - 1) := by
  rw [stoppedIssues, hterminal, hsequence, int?]
  by_cases hone : sequence - 1 = 0
  · simp only [List.append_eq_nil_iff, issue_eq_nil, reduceCtorEq, not_false_iff, true_and,
      not_exists, not_and, not_not, ne_eq, Option.isSome_some, Option.map_some, hone, if_true,
      and_assoc]
  · simp only [List.append_eq_nil_iff, issue_eq_nil, reduceCtorEq, not_false_iff, true_and,
      not_exists, not_and, not_not, ne_eq, Option.isSome_some, Option.map_some, Option.some.injEq,
      hone, if_false, and_assoc]

omit hsequence in
theorem stoppedIssues_ne_nil {status : OODAStatus} (hterminal : get document "terminal_record" = .null) :
    stoppedIssues document status ≠ [] := by
  rw [stoppedIssues, hterminal]
  exact List.cons_ne_nil _ _

end Cross

/-- The last transition of a document has the number of the transitions, if there are any. -/
theorem OODAState.transitionSequence_last (s : OODAState) {number : ℤ} (h : number = s.transitions) :
    let transition := (s.lastTransition.map (·.toContract)).getD .null
    if number = 0 then transition = .null else transitionSequence transition = some number := by
  have hnumber := s.transitions_eq
  rcases hlast : s.lastTransition with _ | t
  · have hzero : s.transitions = 0 := by rw [OODAState.transitions, hlast]; rfl
    rw [if_pos (by omega)]
    rfl
  · have hsame := hnumber t hlast
    have hpositive := (OODAState.valid_transition t).1
    rw [if_neg (by omega), h, ← hsame]
    exact transitionSequence_toContract t

/-- The document of a state is accepted. -/
theorem documentIssues_document (s : OODAState) : documentIssues s.document = [] := by
  obtain ⟨-, -, -, hiteration, hnonneg, hphase⟩ := s.valid_fields
  refine documentIssues_eq_nil.mpr ⟨s.phase, s.status, s.sequence, s.iteration, rfl, rfl, rfl, hnonneg,
    rfl, hiteration, ?_, ?_, ?_⟩
  · change transitionIssues ((s.lastTransition.map (·.toContract)).getD .null) _ = []
    rcases hlast : s.lastTransition with _ | t
    · rfl
    · rw [← hphase t hlast]
      exact transitionIssues_toContract t
  · change terminalIssues ((s.terminalRecord.map (·.toContract)).getD .null) = []
    rcases s.terminalRecord with _ | record
    · rfl
    · exact terminalIssues_toContract record
  · have htransition : get s.document "last_transition" =
        (s.lastTransition.map (·.toContract)).getD .null := rfl
    have hrecord : get s.document "terminal_record" =
        (s.terminalRecord.map (·.toContract)).getD .null := rfl
    have hstop : get s.document "stop_reason" = Runtime.optionalText s.stopReason := rfl
    have hsequence : get s.document "sequence" = .int s.sequence := rfl
    by_cases hrunning : s.status = .running
    · obtain ⟨hrecordNone, hstopNone, hcount, -⟩ := s.valid_running hrunning
      rw [if_pos hrunning, runningIssues_eq_nil hsequence, hrecord, hstop, hrecordNone, hstopNone]
      refine ⟨rfl, rfl, ?_⟩
      have hlast := s.transitionSequence_last hcount
      rw [htransition]
      by_cases hzero : s.sequence = 0
      · rw [if_pos hzero] at hlast ⊢
        have hinitial := s.initial_of_none hrunning hzero
        exact ⟨hlast, congrArg (fun phase ↦ Json.str (OODAPhase.value phase)) hinitial.1,
          congrArg Json.int hinitial.2⟩
      · rw [if_neg hzero] at hlast ⊢
        exact hlast
    · obtain ⟨record, hrecordSome, hstatus, hreason, hnumber, hcount, -⟩ := s.valid_terminal hrunning
      rw [hrecordSome, Option.map_some, Option.getD_some] at hrecord
      rw [if_neg hrunning, stoppedIssues_eq_nil hsequence hrecord]
      refine ⟨fun found hfound ↦ ?_, ?_, ?_, ?_⟩
      · rw [← hstatus]
        exact Option.some.inj (hfound.symm.trans (terminalStatus_toContract record))
      · rw [hstop, hreason]
        rfl
      · exact (terminalSequence_toContract record).trans (congrArg some hnumber)
      · rw [htransition]
        exact s.transitionSequence_last (by omega)

/-! ## A document that is accepted is that of a state -/

theorem transitionSequence_last (last : Option OODATransition) :
    transitionSequence ((last.map (·.toContract)).getD .null) = last.map (·.sequence) := by
  rcases last with _ | t
  · rfl
  · exact transitionSequence_toContract t

theorem last_eq_null {last : Option OODATransition} :
    (last.map (·.toContract)).getD .null = .null ↔ last = none := by
  rcases last with _ | t
  · exact iff_of_true rfl rfl
  · exact iff_of_false nofun nofun

/-- A last transition that is accepted is none or the document of one. -/
theorem exists_last {value : Json} {phase : OODAPhase}
    (hactor : ∀ ms, value = .obj ms → isText (get (.obj ms) "actor_id") = true)
    (hshape : ∀ ms, value = .obj ms →
      names (.obj ms) = transitionNames ∧ ∀ name ∈ refNames, IsRef (get (.obj ms) name))
    (h : transitionIssues value (some phase) = []) : ∃ last : Option OODATransition,
      value = (last.map (·.toContract)).getD .null ∧ ∀ t ∈ last, t.toPhase = phase := by
  rcases value with _ | b | n | x | s | xs | ms
  case null => exact ⟨none, rfl, fun _ h ↦ absurd h (Option.not_mem_none _)⟩
  case obj =>
    obtain ⟨hnames, hrefs⟩ := hshape ms rfl
    obtain ⟨t, ht, hphase⟩ := exists_transition hnames hrefs (hactor ms rfl) h
    refine ⟨some t, ht.symm, fun t' ht' ↦ ?_⟩
    obtain rfl := Option.some.inj ht'
    exact hphase
  all_goals exact absurd h (List.cons_ne_nil _ _)

/-- A terminal record that is accepted is none or the document of one. -/
theorem exists_terminal {value : Json}
    (hshape : ∀ ms, value = .obj ms → names (.obj ms) = terminalNames)
    (h : terminalIssues value = []) : ∃ record : Option OODATerminalRecord,
      value = (record.map (·.toContract)).getD .null := by
  rcases value with _ | b | n | x | s | xs | ms
  case null => exact ⟨none, rfl⟩
  case obj =>
    obtain ⟨record, hrecord⟩ := exists_record (hshape ms rfl) h
    exact ⟨some record, hrecord.symm⟩
  all_goals exact absurd h (List.cons_ne_nil _ _)

/-- The stop reason and the checks of a status, from what the validator says of it. -/
theorem exists_stopReason {document stop : Json} {fields : StateFields}
    (hsequence : get document "sequence" = .int fields.sequence)
    (hiteration : get document "iteration" = .int fields.iteration)
    (hphase : get document "phase" = .str fields.phase.value)
    (hlast : get document "last_transition" = (fields.lastTransition.map (·.toContract)).getD .null)
    (hrecord : get document "terminal_record" = (fields.terminalRecord.map (·.toContract)).getD .null)
    (hstop : get document "stop_reason" = stop)
    (h : (if fields.status = .running then runningIssues document
      else stoppedIssues document fields.status) = []) :
    ∃ reason, stop = Runtime.optionalText reason ∧
      (if fields.status = .running then { fields with stopReason := reason }.runningProblem?
        else { fields with stopReason := reason }.terminalProblem?) = none := by
  by_cases hrunning : fields.status = .running
  · rw [if_pos hrunning, runningIssues_eq_nil hsequence, hstop, hlast, transitionSequence_last,
      last_eq_null] at h
    obtain ⟨hnoRecord, rfl, hcount⟩ := h
    have hnone : fields.terminalRecord = none := by
      rw [hrecord] at hnoRecord
      rcases hsome : fields.terminalRecord with _ | record
      · rfl
      · rw [hsome] at hnoRecord
        cases hnoRecord
    refine ⟨none, rfl, ?_⟩
    simp only [if_pos hrunning, StateFields.runningProblem?, orElse_eq_none, refuse_eq_none, hnone]
    refine ⟨by rintro ⟨⟩, by rintro ⟨⟩, ?_⟩
    by_cases hzero : fields.sequence = 0
    · simp only [hzero, if_true, hphase, hiteration, Json.str.injEq, Json.int.injEq] at hcount
      obtain ⟨hnoLast, hobserve, hone⟩ := hcount
      have hsame : fields.phase = .observe := OODAPhase.value_injective hobserve
      simp [hzero, hnoLast, hsame, hone]
    · rw [if_neg hzero] at hcount
      simp [hzero, hcount]
  · rcases hsome : fields.terminalRecord with _ | record
    · rw [hsome] at hrecord
      rw [if_neg hrunning] at h
      exact absurd h (stoppedIssues_ne_nil hrecord)
    rw [hsome, Option.map_some, Option.getD_some] at hrecord
    rw [if_neg hrunning, stoppedIssues_eq_nil hsequence hrecord, hstop, hlast, transitionSequence_last,
      last_eq_null] at h
    obtain ⟨hstatus, hreason, hnumber, hcount⟩ := h
    have hsame := hstatus _ (terminalStatus_toContract record)
    have hsequence' := Option.some.inj ((terminalSequence_toContract record).symm.trans hnumber)
    refine ⟨some record.reason, hreason.symm, ?_⟩
    simp only [if_neg hrunning, StateFields.terminalProblem?, orElse_eq_none, refuse_eq_none,
      not_not, true_and]
    refine ⟨hsame, hsequence', ?_⟩
    by_cases hone : fields.sequence - 1 = 0
    · rw [if_pos hone] at hcount
      simp [hone, hcount]
    · rw [if_neg hone] at hcount
      simp [hone, hcount]

/-- The values of a state, one for each of its members. -/
theorem exists_stateValues {values : List Json} (hlength : values.length = stateNames.length) :
    ∃ cycle iteration last mission phase schema sequence status stop terminal,
      values = [cycle, iteration, last, mission, phase, schema, sequence, status, stop, terminal] :=
  match values, hlength with
  | [_, _, _, _, _, _, _, _, _, _], _ => ⟨_, _, _, _, _, _, _, _, _, _, rfl⟩

/-- A document with the members of a state, that is accepted, is the document of a state. -/
theorem exists_state {document : Json} (hshape : HasShape document) (hids : HasIdentifiers document)
    (h : documentIssues document = []) : ∃ s : OODAState, s.document = document := by
  obtain ⟨phase, status, sequence, iteration, hphase, hstatus, hsequence, hnonneg, hiteration, hpositive,
    htransition, hterminal, hcross⟩ := documentIssues_eq_nil.mp h
  obtain ⟨last, hlast, hlastPhase⟩ := exists_last hids.actorId hshape.transition htransition
  obtain ⟨record, hrecord⟩ := exists_terminal hshape.terminal hterminal
  obtain ⟨cycleId, hcycle, hcycleId⟩ := isText_iff.mp hids.cycleId
  obtain ⟨missionId, hmission, hmissionId⟩ := isText_iff.mp hids.missionId
  have hschema := hshape.schemaVersion
  obtain ⟨reason, hreason, hproblem⟩ := @exists_stopReason _ _
    ⟨1, cycleId, missionId, iteration, phase, status, sequence, last, none, record⟩
    hsequence hiteration hphase hlast hrecord rfl hcross
  have hvalid : StateFields.problem? ⟨1, cycleId, missionId, iteration, phase, status, sequence, last,
      reason, record⟩ = none := by
    simp only [StateFields.problem?, orElse_eq_none, refuse_eq_none, not_not, not_or, not_lt,
      Bool.not_eq_false, not_exists, not_and]
    exact ⟨trivial, ⟨hcycleId, hmissionId⟩, hpositive, hnonneg, hlastPhase, hproblem⟩
  refine ⟨⟨_, hvalid⟩, ?_⟩
  obtain ⟨values, hlength, rfl⟩ := exists_values hshape.names_eq (by decide)
  obtain ⟨cycle, iteration', last', mission, phase', schema, sequence', status', stop, terminal,
    rfl⟩ := exists_stateValues hlength
  have hcycle : cycle = _ := hcycle
  have hiteration : iteration' = _ := hiteration
  have hlast : last' = _ := hlast
  have hmission : mission = _ := hmission
  have hphase : phase' = _ := hphase
  have hschema : schema = _ := hschema
  have hsequence : sequence' = _ := hsequence
  have hstatus : status' = _ := hstatus
  have hreason : stop = _ := hreason
  have hrecord : terminal = _ := hrecord
  subst hcycle hiteration hlast hmission hphase hschema hsequence hstatus hreason hrecord
  rfl

/-! ## Documents of states that are reached -/

/-- The number of transitions that a document tells of. -/
def transitionsOf (document : Json) : ℕ :=
  ((transitionSequence (get document "last_transition")).map Int.toNat).getD 0

/-- The document has the members of a state, and its phase and its iteration are those of the number
of its last transition. -/
structure IsRegular (document : Json) : Prop extends HasShape document where
  phase_eq : get document "phase" = .str (OODAPhase.after (transitionsOf document)).value
  iteration_eq : get document "iteration" = .int (transitionsOf document / 4 + 1)

theorem transitionsOf_document (s : OODAState) : transitionsOf s.document = s.transitions := by
  have hlast : get s.document "last_transition" = (s.lastTransition.map (·.toContract)).getD .null := rfl
  rw [transitionsOf, hlast, transitionSequence_last, Option.map_map]
  rfl

/-- The members of the document of a state. -/
theorem hasShape_document (s : OODAState) : HasShape s.document := by
  refine ⟨rfl, congrArg Json.int s.valid_fields.1, fun ms hms ↦ ?_, fun ms hms ↦ ?_⟩
  · change (s.lastTransition.map (·.toContract)).getD .null = .obj ms at hms
    rcases hlast : s.lastTransition with _ | t <;> rw [hlast] at hms
    · cases hms
    · change t.toContract = .obj ms at hms
      rw [← hms]
      have hvalid := TransitionFields.problem?_eq_none.mp t.valid
      refine ⟨rfl, ?_⟩
      simp only [refNames, List.forall_mem_cons, List.not_mem_nil, false_imp_iff, implies_true, and_true,
        isRef_iff]
      exact ⟨⟨_, rfl, hvalid.refs _ (by simp)⟩, ⟨_, rfl, hvalid.refs _ (by simp)⟩,
        ⟨_, rfl, hvalid.refs _ (by simp)⟩, ⟨_, rfl, hvalid.refs _ (by simp)⟩,
        ⟨_, rfl, hvalid.refs _ (by simp)⟩⟩
  · change (s.terminalRecord.map (·.toContract)).getD .null = .obj ms at hms
    rcases hrecord : s.terminalRecord with _ | record <;> rw [hrecord] at hms
    · cases hms
    · change record.toContract = .obj ms at hms
      rw [← hms]
      rfl

/-- A state is counted if and only if its document is regular. -/
theorem isRegular_document (s : OODAState) : IsRegular s.document ↔ s.IsCounted := by
  have hphase : get s.document "phase" = .str s.phase.value := rfl
  have hiteration : get s.document "iteration" = .int s.iteration := rfl
  constructor
  · intro h
    have hsame := h.phase_eq
    have hcount := h.iteration_eq
    rw [hphase, transitionsOf_document, Json.str.injEq] at hsame
    rw [hiteration, transitionsOf_document, Json.int.injEq] at hcount
    exact ⟨OODAPhase.value_injective hsame, hcount⟩
  · intro h
    refine ⟨hasShape_document s, ?_, ?_⟩
    · rw [hphase, transitionsOf_document, h.phase]
    · rw [hiteration, transitionsOf_document, h.iteration]

theorem toContract_eq (s : OODAState) : s.toContract = .ok s.document := by
  have hissues : (validateOodaContract s.document).valid = true :=
    List.isEmpty_iff.mpr (documentIssues_document s)
  rw [OODAState.toContract, hissues]
  rfl

theorem toContract_eq_ok {s : OODAState} {document : Json} :
    s.toContract = .ok document ↔ s.document = document := by
  rw [toContract_eq, Except.ok.injEq]

/-- What the validator accepts has no issue. -/
theorem documentIssues_of_valid {document : Json} (h : (validateOodaContract document).valid = true) :
    documentIssues document = [] := by
  rcases document with _ | b | n | x | s | xs | ms
  case obj => exact List.isEmpty_iff.mp h
  all_goals exact nomatch h

/-- **The document of a state that is reached is accepted, and an accepted document is that of a state
that is reached if and only if it is regular.** -/
theorem ooda_contract_iff {document : Json} (hids : HasIdentifiers document)
    (hvalid : (validateOodaContract document).valid = true) :
    (∀ s, Reachable s → ∃ contract, s.toContract = .ok contract) ∧
      ((∃ s, Reachable s ∧ s.toContract = .ok document) ↔ IsRegular document) := by
  refine ⟨fun s _ ↦ ⟨s.document, toContract_eq s⟩, ?_⟩
  constructor
  · rintro ⟨s, hreachable, hcontract⟩
    rw [toContract_eq_ok] at hcontract
    rw [← hcontract, isRegular_document]
    exact OODAState.isCounted_of_reachable hreachable
  · intro hregular
    obtain ⟨s, rfl⟩ := exists_state hregular.toHasShape hids (documentIssues_of_valid hvalid)
    exact ⟨s, OODAState.reachable_iff.mpr ((isRegular_document s).mp hregular), toContract_eq s⟩

/-- A cycle that runs after a transition. -/
def sampleDocument (iteration : ℤ) (t : OODATransition) : Json := .obj [
  ("cycle_id", .str "cycle"),
  ("iteration", .int iteration),
  ("last_transition", t.toContract),
  ("mission_id", .str "mission"),
  ("phase", .str t.toPhase.value),
  ("schema_version", .int 1),
  ("sequence", .int t.sequence),
  ("status", .str "running"),
  ("stop_reason", .null),
  ("terminal_record", .null)]

theorem hasIdentifiers_sample (iteration : ℤ) (t : OODATransition) :
    HasIdentifiers (sampleDocument iteration t) := by
  refine ⟨by rfl, by rfl, fun ms hms ↦ ?_⟩
  change t.toContract = .obj ms at hms
  rw [← hms]
  exact (TransitionFields.problem?_eq_none.mp t.valid).actorId

/-- A document of a cycle that runs is accepted with any iteration and any number. -/
theorem valid_sample {iteration : ℤ} (h : 1 ≤ iteration) (t : OODATransition) :
    (validateOodaContract (sampleDocument iteration t)).valid = true := by
  have hpositive := (OODAState.valid_transition t).1
  have hsequence : get (sampleDocument iteration t) "sequence" = .int t.sequence := rfl
  refine List.isEmpty_iff.mpr (documentIssues_eq_nil.mpr ⟨t.toPhase, .running, t.sequence, iteration, rfl,
    rfl, rfl, by omega, rfl, h, transitionIssues_toContract t, rfl, ?_⟩)
  rw [if_pos rfl, runningIssues_eq_nil hsequence, if_neg (by omega)]
  exact ⟨rfl, rfl, transitionSequence_toContract t⟩

theorem sample_regular :
    (∃ s, Reachable s ∧ s.toContract = .ok (sampleDocument 1 (OODAState.step 0))) ↔
      IsRegular (sampleDocument 1 (OODAState.step 0)) :=
  (ooda_contract_iff (hasIdentifiers_sample 1 _) (valid_sample (by decide) _)).2

/-- The first transition of a cycle, with the number of the second. -/
def misnumbered : OODATransition :=
  { OODAState.step 0 with
    sequence := 2
    valid := by decide }

/-- **The document of a second transition that leads to the second phase is accepted, and no state
that is reached has it.** -/
theorem misnumbered_accepted : ¬((∀ s, Reachable s → ∃ document, s.toContract = .ok document) ∧
    ∀ document, HasIdentifiers document → (validateOodaContract document).valid = true →
      ∃ s, Reachable s ∧ s.toContract = .ok document) := by
  rintro ⟨-, h⟩
  obtain ⟨s, hreachable, hcontract⟩ :=
    h _ (hasIdentifiers_sample 5 misnumbered) (valid_sample (by decide) misnumbered)
  have hcounted := OODAState.isCounted_of_reachable hreachable
  rw [← isRegular_document, toContract_eq_ok.mp hcontract] at hcounted
  have hphase : get (sampleDocument 5 misnumbered) "phase" = .str "decide" := hcounted.phase_eq
  exact absurd (Json.str.inj hphase) (by decide)

end HiveMind.Reference
