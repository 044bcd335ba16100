import HiveMind.Runtime.NodeContracts

/-!
# The journal of host operations

Every operation on the host is recorded in a journal before it starts, as an intent, and after it,
with its outcome and its usage. An outcome that may have happened is recoverable, and a later
outcome may be adopted in its place. An operation may have several keys, of which one is the one that
its events are recorded under.

Leases, activations and adoptions have claims of their own in the journal. A claim may keep an event
from being recorded, and says nothing about usage. Claims of that kind are left out, and so is the
digest of an event, with which a journal that was changed from outside is refused.

* **`events_of_step`**: what a call does to the events.
-/

open Raise Dicts

namespace HiveMind.Host

inductive HostError where
  | hostRuntimeError (message : String)
  | contractViolation (message : String)
  | valueError (message : String)
  deriving DecidableEq, Repr

/-! ## Records -/

inductive HostOperationState where
  | intentRecorded
  | succeeded
  | denied
  | recoverable
  deriving DecidableEq, Repr

def HostOperationState.value : HostOperationState → String
  | intentRecorded => "INTENT_RECORDED"
  | succeeded => "SUCCEEDED"
  | denied => "DENIED"
  | recoverable => "RECOVERABLE"

/-- `HostUsage`. No amount is negative. -/
structure HostUsage where
  wallMilliseconds : ℕ
  inputBytes : ℕ
  outputBytes : ℕ
  modelInputTokens : Option ℕ
  modelOutputTokens : Option ℕ
  deriving DecidableEq, Repr

def optionalInt (amount : Option ℕ) : Json := (amount.map fun n ↦ Json.int n).getD .null

def HostUsage.toDocument (usage : HostUsage) : Json := .obj [
  ("input_bytes", .int usage.inputBytes),
  ("model_input_tokens", optionalInt usage.modelInputTokens),
  ("model_output_tokens", optionalInt usage.modelOutputTokens),
  ("output_bytes", .int usage.outputBytes),
  ("wall_milliseconds", .int usage.wallMilliseconds)]

structure RecordFields where
  idempotencyKey : String
  action : String
  requestDigest : String
  state : HostOperationState
  sequence : ℤ
  responseType : Option String
  response : Option Json
  usage : Option HostUsage
  reason : Option String
  deriving DecidableEq

namespace RecordFields

variable (record : RecordFields)

/-- What `HostOperationRecord.__post_init__` raises. -/
def problem? : Option HostError :=
  if ¬isRequired record.idempotencyKey then some (.valueError "idempotency_key is required")
  else if let some message := Runtime.requireIdentifier? record.action "host action" then
    some (.contractViolation message)
  else if ¬isDigest record.requestDigest then
    some (.contractViolation "host request_digest must be lowercase sha256:<64 hex>")
  else if record.sequence < 1 then some (.valueError "host operation sequence must be positive")
  else match record.state with
    | .intentRecorded =>
      if record.responseType.isSome ∨ record.response.isSome ∨ record.usage.isSome ∨
          record.reason.isSome then
        some (.valueError "host intent cannot claim an outcome")
      else none
    | .succeeded =>
      if record.responseType = none ∨ record.response = none ∨ record.usage = none then
        some (.valueError "successful host operation requires response and usage")
      else none
    | _ =>
      if record.reason = none ∨ record.usage = none then
        some (.valueError "non-success host outcome requires reason and usage")
      else none

def toDocument : Json := .obj [
  ("action", .str record.action),
  ("idempotency_key", .str record.idempotencyKey),
  ("reason", Runtime.optionalText record.reason),
  ("request_digest", .str record.requestDigest),
  ("response", record.response.getD .null),
  ("response_type", Runtime.optionalText record.responseType),
  ("schema_version", .int 1),
  ("sequence", .int record.sequence),
  ("state", .str record.state.value),
  ("usage", (record.usage.map (·.toDocument)).getD .null)]

end RecordFields

/-- `HostOperationRecord`. -/
structure HostOperationRecord extends RecordFields where
  valid : toRecordFields.problem? = none
  deriving DecidableEq

namespace HostOperationRecord

/-- `HostOperationRecord(...)`. -/
def new (fields : RecordFields) : Except HostError HostOperationRecord :=
  match h : fields.problem? with
  | none => .ok ⟨fields, h⟩
  | some e => .error e

theorem new_eq_ok {fields : RecordFields} {record : HostOperationRecord} :
    new fields = .ok record ↔ record.toRecordFields = fields := by
  rw [new]
  constructor
  · intro h
    split at h
    · rw [← Except.ok.inj h]
    · exact nomatch h
  · rintro rfl
    split
    · rfl
    · next e h => exact nomatch record.valid.symm.trans h

/-- An intent has no usage. -/
theorem usage_of_intent {record : HostOperationRecord} (h : record.state = .intentRecorded) :
    record.usage = none := by
  have hvalid := record.valid
  rw [RecordFields.problem?, h] at hvalid
  by_contra hsome
  rw [← ne_eq, ← Option.isSome_iff_ne_none] at hsome
  simp only [hsome, true_or, or_true, if_true] at hvalid
  repeat' split at hvalid
  all_goals exact nomatch hvalid

end HostOperationRecord

/-! ## The journal -/

/-- A row of `host_operation_aliases`. -/
structure Alias where
  canonicalKey : String
  action : String
  requestDigest : String
  deriving DecidableEq

/-- A row of `host_semantic_operation_claims`. -/
structure SemanticClaim where
  action : String
  requestDigest : String
  canonicalKey : String
  deriving DecidableEq

structure Journal where
  events : List HostOperationRecord
  aliases : List (String × Alias)
  claims : List ((String × String) × SemanticClaim)
  deriving DecidableEq

def Journal.empty : Journal := ⟨[], [], []⟩

namespace Journal

variable (journal : Journal)

/-- `_rows`, of a key. -/
def rows (key : String) : List HostOperationRecord :=
  journal.events.filter (·.idempotencyKey = key)

/-- The last row of a key. -/
def last? (key : String) : Option HostOperationRecord := (journal.rows key).getLast?

/-- `history`. -/
def history (key : String) : Except HostError (List HostOperationRecord) :=
  if ¬isRequired key then .error (.valueError "idempotency key is required")
  else .ok (journal.rows (((journal.aliases.lookup key).map (·.canonicalKey)).getD key))

/-- `latest`. -/
def latest (key : String) : Except HostError (Option HostOperationRecord) := do
  return (← journal.history key).getLast?

end Journal

section Calls

variable [Hash256] (journal : Journal)

def semanticKinds : List String := ["create", "message", "cancel", "checkpoint"]

/-- The checks of `begin` on its arguments. -/
def checkBegin (idempotencyKey action : String) (semantic : Option (String × String)) :
    Except HostError Unit := do
  if ¬isRequired idempotencyKey then
    throw (.hostRuntimeError "host idempotency key is required")
  match semantic with
  | none => return
  | some (kind, scopeDigest) =>
    if kind ≠ action ∨ kind ∉ semanticKinds then
      throw (.hostRuntimeError "host semantic operation kind is invalid")
    if ¬isDigest scopeDigest then
      throw (.contractViolation
        "host semantic operation scope_digest must be lowercase sha256:<64 hex>")

/-- `begin`. A claim on a lease may refuse it besides. -/
def begin (idempotencyKey action : String) (request : Json) (semantic : Option (String × String)) :
    Except HostError ((HostOperationRecord × Bool) × Journal) := do
  checkBegin idempotencyKey action semantic
  let requestDigest := jsonDigest request
  match journal.aliases.lookup idempotencyKey with
  | some found =>
    if found.action ≠ action ∨ found.requestDigest ≠ requestDigest then
      throw (.hostRuntimeError "host idempotency key is bound to another request")
    match journal.last? found.canonicalKey with
    | none => throw (.hostRuntimeError "host operation alias lacks its intent")
    | some current => return ((current, false), journal)
  | none =>
    match semantic.bind fun kind ↦ journal.claims.lookup kind with
    | some claim =>
      if claim.action ≠ action ∨ claim.requestDigest ≠ requestDigest then
        throw (.hostRuntimeError "host semantic operation is bound to another request")
      match journal.last? claim.canonicalKey with
      | none => throw (.hostRuntimeError "host semantic operation claim lacks its intent")
      | some current =>
        return ((current, false), { journal with
          aliases := journal.aliases ++
            [(idempotencyKey, ⟨claim.canonicalKey, action, requestDigest⟩)] })
    | none =>
      let intent ← HostOperationRecord.new {
        idempotencyKey, action, requestDigest
        state := .intentRecorded
        sequence := 1
        responseType := none
        response := none
        usage := none
        reason := none }
      return ((intent, true), {
        events := journal.events ++ [intent]
        aliases := journal.aliases ++ [(idempotencyKey, ⟨idempotencyKey, action, requestDigest⟩)]
        claims := journal.claims ++
          (semantic.map fun kind ↦ (kind, ⟨action, requestDigest, idempotencyKey⟩)).toList })

/-- `bind_semantic_alias`. -/
def bindSemanticAlias (aliasKey kind scopeDigest : String) (request : Json) :
    Except HostError (HostOperationRecord × Journal) := do
  if ¬isRequired aliasKey then throw (.hostRuntimeError "host operation alias is required")
  if ¬isDigest scopeDigest then
    throw (.contractViolation
      "host semantic operation scope_digest must be lowercase sha256:<64 hex>")
  let requestDigest := jsonDigest request
  match journal.claims.lookup (kind, scopeDigest) with
  | none => throw (.hostRuntimeError "host semantic operation has no durable claim")
  | some claim =>
    if claim.action ≠ kind ∨ claim.requestDigest ≠ requestDigest then
      throw (.hostRuntimeError "host semantic operation is bound to another request")
    let found := journal.aliases.lookup aliasKey
    if ∃ row ∈ found, row ≠ ⟨claim.canonicalKey, kind, requestDigest⟩ then
      throw (.hostRuntimeError "host operation alias is bound to another request")
    match journal.last? claim.canonicalKey with
    | none => throw (.hostRuntimeError "host semantic operation claim lacks its intent")
    | some current =>
      return (current, { journal with
        aliases := if found.isSome then journal.aliases
          else journal.aliases ++ [(aliasKey, ⟨claim.canonicalKey, kind, requestDigest⟩)] })

omit [Hash256] in
/-- `append`. -/
def append (record : HostOperationRecord) :
    Except HostError (HostOperationRecord × Journal) := do
  let last := journal.last? record.idempotencyKey
  let expected := (last.map (·.sequence + 1)).getD 1
  if record.sequence ≠ expected then
    match (journal.rows record.idempotencyKey).find? (·.sequence = record.sequence) with
    | some existing =>
      if existing.toDocument.dumps = record.toDocument.dumps then return (existing, journal)
      throw (.hostRuntimeError "host operation compare-and-swap sequence failed")
    | none => throw (.hostRuntimeError "host operation compare-and-swap sequence failed")
  match last with
  | none =>
    if record.state ≠ .intentRecorded then
      throw (.hostRuntimeError "host operation must begin with a durable intent")
  | some prior =>
    if (record.action, record.requestDigest) ≠ (prior.action, prior.requestDigest) then
      throw (.hostRuntimeError "host operation intent is immutable")
    if prior.state = .succeeded then
      throw (.hostRuntimeError "successful host operation is terminal")
    if record.state = .intentRecorded then
      throw (.hostRuntimeError "host intent cannot be recorded twice")
    if prior.state = .denied then
      throw (.hostRuntimeError "denied host operation is terminal")
    if prior.state = .recoverable ∧ record.state ≠ .succeeded then
      throw (.hostRuntimeError "only explicit adoption may resolve a host outcome")
  return (record, { journal with events := journal.events ++ [record] })

/-- What an outcome is made of, besides what it shares with its intent. -/
structure Outcome where
  state : HostOperationState
  responseType : Option String
  response : Option Json
  usage : HostUsage
  reason : Option String

omit [Hash256] in
/-- `_finish`. -/
def finish (intent : HostOperationRecord) (outcome : Outcome) :
    Except HostError (HostOperationRecord × Journal) := do
  let last ← journal.latest intent.idempotencyKey
  let record ← HostOperationRecord.new {
    idempotencyKey := intent.idempotencyKey
    action := intent.action
    requestDigest := intent.requestDigest
    state := outcome.state
    sequence := (last.getD intent).sequence + 1
    responseType := outcome.responseType
    response := outcome.response
    usage := some outcome.usage
    reason := outcome.reason }
  append journal record

omit [Hash256] in
/-- `finish_cancellation`. The claim on the lease may refuse it besides. -/
def finishCancellation (intent : HostOperationRecord) (receipt : Json) (usage : HostUsage)
    (reason : Option String) : Except HostError (HostOperationRecord × Journal) := do
  match journal.last? intent.idempotencyKey with
  | none => throw (.hostRuntimeError "cancellation commit lacks its durable lease claim")
  | some prior =>
    if prior.action ≠ "cancel" ∨ prior.requestDigest ≠ intent.requestDigest ∨
        prior.state ∉ [HostOperationState.intentRecorded, .recoverable] then
      throw (.hostRuntimeError "cancellation commit differs from its durable claim")
    let record ← HostOperationRecord.new {
      idempotencyKey := intent.idempotencyKey
      action := "cancel"
      requestDigest := intent.requestDigest
      state := .succeeded
      sequence := prior.sequence + 1
      responseType := some "execution-receipt"
      response := some receipt
      usage := some usage
      reason }
    return (record, { journal with events := journal.events ++ [record] })

/-- The usage of an outcome that is adopted. -/
def adoptionUsage (document : Json) : HostUsage := ⟨0, 0, document.dumps.utf8ByteSize, none, none⟩

/-- The outcome that is adopted. -/
def adoptedOutcome (responseType : String) (document : Json) (evidenceDigest : String) : Outcome where
  state := .succeeded
  responseType := some responseType
  response := some document
  usage := adoptionUsage document
  reason := some ("ambiguous host outcome adopted from exact external evidence " ++ evidenceDigest)

/-- The end of `_adopt_locked`: what was found to be bound to the request and authentic is recorded
as the outcome of an operation that has none, or a recoverable one. -/
def adopt (operationIdempotencyKey : String) (request : Json) (responseType : String)
    (document : Json) (evidenceDigest : String) : Except HostError (HostOperationRecord × Journal) := do
  if ¬isDigest evidenceDigest then
    throw (.contractViolation "adoption evidence_digest must be lowercase sha256:<64 hex>")
  match ← journal.latest operationIdempotencyKey with
  | none => throw (.hostRuntimeError "host operation is not adoptable")
  | some current =>
    if current.state ∉ [HostOperationState.intentRecorded, .recoverable] then
      throw (.hostRuntimeError "host operation is not adoptable")
    if jsonDigest request ≠ current.requestDigest then
      throw (.hostRuntimeError "adoption request differs from the durable host intent")
    let outcome := adoptedOutcome responseType document evidenceDigest
    if current.action = "cancel" then
      finishCancellation journal current document outcome.usage outcome.reason
    else finish journal current outcome

end Calls

/-! ## What calls do -/

section Steps

variable [Hash256] {journal journal' : Journal} {record : HostOperationRecord}

/-- A call that returns. -/
inductive Step : Journal → Journal → Prop
  | begin {idempotencyKey action : String} {request : Json} {semantic : Option (String × String)}
    {out : HostOperationRecord × Bool} {journal journal' : Journal}
    (h : Host.begin journal idempotencyKey action request semantic = .ok (out, journal')) :
    Step journal journal'
  | bindSemanticAlias {aliasKey kind scopeDigest : String} {request : Json}
    {out : HostOperationRecord} {journal journal' : Journal}
    (h : Host.bindSemanticAlias journal aliasKey kind scopeDigest request = .ok (out, journal')) :
    Step journal journal'
  | append {record out : HostOperationRecord} {journal journal' : Journal}
    (houtcome : record.state ≠ .intentRecorded)
    (h : Host.append journal record = .ok (out, journal')) : Step journal journal'
  | finish {intent : HostOperationRecord} {outcome : Outcome} {out : HostOperationRecord}
    {journal journal' : Journal} (h : Host.finish journal intent outcome = .ok (out, journal')) :
    Step journal journal'
  | finishCancellation {intent : HostOperationRecord} {receipt : Json} {usage : HostUsage}
    {reason : Option String} {out : HostOperationRecord} {journal journal' : Journal}
    (h : Host.finishCancellation journal intent receipt usage reason = .ok (out, journal')) :
    Step journal journal'
  | adopt {operationIdempotencyKey responseType evidenceDigest : String} {request document : Json}
    {out : HostOperationRecord} {journal journal' : Journal}
    (h : Host.adopt journal operationIdempotencyKey request responseType document evidenceDigest =
      .ok (out, journal')) : Step journal journal'

/-- The journals that calls lead to. -/
def Reachable (journal : Journal) : Prop := Relation.ReflTransGen Step .empty journal

omit [Hash256] in
/-- An event that may be recorded next: the intent of a new operation, or an outcome where there is
none, or only a recoverable one. -/
structure Continues (journal : Journal) (record : HostOperationRecord) : Prop where
  first : journal.last? record.idempotencyKey = none → record.state = .intentRecorded
  later : ∀ prior ∈ journal.last? record.idempotencyKey,
    record.sequence = prior.sequence + 1 ∧ record.state ≠ .intentRecorded ∧
      (prior.state = .intentRecorded ∨ prior.state = .recoverable ∧ record.state = .succeeded)

omit [Hash256] in
/-- A call records an outcome. -/
def RecordsOutcome (journal journal' : Journal) : Prop :=
  ∃ record : HostOperationRecord, record.state ≠ .intentRecorded ∧ Continues journal record ∧
    journal' = { journal with events := journal.events ++ [record] }

omit [Hash256] in
theorem append_eq_ok {out : HostOperationRecord} (houtcome : record.state ≠ .intentRecorded)
    (h : append journal record = .ok (out, journal')) :
    journal' = journal ∨ RecordsOutcome journal journal' := by
  simp only [append] at h
  by_cases hsequence : record.sequence =
      ((journal.last? record.idempotencyKey).map (·.sequence + 1)).getD 1
  · rw [if_neg (not_not.mpr hsequence)] at h
    rcases hlast : journal.last? record.idempotencyKey with _ | prior
    · simp only [hlast, if_pos houtcome] at h
      exact nomatch h
    · simp only [hlast, guard_eq_ok, pure_eq_ok, Prod.mk.injEq] at h
      obtain ⟨-, hsucceeded, -, hdenied, hrecoverable, -, rfl⟩ := h
      refine .inr ⟨record, houtcome,
        ⟨fun hnone ↦ (nomatch hnone.symm.trans hlast), fun prior' hprior ↦ ?_⟩, rfl⟩
      obtain rfl := Option.some.inj (hlast.symm.trans hprior)
      rw [hlast, Option.map_some, Option.getD_some] at hsequence
      refine ⟨hsequence, houtcome, ?_⟩
      rcases hstate : prior.state
      · exact .inl rfl
      · exact absurd hstate hsucceeded
      · exact absurd hstate hdenied
      · refine .inr ⟨rfl, ?_⟩
        by_contra hnot
        exact hrecoverable ⟨hstate, hnot⟩
  · rw [if_pos hsequence] at h
    rcases hfound : (journal.rows record.idempotencyKey).find? (·.sequence = record.sequence)
      with _ | existing
    · simp only [hfound] at h
      exact nomatch h
    · simp only [hfound] at h
      split at h
      · exact .inl (Prod.mk.inj (Except.ok.inj h)).2.symm
      · exact nomatch h

omit [Hash256] in
/-- An outcome that is recorded has usage, so it is none of an intent. -/
theorem state_of_usage {usage : HostUsage} (h : record.usage = some usage) :
    record.state ≠ .intentRecorded := fun hstate ↦
  nomatch h.symm.trans (HostOperationRecord.usage_of_intent hstate)

omit [Hash256] in
theorem finish_eq_ok {intent out : HostOperationRecord} {outcome : Outcome}
    (h : finish journal intent outcome = .ok (out, journal')) :
    journal' = journal ∨ RecordsOutcome journal journal' := by
  simp only [finish, bind_eq_ok, HostOperationRecord.new_eq_ok] at h
  obtain ⟨last, -, record, hfields, happend⟩ := h
  have husage : record.usage = some outcome.usage := by rw [hfields]
  exact append_eq_ok (state_of_usage husage) happend

omit [Hash256] in
theorem finishCancellation_eq_ok {intent out : HostOperationRecord} {receipt : Json}
    {usage : HostUsage} {reason : Option String}
    (h : finishCancellation journal intent receipt usage reason = .ok (out, journal')) :
    RecordsOutcome journal journal' := by
  rw [finishCancellation] at h
  rcases hlast : journal.last? intent.idempotencyKey with _ | prior
  · rw [hlast] at h
    exact nomatch h
  · simp only [hlast, guard_eq_ok, bind_eq_ok, HostOperationRecord.new_eq_ok, pure_eq_ok,
      Prod.mk.injEq, not_or, not_not, List.mem_cons, List.not_mem_nil, or_false] at h
    obtain ⟨⟨-, -, hstate⟩, record, hfields, -, rfl⟩ := h
    have hkey : record.idempotencyKey = intent.idempotencyKey := by rw [hfields]
    have husage : record.usage = some usage := by rw [hfields]
    refine ⟨record, state_of_usage husage, ⟨fun hnone ↦ ?_, fun prior' hprior ↦ ?_⟩, rfl⟩
    · rw [hkey, hlast] at hnone
      exact nomatch hnone
    · rw [hkey, hlast] at hprior
      obtain rfl := Option.some.inj hprior
      have hopen : prior.state = .intentRecorded ∨ prior.state = .recoverable := by tauto
      rw [hfields]
      exact ⟨rfl, nofun, hopen.imp_right fun h ↦ ⟨h, rfl⟩⟩

theorem adopt_eq_ok {key responseType evidenceDigest : String} {request document : Json}
    {out : HostOperationRecord}
    (h : adopt journal key request responseType document evidenceDigest = .ok (out, journal')) :
    journal' = journal ∨ RecordsOutcome journal journal' := by
  simp only [adopt, guard_eq_ok, bind_eq_ok] at h
  obtain ⟨-, last, -, h⟩ := h
  rcases last with _ | current
  · exact nomatch h
  · simp only [guard_eq_ok] at h
    obtain ⟨-, -, h⟩ := h
    split at h
    · exact .inr (finishCancellation_eq_ok h)
    · exact finish_eq_ok h

/-- What `begin` does: it finds an operation, or records an intent. -/
theorem begin_eq_ok {key action : String} {request : Json} {semantic : Option (String × String)}
    {out : HostOperationRecord × Bool}
    (h : Host.begin journal key action request semantic = .ok (out, journal')) :
    (journal'.events = journal.events ∧ (journal'.aliases = journal.aliases ∨
      journal.aliases.lookup key = none ∧ ∃ row, journal'.aliases = journal.aliases ++ [(key, row)])) ∨
    journal.aliases.lookup key = none ∧ ∃ intent : HostOperationRecord, intent.idempotencyKey = key ∧
      intent.state = .intentRecorded ∧ intent.sequence = 1 ∧
      journal'.events = journal.events ++ [intent] ∧ ∃ row : Alias, row.canonicalKey = key ∧
        journal'.aliases = journal.aliases ++ [(key, row)] := by
  simp only [Host.begin, bind_eq_ok] at h
  obtain ⟨-, -, h⟩ := h
  rcases hfound : journal.aliases.lookup key with _ | found
  · rw [hfound] at h
    rcases hclaim : semantic.bind fun kind ↦ journal.claims.lookup kind with _ | claim
    · simp only [hclaim, bind_eq_ok, HostOperationRecord.new_eq_ok, pure_eq_ok, Prod.mk.injEq] at h
      obtain ⟨intent, hfields, -, rfl⟩ := h
      exact .inr ⟨rfl, intent, by rw [hfields], by rw [hfields], by rw [hfields], rfl, _, rfl, rfl⟩
    · simp only [hclaim, guard_eq_ok] at h
      obtain ⟨-, h⟩ := h
      rcases hlast : journal.last? claim.canonicalKey with _ | current
      · rw [hlast] at h
        exact nomatch h
      · simp only [hlast, pure_eq_ok, Prod.mk.injEq] at h
        obtain ⟨-, rfl⟩ := h
        exact .inl ⟨rfl, .inr ⟨rfl, _, rfl⟩⟩
  · simp only [hfound, guard_eq_ok] at h
    obtain ⟨-, h⟩ := h
    rcases hlast : journal.last? found.canonicalKey with _ | current
    · rw [hlast] at h
      exact nomatch h
    · simp only [hlast, pure_eq_ok, Prod.mk.injEq] at h
      obtain ⟨-, rfl⟩ := h
      exact .inl ⟨rfl, .inl rfl⟩

theorem bindSemanticAlias_eq_ok {aliasKey kind scopeDigest : String} {request : Json}
    {out : HostOperationRecord}
    (h : bindSemanticAlias journal aliasKey kind scopeDigest request = .ok (out, journal')) :
    journal'.events = journal.events ∧ (journal'.aliases = journal.aliases ∨
      journal.aliases.lookup aliasKey = none ∧
        ∃ row, journal'.aliases = journal.aliases ++ [(aliasKey, row)]) := by
  simp only [bindSemanticAlias, guard_eq_ok] at h
  obtain ⟨-, -, h⟩ := h
  rcases hclaim : journal.claims.lookup (kind, scopeDigest) with _ | claim
  · rw [hclaim] at h
    exact nomatch h
  · simp only [hclaim, guard_eq_ok] at h
    obtain ⟨-, -, h⟩ := h
    rcases hlast : journal.last? claim.canonicalKey with _ | current
    · rw [hlast] at h
      exact nomatch h
    · simp only [hlast, pure_eq_ok, Prod.mk.injEq] at h
      obtain ⟨-, rfl⟩ := h
      refine ⟨rfl, ?_⟩
      rcases hfound : journal.aliases.lookup aliasKey with _ | found
      · exact .inr ⟨rfl, _, rfl⟩
      · exact .inl rfl

/-! ## What journals keep -/

omit [Hash256] in
/-- What the journal keeps: an event is recorded under the key that stands for its operation, and
events of an operation are numbered. -/
structure WellKept (journal : Journal) : Prop where
  canonical : ∀ record ∈ journal.events, ∃ row, journal.aliases.lookup record.idempotencyKey = some row ∧
    row.canonicalKey = record.idempotencyKey
  ordered : ∀ record ∈ journal.events, ∀ last ∈ journal.last? record.idempotencyKey,
    record.sequence ≤ last.sequence
  nodup : journal.events.Nodup

omit [Hash256] in
theorem last?_append {key : String} (h : journal'.events = journal.events ++ [record]) :
    journal'.last? key = if record.idempotencyKey = key then some record else journal.last? key := by
  rw [Journal.last?, Journal.rows, h, List.filter_append, List.filter_singleton]
  by_cases hkey : record.idempotencyKey = key
  · simp [hkey]
  · simp [hkey, Journal.last?, Journal.rows]

omit [Hash256] in
theorem last?_congr {key : String} (h : journal'.events = journal.events) :
    journal'.last? key = journal.last? key := by
  rw [Journal.last?, Journal.rows, h, Journal.last?, Journal.rows]

omit [Hash256] in
theorem mem_of_last? {key : String} {last : HostOperationRecord} (h : journal.last? key = some last) :
    last ∈ journal.events ∧ last.idempotencyKey = key := by
  have hmem := List.mem_of_getLast? h
  rw [Journal.rows, List.mem_filter, decide_eq_true_eq] at hmem
  exact hmem

omit [Hash256] in
theorem exists_last? (h : record ∈ journal.events) :
    ∃ last, journal.last? record.idempotencyKey = some last := by
  rw [Journal.last?]
  refine Option.ne_none_iff_exists'.mp fun hnone ↦ ?_
  rw [List.getLast?_eq_none_iff, Journal.rows, List.filter_eq_nil_iff] at hnone
  exact hnone record h (decide_eq_true rfl)

omit [Hash256] in
/-- An event that may be recorded next is none that was recorded. -/
theorem WellKept.notMem (hkept : WellKept journal) (h : Continues journal record) :
    record ∉ journal.events := by
  intro hmem
  obtain ⟨last, hlast⟩ := exists_last? hmem
  have hle := hkept.ordered record hmem last hlast
  have hnext := (h.later last hlast).1
  omega

omit [Hash256] in
/-- A journal with one event more. -/
theorem WellKept.append (hkept : WellKept journal) (h : Continues journal record)
    (hevents : journal'.events = journal.events ++ [record])
    (haliases : ∀ old ∈ journal'.events, ∃ row,
      journal'.aliases.lookup old.idempotencyKey = some row ∧ row.canonicalKey = old.idempotencyKey) :
    WellKept journal' := by
  refine ⟨haliases, fun old hold last hlast ↦ ?_, ?_⟩
  · rw [last?_append hevents] at hlast
    rw [hevents, List.mem_append, List.mem_singleton] at hold
    by_cases hkey : record.idempotencyKey = old.idempotencyKey
    · rw [if_pos hkey] at hlast
      obtain rfl := Option.some.inj hlast
      rcases hold with hold | rfl
      · obtain ⟨prior, hprior⟩ := exists_last? hold
        have hle := hkept.ordered old hold prior hprior
        have hnext := (h.later prior (hkey ▸ hprior)).1
        omega
      · exact le_rfl
    · rw [if_neg hkey] at hlast
      rcases hold with hold | rfl
      · exact hkept.ordered old hold last hlast
      · exact absurd rfl hkey
  · rw [hevents]
    exact List.nodup_append.mpr ⟨hkept.nodup, List.nodup_singleton _, fun old hold _ hnew heq ↦
      hkept.notMem h (List.mem_singleton.mp hnew ▸ heq ▸ hold)⟩

omit [Hash256] in
/-- A key more changes nothing for the others. -/
theorem lookup_append_alias {aliases : List (String × Alias)} {key other : String} {row found : Alias}
    (h : aliases.lookup other = some found) :
    (aliases ++ [(key, row)]).lookup other = some found := by
  rw [List.lookup_append, h]
  rfl

/-- The events after a call: the same, or one more. -/
theorem events_of_step (hstep : Step journal journal') (hkept : WellKept journal) :
    WellKept journal' ∧ (journal'.events = journal.events ∨ ∃ record, Continues journal record ∧
      journal'.events = journal.events ++ [record]) := by
  -- Only `begin` and `bindSemanticAlias` write keys; they keep those that are there.
  have hsame : journal'.events = journal.events → (journal'.aliases = journal.aliases ∨ ∃ key row,
      journal'.aliases = journal.aliases ++ [(key, row)]) → WellKept journal' := by
    intro hevents haliases
    refine ⟨fun record hrecord ↦ ?_, fun record hrecord last hlast ↦ ?_, hevents ▸ hkept.nodup⟩
    · obtain ⟨row, hrow, hkey⟩ := hkept.canonical record (hevents ▸ hrecord)
      refine ⟨row, ?_, hkey⟩
      rcases haliases with haliases | ⟨key, new, haliases⟩
      · rw [haliases, hrow]
      · rw [haliases, lookup_append_alias hrow]
    · rw [last?_congr hevents] at hlast
      exact hkept.ordered record (hevents ▸ hrecord) last hlast
  -- The other calls write an outcome of an operation that is there, and no key.
  have hmore : journal' = journal ∨ RecordsOutcome journal journal' → WellKept journal' ∧
      (journal'.events = journal.events ∨ ∃ record, Continues journal record ∧
        journal'.events = journal.events ++ [record]) := by
    rintro (rfl | ⟨record, houtcome, hcontinues, rfl⟩)
    · exact ⟨hkept, .inl rfl⟩
    refine ⟨hkept.append hcontinues rfl fun old hold ↦ ?_, .inr ⟨record, hcontinues, rfl⟩⟩
    rcases List.mem_append.mp hold with hold | hnew
    · exact hkept.canonical old hold
    · obtain rfl := List.mem_singleton.mp hnew
      rcases hlast : journal.last? old.idempotencyKey with _ | prior
      · exact absurd (hcontinues.first hlast) houtcome
      · obtain ⟨hprior, hkey⟩ := mem_of_last? hlast
        rw [← hkey]
        exact hkept.canonical prior hprior
  cases hstep with
  | @begin key _ _ _ _ _ _ h =>
    rcases begin_eq_ok h with ⟨hevents, haliases⟩ | ⟨hnone, intent, hkey, hstate, hnumber, hevents, row, hrow, haliases⟩
    · exact ⟨hsame hevents (haliases.imp_right fun ⟨_, row, h⟩ ↦ ⟨key, row, h⟩), .inl hevents⟩
    · have hfirst : journal.last? intent.idempotencyKey = none := by
        rcases hlast : journal.last? intent.idempotencyKey with _ | last
        · rfl
        · obtain ⟨hmem, hlastKey⟩ := mem_of_last? hlast
          obtain ⟨found, hfound, -⟩ := hkept.canonical last hmem
          rw [hlastKey, hkey, hnone] at hfound
          exact nomatch hfound
      have hcontinues : Continues journal intent :=
        ⟨fun _ ↦ hstate, fun prior hprior ↦ nomatch hfirst.symm.trans hprior⟩
      refine ⟨hkept.append hcontinues hevents fun old hold ↦ ?_, .inr ⟨intent, hcontinues, hevents⟩⟩
      rw [hevents, List.mem_append, List.mem_singleton] at hold
      rw [haliases]
      rcases hold with hold | rfl
      · obtain ⟨found, hfound, hcanonical⟩ := hkept.canonical old hold
        exact ⟨found, lookup_append_alias hfound, hcanonical⟩
      · refine ⟨row, ?_, hrow.trans hkey.symm⟩
        rw [List.lookup_append, hkey, hnone, Option.none_or, List.lookup_cons_self]
  | @bindSemanticAlias key _ _ _ _ _ _ h =>
    obtain ⟨hevents, haliases⟩ := bindSemanticAlias_eq_ok h
    exact ⟨hsame hevents (haliases.imp_right fun ⟨_, row, h⟩ ↦ ⟨key, row, h⟩), .inl hevents⟩
  | append houtcome h => exact hmore (append_eq_ok houtcome h)
  | finish h => exact hmore (finish_eq_ok h)
  | finishCancellation h => exact hmore (.inr (finishCancellation_eq_ok h))
  | adopt h => exact hmore (adopt_eq_ok h)

theorem WellKept.of_steps (hkept : WellKept journal)
    (h : Relation.ReflTransGen Step journal journal') : WellKept journal' := by
  induction h with
  | refl => exact hkept
  | tail _ hstep ih => exact (events_of_step hstep ih).1

theorem wellKept_of_reachable (h : Reachable journal) : WellKept journal :=
  WellKept.of_steps ⟨fun _ h ↦ absurd h List.not_mem_nil, fun _ h ↦ absurd h List.not_mem_nil,
    List.nodup_nil⟩ h

end Steps

end HiveMind.Host
