import HiveMind.Autopilot.Scopes
import HiveMind.Lib.AppendOnly
import HiveMind.Lib.Rows
import HiveMind.Runtime.Contracts

/-!
# The lineage of ideas

The events of all ideas are rows of one table that only grows. An event holds the whole idea as it
is after the event, and the digest of the event before it. `propose` and `append` are transactions:
each reads the history of its idea, which is verified while it is read, checks the new event against
it and inserts a row.

Two things can make a transaction fail that are not in its arguments: the lock on the database is
not granted, or the commit is refused.
-/

open Raise HiveMind.Runtime

namespace HiveMind.Ideas

/-! ## Events -/

/-- What a caller of the store can be told. -/
inductive IdeaError where
  | lineage (message : String)
  | integrity (message : String)
  | operational
  | overflow
deriving DecidableEq, Repr

inductive EventType where
  | proposed
  | challenged
  | revised
  | adopt
  | adapt
  | defer
  | reject
  | quarantine
deriving DecidableEq, Repr

namespace EventType

def value : EventType → String
  | proposed => "proposed"
  | challenged => "challenged"
  | revised => "revised"
  | adopt => "adopt"
  | adapt => "adapt"
  | defer => "defer"
  | reject => "reject"
  | quarantine => "quarantine"

/-- `_KINDS`: the events that may be appended. -/
def kinds : List EventType := [challenged, revised, adopt, adapt, defer, reject, quarantine]

def ofValue (text : String) : Option EventType := (proposed :: kinds).find? (·.value == text)

theorem ofValue_value (t : EventType) : ofValue t.value = some t := by
  cases t <;> decide

/-- `_DISPOSITIONS`. -/
def isDisposition : EventType → Bool
  | adopt | adapt | defer | reject | quarantine => true
  | proposed | challenged | revised => false

/-- The dispositions that send the work back. -/
def isNonAdoption : EventType → Bool
  | defer | reject | quarantine => true
  | _ => false

/-- Those who propose and revise an idea, who challenge it, and who judge it. -/
inductive Role where
  | proposer
  | challenger
  | judge
deriving DecidableEq, Repr

/-- The role in which the actor of an event acts. -/
def role : EventType → Role
  | proposed | revised => .proposer
  | challenged => .challenger
  | adopt | adapt | defer | reject | quarantine => .judge

end EventType

/-- The fields of an event that its digest is over. -/
structure IdeaValue where
  subjectId : String
  ideaId : String
  sequence : ℕ
  revision : ℕ
  eventType : EventType
  actorId : String
  reason : String
  title : String
  hypothesis : String
  source : String
  parentIdeaId : Option String
  maxRevisions : ℕ
  returnToAgent : Option String
  nextAction : Option String
  recordedAt : String
  previousDigest : Option String
deriving DecidableEq

structure IdeaEvent extends IdeaValue where
  digest : String
deriving DecidableEq

namespace IdeaValue

/-- The document of an event. -/
def toDict (v : IdeaValue) : Json.Dict where
  members := [("actor_id", .str v.actorId),
    ("event_type", .str v.eventType.value),
    ("hypothesis", .str v.hypothesis),
    ("idea_id", .str v.ideaId),
    ("max_revisions", .int v.maxRevisions),
    ("next_action", Runtime.optionalText v.nextAction),
    ("parent_idea_id", Runtime.optionalText v.parentIdeaId),
    ("previous_digest", Runtime.optionalText v.previousDigest),
    ("reason", .str v.reason),
    ("recorded_at", .str v.recordedAt),
    ("return_to_agent", Runtime.optionalText v.returnToAgent),
    ("revision", .int v.revision),
    ("sequence", .int v.sequence),
    ("source", .str v.source),
    ("subject_id", .str v.subjectId),
    ("title", .str v.title)]
  ordered := by simp only [List.map_cons, List.map_nil]; decide

def fieldNames : List String :=
  ["actor_id", "event_type", "hypothesis", "idea_id", "max_revisions", "next_action",
    "parent_idea_id", "previous_digest", "reason", "recorded_at", "return_to_agent", "revision",
    "sequence", "source", "subject_id", "title"]

/-- `_canonical(value)`. -/
def canonical (v : IdeaValue) : String := v.toDict.toJson.dumps

/-- A member that is a number of the store, of which none is negative. -/
def numberOf (d : Json.Dict) (name : String) : Option ℕ := (d.get? name).bind Json.asNat?

/-- The members as fields, if they have the types they should have. -/
def fieldsOf (d : Json.Dict) : Option IdeaValue := do
  return ⟨← textOf d "subject_id", ← textOf d "idea_id", ← numberOf d "sequence",
    ← numberOf d "revision", ← (textOf d "event_type").bind EventType.ofValue,
    ← textOf d "actor_id", ← textOf d "reason", ← textOf d "title", ← textOf d "hypothesis",
    ← textOf d "source", ← optionalTextOf d "parent_idea_id", ← numberOf d "max_revisions",
    ← optionalTextOf d "return_to_agent", ← optionalTextOf d "next_action",
    ← textOf d "recorded_at", ← optionalTextOf d "previous_digest"⟩

/-- `IdeaEvent(**json.loads(body), digest=digest)`, without the digest. -/
def read (body : String) : Option IdeaValue :=
  match Json.loads body with
  | some (.obj ms) =>
    let d := Json.Dict.ofMembers ms
    if d.names ≠ fieldNames then none else fieldsOf d
  | _ => none

theorem sorted_toDict (v : IdeaValue) : v.toDict.toJson.Sorted :=
  ⟨v.toDict.ordered, trivial, trivial, trivial, trivial, trivial, sorted_optionalText _,
    sorted_optionalText _, sorted_optionalText _, trivial, trivial, sorted_optionalText _, trivial,
    trivial, trivial, trivial, trivial, trivial⟩

theorem asNat?_int (n : ℕ) : (Json.int n).asNat? = some n := by
  simp [Json.asNat?]

theorem fieldsOf_toDict (v : IdeaValue) : fieldsOf v.toDict = some v := by
  have htype : (textOf v.toDict "event_type").bind EventType.ofValue = some v.eventType :=
    EventType.ofValue_value v.eventType
  have hnumbers : numberOf v.toDict "sequence" = some v.sequence ∧
      numberOf v.toDict "revision" = some v.revision ∧
      numberOf v.toDict "max_revisions" = some v.maxRevisions :=
    ⟨asNat?_int _, asNat?_int _, asNat?_int _⟩
  have hoptional : optionalTextOf v.toDict "parent_idea_id" = some v.parentIdeaId ∧
      optionalTextOf v.toDict "return_to_agent" = some v.returnToAgent ∧
      optionalTextOf v.toDict "next_action" = some v.nextAction ∧
      optionalTextOf v.toDict "previous_digest" = some v.previousDigest :=
    ⟨optionalTextOf_eq rfl, optionalTextOf_eq rfl, optionalTextOf_eq rfl, optionalTextOf_eq rfl⟩
  have htexts : textOf v.toDict "subject_id" = some v.subjectId ∧
      textOf v.toDict "idea_id" = some v.ideaId ∧ textOf v.toDict "actor_id" = some v.actorId ∧
      textOf v.toDict "reason" = some v.reason ∧ textOf v.toDict "title" = some v.title ∧
      textOf v.toDict "hypothesis" = some v.hypothesis ∧
      textOf v.toDict "source" = some v.source ∧
      textOf v.toDict "recorded_at" = some v.recordedAt :=
    ⟨rfl, rfl, rfl, rfl, rfl, rfl, rfl, rfl⟩
  simp only [fieldsOf, htexts, htype, hnumbers, hoptional, Option.bind_eq_bind, Option.bind_some]
  rfl

/-- **An event is read back from its body.** -/
theorem read_canonical (v : IdeaValue) : read v.canonical = some v := by
  have hloads : Json.loads v.canonical = some (.obj v.toDict.members) :=
    Json.loads_dumps v.sorted_toDict
  have hnames : v.toDict.names = fieldNames := rfl
  simp only [read, hloads, Json.Dict.ofMembers_members, hnames, ne_eq, not_true_eq_false,
    if_false, fieldsOf_toDict]

end IdeaValue

/-! ## Arguments -/

/-- `_text`. -/
def text (value name : String) : Except IdeaError String :=
  if !isRequired value then .error (.lineage (name ++ " must be non-empty text"))
  else .ok (String.ofList (Autopilot.strip value.toList))

/-- The arguments of `propose`. -/
structure Proposal where
  subjectId : String
  ideaId : String
  title : String
  hypothesis : String
  source : String
  actorId : String
  parentIdeaId : Option String := none
  maxRevisions : Int := 8

/-- `propose`, before its transaction: the event it wants to insert. -/
def Proposal.prepare (p : Proposal) (now : String) : Except IdeaError IdeaValue := do
  let subjectId ← text p.subjectId "subject_id"
  let ideaId ← text p.ideaId "idea_id"
  let title ← text p.title "title"
  let hypothesis ← text p.hypothesis "hypothesis"
  let source ← text p.source "source"
  let actorId ← text p.actorId "actor_id"
  if ¬(1 ≤ p.maxRevisions ∧ p.maxRevisions ≤ 100) then
    throw (.lineage "max_revisions must be between 1 and 100")
  let parentIdeaId ← p.parentIdeaId.mapM (text · "parent_idea_id")
  return {
    subjectId, ideaId, sequence := 1, revision := 1, eventType := .proposed, actorId,
    reason := "Initial hypothesis captured for challenge.", title, hypothesis, source, parentIdeaId,
    maxRevisions := p.maxRevisions.toNat, returnToAgent := none, nextAction := none,
    recordedAt := now, previousDigest := none }

/-- The arguments of `append`. -/
structure Entry where
  subjectId : String
  ideaId : String
  eventType : String
  actorId : String
  reason : String
  expectedSequence : Int
  hypothesis : Option String := none
  source : Option String := none
  returnToAgent : Option String := none
  nextAction : Option String := none

/-- What `append` has checked before its transaction. -/
structure Request where
  subjectId : String
  ideaId : String
  eventType : EventType
  actorId : String
  reason : String
  expectedSequence : Int
  hypothesis : Option String
  source : Option String
  returnToAgent : Option String
  nextAction : Option String
  appendable : eventType ≠ .proposed

/-- `event_type not in _KINDS`. -/
def kindOf (eventType : String) : Except IdeaError {t : EventType // t ≠ .proposed} :=
  match EventType.ofValue eventType with
  | some t =>
    if h : t ≠ .proposed then .ok ⟨t, h⟩ else .error (.lineage "unsupported idea event type")
  | none => .error (.lineage "unsupported idea event type")

/-- `append`, before its transaction. -/
def Entry.prepare (a : Entry) : Except IdeaError Request := do
  let kind ← kindOf a.eventType
  let subjectId ← text a.subjectId "subject_id"
  let ideaId ← text a.ideaId "idea_id"
  let actorId ← text a.actorId "actor_id"
  let reason ← text a.reason "reason"
  if a.expectedSequence < 1 then
    throw (.lineage "expected_sequence must be a positive integer")
  if a.returnToAgent.isNone != a.nextAction.isNone then
    throw (.lineage "returned work needs both recipient and next action")
  let returnToAgent ← a.returnToAgent.mapM (text · "return_to_agent")
  let nextAction ← a.nextAction.mapM (text · "next_action")
  if kind.val.isNonAdoption ∧ returnToAgent.isNone then
    throw (.lineage "non-adoption needs a recipient and recovery action")
  if a.hypothesis.isSome ∧ kind.val ≠ .revised then
    throw (.lineage "only a revision can change the hypothesis")
  return ⟨subjectId, ideaId, kind.val, actorId, reason, a.expectedSequence, a.hypothesis, a.source,
    returnToAgent, nextAction, kind.property⟩

/-! ## The table -/

/-- A row of `idea_lineage_events`. -/
structure Row where
  subjectId : String
  ideaId : String
  sequence : ℕ
  bodyJson : String
  digest : String
deriving DecidableEq

abbrev Table := List Row

/-- The actors of the events of a role. -/
def actors (role : EventType.Role) (events : List IdeaEvent) : List String :=
  (events.filter (·.eventType.role == role)).map (·.actorId)

/-- `SELECT … WHERE subject_id=? AND idea_id=? ORDER BY sequence`. -/
def select (subjectId ideaId : String) (table : Table) : List Row :=
  Rows.orderBy (·.sequence)
    (table.filter fun row ↦ row.subjectId == subjectId && row.ideaId == ideaId)

section Digests

variable [Hash256]

def IdeaValue.computeDigest (v : IdeaValue) : String :=
  Hash256.hexdigest v.toDict.toJson.chars

/-- The event with its digest. -/
def IdeaValue.seal (v : IdeaValue) : IdeaEvent := ⟨v, v.computeDigest⟩

def IdeaEvent.toRow (e : IdeaEvent) : Row :=
  ⟨e.subjectId, e.ideaId, e.sequence, e.canonical, e.digest⟩

/-- One round of the loop of `history`. -/
def checkRow (subjectId ideaId : String) (events : List IdeaEvent) (row : Row) :
    Except IdeaError (List IdeaEvent) :=
  match IdeaValue.read row.bodyJson with
  | none => .error (.lineage "invalid idea history event")
  | some value =>
    if value.computeDigest ≠ row.digest ∨ value.sequence ≠ row.sequence ∨
        row.sequence ≠ events.length + 1 ∨ value.subjectId ≠ subjectId ∨ value.ideaId ≠ ideaId ∨
        value.previousDigest ≠ events.getLast?.map (·.digest) then
      .error (.lineage "idea history digest or sequence mismatch")
    else .ok (events ++ [⟨value, row.digest⟩])

/-- `history`. -/
def history (subjectId ideaId : String) (table : Table) : Except IdeaError (List IdeaEvent) :=
  (select subjectId ideaId table).foldlM (checkRow subjectId ideaId) []

/-- The `INSERT` of `_insert`, with the trigger against replacing a row. -/
def insert (e : IdeaEvent) (table : Table) : Except IdeaError Table := do
  if 2 ^ 63 ≤ e.sequence then
    throw .overflow
  if table.any fun row ↦ row.subjectId == e.subjectId && row.ideaId == e.ideaId &&
      row.sequence == e.sequence then
    throw (.integrity "idea history is append-only")
  return table ++ [e.toRow]

/-! ## Calls -/

/-- What `propose` checks in its transaction. -/
def checkProposal (value : IdeaValue) (table : Table) : Except IdeaError IdeaValue := do
  let existing ← history value.subjectId value.ideaId table
  if existing ≠ [] then
    throw (.lineage "idea already exists; append a revision")
  match value.parentIdeaId with
  | none => return value
  | some parent =>
    if (← history value.subjectId parent table) = [] then
      throw (.lineage "parent must exist in the same subject")
    return value

/-- The role of the actor against those of the past, and what the event needs besides. -/
def checkEvent (r : Request) (events : List IdeaEvent) (previous : IdeaEvent) :
    Except IdeaError Unit := do
  let proposers := actors .proposer events
  let challengers := actors .challenger events
  let judges := actors .judge events
  if previous.eventType.isDisposition ∧ r.eventType ≠ .revised then
    throw (.lineage "revise the idea before reopening its court")
  if r.eventType = .challenged ∧ r.actorId ∈ proposers ++ judges then
    throw (.lineage "challenger must be separate from proposer and judge")
  if r.eventType = .revised ∧ r.actorId ∈ challengers ++ judges then
    throw (.lineage "reviser must be separate from challenger and judge")
  if r.eventType = .revised ∧ !(r.hypothesis.any isRequired) then
    throw (.lineage "hypothesis must be non-empty text")
  if r.eventType = .revised ∧ previous.revision ≥ previous.maxRevisions then
    throw (.lineage "idea revision budget exhausted")
  if r.eventType.isDisposition ∧ r.actorId ∈ proposers ++ challengers then
    throw (.lineage "judge must be separate from proposer and challenger")
  if r.eventType.isDisposition ∧
      ¬events.any fun e ↦ e.eventType == .challenged && e.revision == previous.revision then
    throw (.lineage "current revision needs an independent challenge")

/-- The event that follows the last one of an idea. -/
def nextValue (r : Request) (now : String) (previous : IdeaEvent) : Except IdeaError IdeaValue := do
  let hypothesis ← r.hypothesis.mapM (text · "hypothesis")
  let source ← r.source.mapM (text · "source")
  return { previous.toIdeaValue with
    sequence := previous.sequence + 1
    revision := previous.revision + if r.eventType = .revised then 1 else 0
    eventType := r.eventType, actorId := r.actorId, reason := r.reason
    hypothesis := hypothesis.getD previous.hypothesis, source := source.getD previous.source
    returnToAgent := r.returnToAgent, nextAction := r.nextAction, recordedAt := now
    previousDigest := some previous.digest }

/-- What `append` checks in its transaction. -/
def checkAppend (r : Request) (now : String) (table : Table) : Except IdeaError IdeaValue := do
  let events ← history r.subjectId r.ideaId table
  match events.getLast? with
  | none => throw (.lineage "unknown idea or stale expected_sequence")
  | some previous =>
    if (previous.sequence : Int) ≠ r.expectedSequence then
      throw (.lineage "unknown idea or stale expected_sequence")
    checkEvent r events previous
    nextValue r now previous

/-- How the database answers `BEGIN IMMEDIATE` and `COMMIT`. -/
structure Connection where
  begins : Bool := true
  commits : Bool := true

/-- The transaction of a call: read, check, insert. -/
def write (db : Connection) (check : Table → Except IdeaError IdeaValue) :
    EStateM IdeaError Table IdeaEvent := transaction do
  let table ← get
  if !db.begins then throw .operational
  let value ← Raise.lift (check table)
  let table' ← Raise.lift (insert value.seal table)
  set table'
  if !db.commits then throw .operational
  return value.seal

/-- `propose`, at a time. -/
def propose (db : Connection) (now : String) (p : Proposal) :
    EStateM IdeaError Table IdeaEvent := do
  let value ← Raise.lift (p.prepare now)
  write db (checkProposal value)

/-- `append`, at a time. -/
def append (db : Connection) (now : String) (a : Entry) : EStateM IdeaError Table IdeaEvent := do
  let request ← Raise.lift a.prepare
  write db (checkAppend request now)

end Digests

/-- A call of one of the stores on the database. -/
inductive Call where
  | propose (db : Connection) (now : String) (p : Proposal)
  | append (db : Connection) (now : String) (a : Entry)

variable [Hash256]

def Call.exec : Call → EStateM IdeaError Table IdeaEvent
  | .propose db now p => Ideas.propose db now p
  | .append db now a => Ideas.append db now a

/-- The table after a call. -/
def Call.after (c : Call) (table : Table) : Table := final (c.exec table)

/-- The table after calls, in the order in which their transactions came. -/
def run (calls : List Call) : Table := calls.foldl (fun table c ↦ c.after table) []

end HiveMind.Ideas
