import HiveMind.Kernel.MemoryArtifacts
import HiveMind.Lib.Rows

/-!
# The memory catalog

Records are registered once and never changed. What becomes of them is said by lifecycle events, of
which the catalog keeps the list and the state that follows from it, and by conflicts. An operation
that raises leaves what it had done by then.
-/

open Raise Dicts

namespace HiveMind.Memory

/-! ## Times -/

/-- What `datetime.fromisoformat` makes of a text that is not in the format of RFC 3339: the local
time in microseconds, and the offset if there is one. -/
class IsoFormats where
  other : String → Option (ℤ × Option ℤ)

/-- The first and the last instant that a `datetime` has, in microseconds. -/
def firstInstant : ℤ := ordinal 1 1 1 * 86400 * 1000000

def lastInstant : ℤ := (ordinal 9999 12 31 + 1) * 86400 * 1000000 - 1

/-- `astimezone(timezone.utc)`, of which this is the result in microseconds. -/
def asUtc (t : ℤ) : Except MemoryError ℤ :=
  if firstInstant ≤ t ∧ t ≤ lastInstant then .ok t else .error .overflowError

/-- `_instant`. -/
def instant [IsoFormats] (value : String) : Except MemoryError ℤ :=
  match instantOf value with
  | some t => asUtc t
  | none =>
    match IsoFormats.other value with
    | none => .error (.valueError "time must be RFC 3339")
    | some (_, none) => .error (.valueError "time must include an offset")
    | some (t, some offset) => asUtc (t - offset)

/-! ## Records -/

inductive MemoryState where
  | active
  | superseded
  | contradicted
  | retracted
  | expired
  | quarantined
  deriving DecidableEq, Repr

def MemoryState.value : MemoryState → String
  | active => "ACTIVE"
  | superseded => "SUPERSEDED"
  | contradicted => "CONTRADICTED"
  | retracted => "RETRACTED"
  | expired => "EXPIRED"
  | quarantined => "QUARANTINED"

/-- `_TERMINAL_STATES`. -/
def MemoryState.isTerminal : MemoryState → Bool
  | active => false
  | _ => true

/-- The values of `MemoryClass`. -/
def memoryClasses : List String :=
  ["evidence", "fact", "episode", "opinion", "lesson", "working", "scratchpad", "self_assessment"]

def memoryScopes : List String := ["global", "repository", "mission", "role", "work_item"]

/-- `_identifier`, of a memory record. -/
def isMemoryId (s : String) : Bool :=
  s.toList.take 7 == "MEMORY-".toList && isIdTail (s.toList.drop 7)

structure RecordFields where
  recordId : String
  memoryClass : String
  scope : String
  subjectKeys : List String
  contentRef : String
  sourceRefs : List String
  authorityLevel : String
  sensitivity : String
  validFrom : String
  validTo : Option String
  recordedAt : String
  availableAt : String
  state : MemoryState
  supersedes : List String
  supersededBy : List String
  evaluatorId : Option String
  outcomeRefs : List String
  retentionPolicy : String
  digestValue : String
  deriving DecidableEq

/-- What a check raises unless it is passed. -/
def problemUnless (ok : Bool) (message : String) : Option String :=
  if ok then none else some message

/-- What `MemoryRecord.__post_init__` raises. -/
def RecordFields.problem? (record : RecordFields) : Option String :=
  problemUnless (isRequired record.recordId) "memory id is required" <|>
  problemUnless (isMemoryId record.recordId) "invalid memory id" <|>
  problemUnless (isRequired record.memoryClass) "memory_class is required" <|>
  problemUnless (memoryScopes.contains record.scope) "invalid memory scope" <|>
  problemUnless (isRequired record.contentRef) "content_ref is required" <|>
  problemUnless (isTime record.validFrom) "valid_from must be an RFC 3339 time" <|>
  problemUnless (isTime record.recordedAt) "recorded_at must be an RFC 3339 time" <|>
  problemUnless (isTime record.availableAt) "available_at must be an RFC 3339 time" <|>
  problemUnless (record.validTo.all isTime) "valid_to must be an RFC 3339 time" <|>
  problemUnless (isRequired record.retentionPolicy) "retention_policy is required" <|>
  problemUnless (isDigest record.digestValue) "digest must be lowercase sha256:<64 hex>"

/-- `MemoryRecord`. -/
structure MemoryRecord extends RecordFields where
  valid : toRecordFields.problem? = none
  deriving DecidableEq

structure AccessFields where
  roles : List String
  dataScopes : List String
  evaluatorVisible : Bool
  deriving DecidableEq

/-- What `MemoryAccess.__post_init__` raises. -/
def AccessFields.problem? (access : AccessFields) : Option String :=
  problemUnless (access.roles ≠ []) "memory access requires at least one role" <|>
  problemUnless (access.roles.all isRole) "memory access contains an unregistered role" <|>
  problemUnless access.roles.Nodup "memory access roles must be unique" <|>
  problemUnless access.dataScopes.Nodup "memory access scopes must be unique"

/-- `MemoryAccess`. -/
structure MemoryAccess extends AccessFields where
  valid : toAccessFields.problem? = none
  deriving DecidableEq

/-- `MemoryEntry`. -/
structure MemoryEntry where
  record : MemoryRecord
  access : MemoryAccess
  deriving DecidableEq

/-- `MemoryLifecycleEvent`. -/
structure LifecycleEvent where
  sequence : ℕ
  eventId : String
  recordId : String
  previousState : MemoryState
  state : MemoryState
  occurredAt : String
  reason : String
  successorId : Option String
  deriving DecidableEq

/-- `MemoryConflict`. -/
structure MemoryConflict where
  conflictId : String
  recordIds : List String
  reason : String
  recordedAt : String
  deriving DecidableEq

/-- `MemoryConflict.__post_init__`. -/
def MemoryConflict.check [IsoFormats] (conflict : MemoryConflict) : Except MemoryError Unit := do
  if conflict.recordIds.length < 2 ∨ ¬conflict.recordIds.Nodup then
    throw (.valueError "a conflict requires at least two distinct records")
  if conflict.recordIds.insertionSort (· ≤ ·) ≠ conflict.recordIds then
    throw (.valueError "conflict record ids must be sorted")
  if conflict.reason = "" then
    throw (.valueError "conflict reason is required")
  let _ ← instant conflict.recordedAt

/-! ## The catalog -/

structure Catalog where
  entries : List (String × MemoryEntry)
  states : List (String × MemoryState)
  events : List LifecycleEvent
  conflicts : List (String × MemoryConflict)
  deriving DecidableEq

/-- `MemoryCatalog(...)`. -/
def Catalog.empty : Catalog := ⟨[], [], [], []⟩

/-- An operation on the catalog, which keeps what was done when it raises. -/
abbrev CatalogM (α : Type) := EStateM MemoryError Catalog α

/-- `sorted(set(values))`. -/
def sortedSet (values : List String) : List String := values.dedup.insertionSort (· ≤ ·)

/-- `_validate_class`. -/
def validateClass (record : MemoryRecord) : Except MemoryError Unit := do
  if ¬memoryClasses.contains record.memoryClass then
    throw (.denied "memory class is not registered")
  if record.memoryClass = "working" ∧ (record.scope ≠ "work_item" ∨ record.validTo = none) then
    throw (.denied "working memory must be work-scoped and expire")
  if record.memoryClass = "evidence" ∧ record.sourceRefs = [] then
    throw (.denied "evidence memory requires source references")

section Operations

variable [Hash256] [IsoFormats]

omit [IsoFormats] in
/-- What `register` checks before it looks at the catalog. -/
def verify (files : ArtifactFiles) (record : MemoryRecord) : Except MemoryError Unit := do
  validateClass record
  let _ ← Memory.get files record.contentRef

omit [IsoFormats] in
/-- `register`. -/
def register (files : ArtifactFiles) (record : MemoryRecord) (access : MemoryAccess) :
    CatalogM Unit := do
  Raise.lift (verify files record)
  let catalog ← MonadState.get
  match catalog.entries.lookup record.recordId with
  | some existing =>
    if existing ≠ ⟨record, access⟩ then
      throw (.denied "memory record cannot be rewritten")
  | none =>
    set { catalog with
      entries := setItem record.recordId ⟨record, access⟩ catalog.entries
      states := setItem record.recordId record.state catalog.states }

omit [Hash256] in
/-- The event that `transition` appends. -/
def nextEvent (catalog : Catalog) (recordId : String) (state : MemoryState)
    (eventId occurredAt reason : String) (successorId : Option String) :
    Except MemoryError LifecycleEvent := do
  let _ ← instant occurredAt
  if eventId = "" ∨ reason = "" then
    throw (.valueError "lifecycle event id and reason are required")
  if catalog.entries.lookup recordId = none then
    throw (.keyError ("unknown memory record: " ++ recordId))
  match catalog.states.lookup recordId with
  | none => throw (.keyError recordId)
  | some previous =>
    if previous ≠ .active ∨ ¬state.isTerminal then
      throw (.denied "memory lifecycle transition is not legal")
    if state = .superseded ∧ (successorId.bind fun id ↦ catalog.entries.lookup id) = none then
      throw (.denied "supersession requires a registered successor")
    if catalog.events.any (·.eventId = eventId) then
      throw (.denied "memory lifecycle event id is already bound")
    return { sequence := catalog.events.length + 1, eventId, recordId, previousState := previous,
             state, occurredAt, reason, successorId }

omit [Hash256] in
/-- `transition`. -/
def transition (recordId : String) (state : MemoryState) (eventId occurredAt reason : String)
    (successorId : Option String) : CatalogM LifecycleEvent := do
  let catalog ← MonadState.get
  let event ← Raise.lift (nextEvent catalog recordId state eventId occurredAt reason successorId)
  set { catalog with
    events := catalog.events ++ [event]
    states := setItem recordId state catalog.states }
  return event

/-- Whether a record is registered and active. -/
def Catalog.isActive (catalog : Catalog) (recordId : String) : Bool :=
  (catalog.entries.lookup recordId).isSome && catalog.states.lookup recordId = some .active

/-- The event id of a supersession. -/
def supersededId (recordId successorId : String) : String :=
  "memory.superseded:" ++ recordId ++ ":" ++ successorId

/-- `supersede`. -/
def supersede (files : ArtifactFiles) (successor : MemoryRecord) (access : MemoryAccess)
    (now reason : String) : CatalogM (List LifecycleEvent) := do
  if successor.state ≠ .active ∨ successor.supersedes = [] then
    throw (.denied "an active successor must name prior records")
  let catalog ← MonadState.get
  let predecessorIds := successor.supersedes.insertionSort (· ≤ ·)
  if successor.recordId ∈ predecessorIds ∨ predecessorIds.any fun id ↦ !catalog.isActive id then
    throw (.denied "supersession requires active registered predecessors")
  register files successor access
  predecessorIds.mapM fun recordId ↦
    transition recordId .superseded (supersededId recordId successor.recordId) now reason
      (some successor.recordId)

/-- `correct`. -/
def correct (files : ArtifactFiles) (successor : MemoryRecord) (access : MemoryAccess)
    (now reason : String) : CatalogM (List LifecycleEvent) :=
  supersede files successor access now reason

omit [Hash256] in
/-- `quarantine`. An event id that is empty counts as none. -/
def quarantine (recordId now reason : String) (eventId : Option String) :
    CatalogM LifecycleEvent :=
  transition recordId .quarantined
    ((eventId.filter (· ≠ "")).getD ("memory.quarantined:" ++ recordId ++ ":" ++ now)) now reason
    none

/-- `record_conflict`. -/
def recordConflict (recordIds : List String) (reason recordedAt : String) :
    CatalogM MemoryConflict := do
  let identities := sortedSet recordIds
  let catalog ← MonadState.get
  if identities.any fun id ↦ (catalog.entries.lookup id).isNone then
    throw (.keyError "conflict references an unknown memory record")
  let digest := jsonDigest (Json.mkObj [("records", .arr (identities.map .str)),
    ("reason", .str reason), ("recorded_at", .str recordedAt)])
  let conflict : MemoryConflict :=
    { conflictId := "CONFLICT-" ++ String.ofList ((digest.toList.drop 7).take 20)
      recordIds := identities, reason, recordedAt }
  Raise.lift conflict.check
  if (catalog.conflicts.lookup conflict.conflictId).any (· ≠ conflict) then
    throw (.denied "conflict cannot be rewritten")
  set { catalog with conflicts := setItem conflict.conflictId conflict catalog.conflicts }
  return conflict

/-- `contradict`. -/
def contradict (recordIds : List String) (now reason : String) :
    CatalogM (MemoryConflict × List LifecycleEvent) := do
  let identities := sortedSet recordIds
  let catalog ← MonadState.get
  if identities.any fun id ↦ !catalog.isActive id then
    throw (.denied "contradiction requires active registered records")
  let conflict ← recordConflict identities reason now
  let events ← identities.mapM fun recordId ↦
    transition recordId .contradicted
      ("memory.contradicted:" ++ conflict.conflictId ++ ":" ++ recordId) now reason none
  return (conflict, events)

/-- `ConsolidationPolicy`. -/
structure ConsolidationPolicy where
  minimumIndependentEpisodes : ℤ
  minimumDistinctContexts : ℤ
  valid : 2 ≤ minimumIndependentEpisodes ∧ 2 ≤ minimumDistinctContexts

/-- What `consolidate` checks before it supersedes the episodes. -/
def checkConsolidation (catalog : Catalog) (lesson : MemoryRecord) (support : List String)
    (independenceKeys : List (String × String)) (policy : ConsolidationPolicy) :
    Except MemoryError Unit := do
  if lesson.memoryClass ≠ "lesson" ∨ lesson.evaluatorId = none ∨ lesson.outcomeRefs = [] ∨
      lesson.supersedes ≠ support then
    throw (.denied "lesson consolidation lacks a complete independent approval")
  if support.length < policy.minimumIndependentEpisodes then
    throw (.denied "lesson consolidation has too few episodes")
  if support.any fun id ↦ !catalog.isActive id || (catalog.entries.lookup id).any fun entry ↦
      entry.record.memoryClass ≠ "episode" || entry.record.sourceRefs = [] ||
        entry.record.outcomeRefs = [] then
    throw (.denied "lesson consolidation requires active evidenced episodes")
  let contexts := (support.map fun id ↦ (independenceKeys.lookup id).getD "").dedup
  if "" ∈ contexts ∨ contexts.length < policy.minimumDistinctContexts then
    throw (.denied "lesson consolidation lacks independent contexts")

/-- `consolidate`. -/
def consolidate (files : ArtifactFiles) (lesson : MemoryRecord) (access : MemoryAccess)
    (supportingRecordIds : List String) (independenceKeys : List (String × String))
    (now reason : String) (policy : ConsolidationPolicy) : CatalogM (List LifecycleEvent) := do
  let catalog ← MonadState.get
  Raise.lift (checkConsolidation catalog lesson (sortedSet supportingRecordIds) independenceKeys
    policy)
  supersede files lesson access now reason

omit [Hash256] in
/-- The round of the loop of `expire` for a record. -/
def expireRecord (now : String) (current : ℤ) (recordId : String) :
    CatalogM (List LifecycleEvent) := do
  let catalog ← MonadState.get
  match catalog.states.lookup recordId, (catalog.entries.lookup recordId).bind (·.record.validTo) with
  | some .active, some validTo =>
    let end_ ← Raise.lift (instant validTo)
    if end_ < current then
      let event ← transition recordId .expired ("memory.expired:" ++ recordId ++ ":" ++ now) now
        "validity window elapsed" none
      return [event]
    return []
  | _, _ => return []

omit [Hash256] in
/-- `expire`. -/
def expire (now : String) : CatalogM (List LifecycleEvent) := do
  let current ← Raise.lift (instant now)
  let catalog ← MonadState.get
  let events ← ((catalog.entries.map Prod.fst).insertionSort (· ≤ ·)).mapM (expireRecord now current)
  return events.flatten

/-! ## Runs -/

/-- A call of an operation, with the artifacts as they are at the time. -/
inductive Call where
  | register (files : ArtifactFiles) (record : MemoryRecord) (access : MemoryAccess)
  | transition (recordId : String) (state : MemoryState) (eventId occurredAt reason : String)
    (successorId : Option String)
  | supersede (files : ArtifactFiles) (successor : MemoryRecord) (access : MemoryAccess)
    (now reason : String)
  | correct (files : ArtifactFiles) (successor : MemoryRecord) (access : MemoryAccess)
    (now reason : String)
  | quarantine (recordId now reason : String) (eventId : Option String)
  | contradict (recordIds : List String) (now reason : String)
  | consolidate (files : ArtifactFiles) (lesson : MemoryRecord) (access : MemoryAccess)
    (supportingRecordIds : List String) (independenceKeys : List (String × String))
    (now reason : String) (policy : ConsolidationPolicy)
  | recordConflict (recordIds : List String) (reason recordedAt : String)
  | expire (now : String)

/-- The catalog after a call, whether it returned or raised. -/
def Call.run (catalog : Catalog) : Call → Catalog
  | register files record access => final (Memory.register files record access catalog)
  | transition recordId state eventId occurredAt reason successorId =>
    final (Memory.transition recordId state eventId occurredAt reason successorId catalog)
  | supersede files successor access now reason =>
    final (Memory.supersede files successor access now reason catalog)
  | correct files successor access now reason =>
    final (Memory.correct files successor access now reason catalog)
  | quarantine recordId now reason eventId =>
    final (Memory.quarantine recordId now reason eventId catalog)
  | contradict recordIds now reason => final (Memory.contradict recordIds now reason catalog)
  | consolidate files lesson access supportingRecordIds independenceKeys now reason policy =>
    final (Memory.consolidate files lesson access supportingRecordIds independenceKeys now reason
      policy catalog)
  | recordConflict recordIds reason recordedAt =>
    final (Memory.recordConflict recordIds reason recordedAt catalog)
  | expire now => final (Memory.expire now catalog)

/-- The catalogs that calls lead to. -/
def Reachable (catalog : Catalog) : Prop :=
  ∃ calls : List Call, catalog = calls.foldl Call.run .empty

end Operations

end HiveMind.Memory
