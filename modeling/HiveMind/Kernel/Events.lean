import HiveMind.Kernel.Contracts

/-!
# Kernel events and their hash-chain binding

An event is a head of plain fields and a payload. Callers build a `KernelEvent`, whose payload may
be any Python dict; the store keeps the payload as canonical text and hands readers an `Event`,
whose payload has been read back from it. The digest that links an event to its predecessor covers
every field, with the predecessor's digest passed in apart from the event: `digestFor` does not
look at the `previousDigest` field.
-/

namespace HiveMind

/-- The fields of an event other than its payload and its predecessor. -/
structure EventHead where
  eventId : String
  missionId : String
  eventType : String
  actorId : String
  occurredAt : String
  workId : Option String
  attemptId : Option String
  actorRole : Option String
  eventVersion : Nat
  deriving DecidableEq

/-- The checks of `KernelEvent.__post_init__` on these fields. -/
def EventHead.isValid (h : EventHead) : Bool :=
  h.eventId ≠ "" && h.missionId ≠ "" && h.eventType ≠ "" && h.actorId ≠ "" &&
    h.occurredAt ≠ "" && 1 ≤ h.eventVersion

/-- An event as a reader sees it. -/
structure Event extends EventHead where
  payload : List (String × Json)

/-- An event as a caller builds it. -/
structure KernelEvent extends EventHead where
  payload : List (String × PyValue)
  previousDigest : Option String
  valid : toEventHead.isValid = true

def optionalText : Option String → Json
  | some s => .str s
  | none => .null

variable [Hash256]

/-- The digest over a head, a plain payload and a predecessor. The version is the one field whose
text can be refused. -/
def EventHead.digestFor (h : EventHead) (payload : Json) (previousDigest : Option String) :
    Except Exc String :=
  (PyValue.int h.eventVersion).plain.map fun version ↦ jsonDigest (.obj [
    ("actor_id", .str h.actorId),
    ("actor_role", optionalText h.actorRole),
    ("attempt_id", optionalText h.attemptId),
    ("event_id", .str h.eventId),
    ("event_type", .str h.eventType),
    ("event_version", version),
    ("mission_id", .str h.missionId),
    ("occurred_at", .str h.occurredAt),
    ("payload", payload),
    ("previous_digest", optionalText previousDigest),
    ("work_id", optionalText h.workId)])

/-- `KernelEvent.digest_for`. -/
def KernelEvent.digestFor (e : KernelEvent) (previousDigest : Option String) :
    Except Exc String :=
  match (PyValue.dict e.payload).plain with
  | .ok payload => e.toEventHead.digestFor payload previousDigest
  | .error err => .error err

end HiveMind
