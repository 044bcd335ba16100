import HiveMind.Kernel.Schema

/-!
# Contracts of tool intents and receipts

The schemas of tool intents and of their receipts nest objects and have properties that may be left
out. A schema is what the walker does with it: from a value and its path to the issues that it
reports, in the order of the walk.

The receipts here are those that the mission store writes. They never have the properties `enforced`
and `execution`, and their artifacts are an empty list.
-/

namespace HiveMind.Missions

/-! ## The schema walker -/

/-- `_validate_node` for one schema, as a function of the path and the value. -/
abbrev Validator := String → Json → List String

namespace Validator

def const (expected : Json) : Validator := fun path value ↦
  if value = expected then [] else [path ++ ": value does not match const"]

def enum (allowed : List String) : Validator := fun path value ↦
  if allowed.any fun text ↦ value = .str text then [] else [path ++ ": value is not in enum"]

/-- The checks of a string. -/
def textIssues (schema : StringSchema) (maxLength : Option Nat) (path text : String) :
    List String :=
  (if text.length < schema.minLength then
    [path ++ ": string is shorter than " ++ toString schema.minLength] else []) ++
  (match maxLength with
    | some n => if n < text.length then [path ++ ": string is longer than " ++ toString n] else []
    | none => []) ++
  { schema with minLength := 0 }.issues path text

def string (schema : StringSchema) (maxLength : Option Nat) : Validator := fun path value ↦
  match value with
  | .str text => textIssues schema maxLength path text
  | _ => [path ++ ": expected string"]

def nullableString (schema : StringSchema) : Validator := fun path value ↦
  match value with
  | .null => []
  | .str text => textIssues schema none path text
  | _ => [path ++ ": expected one of ['string', 'null']"]

def integer (minimum : Int) : Validator := fun path value ↦
  match value with
  | .int n => if n < minimum then [path ++ ": number is below minimum " ++ toString minimum] else []
  | _ => [path ++ ": expected integer"]

def array (minItems : Nat) (uniqueItems : Bool) (items : Validator) : Validator := fun path value ↦
  match value with
  | .arr xs =>
    (if xs.length < minItems then
      [path ++ ": array has fewer than " ++ toString minItems ++ " items"] else []) ++
    (if uniqueItems && !decide (xs.map Json.dumps).Nodup then
      [path ++ ": array items are not unique"] else []) ++
    xs.zipIdx.flatMap fun (x, i) ↦ items (path ++ "[" ++ toString i ++ "]") x
  | _ => [path ++ ": expected array"]

/-- An object that fails closed on unknown properties. -/
def object (required : List String) (properties : List (String × Validator)) : Validator :=
  fun path value ↦
    match value with
    | .obj ms =>
      let keys := ms.map Prod.fst
      let unknown := keys.filter fun key ↦ !(properties.map Prod.fst).contains key
      (required.filter fun key ↦ !keys.contains key).map
        (fun key ↦ path ++ ": missing required property " ++ key) ++
      (properties.flatMap fun property ↦
        match ms.lookup property.1 with
        | some member => property.2 (path ++ "." ++ property.1) member
        | none => []) ++
      (if unknown.isEmpty then [] else
        [path ++ ": unknown properties: " ++ ", ".intercalate unknown])
    | _ => [path ++ ": expected object"]

/-- `allOf` with a condition on one property, which holds if the property is not there, and another
property that is required then. -/
def requiredIf (key : String) (expected : Json) (required : String) : Validator :=
  fun path value ↦
    match value with
    | .obj ms =>
      if (ms.lookup key).all (· = expected) && (ms.lookup required).isNone then
        [path ++ ": missing required property " ++ required] else []
    | _ => []

/-- The conditions of `allOf` are checked on what has the type that the schema asks for. -/
def allOf (schema condition : Validator) : Validator := fun path value ↦
  match value with
  | .obj _ => schema path value ++ condition path value
  | _ => schema path value

end Validator

/-- The issues of `validate_contract`, of which the first of several equal ones stays. -/
def contractIssues (schema : Validator) (document : Json) : List String :=
  (schema "$" document).eraseDups

/-! ## The schemas -/

def toolKinds : List String :=
  ["reasoning", "read", "write", "command", "network", "git", "message", "deploy"]

def nonEmpty : Validator := .string nonEmptySchema none

def shaDigest : Validator := .string digestSchema (some 71)

def gitObject : Validator := .string { pattern := some .sha } none

/-- `tool-intent.schema.json`. -/
def toolIntent : Validator :=
  .allOf
    (.object
      ["schema_version", "action_id", "mission_id", "state_ref", "actor_id", "kind", "description",
        "action_digest", "policy_decision_ref", "lease_id", "idempotency_key", "status"]
      [("schema_version", .const (.int 1)),
        ("action_id", nonEmpty),
        ("mission_id", nonEmpty),
        ("state_ref", nonEmpty),
        ("actor_id", nonEmpty),
        ("kind", .enum toolKinds),
        ("description", nonEmpty),
        ("action_digest", shaDigest),
        ("policy_decision_ref", nonEmpty),
        ("lease_id", nonEmpty),
        ("idempotency_key", nonEmpty),
        ("rollback_ref", .nullableString nonEmptySchema),
        ("command", .object ["argv", "path_args"]
          [("argv", .array 1 false nonEmpty), ("path_args", .array 0 true (.integer 1))]),
        ("acceptance_specification", .object ["id", "digest"]
          [("id", nonEmpty), ("digest", shaDigest), ("candidate_commit", gitObject),
            ("candidate_tree", gitObject)]),
        ("status", .const (.str "proposed"))])
    (.requiredIf "kind" (.str "command") "command")

/-- `tool-receipt.schema.json`, without what the receipts of the store never have. -/
def toolReceipt : Validator :=
  .allOf
    (.object
      ["schema_version", "receipt_id", "action_id", "provider", "execution_id", "mission_id",
        "state_ref", "actor_id", "policy_decision_ref", "lease_id", "action_kind", "action_digest",
        "executed", "result", "observed_at", "artifacts", "verified_by"]
      [("schema_version", .const (.int 1)),
        ("receipt_id", nonEmpty),
        ("action_id", nonEmpty),
        ("provider", nonEmpty),
        ("execution_id", nonEmpty),
        ("mission_id", nonEmpty),
        ("state_ref", nonEmpty),
        ("actor_id", nonEmpty),
        ("policy_decision_ref", nonEmpty),
        ("lease_id", nonEmpty),
        ("action_kind", .enum toolKinds),
        ("action_digest", shaDigest),
        ("executed", .const (.bool true)),
        ("result", .enum ["succeeded", "failed", "unknown"]),
        ("observed_at", .string { format := some .dateTime } none),
        ("artifacts", .array 0 false fun _ _ ↦ []),
        ("verified_by", nonEmpty)])
    (.requiredIf "provider" (.str "hive-mind-process-sandbox") "enforced")

/-! ## Intents -/

section Digests

variable [Hash256]

/-- `tool_intent_digest`. -/
def toolIntentDigest (intent : Json.Dict) : String :=
  jsonDigest (.obj (intent.members.filter fun m ↦ m.1 ≠ "action_digest"))

end Digests

end HiveMind.Missions
