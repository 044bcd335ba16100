import HiveMind.Prompts.Champions

/-!
# Registering prompts

A registration writes the prompt if it is not there yet, adds a record to the lineage under a random
name, and appends an event to the ledger. What is there already stays (`Grows`), and which record a
registration adds is known from the state before it (`register_spec`).
-/

open Raise

namespace HiveMind.Prompts

open HiveMind.Evidence (LedgerRow LedgerError EventTable AppendArgs)
open HiveMind.Missions (Role)

/-! ## Writing -/

/-- How a write ends: it is done, or it is not and raises, or it is done and raises all the same. -/
inductive Fate where
  | done
  | failed
  | late
  deriving DecidableEq, Repr

/-- What one write of a call meets with: how it ends, the random name and the time that it reads,
and the file that a prompt leaves which was not written in full. -/
structure Chance where
  fate : Fate
  name : String
  time : String
  left : Option (Option String)

/-- A write of a file that is there as a whole or not at all. -/
def write (fate : Fate) (f : Registry → Registry) : EStateM RegistryError Registry Unit := fun s ↦
  match fate with
  | .done => .ok () (f s)
  | .failed => .error .os s
  | .late => .error .os (f s)

/-- `_write_immutable_record`, of a record of the lineage. -/
def writeLineage (chance : Chance) (record : Record) : EStateM RegistryError Registry Unit := fun s ↦
  if chance.name ∈ s.lineage.names then .error .os s
  else write chance.fate (fun s ↦ { s with lineage := s.lineage.add chance.name (some record) }) s

/-- `self.ledger.append_event`. -/
def appendLedger [Hash256] (fate : Fate) (args : AppendArgs) :
    EStateM RegistryError Registry Unit := fun s ↦
  let (result, ledger) := Evidence.appendEvent args s.ledger
  match fate, result with
  | .failed, _ => .error .os s
  | _, .error e => .error (.ledger e) s
  | fate, .ok _ => write fate (fun s ↦ { s with ledger }) s

/-- The arguments of `register`. Bytes that are not UTF-8 have no content. -/
structure RegisterCall where
  role : String
  content : Option String
  parentDigest : Option String
  createdBy : String
  experimentId : Option String

section Register

variable [Hash256]

def registrationMembers (call : RegisterCall) (role : Role) (digest createdAt : String) :
    List (String × Json) := [("schema_version", .int 1), ("artifact_digest", .str digest),
  ("role", .str role.value), ("parent_digest", Runtime.optionalText call.parentDigest),
  ("created_by", .str call.createdBy), ("created_at", .str createdAt),
  ("experiment_id", Runtime.optionalText call.experimentId), ("kind", .str "registration")]

def registrationRecord (call : RegisterCall) (role : Role) (digest createdAt : String) : Record :=
  .ofMembers (registrationMembers call role digest createdAt) <| by
    have hparent := Runtime.sorted_optionalText call.parentDigest
    have hexperiment := Runtime.sorted_optionalText call.experimentId
    simp [registrationMembers, Json.Sorted, hparent, hexperiment]

omit [Hash256] in
theorem get_registrationRecord (call : RegisterCall) (role : Role) (digest createdAt name : String) :
    (registrationRecord call role digest createdAt).get name =
      ((registrationMembers call role digest createdAt).lookup name).getD .null :=
  Record.get_ofMembers (by simp [registrationMembers]) name

/-- The prompt is written, or it is there already as it should be. A write that fails leaves nothing
or a part of the prompt. -/
def publishArtifact (chance : Chance) (digest canonical : String) :
    EStateM RegistryError Registry Unit := fun s ↦
  let written := fun file ↦ { s with artifacts := s.artifacts ++ [(digest, file)] }
  match s.artifacts.lookup digest, chance.fate with
  | some file, _ =>
    if file = some canonical then .ok () s
    else .error (.refused "artifact-conflict" <| "content-addressed prompt artifact was " ++
      "mutated or uses legacy canonicalization; preserve retained bytes for explicit " ++
      "migration review") s
  | none, .done => .ok () (written (some canonical))
  | none, .failed => .error .os ((chance.left.map written).getD s)
  | none, .late => .error .os (written (some canonical))

/-- The part of `register` that is locked. Its three writes meet with the first three chances. -/
def registerPrompt (call : RegisterCall) (chance : ℕ → Chance) (role : Role) (content : String) :
    EStateM RegistryError Registry String := do
  let canonical := canonicalPrompt content
  let digest := promptDigest canonical
  publishArtifact (chance 0) digest canonical
  let record := registrationRecord call role digest (chance 1).time
  writeLineage (chance 1) record
  appendLedger (chance 2).fate {
    runId := (call.experimentId.filter (· ≠ "")).getD ("prompt:" ++ role.value)
    eventType := "prompt.registered"
    actor := call.createdBy
    payload := record.dict.toJson
    payload_sorted := record.sorted
    createdAt := (chance 2).time }
  return digest

/-- `register`. -/
def register (call : RegisterCall) (chance : ℕ → Chance) :
    EStateM RegistryError Registry String := do
  let role ← lift (roleValue call.role)
  if !isRequired call.createdBy then throw (.value "prompt author identity is required")
  match call.content with
  | none => throw (.value "invalid start byte")
  | some content => registerPrompt call chance role content

/-! ## What a registration changes -/

/-- The prompt is there, as it should be, once `publishArtifact` is over. -/
def isPublished (s : Registry) (chance : Chance) (digest canonical : String) : Bool :=
  match s.artifacts.lookup digest with
  | some file => file = some canonical
  | none => chance.fate = .done

/-- The record that a registration adds to the lineage, if it gets there. -/
def writtenRecord (s : Registry) (call : RegisterCall) (chance : ℕ → Chance) : Option Record :=
  match roleValue call.role, call.content with
  | .ok role, some content =>
    let canonical := canonicalPrompt content
    let digest := promptDigest canonical
    if isRequired call.createdBy && isPublished s (chance 0) digest canonical &&
        (chance 1).name ∉ s.lineage.names && (chance 1).fate ≠ .failed then
      some (registrationRecord call role digest (chance 1).time)
    else none
  | _, _ => none

theorem writtenRecord_eq_some {s : Registry} {call : RegisterCall} {chance : ℕ → Chance}
    {role : Role} {content : String} (hrole : roleValue call.role = .ok role)
    (hcontent : call.content = some content) (hauthor : isRequired call.createdBy = true)
    (hpublished : isPublished s (chance 0) (promptDigest (canonicalPrompt content))
      (canonicalPrompt content) = true)
    (hname : (chance 1).name ∉ s.lineage.names) (hfate : (chance 1).fate ≠ .failed) :
    writtenRecord s call chance = some (registrationRecord call role
      (promptDigest (canonicalPrompt content)) (chance 1).time) := by
  rw [writtenRecord, hrole, hcontent]
  simp [hauthor, hpublished, hname, hfate]

/-- What is there stays, and the ledger has at most one more event, of a registration. -/
structure Grows (s s' : Registry) : Prop where
  artifacts : ∀ digest file, s.artifacts.lookup digest = some file →
    s'.artifacts.lookup digest = some file
  admissions : s'.admissions = s.admissions
  pointerFile : s'.pointerFile = s.pointerFile
  unknownCommit : s'.unknownCommit = s.unknownCommit
  ledger : s'.ledger = s.ledger ∨ ∃ args : AppendArgs, args.eventType = "prompt.registered" ∧
    s'.ledger = (Evidence.appendEvent args s.ledger).2

variable {s s' : Registry} {call : RegisterCall} {chance : ℕ → Chance}

theorem Grows.refl (s : Registry) : Grows s s := ⟨fun _ _ h ↦ h, rfl, rfl, rfl, .inl rfl⟩

omit [Hash256] in
private theorem lookup_concat_of_some {digest other : String} {file content : Option String}
    {artifacts : List (String × Option String)} (h : artifacts.lookup other = some file) :
    (artifacts ++ [(digest, content)]).lookup other = some file := by
  rw [List.lookup_append, h, Option.some_or]

omit [Hash256] in
/-- Publishing a prompt adds at most a file, and returns only if the prompt is there. -/
theorem publishArtifact_spec (s : Registry) (one : Chance) (digest canonical : String) :
    ∃ artifacts, (∀ d file, s.artifacts.lookup d = some file → artifacts.lookup d = some file) ∧
      (if isPublished s one digest canonical then
        publishArtifact one digest canonical s = .ok () { s with artifacts }
      else ∃ e, publishArtifact one digest canonical s = .error e { s with artifacts }) := by
  have hkept : ∀ content d file, s.artifacts.lookup d = some file →
      (s.artifacts ++ [(digest, content)]).lookup d = some file := fun _ _ _ h ↦
    lookup_concat_of_some h
  cases hlookup : s.artifacts.lookup digest with
  | some file =>
    refine ⟨s.artifacts, fun _ _ h ↦ h, ?_⟩
    by_cases hfile : file = some canonical
    · simp [isPublished, publishArtifact, hlookup, hfile]
    · simp [isPublished, publishArtifact, hlookup, hfile]
  | none =>
    cases hfate : one.fate with
    | done => exact ⟨_, hkept (some canonical), by simp [isPublished, publishArtifact, hlookup, hfate]⟩
    | late => exact ⟨_, hkept (some canonical), by simp [isPublished, publishArtifact, hlookup, hfate]⟩
    | failed =>
      cases hleft : one.left with
      | none =>
        exact ⟨s.artifacts, fun _ _ h ↦ h,
          by simp [isPublished, publishArtifact, hlookup, hfate, hleft]⟩
      | some file =>
        exact ⟨_, hkept file, by simp [isPublished, publishArtifact, hlookup, hfate, hleft]⟩

/-- Appending to the ledger changes nothing else. -/
theorem final_appendLedger (fate : Fate) (args : AppendArgs) (s : Registry) :
    final (appendLedger fate args s) = s ∨ final (appendLedger fate args s) =
      { s with ledger := (Evidence.appendEvent args s.ledger).2 } := by
  rw [appendLedger]
  cases hresult : Evidence.appendEvent args s.ledger with
  | mk result ledger =>
    cases fate with
    | failed => exact .inl rfl
    | done =>
      cases result with
      | error e => exact .inl rfl
      | ok sequence => exact .inr rfl
    | late =>
      cases result with
      | error e => exact .inl rfl
      | ok sequence => exact .inr rfl

/-- The locked part adds its record to the lineage if it gets there, and else leaves the lineage. -/
theorem registerPrompt_spec (call : RegisterCall) (chance : ℕ → Chance) (role : Role)
    (content : String) (s : Registry) :
    Grows s (final (registerPrompt call chance role content s)) ∧
      (final (registerPrompt call chance role content s)).lineage =
        if isPublished s (chance 0) (promptDigest (canonicalPrompt content))
            (canonicalPrompt content) && (chance 1).name ∉ s.lineage.names &&
            (chance 1).fate ≠ .failed then
          s.lineage.add (chance 1).name (some (registrationRecord call role
            (promptDigest (canonicalPrompt content)) (chance 1).time))
        else s.lineage := by
  obtain ⟨artifacts, hkept, hpublish⟩ := publishArtifact_spec s (chance 0)
    (promptDigest (canonicalPrompt content)) (canonicalPrompt content)
  rw [registerPrompt]
  by_cases hpublished : isPublished s (chance 0) (promptDigest (canonicalPrompt content))
    (canonicalPrompt content) = true
  swap
  · rw [if_neg hpublished] at hpublish
    obtain ⟨e, he⟩ := hpublish
    rw [run_bind_of_error he]
    refine ⟨⟨hkept, rfl, rfl, rfl, .inl rfl⟩, ?_⟩
    simp [final, hpublished]
  rw [if_pos hpublished] at hpublish
  rw [run_bind_of_ok hpublish, hpublished]
  by_cases hname : (chance 1).name ∈ s.lineage.names
  · have hwrite : ∀ record, writeLineage (chance 1) record { s with artifacts } =
        .error .os { s with artifacts } := fun record ↦ if_pos hname
    rw [run_bind_of_error (hwrite _)]
    refine ⟨⟨hkept, rfl, rfl, rfl, .inl rfl⟩, ?_⟩
    simp [final, hname]
  have hwrite : ∀ record, writeLineage (chance 1) record { s with artifacts } =
      write (chance 1).fate (fun s ↦
        { s with lineage := s.lineage.add (chance 1).name (some record) })
        { s with artifacts } := fun record ↦ if_neg hname
  cases hfate : (chance 1).fate with
  | failed =>
    rw [run_bind_of_error (by rw [hwrite, hfate]; rfl)]
    exact ⟨⟨hkept, rfl, rfl, rfl, .inl rfl⟩, by simp [final]⟩
  | late =>
    rw [run_bind_of_error (by rw [hwrite, hfate]; rfl)]
    exact ⟨⟨hkept, rfl, rfl, rfl, .inl rfl⟩, by simp [final, hname]⟩
  | done =>
    rw [run_bind_of_ok (by rw [hwrite, hfate]; rfl), final_bind_pure]
    simp only [hname, not_false_eq_true, decide_true, Bool.and_self, ne_eq, reduceCtorEq, if_true]
    rcases final_appendLedger _ _ _ with hfinal | hfinal
    · rw [hfinal]
      exact ⟨⟨hkept, rfl, rfl, rfl, .inl rfl⟩, rfl⟩
    · rw [hfinal]
      exact ⟨⟨hkept, rfl, rfl, rfl, .inr ⟨_, rfl, rfl⟩⟩, rfl⟩

/-- A registration adds its record to the lineage if it gets there, and else leaves the lineage. -/
theorem register_spec (call : RegisterCall) (chance : ℕ → Chance) (s : Registry) :
    Grows s (final (register call chance s)) ∧ (final (register call chance s)).lineage =
      match writtenRecord s call chance with
      | some record => s.lineage.add (chance 1).name (some record)
      | none => s.lineage := by
  rw [register, writtenRecord]
  cases hrole : roleValue call.role with
  | error e =>
    rw [run_bind_of_error (by rw [lift])]
    exact ⟨.refl s, rfl⟩
  | ok role =>
    rw [run_bind_of_ok (by rw [lift])]
    cases hrequired : isRequired call.createdBy with
    | false => cases call.content <;> exact ⟨.refl s, rfl⟩
    | true =>
      cases call.content with
      | none => exact ⟨.refl s, rfl⟩
      | some content =>
        have hspec := registerPrompt_spec call chance role content s
        simp only [Bool.true_and]
        refine ⟨hspec.1, hspec.2.trans ?_⟩
        split <;> rfl

end Register

end HiveMind.Prompts
