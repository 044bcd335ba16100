import HiveMind.Lib.TextFiles
import HiveMind.Prompts.Registrations

/-!
# Registrations that crash

A prompt is kept in a file that is named by its digest. The file is created under that name and then
written, so a crash between the two leaves some first part of the prompt under the name of the whole.
A record of the lineage is written elsewhere and linked when it is complete.

* **`register_retryable_iff`**: after a crash the prompt can be registered again if and only if what
  is there under its name is nothing or the whole prompt.
-/

open Raise

namespace HiveMind.Prompts

open HiveMind.Evidence (LedgerRow LedgerError EventTable AppendArgs)
open HiveMind.Missions (Role)

/-! ## Canonical prompts -/

theorem notMem_unifyLineEnds (cs : List Char) : '\r' ∉ unifyLineEnds cs := by
  fun_induction unifyLineEnds cs with
  | case1 cs ih => exact List.not_mem_cons_of_ne_of_not_mem (by decide) ih
  | case2 cs _ ih => exact List.not_mem_cons_of_ne_of_not_mem (by decide) ih
  | case3 c cs _ hreturn ih =>
    exact List.not_mem_cons_of_ne_of_not_mem (fun h ↦ hreturn h.symm) ih
  | case4 => exact List.not_mem_nil

theorem unifyLineEnds_eq_self {cs : List Char} (h : '\r' ∉ cs) : unifyLineEnds cs = cs := by
  fun_induction unifyLineEnds cs with
  | case1 cs => exact absurd List.mem_cons_self h
  | case2 cs => exact absurd List.mem_cons_self h
  | case3 c cs _ _ ih => rw [ih fun hmem ↦ h (List.mem_cons_of_mem _ hmem)]
  | case4 => rfl

/-- `canonical_prompt_bytes` changes nothing the second time. -/
theorem canonicalPrompt_canonicalPrompt (content : String) :
    canonicalPrompt (canonicalPrompt content) = canonicalPrompt content := by
  have hlist : (canonicalPrompt content).toList =
      (unifyLineEnds content.toList).rdropWhile (· = '\n') := String.toList_ofList
  have hreturn : '\r' ∉ (unifyLineEnds content.toList).rdropWhile (· = '\n') := fun hmem ↦
    notMem_unifyLineEnds _ ((List.rdropWhile_prefix _ _).subset hmem)
  rw [canonicalPrompt, hlist, unifyLineEnds_eq_self hreturn, List.rdropWhile_idempotent,
    canonicalPrompt]

/-! ## Crashes -/

/-- Where a crash stops the part of `register` that is locked: before it has written anything, when
so many bytes of a new file have been written, or after one of its three writes. A record that is not
linked yet, and an event that is not committed, are not there. -/
inductive CrashPoint where
  | start
  | writing (written : ℕ)
  | published
  | recorded
  | appended
  deriving DecidableEq

/-- The write that is not done any more. -/
def CrashPoint.fate : CrashPoint → ℕ → Fate
  | published, 1 => .failed
  | recorded, 2 => .failed
  | _, _ => .done

section Crash

variable [Hash256]

/-- What a crash leaves. A file that is there already is not written. -/
def crashed (call : RegisterCall) (chance : ℕ → Chance) (role : Role) (content : String)
    (point : CrashPoint) (s : Registry) : Registry :=
  let canonical := canonicalPrompt content
  let digest := promptDigest canonical
  match point with
  | .start => s
  | .writing written =>
    if (s.artifacts.lookup digest).isSome then s
    else { s with
      artifacts := s.artifacts ++ [(digest, decodeText ((encodeText canonical).take written))] }
  | point =>
    final (registerPrompt call (fun k ↦ { chance k with fate := point.fate k }) role content s)

/-- Whoever registers the content again, with a name for the record that no other has, has it
registered, and reads the canonical prompt. -/
def Retryable (content : String) (s : Registry) : Prop :=
  ∀ (call : RegisterCall) (chance : ℕ → Chance) (role : Role), call.content = some content →
    roleValue call.role = .ok role → isRequired call.createdBy = true →
    (∀ k, (chance k).fate = .done) → (chance 1).name ∉ s.lineage.names →
      ∃ s', register call chance s = .ok (promptDigest (canonicalPrompt content)) s' ∧
        s'.read (promptDigest (canonicalPrompt content)) = .ok (canonicalPrompt content)

/-- The ledger can take two more events. -/
def HasRoom (table : EventTable) : Prop :=
  (table.rows.getLast?.map (·.rowDigest)).getD (some "") ≠ none ∧
    Evidence.nextSequence table.rows + 1 ≤ Evidence.maxSequence

/-- The prompt is there as a whole, or it is not there and a crash does not leave a part of it. -/
def IsWhole (content : String) (point : CrashPoint) (s : Registry) : Prop :=
  match s.artifacts.lookup (promptDigest (canonicalPrompt content)) with
  | some file => file = some (canonicalPrompt content)
  | none => ∀ written, point = .writing written →
    (encodeText (canonicalPrompt content)).length ≤ written

/-! ## The ledger -/

theorem appendEvent_of_last {args : AppendArgs} {table : EventTable} {previous : String}
    (hlast : (table.rows.getLast?.map (·.rowDigest)).getD (some "") = some previous)
    (hroom : Evidence.nextSequence table.rows ≤ Evidence.maxSequence) :
    ∃ sequence, (Evidence.appendEvent args table).1 = .ok sequence := by
  rw [Evidence.appendEvent, hlast]
  simp only [if_neg (not_lt.mpr hroom)]
  exact ⟨_, rfl⟩

/-- The ledger takes the next event. -/
def Accepts (table : EventTable) : Prop :=
  ∀ args, ∃ sequence, (Evidence.appendEvent args table).1 = .ok sequence

theorem HasRoom.accepts {table : EventTable} (h : HasRoom table) : Accepts table := by
  intro args
  obtain ⟨previous, hlast⟩ := Option.ne_none_iff_exists'.mp h.1
  exact appendEvent_of_last hlast (by have := h.2; omega)

theorem HasRoom.accepts_append {table : EventTable} (h : HasRoom table) (args : AppendArgs) :
    Accepts (Evidence.appendEvent args table).2 := by
  obtain ⟨previous, hlast⟩ := Option.ne_none_iff_exists'.mp h.1
  have hroom : ¬Evidence.maxSequence < Evidence.nextSequence table.rows := by
    have := h.2
    omega
  have hrows : (Evidence.appendEvent args table).2.rows =
      table.rows ++ [Evidence.newRow args (Evidence.nextSequence table.rows) previous] := by
    rw [Evidence.appendEvent, hlast]
    simp only [if_neg hroom]
  intro args'
  refine @appendEvent_of_last _ args' _ (Evidence.eventDigest
    (Evidence.newRow args (Evidence.nextSequence table.rows) previous) previous) ?_ ?_
  · rw [hrows, List.getLast?_concat]
    rfl
  · rw [hrows, Evidence.nextSequence, List.getLast?_concat]
    exact h.2

/-! ## What is there under the name of a prompt -/

variable {content : String} {s : Registry} {call : RegisterCall} {chance : ℕ → Chance} {role : Role}
  {point : CrashPoint}

/-- Nothing or the whole prompt is there under its name. -/
def IsIntact (content : String) (s : Registry) : Prop :=
  s.artifacts.lookup (promptDigest (canonicalPrompt content)) = none ∨
    s.artifacts.lookup (promptDigest (canonicalPrompt content)) = some (some (canonicalPrompt content))

theorem publishArtifact_of_intact {one : Chance} (hfate : one.fate = .done)
    (h : IsIntact content s) : ∃ artifacts,
      publishArtifact one (promptDigest (canonicalPrompt content)) (canonicalPrompt content) s =
        .ok () { s with artifacts } ∧
      artifacts.lookup (promptDigest (canonicalPrompt content)) =
        some (some (canonicalPrompt content)) := by
  rcases h with hlookup | hlookup
  · refine ⟨s.artifacts ++ [(promptDigest (canonicalPrompt content),
      some (canonicalPrompt content))], ?_, ?_⟩
    · rw [publishArtifact, hlookup, hfate]
    · rw [List.lookup_append, hlookup, Option.none_or, List.lookup_cons_self]
  · refine ⟨s.artifacts, ?_, hlookup⟩
    simp only [publishArtifact, hlookup, if_true]

theorem publishArtifact_of_not_intact {one : Chance} (h : ¬IsIntact content s) : ∃ e,
    publishArtifact one (promptDigest (canonicalPrompt content)) (canonicalPrompt content) s =
      .error e s := by
  rw [IsIntact, not_or] at h
  rcases hlookup : s.artifacts.lookup (promptDigest (canonicalPrompt content)) with _ | file
  · exact absurd hlookup h.1
  · have hfile : file ≠ some (canonicalPrompt content) := fun hfile ↦ h.2 (hfile ▸ hlookup)
    exact ⟨_, by simp only [publishArtifact, hlookup, if_neg hfile]; rfl⟩

/-- After the prompt has been published, nothing changes the prompts. -/
theorem artifacts_registerPrompt {artifacts : List (String × Option String)}
    (h : publishArtifact (chance 0) (promptDigest (canonicalPrompt content))
      (canonicalPrompt content) s = .ok () { s with artifacts }) :
    (final (registerPrompt call chance role content s)).artifacts = artifacts := by
  rw [registerPrompt, run_bind_of_ok h]
  have hwrite : ∀ record, writeLineage (chance 1) record { s with artifacts } =
      .error .os { s with artifacts } ∨ ∃ lineage, writeLineage (chance 1) record
        { s with artifacts } = .error .os { s with artifacts, lineage } ∨
          writeLineage (chance 1) record { s with artifacts } =
            .ok () { s with artifacts, lineage } := by
    intro record
    rw [writeLineage]
    split
    · exact .inl rfl
    · rcases (chance 1).fate with _ | _ | _
      · exact .inr ⟨_, .inr rfl⟩
      · exact .inl rfl
      · exact .inr ⟨_, .inl rfl⟩
  rcases hwrite (registrationRecord call role (promptDigest (canonicalPrompt content))
    (chance 1).time) with hfailed | ⟨lineage, hlate | hdone⟩
  · rw [run_bind_of_error hfailed]
    rfl
  · rw [run_bind_of_error hlate]
    rfl
  · rw [run_bind_of_ok hdone, final_bind_pure]
    rcases final_appendLedger _ _ _ with hfinal | hfinal
    · rw [hfinal]
    · rw [hfinal]

/-- A crash leaves nothing or the whole prompt if and only if it has not left a part of one. -/
theorem isIntact_crashed_iff :
    IsIntact content (crashed call chance role content point s) ↔ IsWhole content point s := by
  have hrun : ∀ point : CrashPoint, (∀ written, point ≠ .writing written) → point.fate 0 = .done →
      (IsIntact content (final (registerPrompt call
        (fun k ↦ { chance k with fate := point.fate k }) role content s)) ↔
          IsWhole content point s) := by
    intro point hpoint hfate
    have hwhole : IsWhole content point s ↔ IsIntact content s := by
      rw [IsWhole, IsIntact]
      rcases s.artifacts.lookup (promptDigest (canonicalPrompt content)) with _ | file
      · exact iff_of_true (fun written hwriting ↦ absurd hwriting (hpoint written)) (.inl rfl)
      · simp only [reduceCtorEq, false_or, Option.some.injEq]
    rw [hwhole]
    by_cases hintact : IsIntact content s
    · obtain ⟨artifacts, hpublish, hlookup⟩ := @publishArtifact_of_intact _ _ _
        { chance 0 with fate := point.fate 0 } hfate hintact
      refine iff_of_true (.inr ?_) hintact
      rw [artifacts_registerPrompt hpublish]
      exact hlookup
    · obtain ⟨e, hpublish⟩ := @publishArtifact_of_not_intact _ _ _
        { chance 0 with fate := point.fate 0 } hintact
      rw [registerPrompt, run_bind_of_error hpublish]
      exact Iff.rfl
  rcases point with _ | written | _ | _ | _
  · rw [crashed, IsWhole, IsIntact]
    rcases s.artifacts.lookup (promptDigest (canonicalPrompt content)) with _ | file
    · exact iff_of_true (.inl rfl) (by rintro _ ⟨⟩)
    · simp only [reduceCtorEq, false_or, Option.some.injEq]
  · rw [IsWhole, IsIntact]
    rcases hlookup : s.artifacts.lookup (promptDigest (canonicalPrompt content)) with _ | file
    · simp only [crashed, hlookup, Option.isSome_none, Bool.false_eq_true, if_false,
        List.lookup_append, Option.none_or, List.lookup_cons_self, reduceCtorEq, false_or,
        Option.some.injEq, decodeText_eq_some, List.take_eq_self_iff, CrashPoint.writing.injEq,
        forall_eq']
    · simp only [crashed, hlookup, Option.isSome_some, if_true, reduceCtorEq, false_or,
        Option.some.injEq]
  · exact hrun .published (fun _ ↦ by rintro ⟨⟩) rfl
  · exact hrun .recorded (fun _ ↦ by rintro ⟨⟩) rfl
  · exact hrun .appended (fun _ ↦ by rintro ⟨⟩) rfl

/-! ## Registering again -/

/-- Whatever a crash leaves of the ledger takes the next event. -/
theorem HasRoom.accepts_crashed (h : HasRoom s.ledger) :
    Accepts (crashed call chance role content point s).ledger := by
  have hgrows : ∀ chance : ℕ → Chance,
      Accepts (final (registerPrompt call chance role content s)).ledger := by
    intro chance
    rcases (registerPrompt_spec call chance role content s).1.ledger with hsame | ⟨args, -, hone⟩
    · exact hsame ▸ h.accepts
    · exact hone ▸ h.accepts_append args
  rcases point with _ | written | _ | _ | _
  · exact h.accepts
  · rw [crashed]
    split
    · exact h.accepts
    · exact h.accepts
  · exact hgrows _
  · exact hgrows _
  · exact hgrows _

theorem read_of_lookup (h : s.artifacts.lookup (promptDigest (canonicalPrompt content)) =
    some (some (canonicalPrompt content))) :
    s.read (promptDigest (canonicalPrompt content)) = .ok (canonicalPrompt content) := by
  simp only [Registry.read, Registry.artifact, isDigest_promptDigest, if_true, h, pure_bind,
    canonicalPrompt_canonicalPrompt, ne_eq, not_true, if_false]
  rfl

theorem register_of_valid (hcontent : call.content = some content)
    (hrole : roleValue call.role = .ok role) (hauthor : isRequired call.createdBy = true) :
    register call chance s = registerPrompt call chance role content s := by
  rw [register, run_bind_of_ok (show lift (roleValue call.role) s = .ok role s by rw [hrole]; rfl),
    hauthor, hcontent]
  rfl

theorem appendLedger_of_accepts (h : Accepts s.ledger) (args : AppendArgs) :
    ∃ ledger, appendLedger .done args s = .ok () { s with ledger } := by
  obtain ⟨sequence, hsequence⟩ := h args
  rcases hresult : Evidence.appendEvent args s.ledger with ⟨result, ledger⟩
  rw [hresult] at hsequence
  obtain rfl : result = .ok sequence := hsequence
  exact ⟨ledger, by rw [appendLedger, hresult]; rfl⟩

theorem retryable_of_intact (hintact : IsIntact content s) (hledger : Accepts s.ledger) :
    Retryable content s := by
  intro call chance role hcontent hrole hauthor hdone hname
  obtain ⟨artifacts, hpublish, hlookup⟩ := publishArtifact_of_intact (hdone 0) hintact
  have hlineage : ∀ record, writeLineage (chance 1) record { s with artifacts } =
      .ok () { s with artifacts, lineage := s.lineage.add (chance 1).name (some record) } := by
    intro record
    rw [writeLineage, if_neg hname, hdone 1]
    rfl
  have hregistered : ∃ s', registerPrompt call chance role content s =
      .ok (promptDigest (canonicalPrompt content)) s' ∧ s'.artifacts = artifacts := by
    rw [registerPrompt, run_bind_of_ok hpublish, run_bind_of_ok (hlineage _), hdone 2]
    obtain ⟨ledger, hledger⟩ := appendLedger_of_accepts
      (s := { s with artifacts, lineage := s.lineage.add (chance 1).name (some _) }) hledger _
    rw [run_bind_of_ok hledger]
    exact ⟨_, rfl, rfl⟩
  obtain ⟨s', hrun, hkept⟩ := hregistered
  refine ⟨s', ?_, read_of_lookup (hkept ▸ hlookup)⟩
  rw [register_of_valid hcontent hrole hauthor, hrun]

omit [Hash256] in
/-- There is always a name that no file has. -/
theorem exists_name (names : List String) : ∃ name, name ∉ names := by
  have : Infinite String := Infinite.of_injective String.ofList fun _ _ ↦ String.ofList_inj.mp
  obtain ⟨name, hname⟩ := Infinite.exists_notMem_finset names.toFinset
  exact ⟨name, fun hmem ↦ hname (List.mem_toFinset.mpr hmem)⟩

theorem not_retryable_of_not_intact (hintact : ¬IsIntact content s) : ¬Retryable content s := by
  intro hretry
  obtain ⟨name, hname⟩ := exists_name s.lineage.names
  have hrole : roleValue "builder" = .ok .builder := by decide
  have hauthor : isRequired "proposer" = true := by decide
  obtain ⟨s', hregister, -⟩ := hretry ⟨"builder", some content, none, "proposer", none⟩
    (fun _ ↦ ⟨.done, name, "", none⟩) .builder rfl hrole hauthor (fun _ ↦ rfl) hname
  obtain ⟨e, hpublish⟩ := @publishArtifact_of_not_intact _ _ _ ⟨.done, name, "", none⟩ hintact
  rw [register_of_valid rfl hrole hauthor, registerPrompt, run_bind_of_error hpublish] at hregister
  cases hregister

/-- **After a crash a prompt can be registered again if and only if the crash has not left a part of
it** under its name, nor was there anything else. -/
theorem register_retryable_iff (call : RegisterCall) (chance : ℕ → Chance) (role : Role)
    (content : String) (point : CrashPoint) (s : Registry) (hroom : HasRoom s.ledger) :
    canonicalPrompt (canonicalPrompt content) = canonicalPrompt content ∧
      (Retryable content (crashed call chance role content point s) ↔ IsWhole content point s) := by
  refine ⟨canonicalPrompt_canonicalPrompt content, ?_⟩
  rw [← isIntact_crashed_iff]
  constructor
  · intro hretry
    by_contra hpart
    exact not_retryable_of_not_intact hpart hretry
  · intro hintact
    exact retryable_of_intact hintact hroom.accepts_crashed

end Crash

/-! ## A crash that leaves a part -/

/-- A registry with nothing in it. -/
def emptyRegistry : Registry where
  artifacts := []
  lineage := .empty
  events := .empty
  admissions := []
  pointerFile := .absent
  unknownCommit := false
  ledger := ⟨[], List.Pairwise.nil⟩

theorem hasRoom_empty : HasRoom emptyRegistry.ledger := ⟨by decide, by decide⟩

def firstCall : RegisterCall := ⟨"builder", some "improved", none, "proposer", none⟩

def firstChance : ℕ → Chance := fun _ ↦ ⟨.done, "m.json", "2029-01-01T00:00:00Z", none⟩

/-- The file was created, and nothing was written to it. -/
theorem register_not_retryable : ¬∀ (content : String) (point : CrashPoint) (s : Registry),
    HasRoom s.ledger → Retryable content (crashed firstCall firstChance .builder content point s) := by
  intro h
  refine not_retryable_of_not_intact ?_ (h "improved" (.writing 0) emptyRegistry hasRoom_empty)
  rw [isIntact_crashed_iff]
  intro hwhole
  exact absurd (hwhole 0 rfl) (by decide)

/-- A crash after the file was written. -/
theorem register_retried : Retryable "improved"
    (crashed firstCall firstChance .builder "improved" .published emptyRegistry) :=
  (register_retryable_iff firstCall firstChance .builder "improved" .published emptyRegistry
    hasRoom_empty).2.mpr fun _ h ↦ nomatch h

end HiveMind.Prompts
