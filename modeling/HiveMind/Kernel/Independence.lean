import HiveMind.Kernel.Closeout

/-!
# Missions close out independently, up to their keys

What a closeout finds of a mission depends on the mission's own events only. Each of the loops over
the log gives the same when the other missions' events are left out beforehand, and the mission's
own work items are what its own events reduce to (`reduceEvents_filter`). So two stores that have
the same events of the mission, among whatever else, give the same finding.

Declaring obligations is not independent. The idempotency key of a declaration does not name its
mission, so a mission can declare obligations exactly as long as no other event has been appended
under their digest, and the second mission to declare the same roles and the same evidence is
refused.
-/

open Std (ExtTreeMap)
open Raise Trace HashChain

namespace HiveMind

section Findings

/-! ## The loops over the log -/

theorem Restricts.workOf {m : String} {s t : ProjectionState} (h : Restricts m s t) :
    t.workOf m = s.workOf m := by
  refine ExtTreeMap.ext_getElem? fun w ↦ ?_
  simp only [ProjectionState.workOf, ExtTreeMap.getElem?_map, ExtTreeMap.getElem?_filter', h.work]
  cases s.work[w]? with
  | none => rfl
  | some work => by_cases hm : work.missionId = m <;> simp [Option.filter, hm]

theorem isCreated_filter (m : String) (es : List Event) :
    isCreated m (es.filter (·.missionId = m)) = isCreated m es := by
  simp only [isCreated, List.any_filter]
  congr 1
  funext e
  by_cases hm : e.missionId = m <;> simp [hm]

theorem readDeclarations_filter (m : String) (es : List Event) :
    readDeclarations m (es.filter (·.missionId = m)) = readDeclarations m es := by
  have hfilter : declarationsOf m (es.filter (·.missionId = m)) = declarationsOf m es := by
    rw [declarationsOf, declarationsOf, List.filter_filter]
    congr 1
    funext e
    by_cases hm : e.missionId = m <;> simp [hm]
  rw [readDeclarations, readDeclarations, hfilter]

theorem readVerdicts_filter (m : String) (es : List Event) (f : Shortfall) :
    readVerdicts m (es.filter (·.missionId = m)) f = readVerdicts m es f := by
  rw [readVerdicts, readVerdicts, List.foldlM_filter]
  congr 1
  funext v e
  by_cases hm : e.missionId = m
  · simp [hm]
  · simp only [readVerdict, hm, decide_false, Bool.false_eq_true, if_false, ne_eq,
      not_false_eq_true, if_true]
    rfl

theorem readRoleResults_filter [Hash256] (m : String) (es : List Event) (f : Shortfall) :
    readRoleResults m (es.filter (·.missionId = m)) f = readRoleResults m es f := by
  rw [readRoleResults, readRoleResults, List.foldl_filter]
  congr 1
  funext acc e
  by_cases hm : e.missionId = m <;> simp [readRoleResult, hm]

variable {Directory : Type} {verifiedBundleDigest : Directory → Except CloseoutExc String}
  {directories : String → Option Directory}

/-- Other missions' events are not looked at. -/
theorem closeoutFinding_filter [Hash256] (m : String) (es : List Event)
    (missionWork : ExtTreeMap String WorkState) :
    closeoutFinding verifiedBundleDigest directories m (es.filter (·.missionId = m)) missionWork =
      closeoutFinding verifiedBundleDigest directories m es missionWork := by
  simp only [closeoutFinding, readDeclarations_filter, readRoleResults_filter, readVerdicts_filter]

/-! ## The report -/

/-- Where the log stood does not decide whether a report passes its checks. -/
theorem CloseoutFields.check_congr {r r' : CloseoutFields}
    (hfinding : r.toCloseoutFinding = r'.toCloseoutFinding) (hmission : r.missionId = r'.missionId)
    (h : isDigest r.eventHeadDigest ∧ isDigest r.projectionDigest ∧ isDigest r.reportDigest)
    (h' : isDigest r'.eventHeadDigest ∧ isDigest r'.projectionDigest ∧ isDigest r'.reportDigest) :
    r.check = r'.check := by
  simp only [CloseoutFields.check, hfinding, hmission, h, h', and_self, not_true_eq_false, if_false]

theorem make_of_ok {fields : CloseoutFields} (h : fields.check = .ok ()) :
    TechnicalCloseoutReport.make fields = .ok ⟨fields, h⟩ := by
  rw [TechnicalCloseoutReport.make]
  split
  · rfl
  · next e he => exact nomatch he.symm.trans h

theorem make_of_error {fields : CloseoutFields} {e : Exc} (h : fields.check = .error e) :
    TechnicalCloseoutReport.make fields = .error e := by
  rw [TechnicalCloseoutReport.make]
  split
  · next hok => exact nomatch hok.symm.trans h
  · next e' he => rw [Except.error.inj (he.symm.trans h)]

theorem isDigest_provisionalDigest : isDigest provisionalDigest = true := by decide

/-- A report of the finding that carries no digests of its own. -/
def blankFields (m : String) (finding : CloseoutFinding) : CloseoutFields :=
  { finding with
    missionId := m, eventHeadDigest := provisionalDigest, projectionDigest := provisionalDigest,
    reportDigest := provisionalDigest }

/-- Whether a report can be built, and what it says of the mission, is decided by the finding. -/
theorem closeoutReport_eq [Hash256] {m head projectionDigest : String} {finding : CloseoutFinding}
    (hhead : isDigest head) (hprojection : isDigest projectionDigest) :
    match (blankFields m finding).check with
    | .ok () => ∃ report, closeoutReport m head projectionDigest finding = .ok report ∧
        report.toCloseoutFinding = finding
    | .error e => closeoutReport m head projectionDigest finding = .error e := by
  have hblank := isDigest_provisionalDigest
  -- both of the reports that are built pass exactly when the blank one does
  have hcheck : ∀ reportDigest, isDigest reportDigest → CloseoutFields.check
      { finding with
        missionId := m, eventHeadDigest := head, projectionDigest, reportDigest } =
      (blankFields m finding).check := by
    intro reportDigest hreport
    exact CloseoutFields.check_congr rfl rfl ⟨hhead, hprojection, hreport⟩ ⟨hblank, hblank, hblank⟩
  cases hresult : (blankFields m finding).check with
  | error e =>
    rw [closeoutReport, make_of_error ((hcheck provisionalDigest hblank).trans hresult)]
    rfl
  | ok u =>
    have hfirst := (hcheck provisionalDigest hblank).trans hresult
    have hsecond := fun r ↦
      (hcheck (technicalCloseoutDigest r) (isDigest_jsonDigest _)).trans hresult
    refine ⟨⟨_, hsecond { finding with
      missionId := m, eventHeadDigest := head, projectionDigest,
      reportDigest := provisionalDigest }⟩, ?_, rfl⟩
    rw [closeoutReport, make_of_ok hfirst]
    exact make_of_ok (hsecond _)

/-! ## A run on a store -/

/-- The two runs say the same of the mission: they raise the same, or their reports have the same
finding. -/
def SameFinding (r r' : EStateM.Result CloseoutExc KernelDb TechnicalCloseoutReport) : Prop :=
  match r, r' with
  | .ok report _, .ok report' _ => report.toCloseoutFinding = report'.toCloseoutFinding
  | .error e _, .error e' _ => e = e'
  | _, _ => False

variable [Hash256]

/-- The newest digest of a log that can be read is a digest. -/
theorem isDigest_headDigest {db : KernelDb} (hdb : Intact db) {head : String}
    (h : db.headDigest = some head) : isDigest head = true := by
  obtain ⟨row, hlast, rfl⟩ := Option.map_eq_some_iff.mp h
  have hne : db.events ≠ [] := by
    rintro hnil
    rw [hnil] at hlast
    exact nomatch hlast
  have hlink := linked_getElem hdb.linked (db.events.length - 1)
    (Nat.sub_lt (List.length_pos_iff.mpr hne) Nat.one_pos)
  rw [List.getLast?_eq_getElem?] at hlast
  obtain ⟨hlt, hrow⟩ := List.getElem?_eq_some_iff.mp hlast
  rw [hrow] at hlink
  obtain ⟨-, payload, -, hdigest⟩ := hlink
  obtain ⟨version, -, hversion⟩ := PyValue.map_eq_ok hdigest
  rw [← hversion]
  exact isDigest_jsonDigest _

variable {Directory : Type} {verifiedBundleDigest : Directory → Except CloseoutExc String}
  {directories : String → Option Directory}

omit [Hash256] in
theorem fromStore_eq_ok {α : Type} {x : StoreM α} {a : α} {db db' : KernelDb} :
    fromStore x db = .ok a db' ↔ x db = .ok a db' := by
  rw [fromStore, EStateM.adaptExcept]
  cases x db with
  | ok b t => simp
  | error e t => exact ⟨fun h ↦ (nomatch h), fun h ↦ (nomatch h)⟩

theorem events_eq_ok {db db' : KernelDb} {es : List Event} :
    events db = .ok es db' ↔ readRows none db.events = .ok es ∧ db = db' := by
  simp only [events, run_bind_eq_ok, run_get_eq_ok, run_lift_eq_ok]
  constructor
  · rintro ⟨_, _, ⟨rfl, rfl⟩, h⟩
    exact h
  · intro h
    exact ⟨db, db, ⟨rfl, rfl⟩, h⟩

/-- What a closeout says of a mission, from the history and the mission's work items alone. -/
def closeoutOf (verifiedBundleDigest : Directory → Except CloseoutExc String)
    (directories : String → Option Directory) (m : String) (es : List Event)
    (missionWork : ExtTreeMap String WorkState) : Except CloseoutExc CloseoutFinding := do
  if ¬ isCreated m es then throw (.technicalCloseoutError "closeout mission is unknown")
  let finding ← closeoutFinding verifiedBundleDigest directories m es missionWork
  match (blankFields m finding).check with
  | .ok () => return finding
  | .error e => throw (.other e)

theorem closeoutOf_filter (m : String) (es : List Event)
    (missionWork : ExtTreeMap String WorkState) :
    closeoutOf verifiedBundleDigest directories m (es.filter (·.missionId = m)) missionWork =
      closeoutOf verifiedBundleDigest directories m es missionWork := by
  rw [closeoutOf, closeoutOf, isCreated_filter, closeoutFinding_filter]

variable (verifiedBundleDigest directories) in
/-- A closeout of a mission that was created comes down to the finding and the report. -/
private theorem derive_of_created {db : KernelDb} {es : List Event} {s : ProjectionState}
    (hdb : Intact db) (hread : readRows none db.events = .ok es)
    (hreduce : reduceEvents emptyState es = .ok s) (readOnly : Bool) {m : String}
    (hcreated : isCreated m es) :
    ∃ head projectionDigest, isDigest head ∧ isDigest projectionDigest ∧
      deriveTechnicalCloseout verifiedBundleDigest directories readOnly m db =
        (lift (closeoutFinding verifiedBundleDigest directories m es (s.workOf m)) >>=
          fun finding ↦ fromStore (lift (closeoutReport m head projectionDigest finding))) db := by
  obtain ⟨es', s', hread', hreduce', hshows⟩ := hdb.log
  obtain rfl := Except.ok.inj (hread.symm.trans hread')
  obtain rfl := Except.ok.inj (hreduce.symm.trans hreduce')
  have hevents : events db = .ok es db := events_eq_ok.mpr ⟨hread, rfl⟩
  have hprojection := projection_eq_view hread hreduce hshows readOnly
  have hne : db.events ≠ [] := by
    intro hnil
    rw [hnil] at hread
    obtain rfl := Except.ok.inj hread
    exact nomatch hcreated
  have hhead : db.headDigest = some (db.events.getLast hne).digest := by
    rw [KernelDb.headDigest, List.getLast?_eq_some_getLast hne, Option.map_some]
  refine ⟨_, stateDigest (s.view readOnly), isDigest_headDigest hdb hhead, isDigest_jsonDigest _,
    ?_⟩
  have hget : (get : CloseoutM KernelDb) db = .ok db db := rfl
  rw [deriveTechnicalCloseout, run_bind_of_ok (fromStore_eq_ok.mpr hevents),
    if_neg (not_not.mpr hcreated)]
  dsimp only
  rw [run_bind_of_ok (fromStore_eq_ok.mpr hprojection), run_bind_of_ok hget, hhead,
    s.workOf_view]

variable (verifiedBundleDigest directories) in
/-- A closeout on an intact store says what its history and the projection of it say. -/
theorem deriveTechnicalCloseout_eq {db : KernelDb} {es : List Event} {s : ProjectionState}
    (hdb : Intact db) (hread : readRows none db.events = .ok es)
    (hreduce : reduceEvents emptyState es = .ok s) (readOnly : Bool) (m : String) :
    match closeoutOf verifiedBundleDigest directories m es (s.workOf m) with
    | .ok finding => ∃ report,
        deriveTechnicalCloseout verifiedBundleDigest directories readOnly m db = .ok report db ∧
          report.toCloseoutFinding = finding
    | .error e =>
      deriveTechnicalCloseout verifiedBundleDigest directories readOnly m db = .error e db := by
  by_cases hcreated : isCreated m es
  · obtain ⟨head, projectionDigest, hhead, hprojection, hrun⟩ := derive_of_created
      verifiedBundleDigest directories hdb hread hreduce readOnly hcreated
    rw [closeoutOf, if_neg (not_not.mpr hcreated), hrun]
    cases hfinding : closeoutFinding verifiedBundleDigest directories m es (s.workOf m) with
    | error e => rfl
    | ok finding =>
      have hreport := @closeoutReport_eq _ m _ _ finding hhead hprojection
      simp only [ok_bind]
      cases hcheck : (blankFields m finding).check with
      | error e =>
        rw [hcheck] at hreport
        change fromStore (lift (closeoutReport m head projectionDigest finding)) db = _
        rw [hreport]
        rfl
      | ok u =>
        rw [hcheck] at hreport
        obtain ⟨report, hreport, hstated⟩ := hreport
        refine ⟨report, ?_, hstated⟩
        change fromStore (lift (closeoutReport m head projectionDigest finding)) db = _
        rw [hreport]
        rfl
  · have hevents : events db = .ok es db := events_eq_ok.mpr ⟨hread, rfl⟩
    rw [closeoutOf, if_pos hcreated, deriveTechnicalCloseout,
      run_bind_of_ok (fromStore_eq_ok.mpr hevents), if_pos hcreated]
    rfl

/-- Two stores with the same events of a mission say the same of it. -/
theorem sameFinding_of_filter_eq {db db' : KernelDb} {es es' : List Event} {m : String}
    (hdb : Intact db) (hdb' : Intact db') (hread : readRows none db.events = .ok es)
    (hread' : readRows none db'.events = .ok es')
    (hfilter : es.filter (·.missionId = m) = es'.filter (·.missionId = m))
    (readOnly readOnly' : Bool) :
    SameFinding (deriveTechnicalCloseout verifiedBundleDigest directories readOnly m db)
      (deriveTechnicalCloseout verifiedBundleDigest directories readOnly' m db') := by
  obtain ⟨_, s, hread₁, hreduce, -⟩ := hdb.log
  obtain rfl := Except.ok.inj (hread.symm.trans hread₁)
  obtain ⟨_, s', hread₂, hreduce', -⟩ := hdb'.log
  obtain rfl := Except.ok.inj (hread'.symm.trans hread₂)
  -- the mission's own events reduce to one and the same part of the two projections
  obtain ⟨t, ht, hpart⟩ := reduceEvents_filter (restricts_emptyState m) hreduce
  obtain ⟨t', ht', hpart'⟩ := reduceEvents_filter (restricts_emptyState m) hreduce'
  rw [← hfilter] at ht'
  obtain rfl := Except.ok.inj (ht.symm.trans ht')
  have hstated : closeoutOf verifiedBundleDigest directories m es (s.workOf m) =
      closeoutOf verifiedBundleDigest directories m es' (s'.workOf m) := by
    rw [← closeoutOf_filter, hfilter, closeoutOf_filter, ← hpart.workOf, hpart'.workOf]
  have hrun := deriveTechnicalCloseout_eq verifiedBundleDigest directories hdb hread hreduce
    readOnly m
  have hrun' := deriveTechnicalCloseout_eq verifiedBundleDigest directories hdb' hread' hreduce'
    readOnly' m
  rw [hstated] at hrun
  cases houtcome : closeoutOf verifiedBundleDigest directories m es' (s'.workOf m) with
  | error e =>
    rw [houtcome] at hrun hrun'
    rw [hrun, hrun']
    rfl
  | ok finding =>
    rw [houtcome] at hrun hrun'
    obtain ⟨report, hreport, hfinding⟩ := hrun
    obtain ⟨report', hreport', hfinding'⟩ := hrun'
    rw [hreport, hreport']
    exact hfinding.trans hfinding'.symm

end Findings

/-! ## Declarations -/

section Declarations

/-- The arguments that a declaration may be made with. -/
structure ValidObligations (requiredRoles : List String)
    (historicalEvidence : List HistoricalEvidenceReference) (actorId : String) : Prop where
  nonempty : requiredRoles ≠ []
  unique : requiredRoles.Nodup
  registered : ∀ role ∈ requiredRoles, role ∈ kernelImplementedRoles
  distinct : (historicalEvidence.map HistoricalEvidenceReference.receiptRef).Nodup
  actor : actorId ≠ ""

def HistoricalEvidenceReference.toJson (r : HistoricalEvidenceReference) : Json :=
  .obj (r.toDocument.map fun m ↦ (m.1, .str m.2))

theorem fromDocument_toJson (r : HistoricalEvidenceReference) :
    HistoricalEvidenceReference.fromDocument r.toJson = .ok r := by
  obtain ⟨href, hdigest, hlabel, hnote⟩ := r.valid
  have hschema : validateContract historicalEvidenceSchema
      (r.toDocument.map fun m ↦ (m.1, .str m.2)) = [] := by
    refine validateContract_eq_nil ?_ (by simp [HistoricalEvidenceReference.toDocument,
      historicalEvidenceSchema])
    simp only [historicalEvidenceSchema, List.forall_mem_cons, List.not_mem_nil, false_implies,
      implies_true, and_true]
    exact ⟨⟨_, rfl, validateNode_string (admits_nonEmpty href)⟩,
      ⟨_, rfl, validateNode_string (admits_digest hdigest)⟩,
      ⟨_, rfl, validateNode_string (admits_nonEmpty hlabel)⟩,
      ⟨_, rfl, validateNode_string (admits_nonEmpty hnote)⟩⟩
  rw [HistoricalEvidenceReference.toJson, HistoricalEvidenceReference.fromDocument]
  simp only [hschema]
  simp [HistoricalEvidenceReference.toDocument, HistoricalEvidenceReference.make,
    Json.lookup_cons, Json.asStr?, r.valid]

/-- The payload of a declaration, as a reader sees it. -/
def obligationsDocument (requiredRoles : List String)
    (historicalEvidence : List HistoricalEvidenceReference) : List (String × Json) := [
  ("historical_evidence", .arr (historicalEvidence.map HistoricalEvidenceReference.toJson)),
  ("required_roles", .arr (requiredRoles.map .str))]

theorem plain_obligationsPayload (requiredRoles : List String)
    (historicalEvidence : List HistoricalEvidenceReference) :
    (PyValue.dict (obligationsPayload requiredRoles historicalEvidence)).plain =
      .ok (.obj (obligationsDocument requiredRoles historicalEvidence)) := by
  have hevidence : PyValue.plainList (historicalEvidence.map fun r ↦
      .dict (r.toDocument.map fun m ↦ (m.1, .str m.2))) =
      .ok (historicalEvidence.map HistoricalEvidenceReference.toJson) := by
    induction historicalEvidence with
    | nil => rfl
    | cons r rest ih =>
      have hdocument : (PyValue.dict (r.toDocument.map fun m ↦ (m.1, .str m.2))).plain =
          .ok r.toJson := by
        refine plain_dict_str ?_
        change ["provenance_label", "receipt_digest", "receipt_ref", "retention_note"].Pairwise
          (· < ·)
        decide
      rw [List.map_cons, PyValue.plainList, hdocument, ih]
      rfl
  have horder : "historical_evidence" < "required_roles" := by decide
  have hsorted : ∀ roles evidence : Json,
      Json.mkObj [("required_roles", roles), ("historical_evidence", evidence)] =
        .obj [("historical_evidence", evidence), ("required_roles", roles)] := by
    intro roles evidence
    rw [Json.mkObj, List.foldl_cons, List.foldl_cons, List.foldl_nil, Json.insertMember,
      Json.insertMember, if_pos horder]
  simp only [obligationsPayload, PyValue.plain, PyValue.plainItems, plainList_str, hevidence,
    Except.map, hsorted]
  rw [obligationsDocument]

theorem checkObligations_obligationsDocument {requiredRoles : List String}
    {historicalEvidence : List HistoricalEvidenceReference} {actorId : String}
    (h : ValidObligations requiredRoles historicalEvidence actorId) (head : EventHead) :
    checkObligations ⟨head, obligationsDocument requiredRoles historicalEvidence⟩ = .ok () := by
  have hreferences : (historicalEvidence.map HistoricalEvidenceReference.toJson).mapM
      (fun item ↦ (HistoricalEvidenceReference.fromDocument item).toOption) =
      some historicalEvidence := by
    rw [List.mapM_map]
    clear h
    induction historicalEvidence with
    | nil => rfl
    | cons r rest ih =>
      rw [List.mapM_cons, ih]
      simp only [Function.comp, fromDocument_toJson]
      rfl
  have hnodup : (requiredRoles.map Json.str).Nodup := h.unique.map fun _ _ heq ↦ Json.str.inj heq
  have hroles : Event.get ⟨head, obligationsDocument requiredRoles historicalEvidence⟩
      "required_roles" = .arr (requiredRoles.map .str) := by
    simp [Event.get, obligationsDocument, Json.lookup_cons]
  have hevidence : Event.get ⟨head, obligationsDocument requiredRoles historicalEvidence⟩
      "historical_evidence" =
      .arr (historicalEvidence.map HistoricalEvidenceReference.toJson) := by
    simp [Event.get, obligationsDocument]
  have hregistered : (requiredRoles.map Json.str).all
      (fun role ↦ roleNames.any fun name ↦ role = .str name) = true := by
    simp only [List.all_map, List.all_eq_true, Function.comp, List.any_eq_true,
      decide_eq_true_eq]
    exact fun role hrole ↦ ⟨role, h.registered role hrole, rfl⟩
  have hhashable : (requiredRoles.map Json.str).all Json.isHashable = true := by
    simp [Json.isHashable]
  have hne : requiredRoles.map Json.str ≠ [] := by simpa using h.nonempty
  rw [checkObligations, hroles, hevidence]
  simp only [hne, hhashable, hnodup, hregistered, hreferences, h.distinct, orRaise, if_false,
    Bool.not_true, Bool.false_eq_true, not_true_eq_false, ok_bind]
  rfl

variable [Hash256]

/-- The digest of declared obligations, under which a declaration is appended. -/
def obligationsDigest (requiredRoles : List String)
    (historicalEvidence : List HistoricalEvidenceReference) : String :=
  jsonDigest (.obj (obligationsDocument requiredRoles historicalEvidence))

theorem canonicalDigest_obligationsPayload (requiredRoles : List String)
    (historicalEvidence : List HistoricalEvidenceReference) :
    canonicalDigest (.dict (obligationsPayload requiredRoles historicalEvidence)) =
      .ok (obligationsDigest requiredRoles historicalEvidence) := by
  rw [canonicalDigest, plain_obligationsPayload]
  rfl

/-- What a declaration needs of the store: the digest of the obligations is not the key of an event,
the id of the declaration is not that of an event, and the row is one that the table has room
for. -/
structure Unclaimed (db : KernelDb) (m : String) (requiredRoles : List String)
    (historicalEvidence : List HistoricalEvidenceReference) (actorId : String) : Prop where
  key : obligationsDigest requiredRoles historicalEvidence ∉ db.idempotency
  eventId : (obligationsHead m actorId
      (obligationsDigest requiredRoles historicalEvidence)).eventId ∉
    db.events.map (·.head.eventId)
  digest : ∀ digest, (obligationsHead m actorId
      (obligationsDigest requiredRoles historicalEvidence)).digestFor
        (.obj (obligationsDocument requiredRoles historicalEvidence)) db.headDigest = .ok digest →
    digest ∉ db.events.map EventRow.digest
  room : db.events.length + 1 < sqliteIntegerBound

/-- The mission has declared obligations. -/
def isDeclared (m : String) (es : List Event) : Bool := !(declarationsOf m es).isEmpty

omit [Hash256] in
theorem isValid_obligationsHead {m actorId : String} (digest : String) (hm : m ≠ "")
    (hactor : actorId ≠ "") : (obligationsHead m actorId digest).isValid = true := by
  have hid : "closeout-obligations:" ++ m ++ ":" ++ digest ≠ "" := by
    intro h
    have hlist := congrArg String.toList h
    rw [String.toList_append, String.toList_append] at hlist
    have hcolon : ":".toList = [] :=
      (List.append_eq_nil_iff.mp (List.append_eq_nil_iff.mp hlist).1).2
    exact absurd hcolon (by decide)
  have htype : "closeout.obligations.declared" ≠ "" := by decide
  have htime : "1970-01-01T00:00:00Z" ≠ "" := by decide
  rw [EventHead.isValid]
  simp only [Bool.and_eq_true, decide_eq_true_eq]
  exact ⟨⟨⟨⟨⟨hid, hm⟩, htype⟩, hactor⟩, htime⟩, le_refl 1⟩

/-- What a reader sees of the rows are their heads, which are valid. -/
theorem heads_of_readRows {previous : Option String} {rows : List EventRow} {es : List Event}
    (h : readRows previous rows = .ok es) :
    es.map Event.toEventHead = rows.map EventRow.head ∧ ∀ e ∈ es, e.isValid = true := by
  induction rows generalizing previous es with
  | nil =>
    obtain rfl := Except.ok.inj h
    exact ⟨rfl, nofun⟩
  | cons row rows ih =>
    obtain ⟨e, es', he, hes', rfl⟩ := readRows_cons_eq_ok.mp h
    obtain ⟨payload, -, hvalid, -, -, rfl⟩ := readRow_eq_ok.mp he
    obtain ⟨hheads, hall⟩ := ih hes'
    exact ⟨congrArg (row.head :: ·) hheads, List.forall_mem_cons.mpr ⟨hvalid, hall⟩⟩

omit [Hash256] in
theorem exists_of_isCreated {m : String} {es : List Event} (h : isCreated m es) :
    ∃ e ∈ es, e.missionId = m ∧ e.eventType = "mission.created" := by
  simpa [isCreated] using h

/-- A mission that was created is in the projection. -/
theorem mem_missions_of_isCreated {es : List Event} {s : ProjectionState} {m : String}
    (hreduce : reduceEvents emptyState es = .ok s) (hcreated : isCreated m es) :
    m ∈ s.missions := by
  revert hcreated
  refine history_invariant (fun es s ↦ isCreated m es → m ∈ s.missions) (by rintro ⟨⟩) ?_ hreduce
  intro es s e s' ih hstep hcreated
  rw [isCreated, List.any_append, Bool.or_eq_true] at hcreated
  rcases hcreated with hbefore | hnow
  · -- missions stay
    rw [ExtTreeMap.mem_iff_isSome_getElem?, ← Option.ne_none_iff_isSome]
    have hmem := ih hbefore
    rw [ExtTreeMap.mem_iff_isSome_getElem?, ← Option.ne_none_iff_isSome] at hmem
    exact fun hnone ↦ hmem ((reduceEvent_eq_ok.mp hstep).keeps.1 m hnone)
  · obtain ⟨rfl, htype⟩ : e.missionId = m ∧ e.eventType = "mission.created" := by
      simpa using hnow
    have hkind : e.kind = some .missionCreated := by
      rw [Event.kind, EventKind.ofType, if_pos htype]
    rw [reduceEvent, hkind] at hstep
    simp only [createMission] at hstep
    split at hstep
    · cases hstep
    · obtain rfl := Except.ok.inj hstep
      exact ExtTreeMap.mem_insert_self

/-- The entry that a declaration asks to append. -/
def obligationsEntry (db : KernelDb) (m : String) (requiredRoles : List String)
    (historicalEvidence : List HistoricalEvidenceReference) (actorId : String)
    (valid : (obligationsHead m actorId
      (obligationsDigest requiredRoles historicalEvidence)).isValid = true) : KernelEvent :=
  ⟨obligationsHead m actorId (obligationsDigest requiredRoles historicalEvidence),
    obligationsPayload requiredRoles historicalEvidence, db.headDigest, valid⟩

/-- With valid arguments and for a mission that was created, a declaration is one append. -/
theorem declare_eq {db : KernelDb} {es : List Event} {m actorId : String}
    {requiredRoles : List String} {historicalEvidence : List HistoricalEvidenceReference}
    (hread : readRows none db.events = .ok es) (hcreated : isCreated m es)
    (hargs : ValidObligations requiredRoles historicalEvidence actorId) :
    ∃ valid, declareCloseoutObligations false m requiredRoles historicalEvidence actorId db =
      fromStore (append false (obligationsEntry db m requiredRoles historicalEvidence actorId valid)
        none "1970-01-01T00:00:00Z" (some (obligationsDigest requiredRoles historicalEvidence)))
        db := by
  have hm : m ≠ "" := by
    obtain ⟨e, he, rfl, -⟩ := exists_of_isCreated hcreated
    have hvalid := (heads_of_readRows hread).2 e he
    simp only [EventHead.isValid, Bool.and_eq_true, decide_eq_true_eq] at hvalid
    exact hvalid.1.1.1.1.2
  have hvalid := isValid_obligationsHead (obligationsDigest requiredRoles historicalEvidence) hm
    hargs.actor
  have hevents : events db = .ok es db := events_eq_ok.mpr ⟨hread, rfl⟩
  have hregistered : ¬requiredRoles.any (fun role ↦ role ∉ kernelImplementedRoles) = true := by
    simpa using hargs.registered
  have hdigest : fromStore (lift (canonicalDigest
      (.dict (obligationsPayload requiredRoles historicalEvidence)))) db =
      .ok (obligationsDigest requiredRoles historicalEvidence) db := by
    rw [canonicalDigest_obligationsPayload]
    rfl
  have hget : (get : CloseoutM KernelDb) db = .ok db db := rfl
  refine ⟨hvalid, ?_⟩
  rw [declareCloseoutObligations, if_neg (by simp [hargs.nonempty, hargs.unique]),
    if_neg hregistered, if_neg (not_not.mpr hargs.distinct)]
  dsimp only
  rw [run_bind_of_ok (fromStore_eq_ok.mpr hevents), if_neg (not_not.mpr hcreated),
    run_bind_of_ok hdigest, run_bind_of_ok hget, dif_pos hvalid]
  rfl

/-- One entry is appended if it is fresh and its row fits, and a call that appends an entry found it
stored or fresh. -/
theorem append_cases {db db' : KernelDb} {event : KernelEvent} {key : String} {recordedAt : String}
    {n : Nat} (hdb : Intact db)
    (h : append false event none recordedAt (some key) db = .ok n db') :
    (∃ sequence, StoredAt db event (some key) sequence) ∨
      Fresh db event (some key) ∧ ∃ row, rowOf recordedAt (db.events.length + 1)
        (tip EventRow.digest none db.events) event = .ok row ∧ row.Fits db := by
  rw [append, run_bind_eq_ok] at h
  obtain ⟨sequences, _, hbatch, -⟩ := h
  obtain ⟨-, ⟨hnil, -⟩ | ⟨-, -, -, hlocked⟩⟩ := appendBatch_ok_iff.mp hbatch
  · cases hnil
  simp only [appendLocked, run_bind_eq_ok, run_get_eq_ok, run_guard_eq_ok, run_lift_eq_ok]
    at hlocked
  obtain ⟨_, _, ⟨rfl, rfl⟩, -, existing, _, ⟨hexisting, rfl⟩, hrun⟩ := hlocked
  obtain ⟨found, _, hfound, hrest, rfl⟩ := List.forall₂_cons_left_iff.mp (mapM_eq_ok.mp hexisting)
  obtain rfl := List.forall₂_nil_left_iff.mp hrest
  rcases existingSequence_eq_ok.mp hfound with ⟨rfl, hfresh⟩ | ⟨sequence, rfl, hstored⟩
  · refine .inr ⟨hfresh, ?_⟩
    rw [if_neg (by simp), lastSequence_eq hdb.sequences] at hrun
    have htip : db.events.getLast?.map EventRow.digest = tip EventRow.digest none db.events :=
      (Option.or_none).symm
    rw [htip, insertEvents] at hrun
    simp only [run_bind_eq_ok] at hrun
    obtain ⟨_, _, ⟨_, _, hinsert, -⟩, -⟩ := hrun
    obtain ⟨row, -, hrow, -, hfits, -⟩ := insertEvent_eq_ok.mp hinsert
    exact ⟨row, hrow, hfits⟩
  · exact .inl ⟨sequence, hstored⟩

/-- A fresh entry is appended if its event is chained, has a new digest, and reduces. -/
theorem append_of_fresh {db : KernelDb} {event : KernelEvent} {key recordedAt : String}
    {row : EventRow} {es : List Event} {e : Event} {s s' : ProjectionState} (hdb : Intact db)
    (hfresh : Fresh db event (some key))
    (hprevious : event.previousDigest = tip EventRow.digest none db.events)
    (hrow : rowOf recordedAt (db.events.length + 1) (tip EventRow.digest none db.events) event =
      .ok row)
    (hnew : row.digest ∉ db.events.map EventRow.digest)
    (hversion : event.eventVersion < sqliteIntegerBound)
    (hroom : db.events.length + 1 < sqliteIntegerBound)
    (hread : readRows none db.events = .ok es) (hreads : ReadsAs (event, some key) e)
    (hreduce : reduceEvents emptyState es = .ok s) (hstep : reduceEvent s e = .ok s') :
    ∃ db', append false event none recordedAt (some key) db = .ok (db.events.length + 1) db' ∧
      db'.events = db.events ++ [row] := by
  have hrows : Inserts recordedAt db.events.length (tip EventRow.digest none db.events)
      [(event, some key)] [row] := ⟨hprevious, hrow, trivial⟩
  have hne : [(event, some key)] ≠ [] := List.cons_ne_nil _ _
  have hkeys : ([(event, some key)].filterMap Prod.snd).Nodup := List.nodup_singleton key
  obtain ⟨db', hbatch, hevents⟩ := appendBatch_of_fresh hdb hne (List.nodup_singleton _) hkeys
    (List.forall_mem_singleton.mpr hfresh) (List.forall_mem_singleton.mpr hversion) hroom hrows
    (List.nodup_singleton _) (List.forall_mem_singleton.mpr hnew) hread (.cons hreads .nil)
    (foldlM_concat_eq_ok.mpr ⟨s, hreduce, hstep⟩)
  refine ⟨db', ?_, hevents⟩
  rw [append, run_bind_of_ok hbatch]
  rfl

/-- A declaration as a reader sees it. -/
def declaration (m actorId : String) (requiredRoles : List String)
    (historicalEvidence : List HistoricalEvidenceReference) : Event :=
  ⟨obligationsHead m actorId (obligationsDigest requiredRoles historicalEvidence),
    obligationsDocument requiredRoles historicalEvidence⟩

/-- Unclaimed obligations are declared: the event is appended and its key bound. -/
theorem declare_of_unclaimed {db : KernelDb} {es : List Event} {m actorId : String}
    {requiredRoles : List String} {historicalEvidence : List HistoricalEvidenceReference}
    (hdb : Intact db) (hread : readRows none db.events = .ok es) (hcreated : isCreated m es)
    (hargs : ValidObligations requiredRoles historicalEvidence actorId)
    (h : Unclaimed db m requiredRoles historicalEvidence actorId) :
    ∃ call n db', declareCloseoutObligations false m requiredRoles historicalEvidence actorId db =
        .ok n db' ∧ AppendCall.after call db = db' ∧
      readRows none db'.events =
        .ok (es ++ [declaration m actorId requiredRoles historicalEvidence]) ∧
      obligationsDigest requiredRoles historicalEvidence ∈ db'.idempotency := by
  obtain ⟨valid, hrun⟩ := declare_eq hread hcreated hargs
  have hplain := plain_obligationsPayload requiredRoles historicalEvidence
  have htip : db.headDigest = tip EventRow.digest none db.events := (Option.or_none).symm
  obtain ⟨_, s, hread', hreduce, -⟩ := hdb.log
  obtain rfl := Except.ok.inj (hread.symm.trans hread')
  have hkind : EventKind.ofType "closeout.obligations.declared" =
      some .closeoutObligationsDeclared := by decide
  have hstep : ReduceStep s (declaration m actorId requiredRoles historicalEvidence) s :=
    .obligations hkind (mem_missions_of_isCreated hreduce hcreated) rfl
      (checkObligations_obligationsDocument hargs _)
  have hreads : ReadsAs (obligationsEntry db m requiredRoles historicalEvidence actorId valid,
      some (obligationsDigest requiredRoles historicalEvidence))
      (declaration m actorId requiredRoles historicalEvidence) := ⟨rfl, hplain⟩
  have hversion : (PyValue.int ((1 : ℕ) : ℤ)).plain = .ok (.int 1) := rfl
  obtain ⟨row, hrow⟩ := exists_rowOf "1970-01-01T00:00:00Z" (db.events.length + 1)
    (tip EventRow.digest none db.events) hreads hversion
  have hnew : row.digest ∉ db.events.map EventRow.digest := by
    have hrow' := hrow
    simp only [rowOf, bind_eq_ok, pure_eq_ok] at hrow'
    obtain ⟨digest, hdigest, _, -, rfl⟩ := hrow'
    rw [KernelEvent.digestFor, obligationsEntry, hplain, ← htip] at hdigest
    exact h.digest digest hdigest
  have hfresh : Fresh db (obligationsEntry db m requiredRoles historicalEvidence actorId valid)
      (some (obligationsDigest requiredRoles historicalEvidence)) :=
    ⟨ExtTreeMap.getElem?_eq_none h.key, h.eventId⟩
  have hone : 1 < sqliteIntegerBound := by decide
  obtain ⟨db', hdb', hevents⟩ := append_of_fresh hdb hfresh htip hrow hnew hone h.room hread hreads
    hreduce (reduceEvent_eq_ok.mpr hstep)
  have hcall : (AppendCall.append false
      (obligationsEntry db m requiredRoles historicalEvidence actorId valid) none
      "1970-01-01T00:00:00Z" (some (obligationsDigest requiredRoles historicalEvidence))).run db =
      .ok [db.events.length + 1] db' := by
    rw [AppendCall.run, run_bind_of_ok hdb']
    rfl
  refine ⟨_, _, db', hrun.trans (fromStore_eq_ok.mpr hdb'), by rw [AppendCall.after, hcall], ?_, ?_⟩
  · have hrows : Inserts "1970-01-01T00:00:00Z" db.events.length
        (tip EventRow.digest none db.events)
        [(obligationsEntry db m requiredRoles historicalEvidence actorId valid,
          some (obligationsDigest requiredRoles historicalEvidence))] [row] := ⟨htip, hrow, trivial⟩
    obtain ⟨es', hes', hreads'⟩ := readRows_of_inserts hrows
    obtain rfl := eq_of_readsAs (.cons hreads .nil) hreads'
    rw [hevents]
    exact readRows_append hread hes'
  · rcases (AppendCall.run_eq_ok hdb hcall).2 with rfl | happends
    · -- a call that appended did not leave the store as it was
      exact absurd hevents (by simp)
    · rw [happends.idempotency]
      exact ExtTreeMap.mem_insert_self

/-- **A mission that was created and has not declared obligations can declare them exactly when they
are unclaimed.** -/
theorem declare_iff {db : KernelDb} {es : List Event} {m actorId : String}
    {requiredRoles : List String} {historicalEvidence : List HistoricalEvidenceReference}
    (hdb : Intact db) (hread : readRows none db.events = .ok es) (hcreated : isCreated m es)
    (hundeclared : ¬isDeclared m es)
    (hargs : ValidObligations requiredRoles historicalEvidence actorId) :
    (∃ n db', declareCloseoutObligations false m requiredRoles historicalEvidence actorId db =
      .ok n db') ↔ Unclaimed db m requiredRoles historicalEvidence actorId := by
  obtain ⟨valid, hrun⟩ := declare_eq hread hcreated hargs
  rw [hrun]
  have hplain := plain_obligationsPayload requiredRoles historicalEvidence
  have htip : db.headDigest = tip EventRow.digest none db.events := (Option.or_none).symm
  constructor
  · rintro ⟨n, db', h⟩
    rcases append_cases hdb (fromStore_eq_ok.mp h) with
      ⟨sequence, hstored⟩ | ⟨hfresh, row, hrow, hfits⟩
    · -- the entry cannot be stored, since the mission would have declared obligations
      obtain ⟨row, hfind, hmatches, -⟩ := hstored.row
      obtain ⟨-, -, hhead, -⟩ := storedEventMatches_eq_ok.mp hmatches
      have hmem : row.head ∈ es.map Event.toEventHead := by
        rw [(heads_of_readRows hread).1]
        exact List.mem_map_of_mem (List.mem_of_find?_eq_some hfind)
      obtain ⟨e, he, heq⟩ := List.mem_map.mp hmem
      refine absurd ?_ hundeclared
      have hdeclaration : e ∈ declarationsOf m es := by
        rw [declarationsOf, List.mem_filter]
        refine ⟨he, ?_⟩
        have hmission : e.missionId = m := congrArg EventHead.missionId (heq.trans hhead)
        have htype : e.eventType = "closeout.obligations.declared" :=
          congrArg EventHead.eventType (heq.trans hhead)
        exact decide_eq_true ⟨hmission, htype⟩
      simpa [isDeclared] using List.ne_nil_of_mem hdeclaration
    · obtain ⟨hhead, hsequence⟩ := eventId_of_rowOf hrow
      refine ⟨?_, hfresh.eventId, ?_, ?_⟩
      · have hunbound :
            db.idempotency[obligationsDigest requiredRoles historicalEvidence]? = none :=
          hfresh.unbound
        rw [ExtTreeMap.mem_iff_isSome_getElem?, hunbound]
        exact Bool.false_ne_true
      · intro digest hdigest
        simp only [rowOf, bind_eq_ok, pure_eq_ok] at hrow
        obtain ⟨digest', hdigest', _, -, rfl⟩ := hrow
        rw [KernelEvent.digestFor, obligationsEntry, hplain, ← htip] at hdigest'
        obtain rfl := Except.ok.inj (hdigest.symm.trans hdigest')
        exact hfits.digest
      · have hbound := hfits.bounds.2
        rwa [hsequence] at hbound
  · intro h
    obtain ⟨_, n, db', hdeclared, -⟩ := declare_of_unclaimed hdb hread hcreated hargs h
    exact ⟨n, db', hrun ▸ hdeclared⟩

end Declarations

/-! ## Independence -/

/-- **After any calls of `append` and `append_batch`: a mission that was created and has not
declared obligations can declare valid ones exactly when they are unclaimed. And what a closeout
says of a mission, on any two such stores, depends on the mission's own events only.** -/
theorem closeouts_independent [Hash256] {Directory : Type}
    (verifiedBundleDigest : Directory → Except CloseoutExc String)
    (directories : String → Option Directory) :
    (∀ (calls : List AppendCall) (es : List Event) (m actorId : String)
        (requiredRoles : List String) (historicalEvidence : List HistoricalEvidenceReference),
      events (afterAppends calls) = .ok es (afterAppends calls) → isCreated m es →
      ¬isDeclared m es → ValidObligations requiredRoles historicalEvidence actorId →
      ((∃ n db', declareCloseoutObligations false m requiredRoles historicalEvidence actorId
          (afterAppends calls) = .ok n db') ↔
        Unclaimed (afterAppends calls) m requiredRoles historicalEvidence actorId)) ∧
    ∀ (calls calls' : List AppendCall) (es es' : List Event) (m : String)
        (readOnly readOnly' : Bool),
      events (afterAppends calls) = .ok es (afterAppends calls) →
      events (afterAppends calls') = .ok es' (afterAppends calls') →
      es.filter (·.missionId = m) = es'.filter (·.missionId = m) →
      SameFinding
        (deriveTechnicalCloseout verifiedBundleDigest directories readOnly m (afterAppends calls))
        (deriveTechnicalCloseout verifiedBundleDigest directories readOnly' m
          (afterAppends calls')) := by
  constructor
  · intro calls es m actorId requiredRoles historicalEvidence hevents hcreated hundeclared hargs
    exact declare_iff (intact_afterAppends calls) (events_eq_ok.mp hevents).1 hcreated hundeclared
      hargs
  · intro calls calls' es es' m readOnly readOnly' hevents hevents' hfilter
    exact sameFinding_of_filter_eq (intact_afterAppends calls) (intact_afterAppends calls')
      (events_eq_ok.mp hevents).1 (events_eq_ok.mp hevents').1 hfilter readOnly readOnly'

/-! ## Two missions that declare the same -/

/-- The creation of a mission. -/
def missionEvent (eventId missionId : String) : Event :=
  ⟨⟨eventId, missionId, "mission.created", "orchestrator", "2026-01-01T00:00:00Z", none, none,
    some "orchestrator", 1⟩, []⟩

def missionEntry (eventId missionId : String)
    (valid : (missionEvent eventId missionId).isValid = true) : KernelEvent :=
  textEvent (missionEvent eventId missionId).toEventHead [] valid

private def twoMissions : List Event :=
  [missionEvent "EVENT-1" "MISSION-1", missionEvent "EVENT-2" "MISSION-2"]

private def oneMission : List Event := [missionEvent "EVENT-2" "MISSION-2"]

private theorem exists_twoMissions :
    ∃ calls, readRows none (afterAppends calls).events = .ok twoMissions ∧
      (afterAppends calls).events.map EventRow.digest =
        (chainHex none twoMissions).map digestOfHex ∧
      (afterAppends calls).idempotency = ∅ := by
  have hreads : List.Forall₂ (fun event e ↦ ReadsAs (event, none) e)
      [missionEntry "EVENT-1" "MISSION-1" (by decide),
        missionEntry "EVENT-2" "MISSION-2" (by decide)]
      twoMissions :=
    .cons (readsAs_textEvent .nil) (.cons (readsAs_textEvent .nil) .nil)
  have hreduce : reduceEvents emptyState twoMissions = .ok _ :=
    foldlM_cons_eq_ok.mpr ⟨_, reduceEvent_eq_ok.mpr (.missionCreated rfl (by simp [emptyState])),
      foldlM_cons_eq_ok.mpr ⟨_, reduceEvent_eq_ok.mpr (.missionCreated rfl
        (by rw [Maps.getElem?_insert]; simp [missionEvent, emptyState])), rfl⟩⟩
  exact exists_chained_calls "1970-01-01T00:00:00Z" (List.cons_ne_nil _ _) hreads (by decide)
    (by decide) (by decide) (by decide +kernel) hreduce

private theorem exists_oneMission :
    ∃ calls, readRows none (afterAppends calls).events = .ok oneMission := by
  have hreads : List.Forall₂ (fun event e ↦ ReadsAs (event, none) e)
      [missionEntry "EVENT-2" "MISSION-2" (by decide)] oneMission :=
    .cons (readsAs_textEvent .nil) .nil
  have hreduce : reduceEvents emptyState oneMission = .ok _ :=
    foldlM_cons_eq_ok.mpr
      ⟨_, reduceEvent_eq_ok.mpr (.missionCreated rfl (by simp [emptyState])), rfl⟩
  exact exists_calls "1970-01-01T00:00:00Z" (List.cons_ne_nil _ _) hreads (by decide)
    (by decide) (by decide) (List.nodup_singleton _) hreduce

private theorem validObligations_default :
    ValidObligations kernelImplementedRoles [] "orchestrator:local-closeout" where
  nonempty := by decide
  unique := by decide
  registered := fun _ h ↦ h
  distinct := List.nodup_nil
  actor := by decide

/-- The second of two missions, next to the first one and alone. -/
theorem closeouts_independent_second :
    ∃ calls calls',
      ((∃ n db', declareCloseoutObligations false "MISSION-2" kernelImplementedRoles []
          "orchestrator:local-closeout" (afterAppends calls) = .ok n db') ↔
        Unclaimed (afterAppends calls) "MISSION-2" kernelImplementedRoles []
          "orchestrator:local-closeout") ∧
      SameFinding
        (deriveTechnicalCloseout (fun _ : Unit ↦ .ok "") (fun _ ↦ none) false "MISSION-2"
          (afterAppends calls))
        (deriveTechnicalCloseout (fun _ : Unit ↦ .ok "") (fun _ ↦ none) true "MISSION-2"
          (afterAppends calls')) := by
  obtain ⟨calls, hread, -⟩ := exists_twoMissions
  obtain ⟨calls', hread'⟩ := exists_oneMission
  have hboth := closeouts_independent (fun _ : Unit ↦ .ok "") (fun _ ↦ none)
  exact ⟨calls, calls', hboth.1 calls twoMissions "MISSION-2" "orchestrator:local-closeout"
      kernelImplementedRoles [] (events_eq_ok.mpr ⟨hread, rfl⟩) (by decide) (by decide)
      validObligations_default,
    hboth.2 calls calls' twoMissions oneMission "MISSION-2" false true
      (events_eq_ok.mpr ⟨hread, rfl⟩) (events_eq_ok.mpr ⟨hread', rfl⟩) (by rfl)⟩

private theorem chainHex_firstDeclaration :
    (chainHex none (twoMissions ++ [declaration "MISSION-1" "orchestrator:local-closeout"
      kernelImplementedRoles []])).Nodup := by
  rw [instHash256_eq]
  decide +kernel

/-- The digest of an event that continues a chain without repetitions is new. -/
private theorem digest_not_mem_of_chainHex [Hash256] {db : KernelDb} {es : List Event} {e : Event}
    {event : KernelEvent} {key : Option String} {digest : String}
    (hdigests : db.events.map EventRow.digest = (chainHex none es).map digestOfHex)
    (hreads : ReadsAs (event, key) e) (hversion : e.eventVersion = 1)
    (hnodup : (chainHex none (es ++ [e])).Nodup) (h : event.digestFor db.headDigest = .ok digest) :
    digest ∉ db.events.map EventRow.digest := by
  intro hmem
  have hhead : db.headDigest = (chainHex none es).getLast?.map digestOfHex := by
    rw [KernelDb.headDigest, ← List.getLast?_map, hdigests, List.getLast?_map]
  rw [hhead, digestFor_eq hreads hversion] at h
  obtain rfl := Except.ok.inj h
  rw [hdigests] at hmem
  obtain ⟨hex, hhex, heq⟩ := List.mem_map.mp hmem
  obtain rfl := digestOfHex_injective heq
  rw [chainHex_concat, Option.or_none] at hnodup
  exact List.disjoint_of_nodup_append hnodup hhex (List.mem_singleton_self _)

/-- The id of a declaration starts with a small letter. -/
private theorem eventId_obligationsHead_ne {m actorId digest s : String}
    (hs : s.toList.head? ≠ some 'c') : (obligationsHead m actorId digest).eventId ≠ s := by
  rintro rfl
  refine hs ?_
  change ("closeout-obligations:" ++ m ++ ":" ++ digest).toList.head? = some 'c'
  rw [String.toList_append, String.toList_append, String.toList_append]
  rfl

/-- The first of the two missions can declare what it likes. -/
private theorem unclaimed_first [Hash256] {calls : List AppendCall}
    (hread : readRows none (afterAppends calls).events = .ok twoMissions)
    (hdigests : (afterAppends calls).events.map EventRow.digest =
      (chainHex none twoMissions).map digestOfHex)
    (hunbound : (afterAppends calls).idempotency = ∅)
    (hnodup : (chainHex none (twoMissions ++ [declaration "MISSION-1" "orchestrator:local-closeout"
      kernelImplementedRoles []])).Nodup) :
    Unclaimed (afterAppends calls) "MISSION-1" kernelImplementedRoles []
      "orchestrator:local-closeout" := by
  have hheads := (heads_of_readRows hread).1
  refine ⟨?_, ?_, ?_, ?_⟩
  · rw [hunbound]
    exact ExtTreeMap.not_mem_empty
  · have hids := congrArg (List.map EventHead.eventId) hheads
    rw [List.map_map, List.map_map] at hids
    intro hmem
    rw [show (afterAppends calls).events.map (·.head.eventId) = ["EVENT-1", "EVENT-2"] from
      hids.symm, List.mem_cons, List.mem_singleton] at hmem
    rcases hmem with hid | hid
    · exact eventId_obligationsHead_ne (by decide) hid
    · exact eventId_obligationsHead_ne (by decide) hid
  · intro digest hdigest
    have hvalid := isValid_obligationsHead (m := "MISSION-1")
      (obligationsDigest kernelImplementedRoles []) (by decide) validObligations_default.actor
    have hplain := plain_obligationsPayload kernelImplementedRoles []
    have hreads : ReadsAs (obligationsEntry emptyDb "MISSION-1" kernelImplementedRoles []
        "orchestrator:local-closeout" hvalid, none) (declaration "MISSION-1"
        "orchestrator:local-closeout" kernelImplementedRoles []) := ⟨rfl, hplain⟩
    refine digest_not_mem_of_chainHex hdigests hreads rfl hnodup ?_
    rw [KernelEvent.digestFor, obligationsEntry, hplain]
    exact hdigest
  · have hlength := congrArg List.length hheads
    rw [List.length_map, List.length_map] at hlength
    rw [← hlength]
    decide

/-- **The second of two missions that declare the same roles and evidence is refused.** -/
theorem second_declaration_refused :
    ¬∀ (calls : List AppendCall) (es : List Event) (m actorId : String)
        (requiredRoles : List String) (historicalEvidence : List HistoricalEvidenceReference),
      events (afterAppends calls) = .ok es (afterAppends calls) → isCreated m es →
      ¬isDeclared m es → ValidObligations requiredRoles historicalEvidence actorId →
      ∃ n db', declareCloseoutObligations false m requiredRoles historicalEvidence actorId
        (afterAppends calls) = .ok n db' := by
  intro h
  obtain ⟨calls, hread, hdigests, hunbound⟩ := exists_twoMissions
  obtain ⟨call, n, db, -, hafter, hread', hkey⟩ := declare_of_unclaimed
    (intact_afterAppends calls) hread (by decide) validObligations_default
    (unclaimed_first hread hdigests hunbound chainHex_firstDeclaration)
  have hcalls : afterAppends (calls ++ [call]) = db := by
    rw [← hafter, afterAppends, afterCalls, List.foldl_append]
    rfl
  rw [← hcalls] at hread' hkey
  have hcreated : isCreated "MISSION-2" (twoMissions ++ [declaration "MISSION-1"
      "orchestrator:local-closeout" kernelImplementedRoles []]) = true := by
    rw [isCreated, List.any_append]
    rfl
  have hundeclared : ¬isDeclared "MISSION-2" (twoMissions ++ [declaration "MISSION-1"
      "orchestrator:local-closeout" kernelImplementedRoles []]) = true := by
    have hnone : declarationsOf "MISSION-2" (twoMissions ++ [declaration "MISSION-1"
        "orchestrator:local-closeout" kernelImplementedRoles []]) = [] := by
      rw [declarationsOf, List.filter_append]
      rfl
    rw [isDeclared, hnone]
    decide
  have hdeclared := h (calls ++ [call]) _ "MISSION-2" "orchestrator:local-closeout"
    kernelImplementedRoles [] (events_eq_ok.mpr ⟨hread', rfl⟩) hcreated hundeclared
    validObligations_default
  -- the key is bound to the first mission's declaration
  exact ((declare_iff (intact_afterAppends _) hread' hcreated hundeclared
    validObligations_default).mp hdeclared).key hkey

end HiveMind
