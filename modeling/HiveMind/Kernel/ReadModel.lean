import HiveMind.Kernel.Acceptance
import HiveMind.Kernel.Batches
import HiveMind.Lib.Sha256Window

/-!
# The read model

`projection` answers from the projection tables on a writable store and from the log on a read-only
one. The tables have columns for the mission and the status of a work item and for nothing else of
it, so the writable answer is what the log reduces to with every work item cut down to these two.
The evaluation digests that the reducer keeps are only in the answer of a read-only store.

`ProjectionState.view` is the answer of either store. `status` and `write_snapshot` are built on
`projection`, and what they say of a mission is the same on both stores, apart from the digest of
the answer they were built on.
-/

open Std (ExtTreeMap)
open Raise Trace HashChain

namespace HiveMind

section

/-- A work item as far as the projection tables have columns for it. -/
def WorkEntry.stripped (work : WorkEntry) : WorkEntry :=
  { missionId := work.missionId, status := work.status }

theorem WorkEntry.stripped_eq_self_iff {work : WorkEntry} :
    work.stripped = work ↔ work.evaluationPlanDigest = none ∧ work.passedEvaluationDigest = none ∧
      work.evaluationBundleDigest = none := by
  obtain ⟨missionId, status, plan, passed, bundle⟩ := work
  simp [WorkEntry.stripped, eq_comm]

/-- What a store shows of a projection. -/
def ProjectionState.view (readOnly : Bool) (s : ProjectionState) : ProjectionState :=
  if readOnly then s else ⟨s.missions, s.work.map fun _ work ↦ work.stripped⟩

theorem ProjectionState.view_eq_self_iff {s : ProjectionState} :
    s.view false = s ↔ ∀ (w : String) (work : WorkEntry), s.work[w]? = some work →
      work.evaluationPlanDigest = none ∧ work.passedEvaluationDigest = none ∧
        work.evaluationBundleDigest = none := by
  constructor
  · intro h w work hwork
    have hview := congrArg (fun t : ProjectionState ↦ t.work[w]?) h
    simp only [view, Bool.false_eq_true, if_false, ExtTreeMap.getElem?_map, hwork,
      Option.map_some, Option.some.injEq] at hview
    exact WorkEntry.stripped_eq_self_iff.mp hview
  · intro h
    refine ProjectionState.ext_getElem? (fun _ ↦ rfl) fun w ↦ ?_
    simp only [view, Bool.false_eq_true, if_false, ExtTreeMap.getElem?_map]
    cases hwork : s.work[w]? with
    | none => rfl
    | some work => rw [Option.map_some, WorkEntry.stripped_eq_self_iff.mpr (h w work hwork)]

/-- The statuses of a mission's work items. -/
def ProjectionState.workOf (s : ProjectionState) (missionId : String) :
    ExtTreeMap String WorkState :=
  (s.work.filter fun _ work ↦ work.missionId = missionId).map fun _ work ↦ work.status

theorem ProjectionState.workOf_view (readOnly : Bool) (s : ProjectionState) (missionId : String) :
    (s.view readOnly).workOf missionId = s.workOf missionId := by
  cases readOnly with
  | true => rfl
  | false =>
    refine ExtTreeMap.ext_getElem? fun w ↦ ?_
    simp only [workOf, view, Bool.false_eq_true, if_false, ExtTreeMap.getElem?_map,
      ExtTreeMap.getElem?_filter']
    cases s.work[w]? with
    | none => rfl
    | some work =>
      by_cases h : work.missionId = missionId <;> simp [WorkEntry.stripped, Option.filter, h]

variable [Hash256]

theorem projection_eq_view {db : KernelDb} {es : List Event} {s : ProjectionState}
    (hread : readRows none db.events = .ok es) (hreduce : reduceEvents emptyState es = .ok s)
    (hshows : Shows db s) (readOnly : Bool) :
    projection readOnly db = .ok (s.view readOnly) db := by
  cases readOnly with
  | true =>
    have hreplay : replayRows none emptyState none db.events = .ok s :=
      replayRows_eq_ok.mpr ⟨es, hread, hreduce⟩
    exact run_bind_eq_ok.mpr ⟨db, db, rfl, run_lift_eq_ok.mpr ⟨hreplay, rfl⟩⟩
  | false =>
    refine run_bind_eq_ok.mpr ⟨db, db, rfl, run_pure_eq_ok.mpr ⟨?_, rfl⟩⟩
    refine ProjectionState.ext_getElem? (fun m ↦ ?_) fun w ↦ ?_
    · rw [ExtTreeMap.getElem?_map]
      exact (hshows.missions m).symm
    · have hwork := congrArg (Option.map fun p : String × WorkState ↦
        ({ missionId := p.1, status := p.2 } : WorkEntry)) (hshows.work w)
      rw [Option.map_map, Option.map_map] at hwork
      simp only [ProjectionState.view, Bool.false_eq_true, if_false, ExtTreeMap.getElem?_map]
      exact hwork.symm

omit [Hash256] in
private theorem foldl_max_range' (n : Nat) : (List.range' 1 n).foldl max 0 = n := by
  induction n with
  | zero => rfl
  | succ n ih =>
    rw [List.range'_concat, List.foldl_append, ih, List.foldl_cons, List.foldl_nil]
    omega

theorem Intact.maxSequence {db : KernelDb} (h : Intact db) : db.maxSequence = db.events.length := by
  rw [KernelDb.maxSequence, h.sequences, foldl_max_range']

theorem status_eq {db : KernelDb} {s : ProjectionState} {readOnly : Bool} (hdb : Intact db)
    (hprojection : projection readOnly db = .ok (s.view readOnly) db) (missionId : String) :
    status readOnly missionId db = match s.missions[missionId]? with
      | some missionState =>
        .ok ⟨missionId, missionState, s.workOf missionId, db.events.length,
          stateDigest (s.view readOnly)⟩ db
      | none => .error (keyError ("unknown kernel mission: " ++ missionId)) db := by
  have hmissions : (s.view readOnly).missions = s.missions := by
    cases readOnly <;> rfl
  change EStateM.bind _ _ db = _
  rw [EStateM.bind, hprojection]
  dsimp only
  rw [hmissions]
  cases s.missions[missionId]? with
  | none => rfl
  | some missionState =>
    refine run_bind_eq_ok.mpr ⟨db, db, rfl, run_pure_eq_ok.mpr ⟨?_, rfl⟩⟩
    rw [hdb.maxSequence, ← s.workOf_view readOnly]
    rfl

/-- A writable store writes the snapshot of its view; a read-only one refuses to. -/
theorem writeSnapshot_eq {db : KernelDb} {s : ProjectionState} (hdb : Intact db)
    (hprojection : projection false db = .ok (s.view false) db) :
    writeSnapshot false db = .ok db.events.length { db with
      snapshots := db.snapshots.insert db.events.length
        ⟨(s.view false).toJson.dumps, stateDigest (s.view false)⟩ } := by
  rw [← hdb.maxSequence]
  refine run_bind_eq_ok.mpr ⟨(), db, rfl, run_bind_eq_ok.mpr ⟨_, db, hprojection, ?_⟩⟩
  exact run_bind_eq_ok.mpr ⟨db, db, rfl, run_bind_eq_ok.mpr ⟨(), _, rfl, rfl⟩⟩

/-- The batch of the events, each naming the digest of the one before it, without keys. -/
def chained (previous : Option String) : List KernelEvent → List (KernelEvent × Option String)
  | [] => []
  | event :: events =>
    ({ event with previousDigest := previous }, none) ::
      chained (event.digestFor previous).toOption events

/-- An event whose payload holds texts only. -/
def textEvent (head : EventHead) (members : List (String × String)) (valid : head.isValid) :
    KernelEvent :=
  ⟨head, members.map fun m ↦ (m.1, .str m.2), none, valid⟩

omit [Hash256] in
/-- A dict of texts whose keys are in order is plain. -/
theorem plain_dict_str {members : List (String × String)}
    (h : (members.map Prod.fst).Pairwise (· < ·)) :
    (PyValue.dict (members.map fun m ↦ (m.1, .str m.2))).plain =
      .ok (.obj (members.map fun m ↦ (m.1, .str m.2))) := by
  have hitems : ∀ ms : List (String × String), PyValue.plainItems (ms.map fun m ↦ (m.1, .str m.2)) =
      .ok (ms.map fun m ↦ (m.1, Json.str m.2)) := by
    intro ms
    induction ms with
    | nil => rfl
    | cons m ms ih =>
      rw [List.map_cons, PyValue.plainItems, PyValue.plain, ih]
      rfl
  rw [PyValue.plain, hitems, Except.map, Json.mkObj_of_pairwise]
  rwa [List.map_map]

omit [Hash256] in
theorem readsAs_textEvent {head : EventHead} {members : List (String × String)}
    {valid : head.isValid} {key : Option String} (h : (members.map Prod.fst).Pairwise (· < ·)) :
    ReadsAs (textEvent head members valid, key) ⟨head, members.map fun m ↦ (m.1, .str m.2)⟩ :=
  ⟨rfl, plain_dict_str h⟩

/-- The text that the digest of an event covers, from the digest of its predecessor. -/
def eventText (e : Event) (previous : Option (List Char)) : List Char := objectText [
  ("actor_id", Json.strChars e.actorId),
  ("actor_role", (optionalText e.actorRole).chars),
  ("attempt_id", (optionalText e.attemptId).chars),
  ("event_id", Json.strChars e.eventId),
  ("event_type", Json.strChars e.eventType),
  ("event_version", Json.intChars e.eventVersion),
  ("mission_id", Json.strChars e.missionId),
  ("occurred_at", Json.strChars e.occurredAt),
  ("payload", (Json.obj e.payload).chars),
  ("previous_digest", match previous with
    | none => Json.null.chars
    | some hex => '"' :: ("sha256:".toList ++ hex).flatMap Json.escapeChar ++ ['"']),
  ("work_id", (optionalText e.workId).chars)]

/-- The digests of a chain of events. They are computed on lists of characters. -/
def chainHex (previous : Option (List Char)) : List Event → List (List Char)
  | [] => []
  | e :: es =>
    let hex := Hash256.hexChars (eventText e previous)
    hex :: chainHex (some hex) es

theorem chainHex_concat (previous : Option (List Char)) (es : List Event) (e : Event) :
    chainHex previous (es ++ [e]) = chainHex previous es ++
      [Hash256.hexChars (eventText e ((chainHex previous es).getLast?.or previous))] := by
  induction es generalizing previous with
  | nil => rfl
  | cons e' es ih =>
    rw [List.cons_append, chainHex, chainHex, ih, List.getLast?_cons, List.cons_append]
    cases (chainHex (some (Hash256.hexChars (eventText e' previous))) es).getLast? <;> rfl

theorem digestFor_eq {event : KernelEvent} {key : Option String} {e : Event}
    (h : ReadsAs (event, key) e) (hversion : e.eventVersion = 1) (previous : Option (List Char)) :
    event.digestFor (previous.map digestOfHex) =
      .ok (digestOfHex (Hash256.hexChars (eventText e previous))) := by
  obtain ⟨head, payload⟩ := e
  obtain rfl : head = event.toEventHead := h.head
  have hplain : (PyValue.int event.eventVersion).plain = .ok (.int event.eventVersion) := by
    rw [hversion]
    rfl
  simp only [KernelEvent.digestFor, h.payload, EventHead.digestFor, hplain, Except.map, jsonDigest,
    digestOfHex, Hash256.hexdigest]
  congr 4
  cases previous with
  | none =>
    simp [eventText, objectText, objectText.rest, Json.chars, Json.membersChars, optionalText]
  | some hex =>
    simp [eventText, objectText, objectText.rest, Json.chars, Json.membersChars, optionalText,
      digestOfHex, Json.strChars]

private theorem inserts_chained (recordedAt : String) {events : List KernelEvent} {es : List Event}
    (h : List.Forall₂ (fun event e ↦ ReadsAs (event, none) e) events es)
    (hversion : ∀ e ∈ es, e.eventVersion = 1) (sequence : Nat) (previous : Option (List Char)) :
    ∃ rows, Inserts recordedAt sequence (previous.map digestOfHex)
        (chained (previous.map digestOfHex) events) rows ∧
      rows.map EventRow.digest = (chainHex previous es).map digestOfHex := by
  induction h generalizing sequence previous with
  | nil => exact ⟨[], trivial, rfl⟩
  | @cons event e events es hevent hrest ih =>
    have hdigest := digestFor_eq hevent (hversion e List.mem_cons_self) previous
    obtain ⟨rows, hrows, hdigests⟩ := ih (fun e' he' ↦ hversion e' (List.mem_cons_of_mem e he'))
      (sequence + 1) (some (Hash256.hexChars (eventText e previous)))
    have hrow : rowOf recordedAt (sequence + 1) (previous.map digestOfHex)
        { event with previousDigest := previous.map digestOfHex } = .ok ⟨sequence + 1,
          event.toEventHead, recordedAt, (Json.obj e.payload).dumps, previous.map digestOfHex,
          digestOfHex (Hash256.hexChars (eventText e previous))⟩ := by
      have hdigest' : KernelEvent.digestFor
          { event with previousDigest := previous.map digestOfHex } (previous.map digestOfHex) =
          _ := hdigest
      rw [rowOf, hdigest', canonicalBytes, hevent.payload]
      rfl
    rw [chained, hdigest]
    exact ⟨_ :: rows, ⟨rfl, hrow, hrows⟩, by rw [List.map_cons, hdigests]; rfl⟩

private theorem readsAs_chained {events : List KernelEvent} {es : List Event}
    (h : List.Forall₂ (fun event e ↦ ReadsAs (event, none) e) events es)
    (previous : Option String) :
    List.Forall₂ ReadsAs (chained previous events) es := by
  induction h generalizing previous with
  | nil => exact .nil
  | cons hevent hrest ih => exact .cons ⟨hevent.head, hevent.payload⟩ (ih _)

private theorem keyless_chained (previous : Option String) (events : List KernelEvent) :
    ∀ p ∈ chained previous events, p.2 = none := by
  induction events generalizing previous with
  | nil => exact nofun
  | cons event events ih =>
    intro p hp
    rcases List.mem_cons.mp hp with rfl | hp
    · rfl
    · exact ih _ p hp

omit [Hash256] in
private theorem map_eventId_of_readsAs {batch : List (KernelEvent × Option String)}
    {es : List Event} (h : List.Forall₂ ReadsAs batch es) :
    batch.map (·.1.eventId) = es.map (·.eventId) := by
  induction h with
  | nil => rfl
  | cons hevent hrest ih => rw [List.map_cons, List.map_cons, ih, hevent.head]

/-- Events that reduce are accepted in one batch, once they are chained. The batch binds no keys. -/
theorem exists_chained_calls {events : List KernelEvent} {es : List Event}
    {s : ProjectionState} (recordedAt : String) (hne : es ≠ [])
    (h : List.Forall₂ (fun event e ↦ ReadsAs (event, none) e) events es)
    (hversion : ∀ e ∈ es, e.eventVersion = 1) (hids : (es.map (·.eventId)).Nodup)
    (hlength : es.length < sqliteIntegerBound) (hdigests : (chainHex none es).Nodup)
    (hreduce : reduceEvents emptyState es = .ok s) :
    ∃ calls, readRows none (afterAppends calls).events = .ok es ∧
      (afterAppends calls).events.map EventRow.digest = (chainHex none es).map digestOfHex ∧
      (afterAppends calls).idempotency = ∅ := by
  have hreads := readsAs_chained h none
  obtain ⟨rows, hrows, hhex⟩ := inserts_chained recordedAt h hversion 0 none
  have hids' : ((chained none events).map (·.1.eventId)).Nodup := by
    rwa [map_eventId_of_readsAs hreads]
  have hkeys : ∀ p ∈ chained none events, p.2 = none := keyless_chained none events
  have hfresh : ∀ p ∈ chained none events, Fresh emptyDb p.1 p.2 := by
    intro p hp
    refine ⟨?_, List.not_mem_nil⟩
    rw [hkeys p hp]
    rfl
  have hversions : ∀ p ∈ chained none events,
      p.1.eventVersion < sqliteIntegerBound := by
    intro p hp
    obtain ⟨e, he, hread⟩ := exists_of_forall₂ hreads hp
    rw [← hread.head, hversion e he]
    decide
  have hnodup : (rows.map EventRow.digest).Nodup := by
    rw [hhex]
    exact hdigests.map digestOfHex_injective
  have hne' : chained none events ≠ [] := by
    intro hnil
    rw [hnil] at hreads
    exact hne (List.forall₂_nil_left_iff.mp hreads)
  obtain ⟨db, hdb, hevents⟩ := appendBatch_of_fresh intact_emptyDb hne' hids'
    (by rw [List.filterMap_eq_nil_iff.mpr hkeys]; exact List.nodup_nil) hfresh hversions
    (by rw [hreads.length_eq]; simpa [emptyDb] using hlength) hrows hnodup
    (fun _ _ ↦ List.not_mem_nil) rfl hreads hreduce
  obtain ⟨es', hread, hreads'⟩ := readRows_of_inserts hrows
  obtain rfl := eq_of_readsAs hreads hreads'
  have hafter : afterAppends [.appendBatch false (chained none events) none recordedAt] = db := by
    simp only [afterAppends, afterCalls, List.foldl_cons, List.foldl_nil, AppendCall.after,
      AppendCall.run, hdb]
  have hunbound : db.idempotency = ∅ := by
    rcases (appendBatch_eq_ok intact_emptyDb hdb).2 with rfl | happends
    · rfl
    · have hbind : ∀ batch : List (KernelEvent × Option String), (∀ p ∈ batch, p.2 = none) →
          bindKeys batch ∅ = ∅ := by
        intro batch hbatch
        induction batch with
        | nil => rfl
        | cons p batch ih =>
          rw [bindKeys, List.foldl_cons, hbatch p List.mem_cons_self]
          exact ih fun q hq ↦ hbatch q (List.mem_cons_of_mem p hq)
      rw [happends.idempotency]
      exact hbind _ hkeys
  refine ⟨_, ?_, ?_, hafter ▸ hunbound⟩
  · rw [hafter, hevents]
    exact hread
  · rw [hafter, hevents]
    exact hhex

theorem exists_calls {events : List KernelEvent} {es : List Event}
    {s : ProjectionState} (recordedAt : String) (hne : es ≠ [])
    (h : List.Forall₂ (fun event e ↦ ReadsAs (event, none) e) events es)
    (hversion : ∀ e ∈ es, e.eventVersion = 1) (hids : (es.map (·.eventId)).Nodup)
    (hlength : es.length < sqliteIntegerBound) (hdigests : (chainHex none es).Nodup)
    (hreduce : reduceEvents emptyState es = .ok s) :
    ∃ calls, readRows none (afterAppends calls).events = .ok es := by
  obtain ⟨calls, hread, -⟩ :=
    exists_chained_calls recordedAt hne h hversion hids hlength hdigests hreduce
  exact ⟨calls, hread⟩

end

/-- A digest of the right shape. -/
private def bundleDigest : String := "sha256:" ++ String.ofList (List.replicate 64 'a')

/-- A bundle is recorded for work that has no passed verdict. -/
private def bundleEvent : Event :=
  lifecycleEvent "M" "W" "bundle" "evaluation.bundle.recorded" "curator" "curator"
    [("bundle_digest", .str bundleDigest), ("bundle_ref", .str "BUNDLE-1")]

private def bundleRun : List Event :=
  lifecycleRunning "M" "W" ++ [transitionEvent "M" "W" .awaitingVerification, bundleEvent]

private def bundleEntries : List KernelEvent := [
  textEvent (lifecycleEvent "M" "W" "mission" "mission.created" "orchestrator" "orchestrator"
    []).toEventHead [] (by decide),
  textEvent (lifecycleEvent "M" "W" "work" "work.created" "orchestrator" "orchestrator"
    []).toEventHead [] (by decide),
  textEvent (transitionEvent "M" "W" .ready).toEventHead [("status", "READY")] (by decide),
  textEvent (transitionEvent "M" "W" .leased).toEventHead [("status", "LEASED")] (by decide),
  textEvent (transitionEvent "M" "W" .running).toEventHead [("status", "RUNNING")] (by decide),
  textEvent (transitionEvent "M" "W" .awaitingVerification).toEventHead
    [("status", "AWAITING_VERIFICATION")] (by decide),
  textEvent bundleEvent.toEventHead [("bundle_digest", bundleDigest), ("bundle_ref", "BUNDLE-1")]
    (by decide)]

private theorem readsAs_bundleRun :
    List.Forall₂ (fun event e ↦ ReadsAs (event, none) e) bundleEntries bundleRun :=
  .cons (readsAs_textEvent (by decide)) <| .cons (readsAs_textEvent (by decide)) <|
    .cons (readsAs_textEvent (by decide)) <| .cons (readsAs_textEvent (by decide)) <|
    .cons (readsAs_textEvent (by decide)) <| .cons (readsAs_textEvent (by decide)) <|
    .cons (readsAs_textEvent (by decide)) .nil

private theorem reduceEvents_bundleRun : reduceEvents emptyState bundleRun =
    .ok (oneItem "M" "W" ⟨"M", .awaitingVerification, none, none, some bundleDigest⟩) := by
  have hbundle : recordBundle bundleEvent ⟨"M", .awaitingVerification, none, none, none⟩ =
      .ok ⟨"M", .awaitingVerification, none, none, some bundleDigest⟩ :=
    recordBundle_eq_ok.mpr ⟨"BUNDLE-1", bundleDigest, rfl, rfl, rfl, rfl, rfl, rfl, rfl,
      Option.isSome_iff_exists.mp (by decide), rfl⟩
  refine foldlM_append_eq_ok.mpr ⟨_, reduceEvents_lifecycleRunning (by decide), ?_⟩
  refine foldlM_cons_eq_ok.mpr ⟨_, reduceEvent_transitionEvent .running .awaitingVerification
    (by decide) rfl rfl (by decide) (by decide), ?_⟩
  refine foldlM_cons_eq_ok.mpr ⟨_, reduceEvent_oneItem rfl (by decide) (.bundle rfl hbundle), ?_⟩
  rfl

private theorem chainHex_bundleRun : (chainHex none bundleRun).Nodup := by
  rw [instHash256_eq]
  decide +kernel

end HiveMind
