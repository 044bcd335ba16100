import HiveMind.Healing.Progress
import HiveMind.Kernel.ReadModel

/-!
# The record of a pass

A pass over a store appends its receipt there, as an event of a type of its own. The reducer of the
store does not know that type. So the append is refused, the pass raises after its handlers have run,
and nothing is ever recorded (`repairs_never_recorded`).
-/

open Raise

namespace HiveMind.Healing

section Records

variable [Hash256]

/-! ## Types of stored events -/

/-- Only events of a known type are reduced. -/
theorem kind_ne_none_of_mem {s s' : ProjectionState} {es : List Event}
    (h : reduceEvents s es = .ok s') : ∀ e ∈ es, e.kind ≠ none := by
  induction es generalizing s with
  | nil => rintro _ ⟨⟩
  | cons e es ih =>
    obtain ⟨t, ht, hrest⟩ := Trace.foldlM_cons_eq_ok.mp h
    intro e' he'
    rcases List.mem_cons.mp he' with rfl | he'
    · intro hkind
      rw [reduceEvent, hkind] at ht
      cases ht
    · exact ih hrest e' he'

theorem exists_event_of_mem {previous : Option String} {rows : List EventRow} {es : List Event}
    (h : readRows previous rows = .ok es) :
    ∀ row ∈ rows, ∃ e ∈ es, e.toEventHead = row.head := by
  induction rows generalizing previous es with
  | nil => exact fun _ hrow ↦ nomatch hrow
  | cons row rows ih =>
    obtain ⟨e, es', he, hes', rfl⟩ := readRows_cons_eq_ok.mp h
    intro row' hrow'
    rcases List.mem_cons.mp hrow' with rfl | hrow'
    · obtain ⟨payload, -, -, -, -, rfl⟩ := readRow_eq_ok.mp he
      exact ⟨_, List.mem_cons_self, rfl⟩
    · obtain ⟨e', he', hhead⟩ := ih hes' row' hrow'
      exact ⟨e', List.mem_cons_of_mem e he', hhead⟩

/-- An intact store has events of known types only. -/
theorem ofType_ne_none {db : KernelDb} (hdb : Intact db) :
    ∀ row ∈ db.events, EventKind.ofType row.head.eventType ≠ none := by
  obtain ⟨es, s, hread, hreduce, -⟩ := hdb.log
  intro row hrow
  obtain ⟨e, he, hhead⟩ := exists_event_of_mem hread row hrow
  rw [← hhead]
  exact kind_ne_none_of_mem hreduce e he

/-- An event of an unknown type is not appended. -/
theorem append_ne_ok {db db' : KernelDb} {readOnly : Bool} {event : KernelEvent}
    {expectedSequence : Option Int} {recordedAt key : String} {sequence : Nat} (hdb : Intact db)
    (htype : EventKind.ofType event.eventType = none) :
    append readOnly event expectedSequence recordedAt (some key) db ≠ .ok sequence db' := by
  intro h
  obtain ⟨sequences, db'', hbatch, hresult⟩ := run_bind_eq_ok.mp h
  have hkeys : ∀ p ∈ [(event, some key)], p.2.isSome := by simp
  -- otherwise it would be a row of an intact store
  cases (stored_of_appendBatch hdb hkeys hbatch).entries with
  | cons hentry hrest =>
    obtain ⟨row, hrow, hmatches, -⟩ := hentry.row
    obtain ⟨-, -, hhead, -⟩ := storedEventMatches_eq_ok.mp hmatches
    have htype' := ofType_ne_none (appendBatch_eq_ok hdb hbatch).1 row (List.mem_of_find?_eq_some hrow)
    rw [hhead] at htype'
    exact htype' htype

/-! ## What a pass does to the store -/

/-- One state of the store leads to the other without breaking it. -/
def KeepsIntact (world world' : World) : Prop := Intact world.db → Intact world'.db

theorem intact_of_leads {α : Type} {x : HealM α} {world : World} (h : Leads KeepsIntact x world)
    (hdb : Intact world.db) : Intact (final (x world)).db := by
  have hreach : ∀ {world' : World}, Relation.ReflTransGen KeepsIntact world world' →
      Intact world'.db := by
    intro world' hreach
    induction hreach with
    | refl => exact hdb
    | tail _ hstep ih => exact hstep ih
  cases hx : x world with
  | ok a world' => exact hreach (h.1 a world' hx)
  | error e world' => exact hreach (h.2 e world' hx)

theorem leads_runHandler (handler : Handler) (action : RepairAction) (world : World) :
    Leads KeepsIntact (runHandler handler action) world := by
  have hkeeps := handler.intact action world.db
  constructor
  · intro u world' h
    rw [runHandler] at h
    split at h
    · next db hrun =>
      obtain ⟨-, rfl⟩ := EStateM.Result.ok.inj h
      exact .single fun hdb ↦ by simpa [hrun] using hkeeps hdb
    · exact nomatch h
  · intro e world' h
    rw [runHandler] at h
    split at h
    · exact nomatch h
    · next db hrun =>
      obtain ⟨-, rfl⟩ := EStateM.Result.error.inj h
      exact .single fun hdb ↦ by simpa [hrun] using hkeeps hdb

theorem leads_dispatch (runtime : SelfHealingRuntime) (granted : List String)
    (actions : List RepairAction) (world : World) :
    Leads KeepsIntact (dispatch runtime granted actions) world := by
  induction actions generalizing world with
  | nil => exact (keeps_pure _).leads
  | cons action actions ih =>
    have hrest : ∀ (f : List HealingOutcome × List String → List HealingOutcome × List String)
        (world : World), Leads KeepsIntact (do
          let out ← dispatch runtime granted actions
          pure (f out)) world := fun f world ↦
      (ih world).bind fun _ _ _ ↦ (keeps_pure _).leads
    rw [dispatch]
    cases runtime.handlers action.kind with
    | none => exact hrest _ world
    | some handler =>
      dsimp only
      split
      · exact hrest _ world
      · exact (leads_runHandler handler action world).bind fun _ world' _ ↦ hrest _ world'

/-- What a call of the store does: it breaks nothing and adds nothing to the history. -/
def StoreCall (world world' : World) : Prop := KeepsIntact world world' ∧ world'.ran = world.ran

/-- A call that leaves the store as it was if it raises, and intact if it returns. -/
theorem leads_onStore {α : Type} {call : StoreM α} (hatomic : Atomic call) {world : World}
    (hok : ∀ a db, Intact world.db → call world.db = .ok a db → Intact db) :
    Leads StoreCall (onStore call) world := by
  constructor
  · intro a world' h
    rw [onStore] at h
    split at h
    · next a' db hcall =>
      obtain ⟨-, rfl⟩ := EStateM.Result.ok.inj h
      exact .single ⟨fun hdb ↦ hok a' db hdb hcall, rfl⟩
    · exact nomatch h
  · intro e world' h
    rw [onStore] at h
    split at h
    · exact nomatch h
    · next e' db hcall =>
      obtain ⟨-, rfl⟩ := EStateM.Result.error.inj h
      exact .single ⟨fun hdb ↦ (hatomic _ _ _ hcall) ▸ hdb, rfl⟩

theorem intact_leads {α : Type} {x : HealM α} {world : World} (h : Leads StoreCall x world) :
    Leads KeepsIntact x world :=
  ⟨fun a world' hok ↦ (h.1 a world' hok).lift id fun _ _ hcall ↦ hcall.1,
    fun e world' herror ↦ (h.2 e world' herror).lift id fun _ _ hcall ↦ hcall.1⟩

theorem ran_of_leads {α : Type} {x : HealM α} {world : World} (h : Leads StoreCall x world) :
    (final (x world)).ran = world.ran := by
  have hreach : ∀ {world' : World}, Relation.ReflTransGen StoreCall world world' →
      world'.ran = world.ran := by
    intro world' hreach
    induction hreach with
    | refl => rfl
    | tail _ hstep ih => exact hstep.2.trans ih
  cases hx : x world with
  | ok a world' => exact hreach (h.1 a world' hx)
  | error e world' => exact hreach (h.2 e world' hx)

theorem keeps_events : Keeps events := keeps_bind keeps_get fun _ ↦ keeps_lift _

theorem leads_events (world : World) : Leads StoreCall (onStore events) world :=
  leads_onStore keeps_events.1 fun _ _ hdb h ↦ (keeps_events.2 _ _ _ h) ▸ hdb

theorem leads_append (readOnly : Bool) (event : KernelEvent) (recordedAt : String)
    (key : Option String) (world : World) :
    Leads StoreCall (onStore (append readOnly event none recordedAt key)) world := by
  refine leads_onStore (atomic_append readOnly event none recordedAt key) fun _ db hdb h ↦ ?_
  obtain ⟨sequences, db', hbatch, hresult⟩ := run_bind_eq_ok.mp h
  rw [← (run_pure_eq_ok.mp hresult).2]
  exact (appendBatch_eq_ok hdb hbatch).1

variable [Builtins] {runtime : SelfHealingRuntime}

omit [Builtins] in
theorem leads_appendPass (readOnly : Bool) (recordedAt : String) (receipt : HealingReceipt)
    (world : World) :
    Leads StoreCall (appendPass runtime readOnly recordedAt receipt) world := by
  refine (leads_events world).bind fun _ world _ ↦ leads_get_bind ?_
  refine (keeps_lift _).leads_bind fun digest _ ↦ ?_
  dsimp only
  split
  · exact (leads_append readOnly _ recordedAt _ world).bind fun _ _ _ ↦ (keeps_pure _).leads
  · exact (keeps_throw _).leads

/-- A pass leaves an intact store intact. -/
theorem intact_heal {observed : ObservedState} {now : Moment} {granted : List String}
    {recordedAt : String} {world : World} (hdb : Intact world.db) :
    Intact (final (heal runtime observed now granted recordedAt world)).db := by
  refine intact_of_leads ?_ hdb
  refine (keeps_lift _).leads_bind fun result _ ↦ ?_
  refine (leads_dispatch runtime granted result.desired.actions world).bind fun out world _ ↦ ?_
  cases hstore : runtime.store with
  | none => exact (keeps_pure _).leads
  | some readOnly =>
    exact (intact_leads (leads_appendPass readOnly recordedAt _ world)).bind fun _ _ _ ↦ (keeps_pure _).leads

omit [Builtins] in
/-- The event of a pass is not appended to an intact store. -/
theorem appendPass_ne_ok {readOnly : Bool} {recordedAt : String} {receipt : HealingReceipt}
    {world world' : World} (hdb : Intact world.db) :
    appendPass runtime readOnly recordedAt receipt world ≠ .ok () world' := by
  intro h
  obtain ⟨_, world₁, hevents, h⟩ := run_bind_eq_ok.mp h
  have hdb₁ : Intact world₁.db := by
    have hfinal := intact_of_leads (intact_leads (leads_events world)) hdb
    rwa [hevents] at hfinal
  obtain ⟨_, _, hget, h⟩ := run_bind_eq_ok.mp h
  obtain ⟨rfl, rfl⟩ := run_get_eq_ok.mp hget
  obtain ⟨digest, _, hdigest, h⟩ := run_bind_eq_ok.mp h
  obtain ⟨-, rfl⟩ := run_lift_eq_ok.mp hdigest
  dsimp only at h
  split at h
  · obtain ⟨sequence, _, happend, -⟩ := run_bind_eq_ok.mp h
    rw [onStore] at happend
    split at happend
    · next hcall => exact append_ne_ok hdb₁ rfl hcall
    · cases happend
  · cases h

/-! ## Records of repairs -/

/-- The payload of a row has an outcome for the repair. -/
def Names (row : EventRow) (actionId : String) : Prop :=
  ∃ payload outcomes outcome, Json.loads row.payloadJson = some payload ∧
    payload.get? "outcomes" = some (.arr outcomes) ∧ outcome ∈ outcomes ∧
    outcome.get? "action_id" = some (.str actionId)

/-- The store has a record of a pass that names all of the repairs. -/
def Recorded (db : KernelDb) (ran : List String) : Prop :=
  ∃ row ∈ db.events, row.head.eventType = "self_healing.pass" ∧
    ∀ actionId ∈ ran, Names row actionId

/-- When the pass is over, what was repaired is recorded, and the same pass appends nothing more and
returns the same receipt. -/
structure RepairsRecorded (runtime : SelfHealingRuntime) (observed : ObservedState) (now : Moment)
    (granted : List String) (recordedAt : String) (db : KernelDb) : Prop where
  recorded : Recorded (final (heal runtime observed now granted recordedAt ⟨db, []⟩)).db
    (final (heal runtime observed now granted recordedAt ⟨db, []⟩)).ran
  repeated : ∀ receipt world recordedAt',
    heal runtime observed now granted recordedAt ⟨db, []⟩ = .ok receipt world →
    ∃ world', heal runtime observed now granted recordedAt' ⟨world.db, []⟩ = .ok receipt world' ∧
      world'.db.events = world.db.events

end Records

/-! ## A repair without a record -/

local instance : Builtins := asciiBuiltins

section Sample

variable [Hash256]

/-- A handler for rollbacks that does its work elsewhere, and a store. -/
def recordingRuntime : SelfHealingRuntime where
  policy := samplePolicy
  handlers
    | .rollback => some ⟨fun _ db ↦ (none, db), fun _ _ h ↦ h⟩
    | _ => none
  store := some false
  actorId := "runtime"

theorem ran_sample (db : KernelDb) :
    (final (heal recordingRuntime (sampleState none) sampleNow [] "" ⟨db, []⟩)).ran =
      ["rollback:w"] := by
  have hreconcile := reconcile_sample none
  have hresult : orReconcile (reconcile recordingRuntime.policy (sampleState none) sampleNow)
      ⟨db, []⟩ = .ok (sampleResult none) ⟨db, []⟩ :=
    run_lift_eq_ok.mpr ⟨mapError_eq_ok.mpr hreconcile, rfl⟩
  have hdispatch : dispatch recordingRuntime [] (sampleResult none).desired.actions ⟨db, []⟩ =
      .ok ([⟨"rollback:w", .rollback, "applied", sampleAction.reason⟩], [])
        ⟨db, ["rollback:w"]⟩ := rfl
  rw [heal, run_bind_of_ok hresult, run_bind_of_ok hdispatch]
  exact (congrArg World.ran (final_bind_pure _ _ _)).trans (ran_of_leads (leads_appendPass _ _ _ _))

end Sample

/-- The event that creates the mission of the sample. -/
def missionEvent : Event :=
  lifecycleEvent "m" "w" "mission" "mission.created" "orchestrator" "orchestrator" []

theorem exists_missionEvent :
    ∃ calls, readRows none (afterAppends calls).events = .ok [missionEvent] := by
  have hreads : List.Forall₂ (fun event e ↦ ReadsAs (event, none) e)
      [textEvent missionEvent.toEventHead [] (by decide)] [missionEvent] :=
    .cons (readsAs_textEvent .nil) .nil
  have hcreated : ReduceStep emptyState missionEvent _ := .missionCreated rfl (by simp [emptyState])
  exact exists_calls "1970-01-01T00:00:00Z" (List.cons_ne_nil _ _) hreads (by decide) (by decide)
    (by decide) (List.nodup_singleton _)
    (Trace.foldlM_cons_eq_ok.mpr ⟨_, reduceEvent_eq_ok.mpr hcreated, rfl⟩)

end HiveMind.Healing
