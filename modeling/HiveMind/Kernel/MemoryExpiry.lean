import HiveMind.Kernel.Supersession

/-!
# Expiry

A record that is active but past its end is expired when somebody asks for it, and is passed over by
readers before that. A reader looks at the start of a record before it looks at the end. Where the
start is a time that `datetime` does not have in UTC, a record that is past its end stops the reader,
until it is expired.

* **`expire_invisible_iff`**: when readers do not notice that records are expired, and a second time
  it expires none.
-/

open Raise Dicts

namespace HiveMind.Memory

/-! ## Readers -/

/-- `SENSITIVITY_LEVELS`. -/
def sensitivityLevels : List String := ["public", "internal", "restricted"]

structure RequestFields where
  missionId : String
  workId : String
  role : String
  now : String
  dataScopes : List String
  repositoryKey : Option String
  sensitivityScopes : List String
  requiredSensitivities : List String

section Readers

variable [IsoFormats]

/-- `RetrievalRequest.__post_init__`. -/
def RequestFields.check (request : RequestFields) : Except MemoryError Unit := do
  if ¬isRole request.role then
    throw (.valueError "retrieval role is not registered")
  if request.missionId = "" ∨ request.workId = "" then
    throw (.valueError "retrieval mission and work are required")
  let _ ← instant request.now
  if ¬request.dataScopes.Nodup then
    throw (.valueError "retrieval data scopes must be unique")
  if ¬request.sensitivityScopes ⊆ sensitivityLevels ∨
      ¬request.requiredSensitivities ⊆ request.sensitivityScopes then
    throw (.valueError "retrieval sensitivity scopes are invalid")

/-- `RetrievalRequest`. -/
structure RetrievalRequest extends RequestFields where
  valid : toRequestFields.check = .ok ()

/-- The part of `_eligible` about times. -/
def isCurrent (record : MemoryRecord) (now : ℤ) : Except MemoryError Bool := do
  if now < (← instant record.availableAt) then return false
  if now < (← instant record.validFrom) then return false
  match record.validTo with
  | none => return true
  | some validTo => return !((← instant validTo) < now)

/-- The part of `_eligible` about what the request may see. -/
def permits (entry : MemoryEntry) (request : RetrievalRequest) : Bool :=
  let record := entry.record
  entry.access.roles.contains request.role &&
  entry.access.dataScopes.all (request.dataScopes.contains ·) &&
  request.sensitivityScopes.contains record.sensitivity &&
  (record.scope != "mission" || record.subjectKeys.contains request.missionId) &&
  (record.scope != "work_item" || record.subjectKeys.contains request.workId) &&
  (record.scope != "role" || record.subjectKeys.contains request.role) &&
  (record.scope != "repository" || request.repositoryKey.any (record.subjectKeys.contains ·))

/-- `_eligible`. -/
def eligible (catalog : Catalog) (entry : MemoryEntry) (request : RetrievalRequest) (now : ℤ) :
    Except MemoryError Bool :=
  match catalog.states.lookup entry.record.recordId with
  | none => .error (.keyError entry.record.recordId)
  | some state =>
    if state ≠ .active then .ok false
    else do return (← isCurrent entry.record now) && permits entry request

/-- The round of `active_records` for an entry. -/
def candidate (catalog : Catalog) (request : RetrievalRequest) (now : ℤ)
    (item : String × MemoryEntry) : Except MemoryError (Option MemoryEntry) := do
  return if ← eligible catalog item.2 request now then some item.2 else none

/-- `active_records`. -/
def activeRecords (catalog : Catalog) (request : RetrievalRequest) :
    Except MemoryError (List MemoryEntry) := do
  let now ← instant request.now
  let found ← (Rows.orderBy Prod.fst catalog.entries).mapM (candidate catalog request now)
  return found.reduceOption

end Readers

/-! ## Entries and states -/

/-- Entries are kept under the ids of their records, and each of them has a state. -/
structure IsKeyed (catalog : Catalog) : Prop where
  nodup : (catalog.entries.map Prod.fst).Nodup
  recordId : ∀ item ∈ catalog.entries, item.2.record.recordId = item.1
  states : ∀ item ∈ catalog.entries, ∃ state, catalog.states.lookup item.1 = some state

/-- The changes that operations make. -/
inductive Changes : Catalog → Catalog → Prop
  | insert (catalog : Catalog) (record : MemoryRecord) (access : MemoryAccess)
    (hnew : catalog.entries.lookup record.recordId = none) :
    Changes catalog { catalog with
      entries := setItem record.recordId ⟨record, access⟩ catalog.entries
      states := setItem record.recordId record.state catalog.states }
  | append (catalog : Catalog) (event : LifecycleEvent) : Changes catalog (catalog.append event)
  | record (catalog : Catalog) (conflict : MemoryConflict) : Changes catalog
      { catalog with conflicts := setItem conflict.conflictId conflict catalog.conflicts }

/-- Every change keeps the entries and their states together. -/
theorem IsKeyed.of_changes {catalog after : Catalog} (h : IsKeyed catalog)
    (hchanges : Changes catalog after) : IsKeyed after := by
  have hlookup : ∀ (key : String) (value : MemoryState) {id : String},
      (∃ state, catalog.states.lookup id = some state) →
        ∃ state, (setItem key value catalog.states).lookup id = some state := by
    rintro key value id ⟨state, hstate⟩
    rw [lookup_setItem]
    split
    · exact ⟨value, rfl⟩
    · exact ⟨state, hstate⟩
  rcases hchanges with ⟨record, access, hnew⟩ | event | conflict
  case insert =>
    refine ⟨nodup_setItem h.nodup, fun item hitem ↦ ?_, fun item hitem ↦ ?_⟩
    · rcases eq_or_mem_of_mem_setItem hitem with rfl | hold
      · rfl
      · exact h.recordId item hold
    · rcases eq_or_mem_of_mem_setItem hitem with rfl | hold
      · exact ⟨record.state, by rw [lookup_setItem, if_pos rfl]⟩
      · exact hlookup _ _ (h.states item hold)
  case append => exact ⟨h.nodup, h.recordId, fun item hitem ↦ hlookup _ _ (h.states item hitem)⟩
  case record => exact ⟨h.nodup, h.recordId, h.states⟩

theorem IsKeyed.of_leads {catalog after : Catalog} (h : IsKeyed catalog)
    (hleads : Relation.ReflTransGen Changes catalog after) : IsKeyed after := by
  induction hleads with
  | refl => exact h
  | tail _ hstep ih => exact ih.of_changes hstep

section Leads

variable [Hash256] [IsoFormats] {catalog : Catalog} {files : ArtifactFiles}

omit [Hash256] in
theorem leads_transition (recordId : String) (state : MemoryState) (eventId occurredAt reason : String)
    (successorId : Option String) :
    Leads Changes (transition recordId state eventId occurredAt reason successorId) catalog := by
  constructor
  · intro event after h
    obtain ⟨-, rfl⟩ := transition_eq_ok.mp h
    exact .single (.append catalog event)
  · intro e after h
    rw [atomic_transition _ _ _ h]

omit [IsoFormats] in
theorem leads_register (record : MemoryRecord) (access : MemoryAccess) :
    Leads Changes (register files record access) catalog := by
  refine (keeps_lift _).leads_bind fun _ _ ↦ leads_get_bind ?_
  rcases hlookup : catalog.entries.lookup record.recordId with _ | existing
  · exact leads_set (.insert catalog record access hlookup)
  · exact leads_ite (fun _ ↦ (keeps_throw _).leads) fun _ ↦ (keeps_pure _).leads

theorem leads_supersede (successor : MemoryRecord) (access : MemoryAccess) (now reason : String) :
    Leads Changes (supersede files successor access now reason) catalog := by
  refine leads_ite (fun _ ↦ (keeps_throw _).leads) fun _ ↦ leads_get_bind ?_
  refine leads_ite (fun _ ↦ (keeps_throw _).leads) fun _ ↦ ?_
  exact (leads_register _ _).bind fun _ _ _ ↦
    leads_mapM (fun _ _ ↦ leads_transition _ _ _ _ _ _) _

theorem leads_recordConflict (recordIds : List String) (reason recordedAt : String) :
    Leads Changes (recordConflict recordIds reason recordedAt) catalog := by
  refine leads_get_bind (leads_ite (fun _ ↦ (keeps_throw _).leads) fun _ ↦ ?_)
  refine (keeps_lift _).leads_bind fun _ _ ↦ leads_ite (fun _ ↦ (keeps_throw _).leads) fun _ ↦ ?_
  exact (leads_set (.record catalog _)).bind fun _ _ _ ↦ (keeps_pure _).leads

theorem leads_contradict (recordIds : List String) (now reason : String) :
    Leads Changes (contradict recordIds now reason) catalog := by
  refine leads_get_bind (leads_ite (fun _ ↦ (keeps_throw _).leads) fun _ ↦ ?_)
  refine (leads_recordConflict _ _ _).bind fun _ _ _ ↦ ?_
  exact (leads_mapM (fun _ _ ↦ leads_transition _ _ _ _ _ _) _).bind fun _ _ _ ↦ (keeps_pure _).leads

theorem leads_consolidate (lesson : MemoryRecord) (access : MemoryAccess) (support : List String)
    (independenceKeys : List (String × String)) (now reason : String) (policy : ConsolidationPolicy) :
    Leads Changes (consolidate files lesson access support independenceKeys now reason policy)
      catalog :=
  leads_get_bind ((keeps_lift _).leads_bind fun _ _ ↦ leads_supersede _ _ _ _)

omit [Hash256] in
theorem leads_expireRecord (now : String) (current : ℤ) (recordId : String) :
    Leads Changes (expireRecord now current recordId) catalog := by
  refine leads_get_bind ?_
  split
  · refine (keeps_lift _).leads_bind fun _ _ ↦ leads_ite (fun _ ↦ ?_) fun _ ↦ (keeps_pure _).leads
    exact (leads_transition _ _ _ _ _ _).bind fun _ _ _ ↦ (keeps_pure _).leads
  · exact (keeps_pure _).leads

omit [Hash256] in
theorem leads_expire (now : String) : Leads Changes (expire now) catalog := by
  refine (keeps_lift _).leads_bind fun _ _ ↦ leads_get_bind ?_
  exact (leads_mapM (fun _ _ ↦ leads_expireRecord _ _ _) _).bind fun _ _ _ ↦ (keeps_pure _).leads

/-- Every call makes such changes. -/
theorem changes_run (call : Call) : Relation.ReflTransGen Changes catalog (call.run catalog) := by
  cases call with
  | register files record access => exact (leads_register _ _).final
  | transition recordId state eventId occurredAt reason successorId =>
    exact (leads_transition _ _ _ _ _ _).final
  | supersede files successor access now reason => exact (leads_supersede _ _ _ _).final
  | correct files successor access now reason => exact (leads_supersede _ _ _ _).final
  | quarantine recordId now reason eventId => exact (leads_transition _ _ _ _ _ _).final
  | contradict recordIds now reason => exact (leads_contradict _ _ _).final
  | consolidate files lesson access supportingRecordIds independenceKeys now reason policy =>
    exact (leads_consolidate _ _ _ _ _ _ _).final
  | recordConflict recordIds reason recordedAt => exact (leads_recordConflict _ _ _).final
  | expire now => exact (leads_expire _).final

theorem isKeyed_of_reachable (h : Reachable catalog) : IsKeyed catalog := by
  obtain ⟨calls, rfl⟩ := h
  induction calls using List.reverseRecOn with
  | nil => exact ⟨List.nodup_nil, nofun, nofun⟩
  | append_singleton calls call ih =>
    rw [List.foldl_concat]
    exact ih.of_leads (changes_run call)

end Leads

/-! ## The loop over the entries -/

section Loop

variable [IsoFormats]

/-- The record is past its end. -/
def IsLapsed (record : MemoryRecord) (now : ℤ) : Prop :=
  ∃ validTo ∈ record.validTo, ∃ t, instant validTo = .ok t ∧ t < now

/-- The record with this id is active and past its end. -/
structure Catalog.IsDue (catalog : Catalog) (now : ℤ) (recordId : String) : Prop where
  active : catalog.states.lookup recordId = some .active
  lapsed : ∃ entry, catalog.entries.lookup recordId = some entry ∧ IsLapsed entry.record now

/-- The end of a record with this id is a time that can be read, if the record is active. -/
def Catalog.HasEnd (catalog : Catalog) (recordId : String) : Prop :=
  catalog.states.lookup recordId = some .active →
    ∀ entry ∈ catalog.entries.lookup recordId, ∀ validTo ∈ entry.record.validTo,
      ∃ t, instant validTo = .ok t

variable {catalog after : Catalog} {now : String} {current : ℤ} {recordId : String}
  {events : List LifecycleEvent}

/-- A round for a record that is active and has an end. -/
theorem expireRecord_of_active {entry : MemoryEntry} {validTo : String}
    (hactive : catalog.states.lookup recordId = some .active)
    (hentry : catalog.entries.lookup recordId = some entry)
    (hvalidTo : entry.record.validTo = some validTo) :
    expireRecord now current recordId catalog = (do
      let end_ ← Raise.lift (instant validTo)
      if end_ < current then
        let event ← transition recordId .expired ("memory.expired:" ++ recordId ++ ":" ++ now) now
          "validity window elapsed" none
        return [event]
      return []) catalog := by
  rw [expireRecord, run_bind_of_ok (run_get_eq_ok.mpr ⟨rfl, rfl⟩), hactive, hentry, Option.bind_some,
    hvalidTo]

/-- A round for another record. -/
theorem expireRecord_of_not_active (h : ∀ entry validTo,
    catalog.states.lookup recordId = some .active → catalog.entries.lookup recordId = some entry →
      entry.record.validTo ≠ some validTo) :
    expireRecord now current recordId catalog = .ok [] catalog := by
  rw [expireRecord, run_bind_of_ok (run_get_eq_ok.mpr ⟨rfl, rfl⟩)]
  rcases hend : (catalog.entries.lookup recordId).bind (·.record.validTo) with _ | validTo
  · rcases catalog.states.lookup recordId with _ | _ | _ <;> rfl
  · obtain ⟨entry, hentry, hvalidTo⟩ := Option.bind_eq_some_iff.mp hend
    rcases hstate : catalog.states.lookup recordId with _ | state
    · rfl
    · rcases state with _ | _ | _ | _ | _ | _
      · exact absurd hvalidTo (h entry validTo hstate hentry)
      all_goals rfl

omit [IsoFormats] in
/-- Either a record is active and has an end, or the round has nothing to do. -/
theorem exists_end_or (catalog : Catalog) (recordId : String) :
    (∃ entry validTo, catalog.states.lookup recordId = some .active ∧
      catalog.entries.lookup recordId = some entry ∧ entry.record.validTo = some validTo) ∨
    ∀ entry validTo, catalog.states.lookup recordId = some .active →
      catalog.entries.lookup recordId = some entry → entry.record.validTo ≠ some validTo := by
  by_cases h : ∃ entry validTo, catalog.states.lookup recordId = some .active ∧
      catalog.entries.lookup recordId = some entry ∧ entry.record.validTo = some validTo
  · exact .inl h
  · exact .inr fun entry validTo hactive hentry hvalidTo ↦ h ⟨entry, validTo, hactive, hentry, hvalidTo⟩

/-- A round expires a record, or leaves everything as it is. -/
theorem expireRecord_eq_ok (h : expireRecord now current recordId catalog = .ok events after) :
    catalog.HasEnd recordId ∧
      ((catalog.IsDue current recordId ∧ ∃ event : LifecycleEvent, event.recordId = recordId ∧
          event.state = .expired ∧ after = catalog.append event) ∨
        ¬catalog.IsDue current recordId ∧ after = catalog ∧ events = []) := by
  rcases exists_end_or catalog recordId with ⟨entry, validTo, hactive, hentry, hvalidTo⟩ | hno
  · rw [expireRecord_of_active hactive hentry hvalidTo] at h
    obtain ⟨t, _, hlift, h⟩ := run_bind_eq_ok.mp h
    obtain ⟨ht, rfl⟩ := run_lift_eq_ok.mp hlift
    refine ⟨fun _ entry' hentry' validTo' hvalidTo' ↦ ?_, ?_⟩
    · obtain rfl := Option.some.inj (hentry.symm.trans hentry')
      obtain rfl := Option.some.inj (hvalidTo.symm.trans hvalidTo')
      exact ⟨t, ht⟩
    by_cases hlt : t < current
    · rw [if_pos hlt] at h
      obtain ⟨event, _, htransition, h⟩ := run_bind_eq_ok.mp h
      obtain ⟨hevent, rfl⟩ := transition_eq_ok.mp htransition
      obtain ⟨-, -, -, -, -, -, rfl⟩ := nextEvent_eq_ok.mp hevent
      obtain ⟨rfl, rfl⟩ := run_pure_eq_ok.mp h
      exact .inl ⟨⟨hactive, entry, hentry, validTo, hvalidTo, t, ht, hlt⟩, _, rfl, rfl, rfl⟩
    · rw [if_neg hlt] at h
      obtain ⟨rfl, rfl⟩ := run_pure_eq_ok.mp h
      refine .inr ⟨?_, rfl, rfl⟩
      rintro ⟨-, entry', hentry', validTo', hvalidTo', t', ht', hlt'⟩
      obtain rfl := Option.some.inj (hentry.symm.trans hentry')
      obtain rfl := Option.some.inj (hvalidTo.symm.trans hvalidTo')
      obtain rfl := Except.ok.inj (ht.symm.trans ht')
      exact hlt hlt'
  · rw [expireRecord_of_not_active hno] at h
    obtain ⟨rfl, rfl⟩ := EStateM.Result.ok.inj h
    refine ⟨fun hactive entry hentry validTo hvalidTo ↦
      absurd hvalidTo (hno entry validTo hactive hentry), .inr ⟨?_, rfl, rfl⟩⟩
    rintro ⟨hactive, entry, hentry, validTo, hvalidTo, -⟩
    exact hno entry validTo hactive hentry hvalidTo

/-- A round that finds nothing to expire changes nothing. -/
theorem expireRecord_of_not_due (hend : catalog.HasEnd recordId)
    (hdue : ¬catalog.IsDue current recordId) :
    expireRecord now current recordId catalog = .ok [] catalog := by
  rcases exists_end_or catalog recordId with ⟨entry, validTo, hactive, hentry, hvalidTo⟩ | hno
  · obtain ⟨t, ht⟩ := hend hactive entry hentry validTo hvalidTo
    rw [expireRecord_of_active hactive hentry hvalidTo, run_bind_of_ok (run_lift_eq_ok.mpr ⟨ht, rfl⟩),
      if_neg]
    · rfl
    · intro hlt
      exact hdue ⟨hactive, entry, hentry, validTo, hvalidTo, t, ht, hlt⟩
  · exact expireRecord_of_not_active hno

/-- What the loop leaves. -/
structure Expired (now : ℤ) (ids : List String) (before after : Catalog) : Prop where
  entries : after.entries = before.entries
  due : ∀ id ∈ ids, before.IsDue now id → after.states.lookup id = some .expired
  other : ∀ id, ¬(id ∈ ids ∧ before.IsDue now id) →
    after.states.lookup id = before.states.lookup id
  hasEnd : ∀ id ∈ ids, before.HasEnd id

theorem expired_of_ok {ids : List String} {found : List (List LifecycleEvent)}
    (h : ids.mapM (expireRecord now current) catalog = .ok found after) :
    Expired current ids catalog after := by
  induction ids generalizing catalog found with
  | nil =>
    obtain ⟨rfl, rfl⟩ := run_pure_eq_ok.mp h
    exact ⟨rfl, fun _ hmem ↦ absurd hmem List.not_mem_nil, fun _ _ ↦ rfl,
      fun _ hmem ↦ absurd hmem List.not_mem_nil⟩
  | cons id ids ih =>
    rw [List.mapM_cons] at h
    obtain ⟨events, next, hfirst, h⟩ := run_bind_eq_ok.mp h
    obtain ⟨rest, later, hrest, h⟩ := run_bind_eq_ok.mp h
    obtain ⟨-, rfl⟩ := run_pure_eq_ok.mp h
    have hexpired := ih hrest
    obtain ⟨hend, ⟨hdue, event, hid, hstate, rfl⟩ | ⟨hdue, rfl, -⟩⟩ := expireRecord_eq_ok hfirst
    · -- The first record is expired, and all others are as before.
      have hlookup : ∀ id', (catalog.append event).states.lookup id' =
          if id' = id then some .expired else catalog.states.lookup id' := by
        intro id'
        rw [Catalog.append, lookup_setItem, hid, hstate]
      have hsame : ∀ id', id' ≠ id →
          (catalog.append event).states.lookup id' = catalog.states.lookup id' := by
        intro id' hne
        rw [hlookup, if_neg hne]
      have hdone : later.states.lookup id = some .expired := by
        have hnot : ¬(catalog.append event).IsDue current id := by
          rintro ⟨hactive, -⟩
          rw [hlookup, if_pos rfl] at hactive
          cases hactive
        rw [hexpired.other id fun h ↦ hnot h.2, hlookup, if_pos rfl]
      refine ⟨hexpired.entries, fun id' hmem hdue' ↦ ?_, fun id' hnot ↦ ?_, fun id' hmem ↦ ?_⟩
      · by_cases hne : id' = id
        · rw [hne, hdone]
        · exact hexpired.due id' ((List.mem_cons.mp hmem).resolve_left hne)
            ⟨(hsame id' hne).trans hdue'.active, hdue'.lapsed⟩
      · have hne : id' ≠ id := by
          rintro rfl
          exact hnot ⟨List.mem_cons_self, hdue⟩
        rw [hexpired.other id', hsame id' hne]
        rintro ⟨hmem, hdue'⟩
        exact hnot ⟨List.mem_cons_of_mem _ hmem, (hsame id' hne) ▸ hdue'.active, hdue'.lapsed⟩
      · by_cases hne : id' = id
        · exact hne ▸ hend
        · have hend' := hexpired.hasEnd id' ((List.mem_cons.mp hmem).resolve_left hne)
          exact fun hactive ↦ hend' ((hsame id' hne).trans hactive)
    · refine ⟨hexpired.entries, fun id' hmem hdue' ↦ ?_, fun id' hnot ↦ ?_, fun id' hmem ↦ ?_⟩
      · rcases List.mem_cons.mp hmem with rfl | hmem
        · exact absurd hdue' hdue
        · exact hexpired.due id' hmem hdue'
      · exact hexpired.other id' fun h ↦ hnot ⟨List.mem_cons_of_mem _ h.1, h.2⟩
      · rcases List.mem_cons.mp hmem with rfl | hmem
        · exact hend
        · exact hexpired.hasEnd id' hmem

/-- Nothing is due after the loop. -/
theorem Expired.not_due {ids : List String} (h : Expired current ids catalog after) {id : String}
    (hmem : id ∈ ids) : ¬after.IsDue current id := by
  rintro ⟨hactive, hlapsed⟩
  by_cases hdue : catalog.IsDue current id
  · rw [h.due id hmem hdue] at hactive
    exact nomatch hactive
  · rw [h.other id fun h ↦ hdue h.2] at hactive
    rw [h.entries] at hlapsed
    exact hdue ⟨hactive, hlapsed⟩

theorem Expired.hasEnd_after {ids : List String} (h : Expired current ids catalog after) {id : String}
    (hmem : id ∈ ids) : after.HasEnd id := by
  intro hactive
  by_cases hdue : catalog.IsDue current id
  · rw [h.due id hmem hdue] at hactive
    exact nomatch hactive
  · rw [h.other id fun h ↦ hdue h.2] at hactive
    rw [h.entries]
    exact h.hasEnd id hmem hactive

/-- A loop over records of which none is due changes nothing. -/
theorem mapM_expireRecord {ids : List String}
    (h : ∀ id ∈ ids, catalog.HasEnd id ∧ ¬catalog.IsDue current id) :
    ids.mapM (expireRecord now current) catalog = .ok (ids.map fun _ ↦ []) catalog := by
  induction ids with
  | nil => rfl
  | cons id ids ih =>
    obtain ⟨⟨hend, hdue⟩, hrest⟩ := List.forall_mem_cons.mp h
    rw [List.mapM_cons, run_bind_of_ok (expireRecord_of_not_due hend hdue), run_bind_of_ok (ih hrest)]
    rfl

/-- The loop of a call that returns. -/
theorem expired_of_expire (h : expire now catalog = .ok events after) : ∃ current,
    instant now = .ok current ∧
      Expired current ((catalog.entries.map Prod.fst).insertionSort (· ≤ ·)) catalog after := by
  obtain ⟨current, _, hlift, h⟩ := run_bind_eq_ok.mp h
  obtain ⟨hnow, rfl⟩ := run_lift_eq_ok.mp hlift
  rw [run_bind_of_ok (run_get_eq_ok.mpr ⟨rfl, rfl⟩)] at h
  obtain ⟨found, _, hloop, h⟩ := run_bind_eq_ok.mp h
  obtain ⟨-, rfl⟩ := run_pure_eq_ok.mp h
  exact ⟨current, hnow, expired_of_ok hloop⟩

/-- **A second call changes nothing.** -/
theorem expire_again (h : expire now catalog = .ok events after) :
    expire now after = .ok [] after := by
  obtain ⟨current, hnow, hexpired⟩ := expired_of_expire h
  have hloop := @mapM_expireRecord _ after now current
    ((after.entries.map Prod.fst).insertionSort (· ≤ ·)) fun id hid ↦ by
      rw [hexpired.entries] at hid
      exact ⟨hexpired.hasEnd_after hid, hexpired.not_due hid⟩
  rw [expire, run_bind_of_ok (run_lift_eq_ok.mpr ⟨hnow, rfl⟩),
    run_bind_of_ok (run_get_eq_ok.mpr ⟨rfl, rfl⟩), run_bind_of_ok hloop]
  refine run_pure_eq_ok.mpr ⟨(List.flatten_eq_nil_iff.mpr ?_).symm, rfl⟩
  simp only [List.mem_map, forall_exists_index, and_imp]
  rintro _ _ _ rfl
  rfl

end Loop

/-! ## What readers find -/

section Found

variable [IsoFormats] {catalog after : Catalog} {record : MemoryRecord} {request : RetrievalRequest}
  {current : ℤ} {item : String × MemoryEntry}

/-- A reader of the record looks at a start that `datetime` does not have in UTC. -/
def IsUnreadable (record : MemoryRecord) (now : ℤ) : Prop :=
  instant record.availableAt = .error .overflowError ∨
    ∃ t, instant record.availableAt = .ok t ∧ t ≤ now ∧
      instant record.validFrom = .error .overflowError

/-- A time in the format of RFC 3339 may be out of range, and that is all. -/
theorem instant_of_isTime {value : String} (h : isTime value = true) :
    (∃ t, instant value = .ok t) ∨ instant value = .error .overflowError := by
  obtain ⟨t, ht⟩ := Option.isSome_iff_exists.mp h
  rw [instant, ht]
  change (∃ t', asUtc t = .ok t') ∨ asUtc t = .error .overflowError
  rw [asUtc]
  split
  · exact .inl ⟨t, rfl⟩
  · exact .inr rfl

omit [IsoFormats] in
/-- The times of a record. -/
theorem isTime_of_valid (record : MemoryRecord) : isTime record.availableAt = true ∧
    isTime record.validFrom = true := by
  have hvalid := record.valid
  simp only [RecordFields.problem?, problemUnless, Option.orElse_eq_orElse, Option.orElse_eq_or,
    Option.or_eq_none_iff, ite_eq_left_iff, reduceCtorEq, imp_false, not_not] at hvalid
  obtain ⟨-, -, -, -, -, hfrom, -, havailable, -⟩ := hvalid
  exact ⟨havailable, hfrom⟩

theorem isCurrent_of_unreadable (h : IsUnreadable record current) :
    isCurrent record current = .error .overflowError := by
  rcases h with h | ⟨t, ht, hle, h⟩
  · rw [isCurrent, h]
    rfl
  · rw [isCurrent, ht, ok_bind, if_neg (not_lt.mpr hle), h]
    rfl

/-- What a reader finds of a record that can be read. -/
theorem exists_isCurrent (hend : ∀ validTo ∈ record.validTo, ∃ t, instant validTo = .ok t)
    (h : ¬IsUnreadable record current) : ∃ found, isCurrent record current = .ok found ∧
      (IsLapsed record current → found = false) := by
  obtain ⟨havailable, hfrom⟩ := isTime_of_valid record
  rw [IsUnreadable, not_or] at h
  obtain ⟨t, ht⟩ := (instant_of_isTime havailable).resolve_right h.1
  rw [isCurrent, ht, ok_bind]
  by_cases hbefore : current < t
  · rw [if_pos hbefore]
    exact ⟨false, rfl, fun _ ↦ rfl⟩
  obtain ⟨t', ht'⟩ := (instant_of_isTime hfrom).resolve_right fun herror ↦
    h.2 ⟨t, ht, not_lt.mp hbefore, herror⟩
  rw [if_neg hbefore, ht', ok_bind]
  by_cases hbefore' : current < t'
  · rw [if_pos hbefore']
    exact ⟨false, rfl, fun _ ↦ rfl⟩
  rw [if_neg hbefore']
  rcases hvalidTo : record.validTo with _ | validTo
  · refine ⟨true, rfl, ?_⟩
    rintro ⟨validTo, hmem, -⟩
    exact absurd (hvalidTo ▸ hmem) (Option.not_mem_none _)
  · obtain ⟨t'', ht''⟩ := hend validTo hvalidTo
    refine ⟨!decide (t'' < current), ?_, ?_⟩
    · change (instant validTo >>= fun end_ ↦ pure !decide (end_ < current)) = _
      rw [ht'']
      rfl
    rintro ⟨validTo', hmem, s, hs, hlt⟩
    obtain rfl := Option.some.inj (hvalidTo.symm.trans hmem)
    obtain rfl := Except.ok.inj (ht''.symm.trans hs)
    simp [hlt]

/-- What a reader finds of an entry that is not active. -/
theorem candidate_of_not_active {state : MemoryState} (hkeyed : item.2.record.recordId = item.1)
    (hstate : catalog.states.lookup item.1 = some state) (hne : state ≠ .active) :
    candidate catalog request current item = .ok none := by
  rw [candidate, eligible, hkeyed, hstate]
  simp only [if_pos hne]
  rfl

theorem candidate_of_active (hkeyed : item.2.record.recordId = item.1)
    (hactive : catalog.states.lookup item.1 = some .active) :
    candidate catalog request current item = (do
      let found ← isCurrent item.2.record current
      return if found && permits item.2 request then some item.2 else none) := by
  rw [candidate, eligible, hkeyed, hactive]
  simp only [ne_eq, not_true_eq_false, if_false]
  rcases isCurrent item.2.record current with e | found <;> rfl

/-- The entry is active and stops a reader. -/
structure Catalog.Stops (catalog : Catalog) (now : ℤ) (item : String × MemoryEntry) : Prop where
  active : catalog.states.lookup item.1 = some .active
  unreadable : IsUnreadable item.2.record now

theorem candidate_of_stops (hkeyed : item.2.record.recordId = item.1)
    (h : catalog.Stops current item) :
    candidate catalog request current item = .error .overflowError := by
  rw [candidate_of_active hkeyed h.active, isCurrent_of_unreadable h.unreadable]
  rfl

/-- A reader goes on after an entry that does not stop it, and passes over one that is due. -/
theorem exists_candidate (hkeyed : IsKeyed catalog) (hitem : item ∈ catalog.entries)
    (hend : catalog.HasEnd item.1) (h : ¬catalog.Stops current item) :
    ∃ found, candidate catalog request current item = .ok found ∧
      (catalog.IsDue current item.1 → found = none) := by
  have hid := hkeyed.recordId item hitem
  have hentry : catalog.entries.lookup item.1 = some item.2 := lookup_of_mem hkeyed.nodup hitem
  obtain ⟨state, hstate⟩ := hkeyed.states item hitem
  by_cases hactive : state = .active
  · subst hactive
    obtain ⟨found, hfound, hlapsed⟩ := exists_isCurrent (hend hstate item.2 hentry)
      fun hunreadable ↦ h ⟨hstate, hunreadable⟩
    refine ⟨_, by rw [candidate_of_active hid hstate, hfound]; rfl, fun hdue ↦ ?_⟩
    obtain ⟨entry, hentry', hpast⟩ := hdue.lapsed
    obtain rfl := Option.some.inj (hentry.symm.trans hentry')
    rw [hlapsed hpast]
    rfl
  · exact ⟨none, candidate_of_not_active hid hstate hactive, fun _ ↦ rfl⟩

/-- What a reader makes of the entries of the catalog. -/
theorem activeRecords_eq (hnow : instant request.now = .ok current) :
    activeRecords catalog request = (do
      let found ← (Rows.orderBy Prod.fst catalog.entries).mapM (candidate catalog request current)
      return found.reduceOption) := by
  rw [activeRecords, hnow]
  rfl

/-- One entry that stops the reader is enough. -/
theorem activeRecords_of_stops (hkeyed : IsKeyed catalog)
    (hends : ∀ item ∈ catalog.entries, catalog.HasEnd item.1)
    (hnow : instant request.now = .ok current)
    (h : ∃ item ∈ catalog.entries, catalog.Stops current item) :
    activeRecords catalog request = .error .overflowError := by
  rw [activeRecords_eq hnow]
  obtain ⟨item, hitem, hstops⟩ := h
  have hmem : item ∈ Rows.orderBy Prod.fst catalog.entries := Rows.orderBy_perm.mem_iff.mpr hitem
  rcases hrun : (Rows.orderBy Prod.fst catalog.entries).mapM (candidate catalog request current)
    with e | found
  · obtain ⟨other, hother, herror⟩ := mapM_eq_error hrun
    have hother := Rows.orderBy_perm.mem_iff.mp hother
    by_cases hstop : catalog.Stops current other
    · rw [candidate_of_stops (hkeyed.recordId other hother) hstop] at herror
      rw [Except.error.inj herror]
      rfl
    · obtain ⟨found, hfound, -⟩ := exists_candidate hkeyed hother (hends other hother) hstop
      exact nomatch herror.symm.trans hfound
  · obtain ⟨value, -, hvalue⟩ := exists_of_forall₂ (mapM_eq_ok.mp hrun) hmem
    rw [candidate_of_stops (hkeyed.recordId item hitem) hstops] at hvalue
    exact nomatch hvalue

/-- Where no entry stops the reader, it returns. -/
theorem exists_activeRecords (hkeyed : IsKeyed catalog)
    (hends : ∀ item ∈ catalog.entries, catalog.HasEnd item.1)
    (hnow : instant request.now = .ok current)
    (h : ¬∃ item ∈ catalog.entries, catalog.Stops current item) :
    ∃ found, activeRecords catalog request = .ok found := by
  rw [activeRecords_eq hnow]
  rcases hrun : (Rows.orderBy Prod.fst catalog.entries).mapM (candidate catalog request current)
    with e | found
  · obtain ⟨item, hitem, herror⟩ := mapM_eq_error hrun
    have hitem := Rows.orderBy_perm.mem_iff.mp hitem
    obtain ⟨found, hfound, -⟩ := exists_candidate hkeyed hitem (hends item hitem)
      fun hstops ↦ h ⟨item, hitem, hstops⟩
    exact nomatch herror.symm.trans hfound
  · exact ⟨found.reduceOption, rfl⟩

/-- Where an entry that is due stops readers, so does one that is not due. -/
def Catalog.IsReadable (catalog : Catalog) (now : ℤ) : Prop :=
  (∃ item ∈ catalog.entries, catalog.IsDue now item.1 ∧ IsUnreadable item.2.record now) →
    ∃ item ∈ catalog.entries, catalog.Stops now item ∧ ¬catalog.IsDue now item.1

/-- The entries that stop a reader after the loop. -/
theorem Expired.stops_iff {ids : List String} (h : Expired current ids catalog after)
    (hmem : item.1 ∈ ids) :
    after.Stops current item ↔ catalog.Stops current item ∧ ¬catalog.IsDue current item.1 := by
  by_cases hdue : catalog.IsDue current item.1
  · refine iff_of_false (fun hstops ↦ ?_) fun hstops ↦ hstops.2 hdue
    exact nomatch (h.due item.1 hmem hdue).symm.trans hstops.active
  · have hsame := h.other item.1 fun h ↦ hdue h.2
    constructor
    · intro hstops
      exact ⟨⟨hsame ▸ hstops.active, hstops.unreadable⟩, hdue⟩
    · rintro ⟨hstops, -⟩
      exact ⟨hsame.trans hstops.active, hstops.unreadable⟩

/-- What a reader finds of an entry that does not stop it is the same after the loop. -/
theorem Expired.candidate_eq {ids : List String} (h : Expired current ids catalog after)
    (hkeyed : IsKeyed catalog) (hitem : item ∈ catalog.entries) (hmem : item.1 ∈ ids)
    (hstops : ¬catalog.Stops current item) :
    candidate catalog request current item = candidate after request current item := by
  have hid := hkeyed.recordId item hitem
  by_cases hdue : catalog.IsDue current item.1
  · obtain ⟨found, hfound, hnone⟩ := exists_candidate hkeyed hitem (h.hasEnd item.1 hmem) hstops
    rw [hfound, hnone hdue, candidate_of_not_active hid (h.due item.1 hmem hdue) nofun]
  · rw [candidate, candidate, eligible, eligible, hid, h.other item.1 fun h ↦ hdue h.2]

/-- Readers do not notice the loop, unless it takes away all that stopped them. -/
theorem Expired.activeRecords_eq_iff {ids : List String} (h : Expired current ids catalog after)
    (hkeyed : IsKeyed catalog) (hafter : IsKeyed after)
    (hids : ∀ item ∈ catalog.entries, item.1 ∈ ids) (hnow : instant request.now = .ok current) :
    activeRecords catalog request = activeRecords after request ↔ catalog.IsReadable current := by
  have hends : ∀ item ∈ catalog.entries, catalog.HasEnd item.1 :=
    fun item hitem ↦ h.hasEnd item.1 (hids item hitem)
  have hends' : ∀ item ∈ after.entries, after.HasEnd item.1 :=
    fun item hitem ↦ h.hasEnd_after (hids item (h.entries ▸ hitem))
  have hstill : (∃ item ∈ after.entries, after.Stops current item) ↔
      ∃ item ∈ catalog.entries, catalog.Stops current item ∧ ¬catalog.IsDue current item.1 := by
    rw [h.entries]
    exact exists_congr fun item ↦ and_congr_right fun hitem ↦ h.stops_iff (hids item hitem)
  by_cases hafterStops : ∃ item ∈ after.entries, after.Stops current item
  · -- Something stops the reader before and after.
    refine iff_of_true ?_ fun _ ↦ hstill.mp hafterStops
    obtain ⟨item, hitem, hstops, -⟩ := hstill.mp hafterStops
    rw [activeRecords_of_stops hkeyed hends hnow ⟨item, hitem, hstops⟩,
      activeRecords_of_stops hafter hends' hnow hafterStops]
  by_cases hstops : ∃ item ∈ catalog.entries, catalog.Stops current item
  · -- What stopped the reader is expired.
    obtain ⟨found, hfound⟩ := exists_activeRecords hafter hends' hnow hafterStops
    rw [activeRecords_of_stops hkeyed hends hnow hstops, hfound]
    refine iff_of_false nofun fun hreadable ↦ hafterStops (hstill.mpr (hreadable ?_))
    obtain ⟨item, hitem, hstop⟩ := hstops
    refine ⟨item, hitem, ?_, hstop.unreadable⟩
    by_contra hdue
    exact hafterStops (hstill.mpr ⟨item, hitem, hstop, hdue⟩)
  · -- Nothing stops the reader.
    refine iff_of_true ?_ ?_
    · rw [activeRecords_eq hnow, activeRecords_eq hnow, h.entries]
      congr 1
      refine mapM_congr fun item hitem ↦ ?_
      have hitem := Rows.orderBy_perm.mem_iff.mp hitem
      exact h.candidate_eq hkeyed hitem (hids item hitem) fun hstop ↦ hstops ⟨item, hitem, hstop⟩
    · rintro ⟨item, hitem, hdue, hunreadable⟩
      exact absurd ⟨item, hitem, hdue.active, hunreadable⟩ hstops

end Found

/-- **Readers do not notice that records are expired, unless all that stopped them is expired.** -/
theorem expire_invisible_iff [Hash256] [IsoFormats] {catalog after : Catalog} {now : String}
    {events : List LifecycleEvent} (hreachable : Reachable catalog)
    (h : expire now catalog = .ok events after) :
    ∃ current, instant now = .ok current ∧
      (∀ request : RetrievalRequest, instant request.now = .ok current →
        (activeRecords catalog request = activeRecords after request ↔
          catalog.IsReadable current)) ∧
      expire now after = .ok [] after := by
  obtain ⟨current, hnow, hexpired⟩ := expired_of_expire h
  have hkeyed := isKeyed_of_reachable hreachable
  have hafter := hkeyed.of_leads ((leads_expire now).1 events after h)
  refine ⟨current, hnow, fun request hrequest ↦ ?_, expire_again h⟩
  refine hexpired.activeRecords_eq_iff hkeyed hafter (fun item hitem ↦ ?_) hrequest
  exact (List.mem_insertionSort _).mpr (List.mem_map_of_mem hitem)

/-! ## A record that starts before the first year -/

/-- A record that is available from this time and ends in February. -/
def endedFields (availableAt : String) : RecordFields :=
  { sampleFields "MEMORY-ended" [] with
    validTo := some "2026-02-01T00:00:00Z"
    availableAt := availableAt }

/-- It is available from the first hour of the first year, one hour east of Greenwich. -/
def earlyRecord : MemoryRecord := ⟨endedFields "0001-01-01T00:00:00+01:00", by decide +kernel⟩

def endedRecord : MemoryRecord := ⟨endedFields "2026-01-01T00:00:00Z", by decide +kernel⟩

/-- The catalog in which one record is registered. -/
def oneRecord (record : MemoryRecord) : Catalog :=
  ⟨[("MEMORY-ended", ⟨record, sampleAccess⟩)], [("MEMORY-ended", .active)], [], []⟩

def sampleRequest : @RetrievalRequest rfcOnly :=
  @RetrievalRequest.mk rfcOnly
    ⟨"MISSION-one", "WORK-one", "builder", "2026-03-01T00:00:00Z", [], none, ["internal"], []⟩ rfl

set_option maxRecDepth 2000

theorem reachable_early : @Reachable _ rfcOnly (oneRecord earlyRecord) :=
  ⟨[.register sampleFiles earlyRecord sampleAccess], by decide⟩

theorem reachable_ended : @Reachable _ rfcOnly (oneRecord endedRecord) :=
  ⟨[.register sampleFiles endedRecord sampleAccess], by decide⟩

theorem sample_invisible : ∃ events after current,
    @expire rfcOnly "2026-03-01T00:00:00Z" (oneRecord endedRecord) = .ok events after ∧
      @instant rfcOnly "2026-03-01T00:00:00Z" = .ok current ∧
      (∀ request : @RetrievalRequest rfcOnly, @instant rfcOnly request.now = .ok current →
        (@activeRecords rfcOnly (oneRecord endedRecord) request =
            @activeRecords rfcOnly after request ↔
          @Catalog.IsReadable rfcOnly (oneRecord endedRecord) current)) ∧
      @expire rfcOnly "2026-03-01T00:00:00Z" after = .ok [] after := by
  obtain ⟨events, after, hexpire⟩ : ∃ events after,
      @expire rfcOnly "2026-03-01T00:00:00Z" (oneRecord endedRecord) = .ok events after :=
    exists_eq_ok (by decide)
  obtain ⟨current, hall⟩ := @expire_invisible_iff _ rfcOnly _ _ _ _ reachable_ended hexpire
  exact ⟨events, after, current, hexpire, hall⟩

/-- **The early record stops the reader, until it is expired.** -/
theorem early_visible : ¬∀ (catalog after : Catalog) (now : String) (events : List LifecycleEvent),
    @Reachable _ rfcOnly catalog → @expire rfcOnly now catalog = .ok events after →
      (∀ request : @RetrievalRequest rfcOnly, @instant rfcOnly request.now = @instant rfcOnly now →
        @activeRecords rfcOnly catalog request = @activeRecords rfcOnly after request) ∧
      @expire rfcOnly now after = .ok [] after := by
  intro hall
  obtain ⟨events, after, hexpire⟩ : ∃ events after,
      @expire rfcOnly "2026-03-01T00:00:00Z" (oneRecord earlyRecord) = .ok events after :=
    exists_eq_ok (by decide)
  have hsame := (hall _ _ _ _ reachable_early hexpire).1 sampleRequest rfl
  have hafter : final (@expire rfcOnly "2026-03-01T00:00:00Z" (oneRecord earlyRecord)) = after := by
    rw [hexpire, final]
  have hraises : (@activeRecords rfcOnly (oneRecord earlyRecord) sampleRequest).toBool = false := by
    decide
  have hreturns : (@activeRecords rfcOnly
      (final (@expire rfcOnly "2026-03-01T00:00:00Z" (oneRecord earlyRecord)))
      sampleRequest).toBool = true := by decide
  rw [hafter, ← hsame, hraises] at hreturns
  exact Bool.false_ne_true hreturns

end HiveMind.Memory
