import HiveMind.Kernel.Store
import HiveMind.Lib.HashChain

/-!
# The log stays intact

`Intact` says what holds of a database whose events came in through `append` and `append_batch`: the
sequences count from one, the rows form a hash chain over the events they hold, the events reduce to
a projection, and that projection is the one the projection tables show.

Most of it is established anew by every insertion, because an insertion ends with a rebuild that
reads the whole log (`rebuildRows_eq_ok`). What the rebuild does not look at are the sequences and
the idempotency bindings, and these are preserved (`insertEvents_eq_ok`).
-/

open Std (ExtTreeMap)
open Raise Trace HashChain

namespace HiveMind

variable [Hash256]

/-! ## Reading -/

/-- A row that may follow a row with the given digest: it names that digest, and its own digest
covers it together with the event that the row holds. -/
def RowLink (previous : Option String) (row : EventRow) : Prop :=
  row.previousDigest = previous ∧ ∃ payload, Json.loads row.payloadJson = some (.obj payload) ∧
    row.head.digestFor (.obj payload) previous = .ok row.digest

theorem readRow_eq_ok {previous : Option String} {row : EventRow} {e : Event} :
    readRow previous row = .ok e ↔ ∃ payload, Json.loads row.payloadJson = some (.obj payload) ∧
      row.head.isValid ∧ row.previousDigest = previous ∧
      row.head.digestFor (.obj payload) previous = .ok row.digest ∧ e = ⟨row.head, payload⟩ := by
  rw [readRow]
  cases Json.loads row.payloadJson with
  | none => simp [throw_eq_ok]
  | some j =>
    cases j with
    | obj payload =>
      simp only [guard_eq_ok, bind_eq_ok, pure_eq_ok, Bool.not_eq_true', Bool.not_eq_false,
        Option.some.injEq, Json.obj.injEq, exists_eq_left', not_not]
      constructor
      · rintro ⟨hvalid, hprevious, digest, hdigest, rfl, rfl⟩
        exact ⟨hvalid, hprevious, hdigest, rfl⟩
      · rintro ⟨hvalid, hprevious, hdigest, rfl⟩
        exact ⟨hvalid, hprevious, row.digest, hdigest, rfl, rfl⟩
    | _ => simp [throw_eq_ok]

theorem readRows_cons_eq_ok {previous : Option String} {row : EventRow} {rows : List EventRow}
    {es : List Event} :
    readRows previous (row :: rows) = .ok es ↔ ∃ e es', readRow previous row = .ok e ∧
      readRows (some row.digest) rows = .ok es' ∧ es = e :: es' := by
  simp only [readRows, bind_eq_ok, pure_eq_ok]
  constructor
  · rintro ⟨e, he, es', hes', rfl⟩
    exact ⟨e, es', he, hes', rfl⟩
  · rintro ⟨e, es', he, hes', rfl⟩
    exact ⟨e, he, es', hes', rfl⟩

/-- A log that can be read is a hash chain. -/
theorem linked_of_readRows {previous : Option String} {rows : List EventRow} {es : List Event}
    (h : readRows previous rows = .ok es) : Linked RowLink EventRow.digest previous rows := by
  induction rows generalizing previous es with
  | nil => trivial
  | cons row rows ih =>
    obtain ⟨e, es', he, hes', rfl⟩ := readRows_cons_eq_ok.mp h
    obtain ⟨payload, hpayload, -, hprevious, hdigest, -⟩ := readRow_eq_ok.mp he
    exact ⟨⟨hprevious, payload, hpayload, hdigest⟩, ih hes'⟩

theorem reduceOrFail_eq_ok {s s' : ProjectionState} {e : Event} :
    reduceOrFail s e = .ok s' ↔ reduceEvent s e = .ok s' := by
  rw [reduceOrFail]
  cases reduceEvent s e with
  | ok t => rfl
  | error err =>
    constructor
    · intro h
      dsimp only at h
      split at h <;> exact nomatch h
    · intro h
      exact nomatch h

/-- Replaying the whole log is reading it and folding the reducer over what was read. -/
theorem replayRows_eq_ok {s s' : ProjectionState} {previous : Option String}
    {rows : List EventRow} :
    replayRows none s previous rows = .ok s' ↔
      ∃ es, readRows previous rows = .ok es ∧ reduceEvents s es = .ok s' := by
  induction rows generalizing s previous with
  | nil =>
    constructor
    · intro h
      obtain rfl := Except.ok.inj h
      exact ⟨[], rfl, rfl⟩
    · rintro ⟨es, hes, hs'⟩
      obtain rfl := Except.ok.inj hes
      exact hs'
  | cons row rows ih =>
    simp only [replayRows, Option.any_none, Bool.false_eq_true, if_false, bind_eq_ok, ih,
      readRows_cons_eq_ok, reduceOrFail_eq_ok]
    constructor
    · rintro ⟨e, he, t, ht, es, hes, hs'⟩
      exact ⟨e :: es, ⟨e, es, he, hes, rfl⟩, foldlM_cons_eq_ok.mpr ⟨t, ht, hs'⟩⟩
    · rintro ⟨_, ⟨e, es, he, hes, rfl⟩, hs'⟩
      obtain ⟨t, ht, hs'⟩ := foldlM_cons_eq_ok.mp hs'
      exact ⟨e, he, t, ht, es, hes, hs'⟩

/-! ## Rebuilding -/

/-- The projection tables show the projection, as far as they have columns for it. -/
structure Shows (db : KernelDb) (s : ProjectionState) : Prop where
  missions : ∀ m : String, db.missionProjection[m]?.map MissionRow.status = s.missions[m]?
  work : ∀ w : String, db.workProjection[w]?.map (fun row ↦ (row.missionId, row.status)) =
    s.work[w]?.map fun work ↦ (work.missionId, work.status)

/-- Missions and work items stay once they are there. -/
theorem ReduceStep.keeps {s s' : ProjectionState} {e : Event} (h : ReduceStep s e s') :
    (∀ m : String, s'.missions[m]? = none → s.missions[m]? = none) ∧
      ∀ w : String, s'.work[w]? = none → s.work[w]? = none := by
  have hinsert : ∀ {β : Type} {t : ExtTreeMap String β} {k k' : String} {v : β},
      (t.insert k v)[k']? = none → t[k']? = none := by
    intro β t k k' v hnone
    rw [Maps.getElem?_insert] at hnone
    split at hnone
    · exact nomatch hnone
    · exact hnone
  cases h with
  | missionCreated | missionTransition => exact ⟨fun _ ↦ hinsert, fun _ h ↦ h⟩
  | workCreated | workUpdated => exact ⟨fun _ h ↦ h, fun _ ↦ hinsert⟩
  | obligations => exact ⟨fun _ h ↦ h, fun _ h ↦ h⟩

/-- Writing a projection over the tables of an earlier one makes them show it. -/
private theorem Shows.write {db : KernelDb} {s s' : ProjectionState} (h : Shows db s)
    (hkeeps : (∀ m : String, s'.missions[m]? = none → s.missions[m]? = none) ∧
      ∀ w : String, s'.work[w]? = none → s.work[w]? = none) (sequence : Nat) :
    Shows (writeProjection sequence s' db) s' where
  missions m := by
    rw [writeProjection, Maps.getElem?_foldl_toList]
    cases hm : s'.missions[m]? with
    | some status => rfl
    | none => rw [Option.map_none, Option.none_or, h.missions, hkeeps.1 m hm]
  work w := by
    rw [writeProjection, Maps.getElem?_foldl_toList]
    cases hw : s'.work[w]? with
    | some work => rfl
    | none => rw [Option.map_none, Option.none_or, h.work, hkeeps.2 w hw]

/-- A rebuild that succeeds has read and reduced the whole log, has made the projection tables show
what it reduces to, and has changed nothing else. -/
theorem rebuildRows_eq_ok {rows : List EventRow} {s s' : ProjectionState}
    {previous : Option String} {db db' : KernelDb} (hshows : Shows db s)
    (h : rebuildRows s previous rows db = .ok s' db') :
    (∃ es, readRows previous rows = .ok es ∧ reduceEvents s es = .ok s') ∧ Shows db' s' ∧
      db' = { db with
        missionProjection := db'.missionProjection
        workProjection := db'.workProjection } := by
  induction rows generalizing s previous db with
  | nil =>
    obtain ⟨rfl, rfl⟩ := run_pure_eq_ok.mp h
    exact ⟨⟨[], rfl, rfl⟩, hshows, rfl⟩
  | cons row rows ih =>
    simp only [rebuildRows, run_bind_eq_ok, run_lift_eq_ok, run_modify_eq_ok,
      reduceOrFail_eq_ok] at h
    obtain ⟨e, _, ⟨he, rfl⟩, t, _, ⟨ht, rfl⟩, _, _, rfl, h⟩ := h
    obtain ⟨⟨es, hes, hs'⟩, hshows', hframe⟩ :=
      ih (hshows.write (reduceEvent_eq_ok.mp ht).keeps row.sequence) h
    exact ⟨⟨e :: es, readRows_cons_eq_ok.mpr ⟨e, es, he, hes, rfl⟩,
      foldlM_cons_eq_ok.mpr ⟨t, ht, hs'⟩⟩, hshows', hframe⟩

theorem rebuildLocked_eq_ok {s : ProjectionState} {db db' : KernelDb}
    (h : rebuildLocked db = .ok s db') :
    (∃ es, readRows none db.events = .ok es ∧ reduceEvents emptyState es = .ok s) ∧
      Shows db' s ∧ db' = { db with
        missionProjection := db'.missionProjection
        workProjection := db'.workProjection } := by
  simp only [rebuildLocked, run_bind_eq_ok, run_modify_eq_ok, run_get_eq_ok] at h
  obtain ⟨_, _, rfl, _, _, ⟨rfl, rfl⟩, h⟩ := h
  have hempty : Shows { db with missionProjection := ∅, workProjection := ∅ } emptyState :=
    ⟨by simp [emptyState], by simp [emptyState]⟩
  obtain ⟨hread, hshows, hframe⟩ := rebuildRows_eq_ok hempty h
  exact ⟨hread, hshows, hframe⟩

/-! ## Inserting -/

/-- The row that an entry becomes. -/
def rowOf (recordedAt : String) (sequence : Nat) (previous : Option String) (event : KernelEvent) :
    Except Exc EventRow := do
  let digest ← event.digestFor previous
  let payloadJson ← canonicalBytes (.dict event.payload)
  return ⟨sequence, event.toEventHead, recordedAt, payloadJson, previous, digest⟩

/-- The rows are those of the entries of a batch, in order, each entry chained to the row before
it. -/
def Inserts (recordedAt : String) : Nat → Option String → List (KernelEvent × Option String) →
    List EventRow → Prop
  | _, _, [], [] => True
  | sequence, previous, (event, _) :: batch, row :: rows =>
    event.previousDigest = previous ∧ rowOf recordedAt (sequence + 1) previous event = .ok row ∧
      Inserts recordedAt (sequence + 1) (some row.digest) batch rows
  | _, _, _, _ => False

/-- The idempotency bindings after a batch. -/
def bindKeys (batch : List (KernelEvent × Option String)) (t : ExtTreeMap String String) :
    ExtTreeMap String String :=
  batch.foldl (fun t p ↦ match p.2 with
    | some k => t.insert k p.1.eventId
    | none => t) t

/-- One entry is inserted if it is chained and breaks no constraint of the two tables. -/
theorem insertEvent_eq_ok {recordedAt digest : String} {sequence : Nat}
    {previous : Option String} {event : KernelEvent} {key : Option String} {db db' : KernelDb} :
    insertEvent recordedAt sequence previous event key db = .ok digest db' ↔
      ∃ row, event.previousDigest = previous ∧ rowOf recordedAt sequence previous event = .ok row ∧
        digest = row.digest ∧ row.Fits db ∧
        (∀ k ∈ key, k ∉ db.idempotency ∧ event.eventId ∉ db.idempotency.toList.map Prod.snd) ∧
        db' = { db with
          events := db.events ++ [row]
          idempotency := bindKeys [(event, key)] db.idempotency } := by
  simp only [insertEvent, rowOf, run_guard_eq_ok, run_bind_eq_ok, run_lift_eq_ok,
    insertEventRow_eq_ok, not_not, bind_eq_ok, pure_eq_ok]
  constructor
  · rintro ⟨hprevious, d, _, ⟨hd, rfl⟩, payloadJson, _, ⟨hpayload, rfl⟩, _, _, ⟨hfits, rfl⟩, h⟩
    refine ⟨_, hprevious, ⟨d, hd, payloadJson, hpayload, rfl⟩, ?_⟩
    cases key with
    | none =>
      obtain ⟨rfl, rfl⟩ := run_pure_eq_ok.mp h
      exact ⟨rfl, hfits, nofun, rfl⟩
    | some k =>
      simp only [run_bind_eq_ok, insertIdempotency_eq_ok, run_pure_eq_ok] at h
      obtain ⟨_, _, ⟨hkey, hunbound, rfl⟩, rfl, rfl⟩ := h
      refine ⟨rfl, hfits, ?_, rfl⟩
      rintro _ ⟨⟩
      exact ⟨hkey, hunbound⟩
  · rintro ⟨_, hprevious, ⟨d, hd, payloadJson, hpayload, rfl⟩, rfl, hfits, hkey, rfl⟩
    refine ⟨hprevious, _, db, ⟨hd, rfl⟩, payloadJson, db, ⟨hpayload, rfl⟩, (), _, ⟨hfits, rfl⟩, ?_⟩
    cases key with
    | none => exact run_pure_eq_ok.mpr ⟨rfl, rfl⟩
    | some k =>
      obtain ⟨hkey, hunbound⟩ := hkey k rfl
      exact run_bind_eq_ok.mpr ⟨(), _, insertIdempotency_eq_ok.mpr ⟨hkey, hunbound, rfl⟩, rfl⟩

/-- Event ids are unique, and each idempotency key is bound to the id of one stored event, which has
no second key. -/
structure Bindings (db : KernelDb) : Prop where
  eventIds : (db.events.map (·.head.eventId)).Nodup
  stored : ∀ (k eventId : String), db.idempotency[k]? = some eventId →
    eventId ∈ db.events.map (·.head.eventId)
  unique : ∀ (k k' eventId : String), db.idempotency[k]? = some eventId →
    db.idempotency[k']? = some eventId → k = k'

theorem eventId_of_rowOf {recordedAt : String} {sequence : Nat} {previous : Option String}
    {event : KernelEvent} {row : EventRow} (h : rowOf recordedAt sequence previous event = .ok row) :
    row.head = event.toEventHead ∧ row.sequence = sequence := by
  simp only [rowOf, bind_eq_ok, pure_eq_ok] at h
  obtain ⟨_, _, _, _, rfl⟩ := h
  exact ⟨rfl, rfl⟩

theorem Bindings.insertEvent {recordedAt digest : String} {sequence : Nat}
    {previous : Option String} {event : KernelEvent} {key : Option String} {db db' : KernelDb}
    (hdb : Bindings db)
    (h : insertEvent recordedAt sequence previous event key db = .ok digest db') :
    Bindings db' := by
  obtain ⟨row, -, hrow, -, hfits, hunbound, rfl⟩ := insertEvent_eq_ok.mp h
  have hid : row.head.eventId = event.eventId := by rw [(eventId_of_rowOf hrow).1]
  -- an id that is bound already is not the new one
  have hother : ∀ k eventId : String, db.idempotency[k]? = some eventId → key.isSome →
      event.eventId ≠ eventId := by
    rintro k eventId hbound hkey rfl
    obtain ⟨k', rfl⟩ := Option.isSome_iff_exists.mp hkey
    exact (hunbound k' rfl).2 (List.mem_map.mpr
      ⟨(k, event.eventId), ExtTreeMap.mem_toList_iff_getElem?_eq_some.mpr hbound, rfl⟩)
  refine ⟨?_, ?_, ?_⟩
  · rw [List.map_append, List.nodup_append]
    refine ⟨hdb.eventIds, List.nodup_singleton _, ?_⟩
    intro id hid' id' hid'' heq
    rw [List.map_singleton, List.mem_singleton, hid] at hid''
    rw [heq, hid''] at hid'
    exact hfits.eventId (hid ▸ hid')
  · intro k eventId hbound
    rw [List.map_append, List.mem_append, List.map_singleton, List.mem_singleton, hid]
    cases key with
    | none => exact .inl (hdb.stored k eventId hbound)
    | some k' =>
      simp only [bindKeys, List.foldl_cons, List.foldl_nil, Maps.getElem?_insert] at hbound
      split at hbound
      · exact .inr (Option.some.inj hbound).symm
      · exact .inl (hdb.stored k eventId hbound)
  · intro k₁ k₂ eventId h₁ h₂
    cases key with
    | none => exact hdb.unique k₁ k₂ eventId h₁ h₂
    | some k' =>
      simp only [bindKeys, List.foldl_cons, List.foldl_nil, Maps.getElem?_insert] at h₁ h₂
      split at h₁ <;> split at h₂
      · next hk₁ hk₂ => exact hk₁.symm.trans hk₂
      · exact absurd (Option.some.inj h₁) (hother k₂ eventId h₂ rfl)
      · exact absurd (Option.some.inj h₂) (hother k₁ eventId h₁ rfl)
      · exact hdb.unique k₁ k₂ eventId h₁ h₂

/-- Keys that are bound stay bound to the same event. -/
def KeepsBindings (db db' : KernelDb) : Prop :=
  ∀ k eventId : String, db.idempotency[k]? = some eventId → db'.idempotency[k]? = some eventId

private theorem keepsBindings_insertEvent {recordedAt digest : String} {sequence : Nat}
    {previous : Option String} {event : KernelEvent} {key : Option String} {db db' : KernelDb}
    (h : insertEvent recordedAt sequence previous event key db = .ok digest db') :
    KeepsBindings db db' := by
  obtain ⟨row, -, -, -, -, hunbound, rfl⟩ := insertEvent_eq_ok.mp h
  intro k eventId hbound
  cases key with
  | none => exact hbound
  | some k' =>
    have hne : k' ≠ k := by
      rintro rfl
      have hmem := ExtTreeMap.mem_iff_isSome_getElem?.mpr (Option.isSome_iff_exists.mpr ⟨_, hbound⟩)
      exact (hunbound k' rfl).1 hmem
    simp only [bindKeys, List.foldl_cons, List.foldl_nil, Maps.getElem?_insert, if_neg hne]
    exact hbound

/-- A successful insertion appends the rows of its batch, numbers them from the given sequence on,
binds the keys of the batch, and changes nothing else. -/
theorem insertEvents_eq_ok {recordedAt : String} {batch : List (KernelEvent × Option String)}
    {sequence : Nat} {previous : Option String} {db db' : KernelDb} {inserted : List Nat}
    (hdb : Bindings db)
    (h : insertEvents recordedAt sequence previous batch db = .ok inserted db') :
    Bindings db' ∧ KeepsBindings db db' ∧ inserted = List.range' (sequence + 1) batch.length ∧
      ∃ rows, Inserts recordedAt sequence previous batch rows ∧ db' = { db with
        events := db.events ++ rows
        idempotency := bindKeys batch db.idempotency } := by
  induction batch generalizing sequence previous db inserted with
  | nil =>
    obtain ⟨rfl, rfl⟩ := run_pure_eq_ok.mp h
    exact ⟨hdb, fun _ _ hbound ↦ hbound, rfl, [], trivial, by simp [bindKeys]⟩
  | cons p batch ih =>
    obtain ⟨event, key⟩ := p
    simp only [insertEvents, run_bind_eq_ok, run_pure_eq_ok] at h
    obtain ⟨digest, db₁, hfirst, inserted, _, hrest, rfl, rfl⟩ := h
    obtain ⟨hbind, hkeeps, rfl, rows, hrows, hdb'⟩ := ih (hdb.insertEvent hfirst) hrest
    have hkeeps' := keepsBindings_insertEvent hfirst
    obtain ⟨row, hprevious, hrow, rfl, -, -, rfl⟩ := insertEvent_eq_ok.mp hfirst
    refine ⟨hbind, fun k eventId hbound ↦ hkeeps k eventId (hkeeps' k eventId hbound), rfl,
      row :: rows, ⟨hprevious, hrow, hrows⟩, ?_⟩
    rw [hdb', List.append_assoc]
    rfl

private theorem sequence_of_inserts {recordedAt : String}
    {batch : List (KernelEvent × Option String)} {sequence : Nat} {previous : Option String}
    {rows : List EventRow} (h : Inserts recordedAt sequence previous batch rows) :
    rows.map EventRow.sequence = List.range' (sequence + 1) rows.length := by
  induction batch generalizing sequence previous rows with
  | nil =>
    cases rows with
    | nil => rfl
    | cons row rows => exact h.elim
  | cons p batch ih =>
    cases rows with
    | nil => exact h.elim
    | cons row rows =>
      obtain ⟨-, hrow, hrows⟩ := h
      rw [List.map_cons, List.length_cons, List.range'_succ, ih hrows,
        (eventId_of_rowOf hrow).2]

/-! ## The invariant -/

/-- What holds of a database whose events came in through `append` and `append_batch`. -/
structure Intact (db : KernelDb) : Prop extends Bindings db where
  sequences : db.events.map EventRow.sequence = List.range' 1 db.events.length
  log : ∃ es s, readRows none db.events = .ok es ∧ reduceEvents emptyState es = .ok s ∧ Shows db s

/-- The rows of an intact log are a hash chain. -/
theorem Intact.linked {db : KernelDb} (h : Intact db) :
    Linked RowLink EventRow.digest none db.events := by
  obtain ⟨es, s, hread, -⟩ := h.log
  exact linked_of_readRows hread

theorem intact_emptyDb : Intact emptyDb where
  eventIds := List.nodup_nil
  stored := by simp [emptyDb]
  unique := by simp [emptyDb]
  sequences := rfl
  log := ⟨[], emptyState, rfl, rfl, by simp [emptyDb, emptyState], by simp [emptyDb, emptyState]⟩

/-- What an inserting call does: it appends the rows of its batch after the last event, binds the
keys of the batch, and rebuilds the projections. The result is the sequences of the new rows. -/
structure Appends (db db' : KernelDb) (batch : List (KernelEvent × Option String))
    (recordedAt : String) (result : List Nat) : Prop where
  result : result = List.range' (db.events.length + 1) batch.length
  rows : ∃ rows, Inserts recordedAt db.events.length (tip EventRow.digest none db.events) batch
    rows ∧ db'.events = db.events ++ rows
  idempotency : db'.idempotency = bindKeys batch db.idempotency
  keeps : KeepsBindings db db'
  frame : db' = { db with
    events := db'.events
    idempotency := db'.idempotency
    missionProjection := db'.missionProjection
    workProjection := db'.workProjection }

omit [Hash256] in
theorem lastSequence_eq {db : KernelDb}
    (h : db.events.map EventRow.sequence = List.range' 1 db.events.length) :
    (db.events.getLast?.map EventRow.sequence).getD 0 = db.events.length := by
  rw [← List.getLast?_map, h]
  cases db.events.length with
  | zero => rfl
  | succ n => simp [List.getLast?_range']

/-- A call on an intact database either only reads or appends its batch, and keeps the database
intact. -/
theorem appendLocked_eq_ok {batch : List (KernelEvent × Option String)}
    {expectedSequence : Option Int} {recordedAt : String} {db db' : KernelDb} {result : List Nat}
    (hdb : Intact db)
    (h : appendLocked batch expectedSequence recordedAt db = .ok result db') :
    Intact db' ∧ (db' = db ∨ Appends db db' batch recordedAt result) := by
  simp only [appendLocked, run_bind_eq_ok, run_get_eq_ok, run_guard_eq_ok, run_lift_eq_ok] at h
  obtain ⟨_, _, ⟨rfl, rfl⟩, -, existing, _, ⟨-, rfl⟩, h⟩ := h
  split at h
  · -- some entries are stored already, so the call only reads
    obtain ⟨-, rfl⟩ := run_lift_eq_ok.mp h
    exact ⟨hdb, .inl rfl⟩
  · rw [lastSequence_eq hdb.sequences] at h
    simp only [run_bind_eq_ok, run_pure_eq_ok] at h
    obtain ⟨inserted, db₁, hinsert, s, _, hrebuild, rfl, rfl⟩ := h
    obtain ⟨hbind, hkeeps, rfl, rows, hrows, rfl⟩ := insertEvents_eq_ok hdb.toBindings hinsert
    obtain ⟨⟨es, hread, hreduce⟩, hshows, hframe⟩ := rebuildLocked_eq_ok hrebuild
    have htip : db.events.getLast?.map EventRow.digest = tip EventRow.digest none db.events :=
      (Option.or_none).symm
    rw [htip] at hrows
    rw [hframe]
    refine ⟨⟨⟨hbind.eventIds, hbind.stored, hbind.unique⟩, ?_, es, s, hread, hreduce,
      hshows.missions, hshows.work⟩, .inr ⟨rfl, ⟨rows, hrows, rfl⟩, rfl, hkeeps, rfl⟩⟩
    rw [List.map_append, hdb.sequences, sequence_of_inserts hrows, List.length_append,
      Nat.add_comm db.events.length 1, ← List.range'_append_1]

/-! ## Runs -/

/-- A call of `append` or `append_batch` through some handle on the database, read-only or not. -/
inductive AppendCall where
  | append (readOnly : Bool) (event : KernelEvent) (expectedSequence : Option Int)
      (recordedAt : String) (key : Option String)
  | appendBatch (readOnly : Bool) (batch : List (KernelEvent × Option String))
      (expectedSequence : Option Int) (recordedAt : String)

namespace AppendCall

/-- The entries that the call asks to append. -/
def batch : AppendCall → List (KernelEvent × Option String)
  | .append _ event _ _ key => [(event, key)]
  | .appendBatch _ batch _ _ => batch

def recordedAt : AppendCall → String
  | .append _ _ _ recordedAt _ => recordedAt
  | .appendBatch _ _ _ recordedAt => recordedAt

/-- The call, with the sequences it returns as a list. -/
def run : AppendCall → StoreM (List Nat)
  | .append readOnly event expectedSequence recordedAt key => do
    let sequence ← HiveMind.append readOnly event expectedSequence recordedAt key
    return [sequence]
  | .appendBatch readOnly batch expectedSequence recordedAt =>
    HiveMind.appendBatch readOnly batch expectedSequence recordedAt

/-- The database after the call, whether it returns or raises. -/
def after (call : AppendCall) (db : KernelDb) : KernelDb :=
  match call.run db with
  | .ok _ db' => db'
  | .error _ db' => db'

end AppendCall

/-- The database after some calls, returned or raised. -/
def afterCalls (db : KernelDb) (calls : List AppendCall) : KernelDb :=
  calls.foldl (fun db call ↦ call.after db) db

/-- The database after some calls on an empty one. -/
def afterAppends (calls : List AppendCall) : KernelDb := afterCalls emptyDb calls

theorem atomic_appendBatch (readOnly : Bool) (batch : List (KernelEvent × Option String))
    (expectedSequence : Option Int) (recordedAt : String) :
    Atomic (appendBatch readOnly batch expectedSequence recordedAt) := by
  refine atomic_bind (atomic_requireWritable readOnly) (reads_requireWritable readOnly) fun _ ↦ ?_
  exact atomic_ite (atomic_pure _) (atomic_guard (atomic_guard (atomic_transaction _)))

theorem atomic_append (readOnly : Bool) (event : KernelEvent) (expectedSequence : Option Int)
    (recordedAt : String) (key : Option String) :
    Atomic (append readOnly event expectedSequence recordedAt key) :=
  atomic_bind_pure (atomic_appendBatch readOnly _ expectedSequence recordedAt)

/-- A call of `append_batch` returns at once for an empty batch, and otherwise if its transaction
does. -/
theorem appendBatch_ok_iff {readOnly : Bool} {batch : List (KernelEvent × Option String)}
    {expectedSequence : Option Int} {recordedAt : String} {db db' : KernelDb} {result : List Nat} :
    appendBatch readOnly batch expectedSequence recordedAt db = .ok result db' ↔
      readOnly = false ∧ ((batch = [] ∧ result = [] ∧ db = db') ∨
        (batch ≠ [] ∧ (batch.map (·.1.eventId)).Nodup ∧ (batch.filterMap Prod.snd).Nodup ∧
          appendLocked batch expectedSequence recordedAt db = .ok result db')) := by
  simp only [appendBatch, run_bind_eq_ok, requireWritable_eq_ok]
  constructor
  · rintro ⟨_, _, ⟨rfl, rfl⟩, h⟩
    refine ⟨rfl, ?_⟩
    split at h
    · next hempty => exact .inl ⟨List.isEmpty_iff.mp hempty, run_pure_eq_ok.mp h⟩
    · next hempty =>
      simp only [run_guard_eq_ok, transaction_eq_ok, not_not] at h
      exact .inr ⟨fun hnil ↦ hempty (List.isEmpty_iff.mpr hnil), h⟩
  · rintro ⟨rfl, ⟨rfl, hresult⟩ | ⟨hne, h⟩⟩
    · exact ⟨(), db, ⟨rfl, rfl⟩, run_pure_eq_ok.mpr hresult⟩
    · refine ⟨(), db, ⟨rfl, rfl⟩, ?_⟩
      rw [if_neg fun hempty ↦ hne (List.isEmpty_iff.mp hempty)]
      simpa only [run_guard_eq_ok, transaction_eq_ok, not_not] using h

theorem appendBatch_eq_ok {readOnly : Bool} {batch : List (KernelEvent × Option String)}
    {expectedSequence : Option Int} {recordedAt : String} {db db' : KernelDb} {result : List Nat}
    (hdb : Intact db)
    (h : appendBatch readOnly batch expectedSequence recordedAt db = .ok result db') :
    Intact db' ∧ (db' = db ∨ Appends db db' batch recordedAt result) := by
  obtain ⟨-, ⟨-, -, rfl⟩ | ⟨-, -, -, h⟩⟩ := appendBatch_ok_iff.mp h
  · exact ⟨hdb, .inl rfl⟩
  · exact appendLocked_eq_ok hdb h

theorem AppendCall.atomic_run (call : AppendCall) : Atomic call.run := by
  cases call with
  | append readOnly event expectedSequence recordedAt key =>
    exact atomic_bind_pure (atomic_append readOnly event expectedSequence recordedAt key)
  | appendBatch readOnly batch expectedSequence recordedAt =>
    exact atomic_appendBatch readOnly batch expectedSequence recordedAt

theorem AppendCall.run_eq_ok {call : AppendCall} {db db' : KernelDb} {result : List Nat}
    (hdb : Intact db) (h : call.run db = .ok result db') :
    Intact db' ∧ (db' = db ∨ Appends db db' call.batch call.recordedAt result) := by
  cases call with
  | append readOnly event expectedSequence recordedAt key =>
    simp only [AppendCall.run, HiveMind.append, run_bind_eq_ok, run_pure_eq_ok] at h
    obtain ⟨_, _, ⟨sequences, _, hbatch, rfl, rfl⟩, rfl, rfl⟩ := h
    obtain ⟨hintact, hcases⟩ := appendBatch_eq_ok hdb hbatch
    refine ⟨hintact, hcases.imp_right fun happends ↦ ?_⟩
    have hresult : sequences = [db.events.length + 1] := happends.result
    rw [hresult] at happends ⊢
    exact happends
  | appendBatch readOnly batch expectedSequence recordedAt => exact appendBatch_eq_ok hdb h

theorem intact_after {call : AppendCall} {db : KernelDb} (hdb : Intact db) :
    Intact (call.after db) := by
  rw [AppendCall.after]
  split
  · next h => exact (AppendCall.run_eq_ok hdb h).1
  · next h =>
    rw [call.atomic_run _ _ _ h]
    exact hdb

/-- Calls keep the database intact, whatever they are called with. -/
theorem intact_afterCalls {db : KernelDb} (hdb : Intact db) (calls : List AppendCall) :
    Intact (afterCalls db calls) := by
  induction calls generalizing db with
  | nil => exact hdb
  | cons call calls ih => exact ih (intact_after hdb)

theorem intact_afterAppends (calls : List AppendCall) : Intact (afterAppends calls) :=
  intact_afterCalls intact_emptyDb calls

/-- **After any calls of `append` and `append_batch`: the sequences count from one; each row names
the digest of the row before it and carries the digest of its event over it; the whole log reduces;
each idempotency key is bound to one stored event. A further call that raises leaves the database as
it was, and one that returns leaves it as it was or appends the rows of its batch in order.** -/
theorem appends_sound (calls : List AppendCall) (call : AppendCall) :
    let db := afterAppends calls
    db.events.map EventRow.sequence = List.range' 1 db.events.length ∧
    (∀ (i : Nat) (hi : i < db.events.length),
      RowLink (tip EventRow.digest none (db.events.take i)) db.events[i]) ∧
    (∃ es s, readRows none db.events = .ok es ∧ reduceEvents emptyState es = .ok s) ∧
    (∀ k eventId : String, db.idempotency[k]? = some eventId →
      (db.events.filter (·.head.eventId = eventId)).length = 1) ∧
    (∀ e db', call.run db = .error e db' → db' = db) ∧
    (∀ result db', call.run db = .ok result db' →
      db' = db ∨ Appends db db' call.batch call.recordedAt result) := by
  intro db
  have hdb : Intact db := intact_afterAppends calls
  obtain ⟨es, s, hread, hreduce, -⟩ := hdb.log
  refine ⟨hdb.sequences, linked_getElem hdb.linked, ⟨es, s, hread, hreduce⟩, ?_,
    call.atomic_run db, fun result db' h ↦ (AppendCall.run_eq_ok hdb h).2⟩
  intro k eventId hbound
  -- the bound id is stored, and no two rows have the same id
  rw [← List.countP_eq_length_filter]
  have hcount := List.count_eq_one_of_mem hdb.eventIds (hdb.stored k eventId hbound)
  rw [List.count, List.countP_map] at hcount
  rw [← hcount]
  congr 1

end HiveMind
