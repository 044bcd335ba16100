import HiveMind.Kernel.Integrity

/-!
# Fresh batches and retries

A call of `append_batch` on an intact database meets one of three kinds of batch.

* A fresh batch, of which nothing is stored. It is appended if its events are chained to the last
  event and the log still reduces (`appendBatch_of_fresh`).
* A retry, of which every entry is stored. The call returns where, and writes nothing
  (`appendBatch_of_stored`).
* Anything else. A batch that is stored in part, or that names a stored key or event id with other
  content, is refused.

What counts as the same content is `SameEvent`. It leaves out the predecessor that an event names: a
caller that retries may have chained its events to the head of the log as it is by then.
-/

open Std (ExtTreeMap)
open Raise Trace HashChain

namespace HiveMind

section

variable [Hash256]

/-! ## Stored entries -/

/-- The entry is stored at the sequence: its key is bound to its event id, and the row with that id
holds the event. -/
structure StoredAt (db : KernelDb) (event : KernelEvent) (key : Option String) (sequence : Nat) :
    Prop where
  bound : (key.bind fun k ↦ db.idempotency[k]?) = some event.eventId
  row : ∃ row, db.events.find? (·.head.eventId = event.eventId) = some row ∧
    storedEventMatches row event = .ok true ∧ row.sequence = sequence

theorem StoredAt.eventId_mem {db : KernelDb} {event : KernelEvent} {key : Option String}
    {sequence : Nat} (h : StoredAt db event key sequence) :
    event.eventId ∈ db.events.map (·.head.eventId) := by
  obtain ⟨row, hrow, -, -⟩ := h.row
  have hid := List.find?_some hrow
  exact List.mem_map.mpr ⟨row, List.mem_of_find?_eq_some hrow, of_decide_eq_true hid⟩

/-- Nothing of the entry is stored. -/
structure Fresh (db : KernelDb) (event : KernelEvent) (key : Option String) : Prop where
  unbound : (key.bind fun k ↦ db.idempotency[k]?) = none
  eventId : event.eventId ∉ db.events.map (·.head.eventId)

theorem storedEventMatches_eq_ok {row : EventRow} {event : KernelEvent} :
    storedEventMatches row event = .ok true ↔
      ∃ payload, Json.loads row.payloadJson = some payload ∧ row.head = event.toEventHead ∧
        canonicalBytes (.dict event.payload) = .ok payload.dumps ∧
        event.digestFor row.previousDigest = .ok row.digest := by
  rw [storedEventMatches]
  cases Json.loads row.payloadJson with
  | none => simp
  | some payload =>
    by_cases hhead : row.head = event.toEventHead
    · cases htext : canonicalBytes (.dict event.payload) with
      | error e => simp [hhead, bind_eq_ok]
      | ok text =>
        by_cases hpayload : jsonBytes payload = text
        · simp only [hhead, if_true, ok_bind, hpayload, bind_eq_ok, pure_eq_ok, true_and,
            Option.some.injEq, exists_eq_left', Except.ok.injEq]
          rw [← hpayload]
          simp [jsonBytes, eq_comm]
        · have hne : text ≠ payload.dumps := fun h ↦ hpayload h.symm
          simp [hhead, hpayload, hne, pure_eq_ok]
    · simp [hhead]

/-- What the first loop of `append_batch` finds for an entry, when it does not raise. -/
theorem existingSequence_eq_ok {db : KernelDb} {event : KernelEvent} {key : Option String}
    {found : Option Nat} :
    existingSequence db event key = .ok found ↔
      (found = none ∧ Fresh db event key) ∨ ∃ n, found = some n ∧ StoredAt db event key n := by
  have hmem : db.events.find? (·.head.eventId = event.eventId) = none ↔
      event.eventId ∉ db.events.map (·.head.eventId) := by
    simp only [List.find?_eq_none, List.mem_map, decide_eq_true_eq, not_exists, not_and]
  rw [existingSequence]
  cases hbound : (key.bind fun k ↦ db.idempotency[k]?) with
  | none =>
    have hstored : ∀ n, ¬StoredAt db event key n := by
      intro n h
      exact nomatch hbound.symm.trans h.bound
    simp only [hstored, and_false, exists_false, or_false, Option.any_none, Bool.false_eq_true,
      if_false, Option.isSome_none, Option.isNone_none, if_true]
    cases hfind : db.events.find? (·.head.eventId = event.eventId) with
    | none =>
      simp only [pure_eq_ok]
      exact ⟨fun h ↦ ⟨h, hbound, hmem.mp hfind⟩, fun h ↦ h.1⟩
    | some row =>
      simp only [throw_eq_ok, bind_eq_ok, false_and, exists_false, false_iff, not_and]
      rintro - hfresh
      exact nomatch hfind.symm.trans (hmem.mpr hfresh.eventId)
  | some eventId =>
    have hfresh : ¬Fresh db event key := fun h ↦ nomatch hbound.symm.trans h.unbound
    simp only [hfresh, and_false, false_or, Option.any_some, guard_eq_ok, Option.isSome_some,
      if_true, Option.isNone_some, decide_not, Bool.not_eq_true', decide_eq_false_iff_not, not_not,
      Bool.false_eq_true, if_false]
    cases hfind : db.events.find? (·.head.eventId = event.eventId) with
    | none =>
      simp only [throw_eq_ok, bind_eq_ok, false_and, exists_false, and_false, false_iff, not_exists,
        not_and]
      rintro n - ⟨-, row, hrow, -⟩
      exact nomatch hfind.symm.trans hrow
    | some row =>
      simp only [bind_eq_ok, guard_eq_ok, pure_eq_ok, Bool.not_eq_false]
      constructor
      · rintro ⟨rfl, matched, hmatch, rfl, rfl⟩
        exact ⟨_, rfl, hbound, row, hfind, hmatch, rfl⟩
      · rintro ⟨n, rfl, hid, row', hrow, hmatch, rfl⟩
        obtain rfl := Option.some.inj (hfind.symm.trans hrow)
        exact ⟨Option.some.inj (hbound.symm.trans hid), true, hmatch, rfl, rfl⟩

/-- The row of an event holds it. -/
private theorem storedEventMatches_rowOf {recordedAt : String} {sequence : Nat}
    {previous : Option String} {event : KernelEvent} {row : EventRow}
    (h : rowOf recordedAt sequence previous event = .ok row) :
    storedEventMatches row event = .ok true := by
  simp only [rowOf, bind_eq_ok, pure_eq_ok] at h
  obtain ⟨digest, hdigest, text, htext, rfl⟩ := h
  obtain ⟨payload, hplain, rfl⟩ := PyValue.map_eq_ok htext
  exact storedEventMatches_eq_ok.mpr ⟨payload, Json.loads_dumps (PyValue.sorted_of_plain hplain),
    rfl, htext, hdigest⟩

/-- The log only grew, and no binding changed. -/
structure Grows (db db' : KernelDb) : Prop where
  events : db.events <+: db'.events
  bindings : KeepsBindings db db'

omit [Hash256] in
theorem Grows.refl (db : KernelDb) : Grows db db := ⟨List.prefix_rfl, fun _ _ hbound ↦ hbound⟩

omit [Hash256] in
theorem Grows.trans {db₁ db₂ db₃ : KernelDb} (h : Grows db₁ db₂) (h' : Grows db₂ db₃) :
    Grows db₁ db₃ :=
  ⟨h.events.trans h'.events, fun k eventId hbound ↦
    h'.bindings k eventId (h.bindings k eventId hbound)⟩

theorem Appends.grows {db db' : KernelDb} {batch : List (KernelEvent × Option String)}
    {recordedAt : String} {result : List Nat} (h : Appends db db' batch recordedAt result) :
    Grows db db' := by
  obtain ⟨rows, -, hrows⟩ := h.rows
  exact ⟨⟨rows, hrows.symm⟩, h.keeps⟩

/-- What is stored stays stored. -/
theorem StoredAt.mono {db db' : KernelDb} {event : KernelEvent} {key : Option String}
    {sequence : Nat} (h : StoredAt db event key sequence) (hgrows : Grows db db') :
    StoredAt db' event key sequence := by
  obtain ⟨hbound, row, hfind, hmatch, hsequence⟩ := h
  obtain ⟨k, rfl, hbound⟩ := Option.bind_eq_some_iff.mp hbound
  obtain ⟨rows, hrows⟩ := hgrows.events
  refine ⟨hgrows.bindings k event.eventId hbound, row, ?_, hmatch, hsequence⟩
  rw [← hrows, List.find?_append, hfind, Option.some_or]

/-! ## Retries -/

/-- Every entry of the batch is stored, one next to the other. -/
structure Stored (db : KernelDb) (batch : List (KernelEvent × Option String))
    (sequences : List Nat) : Prop where
  entries : List.Forall₂ (fun p n ↦ StoredAt db p.1 p.2 n) batch sequences
  contiguous : sequences = List.range' (sequences.headD 0) sequences.length

theorem Stored.mono {db db' : KernelDb} {batch : List (KernelEvent × Option String)}
    {sequences : List Nat} (h : Stored db batch sequences) (hgrows : Grows db db') :
    Stored db' batch sequences :=
  ⟨h.entries.imp fun _ _ hentry ↦ hentry.mono hgrows, h.contiguous⟩

omit [Hash256] in
private theorem forall₂_filterMap_id {α β : Type} {R : α → Option β → Prop} {xs : List α}
    {ys : List (Option β)} (h : List.Forall₂ R xs ys)
    (hlength : (ys.filterMap id).length = xs.length) :
    List.Forall₂ (fun x y ↦ R x (some y)) xs (ys.filterMap id) := by
  induction h with
  | nil => exact .nil
  | @cons x y xs ys hxy hrest ih =>
    cases y with
    | none =>
      -- a missing entry makes the list of what is left too short
      have hle := List.length_filterMap_le id ys
      rw [← hrest.length_eq] at hle
      rw [List.filterMap_cons_none rfl, List.length_cons] at hlength
      omega
    | some y =>
      rw [List.filterMap_cons_some (f := id) rfl] at hlength ⊢
      exact .cons hxy (ih (Nat.succ.inj hlength))

omit [Hash256] in
private theorem filterMap_id_map_some {α : Type} (ys : List α) :
    (ys.map some).filterMap id = ys := by
  rw [List.filterMap_map]
  exact List.filterMap_some

/-- What the first loop finds when some entry is stored and the call returns: all of them are. -/
private theorem stored_of_retry {db : KernelDb} {batch : List (KernelEvent × Option String)}
    {existing : List (Option Nat)} {result : List Nat}
    (hexisting :
      List.Forall₂ (fun p found ↦ existingSequence db p.1 p.2 = .ok found) batch existing)
    (hretry : retrySequences batch.length (existing.filterMap id) = .ok result) :
    Stored db batch result := by
  simp only [retrySequences, guard_eq_ok, pure_eq_ok, not_not] at hretry
  obtain ⟨hlength, hcontiguous, rfl⟩ := hretry
  refine ⟨(forall₂_filterMap_id hexisting hlength).imp ?_, hcontiguous⟩
  intro p n hfound
  rcases existingSequence_eq_ok.mp hfound with ⟨hnone, -⟩ | ⟨m, hm, hstored⟩
  · exact nomatch hnone
  · obtain rfl := Option.some.inj hm
    exact hstored

private theorem stored_of_insertEvents {recordedAt : String}
    {batch : List (KernelEvent × Option String)} {sequence : Nat} {previous : Option String}
    {db db' : KernelDb} {inserted : List Nat} (hdb : Bindings db)
    (hkeys : ∀ p ∈ batch, p.2.isSome)
    (h : insertEvents recordedAt sequence previous batch db = .ok inserted db') :
    List.Forall₂ (fun p n ↦ StoredAt db' p.1 p.2 n) batch inserted := by
  induction batch generalizing sequence previous db inserted with
  | nil =>
    obtain ⟨rfl, -⟩ := run_pure_eq_ok.mp h
    exact .nil
  | cons p batch ih =>
    obtain ⟨event, key⟩ := p
    simp only [insertEvents, run_bind_eq_ok, run_pure_eq_ok] at h
    obtain ⟨digest, db₁, hfirst, inserted, db₂, hrest, rfl, rfl⟩ := h
    have hdb₁ := hdb.insertEvent hfirst
    refine .cons ?_ (ih hdb₁ (fun p hp ↦ hkeys p (List.mem_cons_of_mem _ hp)) hrest)
    obtain ⟨-, hkeeps, -, rows, -, hdb₂⟩ := insertEvents_eq_ok hdb₁ hrest
    have hgrows : Grows db₁ db₂ := ⟨⟨rows, by rw [hdb₂]⟩, hkeeps⟩
    refine StoredAt.mono ?_ hgrows
    -- the first entry is stored once its row and its key are in
    obtain ⟨k, rfl⟩ := Option.isSome_iff_exists.mp (hkeys _ List.mem_cons_self)
    obtain ⟨row, -, hrow, -, hfits, -, rfl⟩ := insertEvent_eq_ok.mp hfirst
    have hhead := eventId_of_rowOf hrow
    refine ⟨?_, row, ?_, storedEventMatches_rowOf hrow, hhead.2⟩
    · simp [bindKeys, Maps.getElem?_insert]
    · have hnone : db.events.find? (·.head.eventId = event.eventId) = none := by
        rw [List.find?_eq_none]
        intro row' hrow' heq
        refine hfits.eventId (List.mem_map.mpr ⟨row', hrow', ?_⟩)
        rw [hhead.1]
        exact of_decide_eq_true heq
      rw [List.find?_append, hnone, Option.none_or, List.find?_singleton, hhead.1]
      simp

/-- A batch of keyed entries is stored once a call with it has returned. -/
theorem stored_of_appendBatch {readOnly : Bool} {batch : List (KernelEvent × Option String)}
    {expectedSequence : Option Int} {recordedAt : String} {db db' : KernelDb} {result : List Nat}
    (hdb : Intact db) (hkeys : ∀ p ∈ batch, p.2.isSome)
    (h : appendBatch readOnly batch expectedSequence recordedAt db = .ok result db') :
    Stored db' batch result := by
  obtain ⟨-, ⟨rfl, rfl, -⟩ | ⟨-, -, -, h⟩⟩ := appendBatch_ok_iff.mp h
  · exact ⟨.nil, rfl⟩
  · simp only [appendLocked, run_bind_eq_ok, run_get_eq_ok, run_guard_eq_ok, run_lift_eq_ok] at h
    obtain ⟨_, _, ⟨rfl, rfl⟩, -, existing, _, ⟨hexisting, rfl⟩, h⟩ := h
    split at h
    · obtain ⟨hretry, rfl⟩ := run_lift_eq_ok.mp h
      exact stored_of_retry (mapM_eq_ok.mp hexisting) hretry
    · simp only [run_bind_eq_ok, run_pure_eq_ok] at h
      obtain ⟨inserted, db₁, hinsert, s, db₂, hrebuild, rfl, rfl⟩ := h
      obtain ⟨-, -, hinserted, -⟩ := insertEvents_eq_ok hdb.toBindings hinsert
      obtain ⟨-, -, hframe⟩ := rebuildLocked_eq_ok hrebuild
      have hgrows : Grows db₁ db₂ := by
        rw [hframe]
        exact ⟨List.prefix_rfl, fun _ _ hbound ↦ hbound⟩
      refine ⟨(stored_of_insertEvents hdb.toBindings hkeys hinsert).imp
        fun _ _ hentry ↦ hentry.mono hgrows, ?_⟩
      rw [hinserted, List.length_range']
      cases batch with
      | nil => rfl
      | cons p batch => rfl

/-- A batch that is stored is recognised: the call returns where it is stored and writes nothing. -/
theorem appendBatch_of_stored {batch : List (KernelEvent × Option String)} {recordedAt : String}
    {db : KernelDb} {sequences : List Nat} (hids : (batch.map (·.1.eventId)).Nodup)
    (hkeys : (batch.filterMap Prod.snd).Nodup) (h : Stored db batch sequences) :
    appendBatch false batch none recordedAt db = .ok sequences db := by
  have hexisting : batch.mapM (fun p ↦ existingSequence db p.1 p.2) =
      .ok (sequences.map some) := by
    refine mapM_eq_ok.mpr (List.forall₂_map_right_iff.mpr (h.entries.imp ?_))
    intro p n hentry
    exact existingSequence_eq_ok.mpr (.inr ⟨n, rfl, hentry⟩)
  have hlength : sequences.length = batch.length := h.entries.length_eq.symm
  have hretry : retrySequences batch.length sequences = .ok sequences := by
    simp only [retrySequences, guard_eq_ok, pure_eq_ok, not_not]
    exact ⟨hlength, h.contiguous, trivial⟩
  refine appendBatch_ok_iff.mpr ⟨rfl, ?_⟩
  by_cases hempty : batch = []
  · rw [hempty] at hlength
    exact .inl ⟨hempty, List.length_eq_zero_iff.mp hlength, rfl⟩
  · have hne : sequences ≠ [] := by
      rintro rfl
      exact hempty (List.length_eq_zero_iff.mp hlength.symm)
    refine .inr ⟨hempty, hids, hkeys, ?_⟩
    simp only [appendLocked, run_bind_eq_ok, run_get_eq_ok, run_guard_eq_ok, run_lift_eq_ok]
    refine ⟨db, db, ⟨rfl, rfl⟩, by simp, sequences.map some, db, ⟨hexisting, rfl⟩, ?_⟩
    rw [filterMap_id_map_some, if_pos hne, run_lift_eq_ok]
    exact ⟨hretry, rfl⟩

/-! ## Refusals -/

/-- The events agree in every field other than the predecessor they name. Their payloads agree when
they are the same JSON document. -/
def SameEvent (e e' : KernelEvent) : Prop :=
  e.toEventHead = e'.toEventHead ∧ (PyValue.dict e.payload).plain = (PyValue.dict e'.payload).plain

/-- An entry that shares a key or an event id with a stored one has to be about the same event. -/
private theorem sameEvent_of_storedAt {db : KernelDb} {e e' : KernelEvent}
    {key key' : Option String} {n n' : Nat} (h : StoredAt db e key n) (h' : StoredAt db e' key' n')
    (hshared : key' = key ∨ e'.eventId = e.eventId) : SameEvent e' e := by
  have hid : e'.eventId = e.eventId := by
    rcases hshared with rfl | hid
    · exact Option.some.inj (h'.bound.symm.trans h.bound)
    · exact hid
  obtain ⟨-, row, hrow, hmatch, -⟩ := h
  obtain ⟨-, row', hrow', hmatch', -⟩ := h'
  rw [hid, hrow] at hrow'
  obtain rfl := Option.some.inj hrow'
  obtain ⟨payload, hload, hhead, htext, -⟩ := storedEventMatches_eq_ok.mp hmatch
  obtain ⟨payload', hload', hhead', htext', -⟩ := storedEventMatches_eq_ok.mp hmatch'
  obtain rfl := Option.some.inj (hload.symm.trans hload')
  obtain ⟨j, hplain, -⟩ := PyValue.map_eq_ok htext
  obtain ⟨j', hplain', -⟩ := PyValue.map_eq_ok htext'
  refine ⟨hhead'.symm.trans hhead, ?_⟩
  rw [hplain, hplain', (canonicalBytes_eq_iff hplain' hplain).mp (htext'.trans htext.symm)]

/-- Every entry of a batch that a call returned for was looked up without an error, and either none
of them or all of them are stored. -/
private theorem entries_of_appendLocked {batch : List (KernelEvent × Option String)}
    {expectedSequence : Option Int} {recordedAt : String} {db db' : KernelDb} {result : List Nat}
    (h : appendLocked batch expectedSequence recordedAt db = .ok result db') :
    (∀ p ∈ batch, Fresh db p.1 p.2) ∨ ∀ p ∈ batch, ∃ n, StoredAt db p.1 p.2 n := by
  simp only [appendLocked, run_bind_eq_ok, run_get_eq_ok, run_guard_eq_ok, run_lift_eq_ok] at h
  obtain ⟨_, _, ⟨rfl, rfl⟩, -, existing, _, ⟨hexisting, rfl⟩, h⟩ := h
  have hexisting := mapM_eq_ok.mp hexisting
  split at h
  · obtain ⟨hretry, -⟩ := run_lift_eq_ok.mp h
    refine .inr fun p hp ↦ ?_
    obtain ⟨n, -, hentry⟩ := exists_of_forall₂ (stored_of_retry hexisting hretry).entries hp
    exact ⟨n, hentry⟩
  · next hnone =>
    rw [not_not] at hnone
    refine .inl fun p hp ↦ ?_
    obtain ⟨found, hfound, hentry⟩ := exists_of_forall₂ hexisting hp
    rcases existingSequence_eq_ok.mp hentry with ⟨-, hfresh⟩ | ⟨n, rfl, -⟩
    · exact hfresh
    · have hmem : n ∈ existing.filterMap id := List.mem_filterMap.mpr ⟨some n, hfound, rfl⟩
      rw [hnone] at hmem
      cases hmem

private theorem entries_of_run {call : AppendCall} {db db' : KernelDb} {result : List Nat}
    (h : call.run db = .ok result db') :
    (∀ p ∈ call.batch, Fresh db p.1 p.2) ∨ ∀ p ∈ call.batch, ∃ n, StoredAt db p.1 p.2 n := by
  have hbatch : ∀ {readOnly : Bool} {batch : List (KernelEvent × Option String)}
      {expectedSequence : Option Int} {recordedAt : String} {result : List Nat} {db' : KernelDb},
      appendBatch readOnly batch expectedSequence recordedAt db = .ok result db' →
      (∀ p ∈ batch, Fresh db p.1 p.2) ∨ ∀ p ∈ batch, ∃ n, StoredAt db p.1 p.2 n := by
    intro readOnly batch expectedSequence recordedAt result db' h
    obtain ⟨-, ⟨rfl, -, -⟩ | ⟨-, -, -, h⟩⟩ := appendBatch_ok_iff.mp h
    · exact .inl nofun
    · exact entries_of_appendLocked h
  cases call with
  | append readOnly event expectedSequence recordedAt key =>
    simp only [AppendCall.run, HiveMind.append, run_bind_eq_ok] at h
    obtain ⟨_, _, ⟨_, _, happend, -⟩, -⟩ := h
    exact hbatch happend
  | appendBatch readOnly batch expectedSequence recordedAt => exact hbatch h

/-- A call that does not return raises, and changes nothing. -/
private theorem raises_of_not_ok {call : AppendCall} {db : KernelDb}
    (h : ∀ result db', call.run db ≠ .ok result db') : ∃ e, call.run db = .error e db := by
  cases hrun : call.run db with
  | ok result db' => exact absurd hrun (h result db')
  | error e db' =>
    obtain rfl := call.atomic_run _ _ _ hrun
    exact ⟨e, rfl⟩

/-- A call that reuses the key or the id of a stored entry for another event raises. -/
theorem raises_of_conflict {call : AppendCall} {db : KernelDb} {p q : KernelEvent × Option String}
    {n : Nat} (hstored : StoredAt db p.1 p.2 n) (hq : q ∈ call.batch)
    (hshared : q.2 = p.2 ∨ q.1.eventId = p.1.eventId) (hdiffers : ¬SameEvent q.1 p.1) :
    ∃ e, call.run db = .error e db := by
  refine raises_of_not_ok fun result db' h ↦ ?_
  rcases entries_of_run h with hfresh | hall
  · -- the key is bound and the id is stored, so the entry is not fresh
    rcases hshared with hkey | hid
    · have hunbound := (hfresh q hq).unbound
      rw [hkey, hstored.bound] at hunbound
      exact nomatch hunbound
    · exact (hfresh q hq).eventId (hid ▸ hstored.eventId_mem)
  · obtain ⟨m, hm⟩ := hall q hq
    exact hdiffers (sameEvent_of_storedAt hstored hm hshared)

/-- A call that mixes stored entries and new ones raises. -/
theorem raises_of_partial {call : AppendCall} {db : KernelDb} {p q : KernelEvent × Option String}
    (hp : p ∈ call.batch) (hstored : p.1.eventId ∈ db.events.map (·.head.eventId))
    (hq : q ∈ call.batch) (hnew : q.1.eventId ∉ db.events.map (·.head.eventId)) :
    ∃ e, call.run db = .error e db := by
  refine raises_of_not_ok fun result db' h ↦ ?_
  rcases entries_of_run h with hfresh | hall
  · exact (hfresh p hp).eventId hstored
  · obtain ⟨m, hm⟩ := hall q hq
    exact hnew hm.eventId_mem

/-! ## Fresh batches -/

/-- The event that a reader sees once the entry is stored. -/
structure ReadsAs (p : KernelEvent × Option String) (e : Event) : Prop where
  head : e.toEventHead = p.1.toEventHead
  payload : (PyValue.dict p.1.payload).plain = .ok (.obj e.payload)

omit [Hash256] in
theorem eq_of_readsAs {batch : List (KernelEvent × Option String)} {es es' : List Event}
    (h : List.Forall₂ ReadsAs batch es) (h' : List.Forall₂ ReadsAs batch es') : es = es' := by
  induction h generalizing es' with
  | nil => exact (List.forall₂_nil_left_iff.mp h').symm
  | @cons p e batch es hp hrest ih =>
    obtain ⟨e', es', hp', hrest', rfl⟩ := List.forall₂_cons_left_iff.mp h'
    obtain ⟨head, payload⟩ := e
    obtain ⟨head', payload'⟩ := e'
    obtain rfl : head = head' := hp.head.trans hp'.head.symm
    obtain rfl := Json.obj.inj (Except.ok.inj (hp.payload.symm.trans hp'.payload))
    rw [ih hrest']

/-- Rows that were made from a batch can be read back. -/
theorem readRows_of_inserts {recordedAt : String}
    {batch : List (KernelEvent × Option String)} {sequence : Nat} {previous : Option String}
    {rows : List EventRow} (h : Inserts recordedAt sequence previous batch rows) :
    ∃ es, readRows previous rows = .ok es ∧ List.Forall₂ ReadsAs batch es := by
  induction batch generalizing sequence previous rows with
  | nil =>
    cases rows with
    | nil => exact ⟨[], rfl, .nil⟩
    | cons row rows => exact h.elim
  | cons p batch ih =>
    cases rows with
    | nil => exact h.elim
    | cons row rows =>
      obtain ⟨-, hrow, hrest⟩ := h
      obtain ⟨es, hes, hbatch⟩ := ih hrest
      simp only [rowOf, bind_eq_ok, pure_eq_ok] at hrow
      obtain ⟨digest, hdigest, text, htext, rfl⟩ := hrow
      obtain ⟨j, hplain, rfl⟩ := PyValue.map_eq_ok htext
      obtain ⟨payload, rfl⟩ : ∃ payload, j = .obj payload := by
        rw [PyValue.plain] at hplain
        obtain ⟨ms, -, rfl⟩ := PyValue.map_eq_ok hplain
        exact ⟨_, rfl⟩
      rw [KernelEvent.digestFor, hplain] at hdigest
      refine ⟨⟨p.1.toEventHead, payload⟩ :: es, readRows_cons_eq_ok.mpr ⟨_, es, ?_, hes, rfl⟩,
        .cons ⟨rfl, hplain⟩ hbatch⟩
      exact readRow_eq_ok.mpr ⟨payload, Json.loads_dumps (PyValue.sorted_of_plain hplain),
        p.1.valid, rfl, hdigest, rfl⟩

/-- An insertion succeeds if its rows break no constraint of the tables. -/
private theorem insertEvents_of_inserts {recordedAt : String}
    {batch : List (KernelEvent × Option String)} {sequence : Nat} {previous : Option String}
    {rows : List EventRow} {db : KernelDb} (hdb : Bindings db)
    (hrows : Inserts recordedAt sequence previous batch rows)
    (hsequences : ∀ row ∈ db.events, row.sequence ≤ sequence)
    (hversions : ∀ p ∈ batch, p.1.eventVersion < sqliteIntegerBound)
    (hlength : sequence + batch.length < sqliteIntegerBound)
    (hids : ((db.events ++ rows).map (·.head.eventId)).Nodup)
    (hdigests : (rows.map EventRow.digest).Nodup)
    (hnew : ∀ row ∈ rows, row.digest ∉ db.events.map EventRow.digest)
    (hkeys : (batch.filterMap Prod.snd).Nodup)
    (hunbound : ∀ k ∈ batch.filterMap Prod.snd, k ∉ db.idempotency) :
    ∃ db', insertEvents recordedAt sequence previous batch db =
      .ok (List.range' (sequence + 1) batch.length) db' ∧ db'.events = db.events ++ rows := by
  induction batch generalizing sequence previous rows db with
  | nil =>
    cases rows with
    | nil => exact ⟨db, rfl, (List.append_nil _).symm⟩
    | cons row rows => exact hrows.elim
  | cons p batch ih =>
    cases rows with
    | nil => exact hrows.elim
    | cons row rows =>
      obtain ⟨event, key⟩ := p
      obtain ⟨hprevious, hrow, hrest⟩ := hrows
      obtain ⟨hhead, hsequence⟩ := eventId_of_rowOf hrow
      rw [List.length_cons] at hlength
      have hnewId : row.head.eventId ∉ db.events.map (·.head.eventId) := by
        rw [List.map_append, List.map_cons, List.nodup_middle, List.nodup_cons] at hids
        exact fun hmem ↦ hids.1 (List.mem_append_left _ hmem)
      have hfits : row.Fits db := by
        refine ⟨⟨?_, ?_⟩, ?_, hnewId, hnew row List.mem_cons_self⟩
        · rw [hhead]
          exact hversions _ List.mem_cons_self
        · omega
        · rw [hsequence, List.mem_map]
          rintro ⟨row', hrow', heq⟩
          have hle := hsequences row' hrow'
          omega
      have hkey : ∀ k ∈ key,
          k ∉ db.idempotency ∧ event.eventId ∉ db.idempotency.toList.map Prod.snd := by
        intro k hk
        refine ⟨hunbound k (List.mem_filterMap.mpr ⟨_, List.mem_cons_self, hk⟩), fun hmem ↦ ?_⟩
        obtain ⟨⟨k', eventId⟩, hk', heq⟩ := List.mem_map.mp hmem
        refine hfits.eventId (hdb.stored k' _ ?_)
        rw [hhead, ← heq]
        exact ExtTreeMap.mem_toList_iff_getElem?_eq_some.mp hk'
      have hfirst := insertEvent_eq_ok.mpr ⟨row, hprevious, hrow, rfl, hfits, hkey, rfl⟩
      have hsequences' : ∀ row' ∈ db.events ++ [row], row'.sequence ≤ sequence + 1 := by
        intro row' hrow'
        rcases List.mem_append.mp hrow' with hrow' | hrow'
        · exact (hsequences row' hrow').trans (Nat.le_succ sequence)
        · rw [List.mem_singleton.mp hrow', hsequence]
      have hkeys' : (batch.filterMap Prod.snd).Nodup := by
        cases key with
        | none => exact hkeys
        | some k => exact (List.nodup_cons.mp hkeys).2
      have hunbound' : ∀ k ∈ batch.filterMap Prod.snd,
          k ∉ bindKeys [(event, key)] db.idempotency := by
        intro k hk
        cases key with
        | none => exact hunbound k hk
        | some k' =>
          have hne : k' ≠ k := by
            rintro rfl
            exact (List.nodup_cons.mp hkeys).1 hk
          simp only [bindKeys, List.foldl_cons, List.foldl_nil, ExtTreeMap.mem_insert,
            compare_eq_iff_eq, not_or]
          exact ⟨hne, hunbound k (List.mem_cons_of_mem k' hk)⟩
      obtain ⟨hfirstNew, hdigests'⟩ := List.nodup_cons.mp hdigests
      have hnew' : ∀ row' ∈ rows, row'.digest ∉ (db.events ++ [row]).map EventRow.digest := by
        intro row' hrow' hmem
        rw [List.map_append, List.mem_append, List.map_singleton, List.mem_singleton] at hmem
        rcases hmem with hmem | heq
        · exact hnew row' (List.mem_cons_of_mem row hrow') hmem
        · exact hfirstNew (List.mem_map.mpr ⟨row', hrow', heq⟩)
      -- the rest of the batch goes in after the first entry
      obtain ⟨db', hinsert, hevents⟩ := ih (hdb.insertEvent hfirst) hrest hsequences'
        (fun p hp ↦ hversions p (List.mem_cons_of_mem _ hp)) (by omega)
        (by rwa [List.append_assoc]) hdigests' hnew' hkeys' hunbound'
      refine ⟨db', ?_, by rw [hevents, List.append_assoc]; rfl⟩
      rw [insertEvents]
      exact run_bind_eq_ok.mpr ⟨row.digest, _, hfirst, run_bind_eq_ok.mpr ⟨_, db', hinsert, rfl⟩⟩

/-- A rebuild succeeds if the log reduces. -/
private theorem rebuildRows_of_reduceEvents {rows : List EventRow} {previous : Option String}
    {es : List Event} {s s' : ProjectionState} (hread : readRows previous rows = .ok es)
    (hreduce : reduceEvents s es = .ok s') (db : KernelDb) :
    ∃ db', rebuildRows s previous rows db = .ok s' db' := by
  induction rows generalizing previous es s db with
  | nil =>
    obtain rfl := Except.ok.inj hread
    obtain rfl := Except.ok.inj hreduce
    exact ⟨db, rfl⟩
  | cons row rows ih =>
    obtain ⟨e, es', he, hes', rfl⟩ := readRows_cons_eq_ok.mp hread
    obtain ⟨t, ht, hreduce⟩ := foldlM_cons_eq_ok.mp hreduce
    obtain ⟨db', hdb'⟩ := ih hes' hreduce (writeProjection row.sequence t db)
    refine ⟨db', ?_⟩
    simp only [rebuildRows, run_bind_eq_ok, run_lift_eq_ok, run_modify_eq_ok, reduceOrFail_eq_ok]
    exact ⟨e, db, ⟨he, rfl⟩, t, db, ⟨ht, rfl⟩, (), _, rfl, hdb'⟩

private theorem eventIds_of_inserts {recordedAt : String}
    {batch : List (KernelEvent × Option String)} {sequence : Nat} {previous : Option String}
    {rows : List EventRow} (h : Inserts recordedAt sequence previous batch rows) :
    rows.map (·.head.eventId) = batch.map (·.1.eventId) := by
  induction batch generalizing sequence previous rows with
  | nil =>
    cases rows with
    | nil => rfl
    | cons row rows => exact h.elim
  | cons p batch ih =>
    cases rows with
    | nil => exact h.elim
    | cons row rows =>
      obtain ⟨-, hrow, hrest⟩ := h
      rw [List.map_cons, List.map_cons, ih hrest, (eventId_of_rowOf hrow).1]

theorem readRows_append {previous : Option String} {rows rows' : List EventRow}
    {es es' : List Event} (h : readRows previous rows = .ok es)
    (h' : readRows (tip EventRow.digest previous rows) rows' = .ok es') :
    readRows previous (rows ++ rows') = .ok (es ++ es') := by
  induction rows generalizing previous es with
  | nil =>
    obtain rfl := Except.ok.inj h
    exact h'
  | cons row rows ih =>
    obtain ⟨e, es₁, he, hes₁, rfl⟩ := readRows_cons_eq_ok.mp h
    rw [tip_cons] at h'
    exact readRows_cons_eq_ok.mpr ⟨e, es₁ ++ es', he, ih hes₁ h', rfl⟩

/-- **A fresh batch is appended if its events are chained to the last event, have new digests, and
reduce after the events that are there.** -/
theorem appendBatch_of_fresh {db : KernelDb} {batch : List (KernelEvent × Option String)}
    {recordedAt : String} {rows : List EventRow} {es es' : List Event} {s : ProjectionState}
    (hdb : Intact db) (hne : batch ≠ []) (hids : (batch.map (·.1.eventId)).Nodup)
    (hkeys : (batch.filterMap Prod.snd).Nodup) (hfresh : ∀ p ∈ batch, Fresh db p.1 p.2)
    (hversions : ∀ p ∈ batch, p.1.eventVersion < sqliteIntegerBound)
    (hlength : db.events.length + batch.length < sqliteIntegerBound)
    (hrows : Inserts recordedAt db.events.length (tip EventRow.digest none db.events) batch rows)
    (hdigests : (rows.map EventRow.digest).Nodup)
    (hnew : ∀ row ∈ rows, row.digest ∉ db.events.map EventRow.digest)
    (hread : readRows none db.events = .ok es) (hreads : List.Forall₂ ReadsAs batch es')
    (hreduce : reduceEvents emptyState (es ++ es') = .ok s) :
    ∃ db', appendBatch false batch none recordedAt db =
        .ok (List.range' (db.events.length + 1) batch.length) db' ∧
      db'.events = db.events ++ rows := by
  have hexisting : batch.mapM (fun p ↦ existingSequence db p.1 p.2) =
      .ok (batch.map fun _ ↦ none) := by
    refine mapM_eq_ok.mpr (List.forall₂_map_right_iff.mpr (List.forall₂_same.mpr ?_))
    intro p hp
    exact existingSequence_eq_ok.mpr (.inl ⟨rfl, hfresh p hp⟩)
  have hsequences : ∀ row ∈ db.events, row.sequence ≤ db.events.length := by
    intro row hrow
    have hmem := List.mem_map_of_mem (f := EventRow.sequence) hrow
    rw [hdb.sequences, List.mem_range'_1] at hmem
    omega
  have hids' : ((db.events ++ rows).map (·.head.eventId)).Nodup := by
    rw [List.map_append, eventIds_of_inserts hrows, List.nodup_append]
    refine ⟨hdb.eventIds, hids, ?_⟩
    rintro eventId hold _ hnew rfl
    obtain ⟨p, hp, rfl⟩ := List.mem_map.mp hnew
    exact (hfresh p hp).eventId hold
  have hunbound : ∀ k ∈ batch.filterMap Prod.snd, k ∉ db.idempotency := by
    intro k hk hmem
    obtain ⟨p, hp, hkey⟩ := List.mem_filterMap.mp hk
    obtain ⟨eventId, hbound⟩ :=
      Option.isSome_iff_exists.mp (ExtTreeMap.mem_iff_isSome_getElem?.mp hmem)
    have hnone := (hfresh p hp).unbound
    rw [hkey] at hnone
    exact nomatch hbound.symm.trans hnone
  obtain ⟨db₁, hinsert, hevents⟩ := insertEvents_of_inserts hdb.toBindings hrows hsequences
    hversions hlength hids' hdigests hnew hkeys hunbound
  obtain ⟨es'', hread', hreads'⟩ := readRows_of_inserts hrows
  obtain rfl := eq_of_readsAs hreads hreads'
  have hlog : readRows none db₁.events = .ok (es ++ es') := by
    rw [hevents]
    exact readRows_append hread hread'
  obtain ⟨db₂, hrebuild⟩ := rebuildRows_of_reduceEvents hlog hreduce
    { db₁ with missionProjection := ∅, workProjection := ∅ }
  have hrebuild : rebuildLocked db₁ = .ok s db₂ := by
    simp only [rebuildLocked, run_bind_eq_ok, run_modify_eq_ok, run_get_eq_ok]
    exact ⟨(), _, rfl, _, _, ⟨rfl, rfl⟩, hrebuild⟩
  refine ⟨db₂, appendBatch_ok_iff.mpr ⟨rfl, .inr ⟨hne, hids, hkeys, ?_⟩⟩, ?_⟩
  · have htip : db.events.getLast?.map EventRow.digest = tip EventRow.digest none db.events :=
      (Option.or_none).symm
    simp only [appendLocked, run_bind_eq_ok, run_get_eq_ok, run_guard_eq_ok, run_lift_eq_ok]
    refine ⟨db, db, ⟨rfl, rfl⟩, by simp, _, db, ⟨hexisting, rfl⟩, ?_⟩
    rw [if_neg (by simp), lastSequence_eq hdb.sequences, htip]
    exact run_bind_eq_ok.mpr ⟨_, db₁, hinsert, run_bind_eq_ok.mpr ⟨s, db₂, hrebuild, rfl⟩⟩
  · rw [(rebuildLocked_eq_ok hrebuild).2.2, hevents]

/-! ## Batches over whole runs -/

theorem grows_afterCalls {db : KernelDb} (hdb : Intact db) (calls : List AppendCall) :
    Grows db (afterCalls db calls) := by
  induction calls generalizing db with
  | nil => exact Grows.refl db
  | cons call calls ih =>
    have hafter : Grows db (call.after db) := by
      rw [AppendCall.after]
      split
      · next h =>
        rcases (AppendCall.run_eq_ok hdb h).2 with rfl | happends
        · exact Grows.refl _
        · exact happends.grows
      · next h =>
        rw [call.atomic_run _ _ _ h]
        exact Grows.refl db
    exact hafter.trans (ih (intact_after hdb))

/-- **Once a batch of keyed entries has been accepted, and whatever calls come after it: calling
with the same entries again returns the same sequences and changes nothing; a call that reuses a key
or an event id of the batch for another event raises and changes nothing; so does a call that mixes
entries of the batch with new ones.** -/
theorem accepted_batch_retries (calls later : List AppendCall) {readOnly : Bool}
    {batch : List (KernelEvent × Option String)} {expectedSequence : Option Int}
    {recordedAt : String} {sequences : List Nat} {db₁ : KernelDb}
    (hkeys : ∀ p ∈ batch, p.2.isSome)
    (haccepted : appendBatch readOnly batch expectedSequence recordedAt (afterAppends calls) =
      .ok sequences db₁) :
    let db := afterCalls db₁ later
    (∀ recordedAt', appendBatch false batch none recordedAt' db = .ok sequences db) ∧
    (∀ call : AppendCall, (∃ p ∈ batch, ∃ q ∈ call.batch,
        (q.2 = p.2 ∨ q.1.eventId = p.1.eventId) ∧ ¬SameEvent q.1 p.1) →
      ∃ e, call.run db = .error e db) ∧
    (∀ call : AppendCall, (∃ p ∈ batch, ∃ q ∈ call.batch, q.1.eventId = p.1.eventId) →
      (∃ q ∈ call.batch, q.1.eventId ∉ db.events.map (·.head.eventId)) →
      ∃ e, call.run db = .error e db) := by
  intro db
  have hdb := intact_afterAppends calls
  have hdb₁ := (appendBatch_eq_ok hdb haccepted).1
  have hstored : Stored db batch sequences :=
    (stored_of_appendBatch hdb hkeys haccepted).mono (grows_afterCalls hdb₁ later)
  refine ⟨fun recordedAt' ↦ ?_, ?_, ?_⟩
  · obtain ⟨-, ⟨rfl, -, -⟩ | ⟨-, hids, hunique, -⟩⟩ := appendBatch_ok_iff.mp haccepted
    · exact appendBatch_of_stored List.nodup_nil List.nodup_nil hstored
    · exact appendBatch_of_stored hids hunique hstored
  · rintro call ⟨p, hp, q, hq, hshared, hdiffers⟩
    obtain ⟨n, -, hentry⟩ := exists_of_forall₂ hstored.entries hp
    exact raises_of_conflict hentry hq hshared hdiffers
  · rintro call ⟨p, hp, q, hq, hid⟩ ⟨q', hq', hnew⟩
    obtain ⟨n, -, hentry⟩ := exists_of_forall₂ hstored.entries hp
    exact raises_of_partial hq (hid ▸ hentry.eventId_mem) hq' hnew

/-! ## A batch of one event -/

theorem exists_rowOf (recordedAt : String) (sequence : Nat) (previous : Option String)
    {event : KernelEvent} {key : Option String} {e : Event} {version : Json}
    (hevent : ReadsAs (event, key) e)
    (hversion : (PyValue.int event.eventVersion).plain = .ok version) :
    ∃ row, rowOf recordedAt sequence previous event = .ok row := by
  have hdigest : ∃ digest, event.digestFor previous = .ok digest := by
    simp only [KernelEvent.digestFor, hevent.payload, EventHead.digestFor, hversion]
    exact ⟨_, rfl⟩
  obtain ⟨digest, hdigest⟩ := hdigest
  rw [rowOf, hdigest, canonicalBytes, hevent.payload]
  exact ⟨_, rfl⟩

/-- The event that creates a mission, naming any predecessor. -/
def creationEvent (previousDigest : Option String) : KernelEvent :=
  ⟨⟨"EVENT-1", "MISSION-1", "mission.created", "orchestrator", "2026-01-01T00:00:00Z", none, none,
    some "orchestrator", 1⟩, [], previousDigest, by decide⟩

private theorem appendBatch_creationEvent :
    ∃ db, appendBatch false [(creationEvent none, some "KEY-1")] none "1970-01-01T00:00:00Z" emptyDb =
      .ok [1] db := by
  have hreads : ReadsAs (creationEvent none, some "KEY-1") ⟨(creationEvent none).toEventHead, []⟩ :=
    ⟨rfl, rfl⟩
  obtain ⟨row, hrow⟩ := exists_rowOf "1970-01-01T00:00:00Z" 1 none hreads rfl
  have hreduce : reduceEvents emptyState [⟨(creationEvent none).toEventHead, []⟩] = .ok _ :=
    foldlM_cons_eq_ok.mpr
      ⟨_, reduceEvent_eq_ok.mpr (.missionCreated rfl (by simp [emptyState])), rfl⟩
  have hrows : Inserts "1970-01-01T00:00:00Z" 0 none [(creationEvent none, some "KEY-1")] [row] :=
    ⟨rfl, hrow, trivial⟩
  have hfresh : ∀ p ∈ [(creationEvent none, some "KEY-1")], Fresh emptyDb p.1 p.2 := by
    intro p hp
    obtain rfl := List.mem_singleton.mp hp
    exact ⟨rfl, List.not_mem_nil⟩
  have hversions : ∀ p ∈ [(creationEvent none, some "KEY-1")],
      p.1.eventVersion < sqliteIntegerBound := by
    intro p hp
    obtain rfl := List.mem_singleton.mp hp
    decide
  have hne : [(creationEvent none, some "KEY-1")] ≠ [] := List.cons_ne_nil _ _
  obtain ⟨db, hdb, -⟩ := appendBatch_of_fresh intact_emptyDb hne (List.nodup_singleton _)
    (List.nodup_singleton _) hfresh hversions (by decide) hrows (List.nodup_singleton _)
    (fun _ _ ↦ List.not_mem_nil) rfl (.cons hreads .nil) hreduce
  exact ⟨db, hdb⟩

end

theorem accepted_batch_retries_creationEvent :
    ∃ db, appendBatch false [(creationEvent none, some "KEY-1")] none "1970-01-01T00:00:00Z" emptyDb =
        .ok [1] db ∧
      appendBatch false [(creationEvent none, some "KEY-1")] none "1970-01-01T00:00:00Z" db =
        .ok [1] db := by
  obtain ⟨db, hdb⟩ := appendBatch_creationEvent
  have hkeys : ∀ p ∈ [(creationEvent none, some "KEY-1")], p.2.isSome := by simp
  exact ⟨db, hdb, (accepted_batch_retries [] [] hkeys hdb).1 "1970-01-01T00:00:00Z"⟩

/-- A retry may name any predecessor: the two entries differ, and the second is taken for the
first. -/
theorem retry_ignores_previousDigest :
    ¬∀ (calls later : List AppendCall) (readOnly : Bool) (batch : List (KernelEvent × Option String))
      (expectedSequence : Option Int) (recordedAt : String) (sequences : List Nat) (db₁ : KernelDb),
      (∀ p ∈ batch, p.2.isSome) →
      appendBatch readOnly batch expectedSequence recordedAt (afterAppends calls) =
        .ok sequences db₁ →
      ∀ call : AppendCall, (∃ p ∈ batch, ∃ q ∈ call.batch,
          (q.2 = p.2 ∨ q.1.eventId = p.1.eventId) ∧ q.1 ≠ p.1) →
        ∃ e, call.run (afterCalls db₁ later) = .error e (afterCalls db₁ later) := by
  intro h
  obtain ⟨db, hdb⟩ := appendBatch_creationEvent
  have hkeys : ∀ p ∈ [(creationEvent none, some "KEY-1")], p.2.isSome := by simp
  -- the entry is stored with its other predecessor, because nothing compares the predecessors
  have hstored := stored_of_appendBatch intact_emptyDb hkeys hdb
  have hstored' : Stored db [(creationEvent (some "DIGEST-1"), some "KEY-1")] [1] := by
    obtain ⟨hentry, -⟩ := List.forall₂_cons.mp hstored.entries
    exact ⟨.cons ⟨hentry.bound, hentry.row⟩ .nil, rfl⟩
  have hretry : appendBatch false [(creationEvent (some "DIGEST-1"), some "KEY-1")] none
      "1970-01-01T00:00:00Z" db = .ok [1] db :=
    appendBatch_of_stored (List.nodup_singleton _) (List.nodup_singleton _) hstored'
  have hne : creationEvent (some "DIGEST-1") ≠ creationEvent none := by
    intro heq
    exact nomatch congrArg KernelEvent.previousDigest heq
  obtain ⟨e, he⟩ := h [] [] false _ none _ _ db hkeys hdb
    (.appendBatch false [(creationEvent (some "DIGEST-1"), some "KEY-1")] none
      "1970-01-01T00:00:00Z")
    ⟨_, List.mem_singleton_self _, _, List.mem_singleton_self _, .inl rfl, hne⟩
  exact nomatch hretry.symm.trans he

end HiveMind
