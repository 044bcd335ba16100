import HiveMind.Kernel.MemoryCatalog

/-!
# Supersession

A record that takes the place of others is registered first, and then its predecessors are retired
one after the other. Each of these steps is all or nothing, but they are not taken back together:
where a retirement is refused, what came before it stays. What stays is the successor, if it was not
registered already, and the predecessors that were retired by then.

* **`supersession_orderly_iff`**: the calls that leave no half of a supersession behind.
-/

open Raise Dicts

namespace HiveMind.Memory

section Supersession

variable [IsoFormats]

/-! ## Transitions -/

/-- The catalog after a transition. -/
def Catalog.append (catalog : Catalog) (event : LifecycleEvent) : Catalog :=
  { catalog with
    events := catalog.events ++ [event]
    states := setItem event.recordId event.state catalog.states }

/-- Whether there is an event with this id. -/
def Catalog.isBound (catalog : Catalog) (eventId : String) : Bool :=
  catalog.events.any (·.eventId = eventId)

section Transition

variable {catalog after : Catalog} {recordId eventId occurredAt reason : String}
  {state : MemoryState} {successorId : Option String} {event : LifecycleEvent}

omit [IsoFormats] in
theorem isActive_iff : catalog.isActive recordId = true ↔
    (∃ entry, catalog.entries.lookup recordId = some entry) ∧
      catalog.states.lookup recordId = some .active := by
  rw [Catalog.isActive, Bool.and_eq_true, Option.isSome_iff_exists, decide_eq_true_iff]

theorem nextEvent_eq_ok :
    nextEvent catalog recordId state eventId occurredAt reason successorId = .ok event ↔
      (∃ t, instant occurredAt = .ok t) ∧ (eventId ≠ "" ∧ reason ≠ "") ∧
        catalog.isActive recordId = true ∧ state.isTerminal = true ∧
        (state = .superseded → ∃ id ∈ successorId, ∃ entry, catalog.entries.lookup id = some entry) ∧
        catalog.isBound eventId = false ∧
        event = { sequence := catalog.events.length + 1, eventId, recordId,
                  previousState := .active, state, occurredAt, reason, successorId } := by
  simp only [nextEvent, bind_eq_ok, guard_eq_ok]
  constructor
  · rintro ⟨t, ht, htexts, hentry, h⟩
    rcases hstate : catalog.states.lookup recordId with _ | previous
    · rw [hstate] at h
      exact nomatch h
    simp only [hstate, guard_eq_ok, pure_eq_ok, not_or, not_not, not_and, Bool.not_eq_true] at h
    obtain ⟨⟨rfl, hterminal⟩, hsuccessor, hbound, rfl⟩ := h
    refine ⟨⟨t, ht⟩, not_or.mp htexts, isActive_iff.mpr ⟨Option.ne_none_iff_exists'.mp hentry, hstate⟩,
      by simpa using hterminal, fun hs ↦ ?_, hbound, rfl⟩
    obtain ⟨entry, hentry⟩ := Option.ne_none_iff_exists'.mp (hsuccessor hs)
    obtain ⟨id, hid, hlookup⟩ := Option.bind_eq_some_iff.mp hentry
    exact ⟨id, hid, entry, hlookup⟩
  · rintro ⟨⟨t, ht⟩, htexts, hactive, hterminal, hsuccessor, hbound, rfl⟩
    obtain ⟨⟨entry, hentry⟩, hstate⟩ := isActive_iff.mp hactive
    refine ⟨t, ht, not_or.mpr htexts, by simp [hentry], ?_⟩
    simp only [hstate, guard_eq_ok, pure_eq_ok, not_or, not_not, not_and, Bool.not_eq_true]
    refine ⟨⟨trivial, by simpa using hterminal⟩, fun hs ↦ ?_, hbound, trivial⟩
    obtain ⟨id, hid, entry, hlookup⟩ := hsuccessor hs
    exact Option.ne_none_iff_exists'.mpr ⟨entry, Option.bind_eq_some_iff.mpr ⟨id, hid, hlookup⟩⟩

theorem transition_eq_ok :
    transition recordId state eventId occurredAt reason successorId catalog = .ok event after ↔
      nextEvent catalog recordId state eventId occurredAt reason successorId = .ok event ∧
        after = catalog.append event := by
  rw [transition, run_bind_eq_ok]
  constructor
  · rintro ⟨_, _, hget, h⟩
    obtain ⟨rfl, rfl⟩ := run_get_eq_ok.mp hget
    simp only [run_bind_eq_ok, run_lift_eq_ok, run_set_eq_ok, run_pure_eq_ok] at h
    obtain ⟨event', _, ⟨hevent, rfl⟩, _, _, rfl, rfl, rfl⟩ := h
    obtain ⟨-, -, -, -, -, -, rfl⟩ := nextEvent_eq_ok.mp hevent
    exact ⟨hevent, rfl⟩
  · rintro ⟨hevent, rfl⟩
    refine ⟨catalog, catalog, run_get_eq_ok.mpr ⟨rfl, rfl⟩, ?_⟩
    simp only [run_bind_eq_ok, run_lift_eq_ok, run_set_eq_ok, run_pure_eq_ok]
    refine ⟨event, catalog, ⟨hevent, rfl⟩, (), _, rfl, rfl, ?_⟩
    obtain ⟨-, -, -, -, -, -, rfl⟩ := nextEvent_eq_ok.mp hevent
    rfl

theorem atomic_transition :
    Atomic (transition recordId state eventId occurredAt reason successorId) := by
  refine atomic_bind atomic_get reads_get fun catalog ↦ ?_
  exact atomic_bind (atomic_lift _) (reads_lift _) fun event ↦ atomic_bind_pure (atomic_set _)

end Transition
/-! ## The loop over the predecessors -/

/-- The round of the loop of `supersede` for a predecessor. -/
def retire (successorId now reason recordId : String) : CatalogM LifecycleEvent :=
  transition recordId .superseded (supersededId recordId successorId) now reason (some successorId)

section Loop

variable {catalog after : Catalog} {successorId now reason recordId : String} {ids : List String}
  {events : List LifecycleEvent} {event : LifecycleEvent}

omit [IsoFormats] in
theorem append_middle_inj {first sep last id id' : String} :
    first ++ id ++ sep ++ last = first ++ id' ++ sep ++ last ↔ id = id' := by
  rw [String.append_left_inj, String.append_left_inj, String.append_right_inj]

omit [IsoFormats] in
theorem append_ne_empty {first sep last id : String} (h : first ≠ "") :
    first ++ id ++ sep ++ last ≠ "" := by
  simp only [ne_eq, String.append_eq_empty_iff, h, false_and, not_false_eq_true]

omit [IsoFormats] in
theorem supersededId_inj {id id' : String} :
    supersededId id successorId = supersededId id' successorId ↔ id = id' := append_middle_inj

omit [IsoFormats] in
theorem supersededId_ne_empty : supersededId recordId successorId ≠ "" :=
  append_ne_empty (by decide)

/-- What retiring a predecessor takes, once the successor is registered. -/
theorem retire_eq_ok (hregistered : ∃ entry, catalog.entries.lookup successorId = some entry) :
    retire successorId now reason recordId catalog = .ok event after ↔
      (∃ t, instant now = .ok t) ∧ reason ≠ "" ∧ catalog.isActive recordId = true ∧
        catalog.isBound (supersededId recordId successorId) = false ∧
        event = { sequence := catalog.events.length + 1
                  eventId := supersededId recordId successorId, recordId
                  previousState := .active, state := .superseded, occurredAt := now, reason
                  successorId := some successorId } ∧ after = catalog.append event := by
  rw [retire, transition_eq_ok, nextEvent_eq_ok]
  constructor
  · rintro ⟨⟨htime, ⟨-, hreason⟩, hactive, -, -, hbound, hevent⟩, hafter⟩
    exact ⟨htime, hreason, hactive, hbound, hevent, hafter⟩
  · rintro ⟨htime, hreason, hactive, hbound, hevent, hafter⟩
    exact ⟨⟨htime, ⟨supersededId_ne_empty, hreason⟩, hactive, rfl,
      fun _ ↦ ⟨successorId, rfl, hregistered⟩, hbound, hevent⟩, hafter⟩

/-- What stops the retirement of an active predecessor. -/
theorem exists_retire_eq_error_iff
    (hregistered : ∃ entry, catalog.entries.lookup successorId = some entry)
    (hactive : catalog.isActive recordId = true) :
    (∃ e, retire successorId now reason recordId catalog = .error e catalog) ↔
      (¬∃ t, instant now = .ok t) ∨ reason = "" ∨
        catalog.isBound (supersededId recordId successorId) = true := by
  rcases hrun : retire successorId now reason recordId catalog with ⟨event, next⟩ | ⟨e, next⟩
  · obtain ⟨htime, hreason, -, hbound, -⟩ := (retire_eq_ok hregistered).mp hrun
    refine ⟨nofun, ?_⟩
    rintro (hno | hempty | htrue)
    · exact absurd htime hno
    · exact absurd hempty hreason
    · exact Bool.noConfusion (hbound.symm.trans htrue)
  · refine ⟨fun _ ↦ ?_, fun _ ↦ ⟨e, by rw [atomic_transition _ _ _ hrun]⟩⟩
    by_contra hnone
    rw [not_or, not_not, not_or, Bool.not_eq_true] at hnone
    have hok := (retire_eq_ok hregistered).mpr
      ⟨hnone.1, hnone.2.1, hactive, hnone.2.2, rfl, rfl⟩
    exact nomatch hrun.symm.trans hok

omit [IsoFormats] in
theorem isActive_append (hstate : event.state ≠ .active) :
    (catalog.append event).isActive recordId = true ↔
      recordId ≠ event.recordId ∧ catalog.isActive recordId = true := by
  rw [isActive_iff, isActive_iff, Catalog.append, lookup_setItem]
  by_cases h : recordId = event.recordId
  · rw [if_pos h, Option.some.injEq]
    exact ⟨fun h' ↦ absurd h'.2 hstate, fun h' ↦ absurd h h'.1⟩
  · rw [if_neg h]
    exact ⟨fun h' ↦ ⟨h, h'⟩, And.right⟩

omit [IsoFormats] in
theorem isBound_append {eventId : String} : (catalog.append event).isBound eventId = false ↔
    event.eventId ≠ eventId ∧ catalog.isBound eventId = false := by
  rw [Catalog.isBound, Catalog.append, List.any_append, Bool.or_eq_false_iff, and_comm]
  simp [Catalog.isBound]

/-- The loop gets through if the predecessors are different, active, and not superseded by the
successor before. -/
theorem exists_retire_iff (hregistered : ∃ entry, catalog.entries.lookup successorId = some entry)
    (htime : ∃ t, instant now = .ok t) (hreason : reason ≠ "") :
    (∃ events after, ids.mapM (retire successorId now reason) catalog = .ok events after) ↔
      ids.Nodup ∧ ∀ id ∈ ids, catalog.isActive id = true ∧
        catalog.isBound (supersededId id successorId) = false := by
  induction ids generalizing catalog with
  | nil => exact ⟨fun _ ↦ ⟨List.nodup_nil, nofun⟩, fun _ ↦ ⟨[], catalog, rfl⟩⟩
  | cons id ids ih =>
    rw [List.nodup_cons, List.forall_mem_cons, List.mapM_cons]
    constructor
    · rintro ⟨events, after, h⟩
      obtain ⟨event, next, hfirst, h⟩ := run_bind_eq_ok.mp h
      obtain ⟨-, -, hactive, hbound, hevent, rfl⟩ := (retire_eq_ok hregistered).mp hfirst
      obtain ⟨rest, next', hrest, -⟩ := run_bind_eq_ok.mp h
      obtain ⟨hnodup, hall⟩ := (@ih (catalog.append event) hregistered).mp
        ⟨rest, next', hrest⟩
      have hne : event.state ≠ .active := by
        rw [hevent]
        exact nofun
      refine ⟨⟨fun hmem ↦ ?_, hnodup⟩, ⟨hactive, hbound⟩, fun id' hmem ↦ ?_⟩
      · exact ((isActive_append hne).mp (hall id hmem).1).1 (by rw [hevent])
      · exact ⟨((isActive_append hne).mp (hall id' hmem).1).2,
          (isBound_append.mp (hall id' hmem).2).2⟩
    · rintro ⟨⟨hnotMem, hnodup⟩, ⟨hactive, hbound⟩, hall⟩
      obtain ⟨event, hevent⟩ : ∃ event : LifecycleEvent, event =
          { sequence := catalog.events.length + 1
            eventId := supersededId id successorId, recordId := id
            previousState := .active, state := .superseded, occurredAt := now, reason
            successorId := some successorId } := ⟨_, rfl⟩
      have hfirst := (retire_eq_ok hregistered).mpr
        ⟨htime, hreason, hactive, hbound, hevent, rfl⟩
      have hrest : ∀ id' ∈ ids, (catalog.append event).isActive id' = true ∧
          (catalog.append event).isBound (supersededId id' successorId) = false := by
        intro id' hmem
        have hne : id' ≠ id := fun h ↦ hnotMem (h ▸ hmem)
        rw [isActive_append (by rw [hevent]; exact nofun), isBound_append, hevent]
        exact ⟨⟨hne, (hall id' hmem).1⟩, fun h ↦ hne (supersededId_inj.mp h).symm,
          (hall id' hmem).2⟩
      obtain ⟨events, after, h⟩ := (@ih (catalog.append event) hregistered).mpr
        ⟨hnodup, hrest⟩
      exact ⟨event :: events, after, run_bind_eq_ok.mpr ⟨event, _, hfirst,
        run_bind_eq_ok.mpr ⟨events, after, h, rfl⟩⟩⟩

/-- What the loop leaves when it gets through. -/
structure Retired (successorId : String) (ids : List String) (before after : Catalog)
    (events : List LifecycleEvent) : Prop where
  entries : after.entries = before.entries
  conflicts : after.conflicts = before.conflicts
  events_eq : after.events = before.events ++ events
  recordIds : events.map (·.recordId) = ids
  forall_mem : ∀ event ∈ events, event.state = .superseded ∧ event.successorId = some successorId
  states : ∀ id, after.states.lookup id =
    if id ∈ ids then some .superseded else before.states.lookup id

theorem retired_of_ok (hregistered : ∃ entry, catalog.entries.lookup successorId = some entry)
    (h : ids.mapM (retire successorId now reason) catalog = .ok events after) :
    Retired successorId ids catalog after events := by
  induction ids generalizing catalog events with
  | nil =>
    obtain ⟨rfl, rfl⟩ := run_pure_eq_ok.mp h
    exact ⟨rfl, rfl, (List.append_nil _).symm, rfl, nofun, fun id ↦ (if_neg nofun).symm⟩
  | cons id ids ih =>
    rw [List.mapM_cons] at h
    obtain ⟨event, next, hfirst, h⟩ := run_bind_eq_ok.mp h
    obtain ⟨-, -, -, -, hevent, rfl⟩ := (retire_eq_ok hregistered).mp hfirst
    obtain ⟨rest, next, hrest, h⟩ := run_bind_eq_ok.mp h
    obtain ⟨rfl, rfl⟩ := run_pure_eq_ok.mp h
    have hretired := @ih (catalog.append event) _ hregistered hrest
    refine ⟨hretired.entries, hretired.conflicts, ?_, ?_, ?_, ?_⟩
    · rw [hretired.events_eq, Catalog.append, List.append_assoc, List.singleton_append]
    · rw [List.map_cons, hretired.recordIds, hevent]
    · refine List.forall_mem_cons.mpr ⟨?_, hretired.forall_mem⟩
      rw [hevent]
      exact ⟨rfl, rfl⟩
    · intro id'
      rw [hretired.states, Catalog.append, lookup_setItem, hevent]
      by_cases hmem : id' ∈ ids
      · rw [if_pos hmem, if_pos (List.mem_cons_of_mem id hmem)]
      · simp only [List.mem_cons, hmem, or_false, if_false]

/-- No round takes an event back. -/
theorem length_le_of_retire : catalog.events.length ≤
    (final (ids.mapM (retire successorId now reason) catalog)).events.length := by
  induction ids generalizing catalog with
  | nil => exact le_rfl
  | cons id ids ih =>
    rw [List.mapM_cons]
    rcases hfirst : retire successorId now reason id catalog with ⟨event, next⟩ | ⟨e, next⟩
    · rw [run_bind_of_ok hfirst, final_bind_pure]
      obtain ⟨-, rfl⟩ := transition_eq_ok.mp hfirst
      refine le_trans ?_ (@ih (catalog.append event))
      rw [Catalog.append, List.length_append]
      exact Nat.le_add_right _ _
    · rw [run_bind_of_error hfirst, final, atomic_transition _ _ _ hfirst]

/-- A loop that stops has left an event behind, unless it stopped at once. -/
theorem lt_length_of_retire {e : MemoryError}
    (h : (recordId :: ids).mapM (retire successorId now reason) catalog = .error e after) :
    retire successorId now reason recordId catalog = .error e after ∨
      catalog.events.length < after.events.length := by
  rw [List.mapM_cons] at h
  rcases run_bind_eq_error h with hfirst | ⟨event, next, hfirst, h⟩
  · exact .inl hfirst
  · obtain ⟨-, rfl⟩ := transition_eq_ok.mp hfirst
    have hle : (catalog.append event).events.length ≤
        (final (ids.mapM (retire successorId now reason) (catalog.append event))).events.length :=
      length_le_of_retire
    have hfinal := final_bind_pure (ids.mapM (retire successorId now reason)) (event :: ·)
      (catalog.append event)
    rw [h, final] at hfinal
    rw [← hfinal, Catalog.append, List.length_append] at hle
    exact .inr hle

end Loop

/-! ## The call -/

section Call

variable (catalog : Catalog) (successor : MemoryRecord) (access : MemoryAccess)
  (now reason : String)

/-- Nothing stops the retirements, and a successor that is registered already is active. -/
structure Retirable : Prop where
  timed : ∃ t, instant now = .ok t
  reasoned : reason ≠ ""
  nodup : successor.supersedes.Nodup
  unbound : ∀ id ∈ successor.supersedes,
    catalog.isBound (supersededId id successor.recordId) = false
  current : (∃ entry, catalog.entries.lookup successor.recordId = some entry) →
    catalog.states.lookup successor.recordId = some .active

/-- The successor is registered already, and the first retirement is stopped. -/
structure Repeated : Prop where
  registered : ∃ entry, catalog.entries.lookup successor.recordId = some entry
  stopped : (¬∃ t, instant now = .ok t) ∨ reason = "" ∨
    ∃ id ∈ (successor.supersedes.insertionSort (· ≤ ·)).head?,
      catalog.isBound (supersededId id successor.recordId) = true

omit [IsoFormats] in
/-- What a supersession that returns has to leave: the successor registered and active, each of its
predecessors superseded by one new event that names the successor, and all other records as they
were. -/
structure Superseded (after : Catalog) (events : List LifecycleEvent) : Prop where
  registered : after.entries.lookup successor.recordId = some ⟨successor, access⟩
  active : after.states.lookup successor.recordId = some .active
  events_eq : after.events = catalog.events ++ events
  superseded : ∀ id ∈ successor.supersedes, after.states.lookup id = some .superseded ∧
    ∃ event, events.filter (·.recordId = id) = [event] ∧ event.state = .superseded ∧
      event.successorId = some successor.recordId
  entries : ∀ id ≠ successor.recordId, after.entries.lookup id = catalog.entries.lookup id
  states : ∀ id ≠ successor.recordId, id ∉ successor.supersedes →
    after.states.lookup id = catalog.states.lookup id

omit [IsoFormats] in
/-- A supersession raises and leaves the catalog as it was, or leaves what it has to leave. -/
def Orderly : EStateM.Result MemoryError Catalog (List LifecycleEvent) → Prop
  | .error _ after => after = catalog
  | .ok events after => Superseded catalog successor access after events

omit [IsoFormats] in
/-- The catalog when the successor is registered. -/
def Catalog.admitted : Catalog :=
  if (catalog.entries.lookup successor.recordId).isSome then catalog
  else { catalog with
    entries := setItem successor.recordId ⟨successor, access⟩ catalog.entries
    states := setItem successor.recordId successor.state catalog.states }

/-- The call gets as far as the loop. -/
structure Admissible [Hash256] (files : ArtifactFiles) : Prop where
  active : successor.state = .active
  supersedes : successor.supersedes ≠ []
  notMem : successor.recordId ∉ successor.supersedes
  predecessors : ∀ id ∈ successor.supersedes, catalog.isActive id = true
  verified : verify files successor = .ok ()
  entry : ∀ entry, catalog.entries.lookup successor.recordId = some entry →
    entry = ⟨successor, access⟩

variable [Hash256] {catalog successor access now reason} {files : ArtifactFiles}

omit [IsoFormats] in
theorem register_of_admissible (h : Admissible catalog successor access files) :
    register files successor access catalog = .ok () (catalog.admitted successor access) := by
  rw [register, h.verified, run_bind_of_ok (show _ = EStateM.Result.ok () catalog by rw [lift]),
    run_bind_of_ok (run_get_eq_ok.mpr ⟨rfl, rfl⟩), Catalog.admitted]
  rcases hlookup : catalog.entries.lookup successor.recordId with _ | entry
  · rfl
  · simp only [Option.isSome_some, if_true, if_neg (not_not.mpr (h.entry entry hlookup))]
    rfl

omit [IsoFormats] in
/-- A registration that is refused changes nothing. -/
theorem atomic_register : Atomic (register files successor access) := by
  refine atomic_bind (atomic_lift _) (reads_lift _) fun _ ↦
    atomic_bind atomic_get reads_get fun catalog ↦ ?_
  rcases catalog.entries.lookup successor.recordId with _ | entry
  · exact atomic_set _
  · exact atomic_ite (atomic_throw _) (atomic_pure _)

omit [IsoFormats] in
theorem register_eq_ok {after : Catalog}
    (h : register files successor access catalog = .ok () after) :
    verify files successor = .ok () ∧ ∀ entry,
      catalog.entries.lookup successor.recordId = some entry → entry = ⟨successor, access⟩ := by
  rw [register, run_bind_eq_ok] at h
  obtain ⟨u, t, hlift, h⟩ := h
  obtain ⟨hverified, rfl⟩ := run_lift_eq_ok.mp hlift
  refine ⟨hverified, fun entry hentry ↦ ?_⟩
  rw [run_bind_of_ok (run_get_eq_ok.mpr ⟨rfl, rfl⟩)] at h
  simp only [hentry] at h
  by_contra hne
  rw [if_pos hne] at h
  exact nomatch h

/-- A call that gets to the loop is the loop. -/
theorem supersede_of_admissible (h : Admissible catalog successor access files) :
    supersede files successor access now reason catalog =
      (successor.supersedes.insertionSort (· ≤ ·)).mapM
        (retire successor.recordId now reason) (catalog.admitted successor access) := by
  have hactive : ¬∃ id ∈ successor.supersedes, catalog.isActive id = false := by
    rintro ⟨id, hid, hfalse⟩
    exact Bool.false_ne_true (hfalse.symm.trans (h.predecessors id hid))
  rw [supersede, if_neg (not_or.mpr ⟨not_not.mpr h.active, h.supersedes⟩)]
  dsimp only
  rw [run_bind_of_ok (run_get_eq_ok.mpr ⟨rfl, rfl⟩)]
  simp only [List.mem_insertionSort, List.any_eq_true, Bool.not_eq_true']
  rw [if_neg (not_or.mpr ⟨h.notMem, hactive⟩), run_bind_of_ok (register_of_admissible h)]
  rfl

/-- A call that does not get to the loop is refused, and changes nothing. -/
theorem supersede_of_not_admissible (h : ¬Admissible catalog successor access files) :
    ∃ e, supersede files successor access now reason catalog = .error e catalog := by
  rw [supersede]
  by_cases hnamed : successor.state ≠ .active ∨ successor.supersedes = []
  · rw [if_pos hnamed]
    exact ⟨_, rfl⟩
  rw [if_neg hnamed]
  dsimp only
  rw [run_bind_of_ok (run_get_eq_ok.mpr ⟨rfl, rfl⟩)]
  simp only [List.mem_insertionSort, List.any_eq_true, Bool.not_eq_true']
  by_cases hactive : successor.recordId ∈ successor.supersedes ∨
      ∃ id ∈ successor.supersedes, catalog.isActive id = false
  · rw [if_pos hactive]
    exact ⟨_, rfl⟩
  rw [if_neg hactive]
  rw [not_or, not_not] at hnamed
  rw [not_or] at hactive
  rcases hregister : register files successor access catalog with ⟨u, after⟩ | ⟨e, after⟩
  · obtain ⟨hverified, hentry⟩ := register_eq_ok hregister
    refine absurd ⟨hnamed.1, hnamed.2, hactive.1, fun id hid ↦ ?_, hverified, hentry⟩ h
    exact Bool.not_eq_false _ ▸ fun hfalse ↦ hactive.2 ⟨id, hid, hfalse⟩
  · obtain rfl := atomic_register _ _ _ hregister
    exact ⟨e, run_bind_of_error hregister⟩

/-! ## The successor is registered -/

omit [IsoFormats] in
theorem lookup_entries_admitted (h : Admissible catalog successor access files) (id : String) :
    (catalog.admitted successor access).entries.lookup id =
      if id = successor.recordId then some ⟨successor, access⟩ else catalog.entries.lookup id := by
  rw [Catalog.admitted]
  rcases hlookup : catalog.entries.lookup successor.recordId with _ | entry
  · exact lookup_setItem _ _ _ _
  · rw [Option.isSome_some, if_pos rfl]
    by_cases hid : id = successor.recordId
    · rw [if_pos hid, hid, hlookup, h.entry entry hlookup]
    · rw [if_neg hid]

omit [IsoFormats] [Hash256] in
theorem lookup_states_admitted (id : String) :
    (catalog.admitted successor access).states.lookup id =
      if id = successor.recordId ∧ catalog.entries.lookup successor.recordId = none then
        some successor.state else catalog.states.lookup id := by
  rw [Catalog.admitted]
  rcases hlookup : catalog.entries.lookup successor.recordId with _ | entry
  · simp only [Option.isSome_none, Bool.false_eq_true, if_false, lookup_setItem, and_true]
  · simp only [Option.isSome_some, if_true, reduceCtorEq, and_false, if_false]

omit [IsoFormats] [Hash256] in
theorem events_admitted : (catalog.admitted successor access).events = catalog.events := by
  rw [Catalog.admitted]
  split
  · rfl
  · rfl

omit [IsoFormats] [Hash256] in
theorem admit_eq_self_iff : catalog.admitted successor access = catalog ↔
    ∃ entry, catalog.entries.lookup successor.recordId = some entry := by
  rw [← Option.isSome_iff_exists, Catalog.admitted]
  rcases hlookup : catalog.entries.lookup successor.recordId with _ | entry
  · refine ⟨fun h ↦ ?_, nofun⟩
    have hentries := congrArg (fun c : Catalog ↦ c.entries.lookup successor.recordId) h
    simp only [Option.isSome_none, Bool.false_eq_true, if_false, lookup_setItem, if_true,
      hlookup, reduceCtorEq] at hentries
  · exact ⟨fun _ ↦ rfl, fun _ ↦ rfl⟩

omit [IsoFormats] in
theorem registered_admitted (h : Admissible catalog successor access files) :
    ∃ entry, (catalog.admitted successor access).entries.lookup successor.recordId = some entry :=
  ⟨_, (lookup_entries_admitted h _).trans (if_pos rfl)⟩

omit [IsoFormats] in
/-- The predecessors are still active. -/
theorem isActive_admitted (h : Admissible catalog successor access files) {id : String}
    (hid : id ∈ successor.supersedes) :
    (catalog.admitted successor access).isActive id = true := by
  have hne : id ≠ successor.recordId := fun heq ↦ h.notMem (heq ▸ hid)
  rw [Catalog.isActive, lookup_entries_admitted h, lookup_states_admitted, if_neg hne,
    if_neg fun h ↦ hne h.1]
  exact h.predecessors id hid

omit [IsoFormats] [Hash256] in
theorem isBound_admitted {eventId : String} :
    (catalog.admitted successor access).isBound eventId = catalog.isBound eventId := by
  rw [Catalog.isBound, Catalog.isBound, events_admitted]

/-! ## What is left -/

/-- When the loop of a call that gets to it returns. -/
theorem exists_supersede_iff (h : Admissible catalog successor access files) :
    (∃ events after, supersede files successor access now reason catalog = .ok events after) ↔
      (∃ t, instant now = .ok t) ∧ reason ≠ "" ∧ successor.supersedes.Nodup ∧
        ∀ id ∈ successor.supersedes,
          catalog.isBound (supersededId id successor.recordId) = false := by
  have hperm := List.perm_insertionSort (· ≤ ·) successor.supersedes
  rw [supersede_of_admissible h]
  constructor
  · rintro ⟨events, after, hok⟩
    obtain ⟨first, rest, hids⟩ :
        ∃ first rest, successor.supersedes.insertionSort (· ≤ ·) = first :: rest :=
      List.exists_cons_of_ne_nil fun hnil ↦ h.supersedes (hnil ▸ hperm).nil_eq.symm
    have hfirst := hok
    rw [hids, List.mapM_cons] at hfirst
    obtain ⟨_, _, hfirst, -⟩ := run_bind_eq_ok.mp hfirst
    obtain ⟨htime, hreason, -⟩ := (retire_eq_ok (registered_admitted h)).mp hfirst
    obtain ⟨hnodup, hall⟩ := (exists_retire_iff (registered_admitted h) htime hreason).mp
      ⟨events, after, hok⟩
    refine ⟨htime, hreason, hperm.nodup_iff.mp hnodup, fun id hid ↦ ?_⟩
    have hbound := (hall id (hperm.mem_iff.mpr hid)).2
    rwa [isBound_admitted] at hbound
  · rintro ⟨htime, hreason, hnodup, hunbound⟩
    refine (exists_retire_iff (registered_admitted h) htime hreason).mpr
      ⟨hperm.nodup_iff.mpr hnodup, fun id hid ↦ ?_⟩
    have hmem := hperm.mem_iff.mp hid
    exact ⟨isActive_admitted h hmem, isBound_admitted.trans (hunbound id hmem)⟩

omit [IsoFormats] in
/-- What a loop that gets through leaves is a supersession, if the successor was active. -/
theorem superseded_of_retired (h : Admissible catalog successor access files) {after : Catalog}
    {events : List LifecycleEvent} (hnodup : successor.supersedes.Nodup)
    (hretired : Retired successor.recordId (successor.supersedes.insertionSort (· ≤ ·))
      (catalog.admitted successor access) after events) :
    Superseded catalog successor access after events ↔
      ((∃ entry, catalog.entries.lookup successor.recordId = some entry) →
        catalog.states.lookup successor.recordId = some .active) := by
  have hmem : ∀ {id}, id ∈ successor.supersedes.insertionSort (· ≤ ·) ↔
      id ∈ successor.supersedes := List.mem_insertionSort _
  have hstates : after.states.lookup successor.recordId =
      if catalog.entries.lookup successor.recordId = none then some .active
      else catalog.states.lookup successor.recordId := by
    rw [hretired.states, if_neg (mt hmem.mp h.notMem), lookup_states_admitted, h.active]
    simp only [true_and]
  constructor
  · rintro hsuperseded ⟨entry, hentry⟩
    rw [← hsuperseded.active, hstates, hentry, if_neg nofun]
  intro hcurrent
  refine ⟨?_, ?_, ?_, fun id hid ↦ ⟨?_, ?_⟩, fun id hne ↦ ?_, fun id hne hid ↦ ?_⟩
  · rw [hretired.entries, lookup_entries_admitted h, if_pos rfl]
  · rw [hstates]
    rcases hlookup : catalog.entries.lookup successor.recordId with _ | entry
    · rw [if_pos rfl]
    · rw [if_neg nofun]
      exact hcurrent ⟨entry, hlookup⟩
  · rw [hretired.events_eq, events_admitted]
  · rw [hretired.states, if_pos (hmem.mpr hid)]
  · -- no two events are about the same predecessor
    have hevents : id ∈ events.map (·.recordId) := by
      rw [hretired.recordIds]
      exact hmem.mpr hid
    have hids : (events.map (·.recordId)).Nodup := by
      rw [hretired.recordIds]
      exact (List.perm_insertionSort _ _).nodup_iff.mpr hnodup
    obtain ⟨event, hevent, rfl⟩ := List.mem_map.mp hevents
    exact ⟨event, Rows.Unique.filter_eq hids hevent, hretired.forall_mem event hevent⟩
  · rw [hretired.entries, lookup_entries_admitted h, if_neg hne]
  · rw [hretired.states, if_neg (mt hmem.mp hid), lookup_states_admitted, if_neg fun h ↦ hne h.1]

theorem superseded_iff_of_ok (h : Admissible catalog successor access files) {after : Catalog}
    {events : List LifecycleEvent}
    (hok : supersede files successor access now reason catalog = .ok events after) :
    Superseded catalog successor access after events ↔
      Retirable catalog successor now reason := by
  obtain ⟨htime, hreason, hnodup, hunbound⟩ := (exists_supersede_iff h).mp ⟨events, after, hok⟩
  rw [supersede_of_admissible h] at hok
  rw [superseded_of_retired h hnodup (retired_of_ok (registered_admitted h) hok)]
  exact ⟨fun hcurrent ↦ ⟨htime, hreason, hnodup, hunbound, hcurrent⟩, fun h ↦ h.current⟩

/-- A call that stops in the loop has changed the catalog, unless the successor was there before and
the loop stopped at once. -/
theorem eq_self_iff_of_error (h : Admissible catalog successor access files) {after : Catalog}
    {e : MemoryError}
    (herror : supersede files successor access now reason catalog = .error e after) :
    after = catalog ↔ Repeated catalog successor now reason := by
  have hperm := List.perm_insertionSort (· ≤ ·) successor.supersedes
  obtain ⟨first, rest, hids⟩ :
      ∃ first rest, successor.supersedes.insertionSort (· ≤ ·) = first :: rest :=
    List.exists_cons_of_ne_nil fun hnil ↦ h.supersedes (hnil ▸ hperm).nil_eq.symm
  have hactive := isActive_admitted h (hperm.mem_iff.mp (hids ▸ List.mem_cons_self))
  have hfirst : (∃ e, retire successor.recordId now reason first
      (catalog.admitted successor access) = .error e (catalog.admitted successor access)) ↔ _ :=
    exists_retire_eq_error_iff (registered_admitted h) hactive
  rw [isBound_admitted] at hfirst
  rw [supersede_of_admissible h, hids] at herror
  constructor
  · rintro rfl
    rcases lt_length_of_retire herror with hstop | hlt
    · have heq := atomic_transition _ _ _ hstop
      refine ⟨admit_eq_self_iff.mp heq.symm, ?_⟩
      rw [hids, List.head?_cons]
      have hstop := hstop.trans (congrArg (EStateM.Result.error e) heq)
      exact (hfirst.mp ⟨e, hstop⟩).imp_right fun h ↦ h.imp_right fun h ↦ ⟨first, rfl, h⟩
    · rw [events_admitted] at hlt
      exact absurd hlt (lt_irrefl _)
  · rintro ⟨hregistered, hstopped⟩
    rw [hids, List.head?_cons] at hstopped
    obtain ⟨e', hstop⟩ := hfirst.mpr <| hstopped.imp_right fun h ↦ h.imp_right fun ⟨_, hid, h⟩ ↦
      Option.some.inj hid ▸ h
    rw [List.mapM_cons, run_bind_of_error hstop] at herror
    rw [← (EStateM.Result.error.inj herror).2]
    exact admit_eq_self_iff.mpr hregistered

/-- A call that gets to the loop. -/
theorem orderly_iff_of_admissible (h : Admissible catalog successor access files) :
    Orderly catalog successor access (supersede files successor access now reason catalog) ↔
      Retirable catalog successor now reason ∨ Repeated catalog successor now reason := by
  rcases hrun : supersede files successor access now reason catalog with ⟨events, after⟩ | ⟨e, after⟩
  · refine (superseded_iff_of_ok h hrun).trans ⟨.inl, fun hor ↦ hor.resolve_right ?_⟩
    rintro ⟨-, hstopped⟩
    obtain ⟨htime, hreason, -, hunbound⟩ := (exists_supersede_iff h).mp ⟨events, after, hrun⟩
    rcases hstopped with hno | hempty | ⟨id, hid, hbound⟩
    · exact hno htime
    · exact hreason hempty
    · have hmem := (List.mem_insertionSort _).mp (List.mem_of_mem_head? hid)
      exact Bool.noConfusion ((hunbound id hmem).symm.trans hbound)
  · refine (eq_self_iff_of_error h hrun).trans ⟨.inr, fun hor ↦ hor.resolve_left fun hretirable ↦ ?_⟩
    obtain ⟨events, after', hok⟩ := (exists_supersede_iff h).mpr
      ⟨hretirable.timed, hretirable.reasoned, hretirable.nodup, hretirable.unbound⟩
    exact nomatch hrun.symm.trans hok

/-- **A supersession is orderly exactly when it is refused before anything is written, when nothing
stops the retirements, or when it repeats a registration and is stopped at once.** -/
theorem supersession_orderly_iff (catalog : Catalog) (files : ArtifactFiles)
    (successor : MemoryRecord) (access : MemoryAccess) (now reason : String) :
    (Orderly catalog successor access (supersede files successor access now reason catalog) ↔
      ¬Admissible catalog successor access files ∨ Retirable catalog successor now reason ∨
        Repeated catalog successor now reason) ∧
    (Orderly catalog successor access (correct files successor access now reason catalog) ↔
      ¬Admissible catalog successor access files ∨ Retirable catalog successor now reason ∨
        Repeated catalog successor now reason) ∧
    ∀ (support : List String) (independenceKeys : List (String × String))
      (policy : ConsolidationPolicy),
      Orderly catalog successor access (consolidate files successor access support
        independenceKeys now reason policy catalog) ↔
      (∃ e, checkConsolidation catalog successor (sortedSet support) independenceKeys policy =
        .error e) ∨ ¬Admissible catalog successor access files ∨
        Retirable catalog successor now reason ∨ Repeated catalog successor now reason := by
  have hsupersede : Orderly catalog successor access
      (supersede files successor access now reason catalog) ↔
      ¬Admissible catalog successor access files ∨ Retirable catalog successor now reason ∨
        Repeated catalog successor now reason := by
    by_cases h : Admissible catalog successor access files
    · rw [orderly_iff_of_admissible h]
      exact ⟨.inr, fun hor ↦ hor.resolve_left (not_not.mpr h)⟩
    · have hrefused : ∃ e, supersede files successor access now reason catalog =
          .error e catalog := supersede_of_not_admissible h
      obtain ⟨e, herror⟩ := hrefused
      rw [herror]
      exact ⟨fun _ ↦ .inl h, fun _ ↦ rfl⟩
  refine ⟨hsupersede, hsupersede, fun support independenceKeys policy ↦ ?_⟩
  rw [consolidate, run_bind_of_ok (run_get_eq_ok.mpr ⟨rfl, rfl⟩)]
  rcases hcheck : checkConsolidation catalog successor (sortedSet support) independenceKeys policy
    with e | u
  · rw [run_bind_of_error (show lift (.error e) catalog = .error e catalog from rfl)]
    exact ⟨fun _ ↦ .inl ⟨e, rfl⟩, fun _ ↦ rfl⟩
  · rw [run_bind_of_ok (show lift (.ok u) catalog = .ok u catalog from rfl), hsupersede]
    exact ⟨.inr, fun h ↦ h.resolve_left nofun⟩

end Call
end Supersession

/-! ## A predecessor that is named twice -/

/-- The formats of RFC 3339 and no others. -/
abbrev rfcOnly : IsoFormats := ⟨fun _ ↦ none⟩

/-- The artifact of which the body is one letter. -/
def sampleDigest : String :=
  "sha256:ca978112ca1bbdcafac231b39a23dc4da786eff8147c4e72b9807785afee48bb"

def sampleFiles : ArtifactFiles :=
  [("memory/artifacts/sha256/ca/ca978112ca1bbdcafac231b39a23dc4da786eff8147c4e72b9807785afee48bb",
    [97])]

/-- A fact with this id that takes the place of other records. -/
def sampleFields (recordId : String) (supersedes : List String) : RecordFields where
  recordId := recordId
  memoryClass := "fact"
  scope := "global"
  subjectKeys := []
  contentRef := sampleDigest
  sourceRefs := []
  authorityLevel := "repository"
  sensitivity := "internal"
  validFrom := "2026-01-01T00:00:00Z"
  validTo := none
  recordedAt := "2026-01-01T00:00:00Z"
  availableAt := "2026-01-01T00:00:00Z"
  state := .active
  supersedes := supersedes
  supersededBy := []
  evaluatorId := none
  outcomeRefs := []
  retentionPolicy := "durable"
  digestValue := sampleDigest

def samplePrior : MemoryRecord := ⟨sampleFields "MEMORY-prior" [], by decide +kernel⟩

def sampleSuccessor : MemoryRecord :=
  ⟨sampleFields "MEMORY-next" ["MEMORY-prior", "MEMORY-prior"], by decide +kernel⟩

def sampleAccess : MemoryAccess := ⟨⟨["builder"], [], true⟩, by decide +kernel⟩

/-- The catalog in which the prior record is registered. -/
def sampleCatalog : Catalog :=
  ⟨[("MEMORY-prior", ⟨samplePrior, sampleAccess⟩)], [("MEMORY-prior", .active)], [], []⟩

/-- The call with which the successor takes the place of the prior record, twice. -/
def sampleRun : EStateM.Result MemoryError Catalog (List LifecycleEvent) :=
  @supersede _ rfcOnly sampleFiles sampleSuccessor sampleAccess "2026-01-02T00:00:00Z" "restated"
    sampleCatalog

set_option maxRecDepth 2000

/-- A predecessor that is named twice is retired, and then the call raises. -/
theorem half_superseded : @Reachable _ rfcOnly sampleCatalog ∧
    ¬Orderly sampleCatalog sampleSuccessor sampleAccess
      (@supersede _ rfcOnly sampleFiles sampleSuccessor sampleAccess "2026-01-02T00:00:00Z"
        "restated" sampleCatalog) := by
  refine ⟨⟨[.register sampleFiles samplePrior sampleAccess], by decide⟩, ?_⟩
  change ¬Orderly sampleCatalog sampleSuccessor sampleAccess sampleRun
  have hraises : isOk sampleRun = false := by decide
  have hstays : (final sampleRun).events.length = 1 := by decide
  generalize sampleRun = run at hraises hstays ⊢
  rcases run with ⟨events, after⟩ | ⟨e, after⟩
  · exact nomatch hraises
  · rintro rfl
    exact absurd hstays Nat.zero_ne_one

end HiveMind.Memory
