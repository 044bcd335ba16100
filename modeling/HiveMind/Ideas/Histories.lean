import HiveMind.Ideas.Lineage

/-!
# Histories of ideas

The table is the rows of a log of events. Each event of the log was checked against the events of
its idea that were there, and a proposal against all events. What these checks say of one event and
its whole past is `Grows`; the rules of a history follow from it by going through the history.

* **`history_toRow`**: the history of an idea is read back as the events of the log that are about
  it.
* **`lineage_sound`**: every table that calls can build keeps the rules, and a call that raises
  changes nothing.
-/

open Raise AppendOnly

namespace HiveMind.Ideas

/-! ## What an event was checked for -/

/-- An event may follow the one before it. -/
structure Next (previous e : IdeaEvent) : Prop where
  kind : e.eventType ≠ .proposed
  revision : e.revision = previous.revision + if e.eventType = .revised then 1 else 0
  budget : e.eventType = .revised → previous.revision < previous.maxRevisions
  reopened : previous.eventType.isDisposition = true → e.eventType = .revised

/-- An event may come to the events of its idea. -/
structure Grows (past : List IdeaEvent) (e : IdeaEvent) : Prop where
  sequence : e.sequence = past.length + 1
  previous : e.previousDigest = past.getLast?.map (·.digest)
  first : past = [] → e.eventType = .proposed ∧ e.revision = 1 ∧ 1 ≤ e.maxRevisions
  next : ∀ previous ∈ past.getLast?, Next previous e
  fixed : ∀ a ∈ past, a.parentIdeaId = e.parentIdeaId ∧ a.maxRevisions = e.maxRevisions
  roles : ∀ a ∈ past, a.actorId = e.actorId → a.eventType.role = e.eventType.role
  judged : e.eventType.isDisposition = true →
    ∃ c ∈ past, c.eventType = .challenged ∧ c.revision = e.revision

/-- The event is about the idea. -/
def isAbout (subjectId ideaId : String) (e : IdeaEvent) : Bool :=
  e.subjectId == subjectId && e.ideaId == ideaId

/-- The events that are about an idea. -/
def ofIdea (subjectId ideaId : String) (log : List IdeaEvent) : List IdeaEvent :=
  log.filter (isAbout subjectId ideaId)

theorem isAbout_iff {subjectId ideaId : String} {e : IdeaEvent} :
    isAbout subjectId ideaId e = true ↔ e.subjectId = subjectId ∧ e.ideaId = ideaId := by
  rw [isAbout, Bool.and_eq_true, beq_iff_eq, beq_iff_eq]

theorem mem_ofIdea {subjectId ideaId : String} {log : List IdeaEvent} {e : IdeaEvent} :
    e ∈ ofIdea subjectId ideaId log ↔ e ∈ log ∧ e.subjectId = subjectId ∧ e.ideaId = ideaId := by
  rw [ofIdea, List.mem_filter, isAbout_iff]

/-! ## The rules of a history -/

/-- What has to hold of the history of an idea. -/
structure HistorySound (events : List IdeaEvent) : Prop where
  roles : ∀ role role', role ≠ role' → (actors role events).Disjoint (actors role' events)
  judged : ∀ before e after, events = before ++ e :: after → e.eventType.isDisposition = true →
    ∃ c ∈ before, c.eventType = .challenged ∧ c.revision = e.revision
  reopened : ∀ before e next after, events = before ++ e :: next :: after →
    e.eventType.isDisposition = true → next.eventType = .revised
  opens : ∀ first ∈ events.head?, first.eventType = .proposed ∧ first.revision = 1
  revisions : ∀ before e next after, events = before ++ e :: next :: after →
    next.revision = e.revision + if next.eventType = .revised then 1 else 0
  budget : ∀ first ∈ events.head?, ∀ e ∈ events,
    e.maxRevisions = first.maxRevisions ∧ e.revision ≤ first.maxRevisions

section Grows

variable {events : List IdeaEvent}

theorem Grows.next_of_concat {past : List IdeaEvent} {previous e : IdeaEvent}
    (h : Grows (past ++ [previous]) e) : Next previous e :=
  h.next previous (by rw [List.getLast?_concat]; rfl)

/-- Two events next to each other. -/
theorem next_of_eq (h : Admitted Grows events) {before after : List IdeaEvent} {e next : IdeaEvent}
    (heq : events = before ++ e :: next :: after) : Next e next := by
  have heq' : events = (before ++ [e]) ++ next :: after := by
    rw [heq, List.append_assoc, List.singleton_append]
  exact (h _ _ _ heq').next_of_concat

theorem length_of_grows (h : Admitted Grows events) :
    ∀ last ∈ events.getLast?, last.sequence = events.length := by
  induction events using List.reverseRecOn with
  | nil => exact fun _ hlast ↦ nomatch hlast
  | append_singleton past e _ =>
    intro last hlast
    rw [List.getLast?_concat] at hlast
    obtain rfl := Option.mem_some_iff.mp hlast
    rw [List.length_append, List.length_singleton]
    exact (h past e [] rfl).sequence

/-- The numbers of a history increase. -/
theorem increasing_of_grows (h : Admitted Grows events) :
    events.Pairwise fun a b ↦ a.sequence < b.sequence := by
  induction events using List.reverseRecOn with
  | nil => exact .nil
  | append_singleton past e ih =>
    have hle : ∀ a ∈ past, a.sequence ≤ past.length := by
      intro a ha
      obtain ⟨before, after, heq, hgrows⟩ := h.of_concat.exists_of_mem ha
      rw [hgrows.sequence, heq, List.length_append, List.length_cons]
      omega
    refine List.pairwise_append.mpr ⟨ih h.of_concat, List.pairwise_singleton _ e, ?_⟩
    intro a ha b hb
    obtain rfl := List.mem_singleton.mp hb
    rw [(h past b [] rfl).sequence]
    exact Nat.lt_succ_of_le (hle a ha)

/-- The budget is never exceeded. -/
theorem revision_le_of_grows (h : Admitted Grows events) :
    ∀ e ∈ events, e.revision ≤ e.maxRevisions := by
  induction events using List.reverseRecOn with
  | nil => exact fun _ he ↦ nomatch he
  | append_singleton past e ih =>
    rw [List.forall_mem_append]
    refine ⟨ih h.of_concat, ?_⟩
    rintro a ha
    obtain rfl := List.mem_singleton.mp ha
    have hgrows := h past a [] rfl
    induction past using List.reverseRecOn with
    | nil =>
      obtain ⟨-, hrevision, hmax⟩ := hgrows.first rfl
      rwa [hrevision]
    | append_singleton past previous _ =>
      have hnext := hgrows.next_of_concat
      have hmem : previous ∈ past ++ [previous] := List.mem_append_right _ (List.mem_singleton_self _)
      have hle := ih h.of_concat previous hmem
      rw [hnext.revision, ← (hgrows.fixed previous hmem).2]
      by_cases hrevised : a.eventType = .revised
      · rw [if_pos hrevised]
        exact hnext.budget hrevised
      · rw [if_neg hrevised]
        exact hle

/-- The same actor always acts in the same role. -/
theorem role_eq_of_grows (h : Admitted Grows events) {a b : IdeaEvent} (ha : a ∈ events)
    (hb : b ∈ events) (hactor : a.actorId = b.actorId) : a.eventType.role = b.eventType.role := by
  let SameRole (a b : IdeaEvent) : Prop :=
    a.actorId = b.actorId → a.eventType.role = b.eventType.role
  have hpairwise : events.Pairwise SameRole := h.pairwise fun _ _ hgrows ↦ hgrows.roles
  have : Std.Symm SameRole := ⟨fun a b hab hba ↦ (hab hba.symm).symm⟩
  exact List.Pairwise.forall_of_forall (fun _ _ _ ↦ rfl) hpairwise ha hb hactor

theorem mem_actors {role : EventType.Role} {actor : String} :
    actor ∈ actors role events ↔ ∃ e ∈ events, e.eventType.role = role ∧ e.actorId = actor := by
  simp only [actors, List.mem_map, List.mem_filter, beq_iff_eq, and_assoc]

/-- The events of an idea keep the fields that the proposal has fixed. -/
theorem fixed_of_grows (h : Admitted Grows events) :
    ∀ first ∈ events.head?, ∀ e ∈ events,
      e.parentIdeaId = first.parentIdeaId ∧ e.maxRevisions = first.maxRevisions := by
  intro first hfirst e he
  cases events with
  | nil => exact nomatch he
  | cons a rest =>
    obtain rfl := Option.mem_some_iff.mp hfirst
    rcases List.mem_cons.mp he with rfl | he
    · exact ⟨rfl, rfl⟩
    · obtain ⟨before, after, hrest⟩ := List.append_of_mem he
      have hgrows := h (a :: before) e after (by rw [hrest, List.cons_append])
      obtain ⟨hparent, hmax⟩ := hgrows.fixed a List.mem_cons_self
      exact ⟨hparent.symm, hmax.symm⟩

/-- The first event of a history is the proposal. -/
theorem first_of_grows (h : Admitted Grows events) :
    ∀ first ∈ events.head?, first.eventType = .proposed ∧ first.revision = 1 ∧ first.sequence = 1 := by
  intro first hfirst
  cases events with
  | nil => exact nomatch hfirst
  | cons a rest =>
    obtain rfl := Option.mem_some_iff.mp hfirst
    have hgrows := h [] a rest rfl
    obtain ⟨hproposed, hrevision, -⟩ := hgrows.first rfl
    exact ⟨hproposed, hrevision, hgrows.sequence⟩

/-- **The rules of a history follow from what each event was checked for.** -/
theorem historySound_of_grows (h : Admitted Grows events) : HistorySound events where
  roles := by
    intro role role' hne actor hactor hactor'
    obtain ⟨a, ha, harole, haactor⟩ := mem_actors.mp hactor
    obtain ⟨b, hb, hbrole, hbactor⟩ := mem_actors.mp hactor'
    refine hne ?_
    rw [← harole, ← hbrole]
    exact role_eq_of_grows h ha hb (haactor.trans hbactor.symm)
  judged := fun before e after heq ↦ (h before e after heq).judged
  reopened := fun _ _ _ _ heq ↦ (next_of_eq h heq).reopened
  opens := by
    intro first hfirst
    obtain ⟨hproposed, hrevision, -⟩ := first_of_grows h first hfirst
    exact ⟨hproposed, hrevision⟩
  revisions := fun _ _ _ _ heq ↦ (next_of_eq h heq).revision
  budget := by
    intro first hfirst e he
    have hmax := (fixed_of_grows h first hfirst e he).2
    exact ⟨hmax, hmax ▸ revision_le_of_grows h e he⟩

end Grows

/-! ## The log -/

section Digests

variable [Hash256]

/-- What an event of the log was checked for. -/
structure Lawful (before : List IdeaEvent) (e : IdeaEvent) : Prop where
  grows : Grows (ofIdea e.subjectId e.ideaId before) e
  parent : e.eventType = .proposed → ∀ p ∈ e.parentIdeaId, ofIdea e.subjectId p before ≠ []
  sealed : e.digest = e.computeDigest

variable {log : List IdeaEvent} {table table' : Table}

theorem admitted_ofIdea (h : Admitted Lawful log) (subjectId ideaId : String) :
    Admitted Grows (ofIdea subjectId ideaId log) := by
  refine h.filter ?_
  intro before e _ hlawful habout
  obtain ⟨rfl, rfl⟩ := isAbout_iff.mp habout
  exact hlawful.grows

theorem select_toRow (h : Admitted Lawful log) (subjectId ideaId : String) :
    select subjectId ideaId (log.map IdeaEvent.toRow) =
      (ofIdea subjectId ideaId log).map IdeaEvent.toRow := by
  have hfilter : (log.map IdeaEvent.toRow).filter
      (fun row ↦ row.subjectId == subjectId && row.ideaId == ideaId) =
      (ofIdea subjectId ideaId log).map IdeaEvent.toRow := List.filter_map
  rw [select, hfilter]
  refine Rows.orderBy_eq_of_perm (List.Perm.refl _) (List.pairwise_map.mpr ?_)
  exact increasing_of_grows (admitted_ofIdea h subjectId ideaId)

/-- One round of the loop, over the row of an event that may come next. -/
theorem checkRow_toRow {past : List IdeaEvent} {e : IdeaEvent} (hgrows : Grows past e)
    (hsealed : e.digest = e.computeDigest) :
    checkRow e.subjectId e.ideaId past e.toRow = .ok (past ++ [e]) := by
  have hread : IdeaValue.read e.toRow.bodyJson = some e.toIdeaValue := e.read_canonical
  have hok : ¬(e.computeDigest ≠ e.toRow.digest ∨ e.sequence ≠ e.toRow.sequence ∨
      e.toRow.sequence ≠ past.length + 1 ∨ e.subjectId ≠ e.subjectId ∨ e.ideaId ≠ e.ideaId ∨
      e.previousDigest ≠ past.getLast?.map (·.digest)) := by
    simp [IdeaEvent.toRow, hsealed, hgrows.sequence, hgrows.previous]
  simp only [checkRow, hread, if_neg hok]
  rfl

/-- The events of the log are sealed. -/
theorem sealed_of_mem (h : Admitted Lawful log) {e : IdeaEvent} (he : e ∈ log) :
    e.digest = e.computeDigest := by
  obtain ⟨_, _, -, hlawful⟩ := h.exists_of_mem he
  exact hlawful.sealed

theorem foldlM_checkRow {subjectId ideaId : String} {events : List IdeaEvent}
    (h : Admitted Grows events) (hsealed : ∀ e ∈ events, e.digest = e.computeDigest)
    (habout : ∀ e ∈ events, e.subjectId = subjectId ∧ e.ideaId = ideaId) :
    (events.map IdeaEvent.toRow).foldlM (checkRow subjectId ideaId) [] = .ok events := by
  induction events using List.reverseRecOn with
  | nil => rfl
  | append_singleton past e ih =>
    have hpast := ih h.of_concat (fun a ha ↦ hsealed a (List.mem_append_left _ ha))
      fun a ha ↦ habout a (List.mem_append_left _ ha)
    have hmem : e ∈ past ++ [e] := List.mem_append_right _ (List.mem_singleton_self e)
    obtain ⟨rfl, rfl⟩ := habout e hmem
    have hrow := checkRow_toRow (h past e [] rfl) (hsealed e hmem)
    rw [List.map_append, List.map_singleton, List.foldlM_append, hpast, ok_bind, List.foldlM_cons,
      hrow, ok_bind, List.foldlM_nil]
    rfl

/-- **The history of an idea is read back as its events.** -/
theorem history_toRow (h : Admitted Lawful log) (subjectId ideaId : String) :
    history subjectId ideaId (log.map IdeaEvent.toRow) = .ok (ofIdea subjectId ideaId log) := by
  rw [history, select_toRow h]
  refine foldlM_checkRow (admitted_ofIdea h subjectId ideaId) ?_ ?_
  · exact fun e he ↦ sealed_of_mem h (mem_ofIdea.mp he).1
  · exact fun e he ↦ (mem_ofIdea.mp he).2

/-! ## Transactions -/

omit [Hash256] in
theorem insert_eq_ok {e : IdeaEvent} (h : insert e table = .ok table') :
    table' = table ++ [e.toRow] := by
  rw [insert] at h
  obtain ⟨-, h⟩ := guard_eq_ok.mp h
  obtain ⟨-, h⟩ := guard_eq_ok.mp h
  exact pure_eq_ok.mp h

theorem write_eq_ok {db : Connection} {check : Table → Except IdeaError IdeaValue} {e : IdeaEvent}
    (h : write db check table = .ok e table') :
    ∃ value, check table = .ok value ∧ e = value.seal ∧ table' = table ++ [e.toRow] := by
  rw [write, transaction_eq_ok] at h
  obtain ⟨t, t', hget, h⟩ := run_bind_eq_ok.mp h
  obtain ⟨rfl, rfl⟩ := run_get_eq_ok.mp hget
  obtain ⟨-, h⟩ := run_guard_eq_ok.mp h
  obtain ⟨value, _, hlift, h⟩ := run_bind_eq_ok.mp h
  obtain ⟨hcheck, rfl⟩ := run_lift_eq_ok.mp hlift
  obtain ⟨inserted, _, hlift', h⟩ := run_bind_eq_ok.mp h
  obtain ⟨hinsert, rfl⟩ := run_lift_eq_ok.mp hlift'
  obtain ⟨⟨⟩, t', hset, h⟩ := run_bind_eq_ok.mp h
  obtain rfl := run_set_eq_ok.mp hset
  obtain ⟨-, h⟩ := run_guard_eq_ok.mp h
  obtain ⟨rfl, rfl⟩ := run_pure_eq_ok.mp h
  exact ⟨value, hcheck, rfl, insert_eq_ok hinsert⟩

/-- **A call that raises changes nothing.** -/
theorem atomic_exec (c : Call) : Atomic c.exec := by
  cases c with
  | propose db now p =>
    exact atomic_bind (atomic_lift _) (reads_lift _) fun _ ↦ atomic_transaction _
  | append db now a =>
    exact atomic_bind (atomic_lift _) (reads_lift _) fun _ ↦ atomic_transaction _

/-- An event that `propose` may insert. -/
structure IsProposal (value : IdeaValue) : Prop where
  kind : value.eventType = .proposed
  sequence : value.sequence = 1
  revision : value.revision = 1
  budget : 1 ≤ value.maxRevisions
  previous : value.previousDigest = none

omit [Hash256] in
theorem isProposal_of_prepare {p : Proposal} {now : String} {value : IdeaValue}
    (h : p.prepare now = .ok value) : IsProposal value := by
  rw [Proposal.prepare] at h
  obtain ⟨_, -, h⟩ := bind_eq_ok.mp h
  obtain ⟨_, -, h⟩ := bind_eq_ok.mp h
  obtain ⟨_, -, h⟩ := bind_eq_ok.mp h
  obtain ⟨_, -, h⟩ := bind_eq_ok.mp h
  obtain ⟨_, -, h⟩ := bind_eq_ok.mp h
  obtain ⟨_, -, h⟩ := bind_eq_ok.mp h
  obtain ⟨hbudget, h⟩ := guard_eq_ok.mp h
  obtain ⟨_, -, h⟩ := bind_eq_ok.mp h
  obtain rfl := pure_eq_ok.mp h
  refine ⟨rfl, rfl, rfl, ?_, rfl⟩
  have hpositive : 1 ≤ p.maxRevisions := by
    rw [not_not] at hbudget
    exact hbudget.1
  change 1 ≤ p.maxRevisions.toNat
  omega

/-- A proposal that is inserted was checked against the whole log. -/
theorem lawful_of_checkProposal (h : Admitted Lawful log) {value value' : IdeaValue}
    (hvalue : IsProposal value)
    (hcheck : checkProposal value (log.map IdeaEvent.toRow) = .ok value') :
    Lawful log value'.seal := by
  rw [checkProposal, history_toRow h, ok_bind] at hcheck
  obtain ⟨hnew, hcheck⟩ := guard_eq_ok.mp hcheck
  rw [not_not] at hnew
  have hgrows (digest : String) :
      Grows (ofIdea value.subjectId value.ideaId log) ⟨value, digest⟩ := by
    rw [hnew]
    refine ⟨hvalue.sequence, hvalue.previous, fun _ ↦ ?_, ?_, List.forall_mem_nil _,
      List.forall_mem_nil _, ?_⟩
    · exact ⟨hvalue.kind, hvalue.revision, hvalue.budget⟩
    · rintro _ ⟨⟩
    · intro hdisposition
      rw [hvalue.kind] at hdisposition
      exact nomatch hdisposition
  cases hparent : value.parentIdeaId with
  | none =>
    rw [hparent] at hcheck
    obtain rfl := pure_eq_ok.mp hcheck
    refine ⟨hgrows _, ?_, rfl⟩
    intro _ p hp
    exact nomatch hparent.symm.trans hp
  | some parent =>
    rw [hparent] at hcheck
    dsimp only at hcheck
    rw [history_toRow h, ok_bind] at hcheck
    obtain ⟨hthere, hcheck⟩ := guard_eq_ok.mp hcheck
    obtain rfl := pure_eq_ok.mp hcheck
    refine ⟨hgrows _, ?_, rfl⟩
    intro _ p hp
    obtain rfl := Option.some.inj (hparent.symm.trans hp)
    exact hthere

/-! ### Appending -/

omit [Hash256] in
theorem role_eq_of_not_mem {events : List IdeaEvent} {kind : EventType} {actor : String}
    {role role' : EventType.Role} (hroles : ∀ r, r = kind.role ∨ r = role ∨ r = role')
    (hnot : actor ∉ actors role events ++ actors role' events) :
    ∀ a ∈ events, a.actorId = actor → a.eventType.role = kind.role := by
  intro a ha hactor
  rw [List.mem_append, not_or, mem_actors, mem_actors] at hnot
  rcases hroles a.eventType.role with hrole | hrole | hrole
  · exact hrole
  · exact absurd ⟨a, ha, hrole, hactor⟩ hnot.1
  · exact absurd ⟨a, ha, hrole, hactor⟩ hnot.2

/-- What `append` has checked of an event against the past of its idea. -/
structure Passed (r : Request) (events : List IdeaEvent) (previous : IdeaEvent) : Prop where
  reopened : previous.eventType.isDisposition = true → r.eventType = .revised
  roles : ∀ a ∈ events, a.actorId = r.actorId → a.eventType.role = r.eventType.role
  budget : r.eventType = .revised → previous.revision < previous.maxRevisions
  judged : r.eventType.isDisposition = true →
    ∃ c ∈ events, c.eventType = .challenged ∧ c.revision = previous.revision

omit [Hash256] in
theorem passed_of_checkEvent {r : Request} {events : List IdeaEvent} {previous : IdeaEvent}
    (h : checkEvent r events previous = .ok ()) : Passed r events previous := by
  rw [checkEvent] at h
  obtain ⟨hreopened, h⟩ := guard_eq_ok.mp h
  obtain ⟨hchallenger, h⟩ := guard_eq_ok.mp h
  obtain ⟨hreviser, h⟩ := guard_eq_ok.mp h
  obtain ⟨-, h⟩ := guard_eq_ok.mp h
  obtain ⟨hbudget, h⟩ := guard_eq_ok.mp h
  obtain ⟨hjudge, h⟩ := guard_eq_ok.mp h
  have hchallenge := check_eq_ok.mp h
  refine ⟨?_, ?_, ?_, ?_⟩
  · intro hdisposition
    by_contra hne
    exact hreopened ⟨hdisposition, hne⟩
  · -- each kind of event excludes the two roles that are not its own
    have hroles := r.appendable
    cases hkind : r.eventType with
    | proposed => exact absurd hkind hroles
    | challenged =>
      refine role_eq_of_not_mem ?_ fun hmem ↦ hchallenger ⟨hkind, hmem⟩
      intro role
      cases role <;> decide
    | revised =>
      refine role_eq_of_not_mem ?_ fun hmem ↦ hreviser ⟨hkind, hmem⟩
      intro role
      cases role <;> decide
    | adopt | adapt | defer | reject | quarantine =>
      refine role_eq_of_not_mem ?_ fun hmem ↦ hjudge ⟨by rw [hkind]; rfl, hmem⟩
      intro role
      cases role <;> decide
  · intro hrevised
    by_contra hge
    exact hbudget ⟨hrevised, not_lt.mp hge⟩
  · intro hdisposition
    by_contra hnone
    refine hchallenge ⟨hdisposition, ?_⟩
    rw [List.any_eq_true]
    rintro ⟨c, hc, hmatch⟩
    rw [Bool.and_eq_true, beq_iff_eq, beq_iff_eq] at hmatch
    exact hnone ⟨c, hc, hmatch⟩

/-- The fields of the event that follows. -/
structure IsNext (r : Request) (previous : IdeaEvent) (value : IdeaValue) : Prop where
  idea : value.subjectId = previous.subjectId ∧ value.ideaId = previous.ideaId
  sequence : value.sequence = previous.sequence + 1
  revision : value.revision = previous.revision + if r.eventType = .revised then 1 else 0
  kind : value.eventType = r.eventType
  actor : value.actorId = r.actorId
  fixed : value.parentIdeaId = previous.parentIdeaId ∧ value.maxRevisions = previous.maxRevisions
  digest : value.previousDigest = some previous.digest

omit [Hash256] in
theorem isNext_of_nextValue {r : Request} {now : String} {previous : IdeaEvent} {value : IdeaValue}
    (h : nextValue r now previous = .ok value) : IsNext r previous value := by
  rw [nextValue] at h
  obtain ⟨hypothesis, -, h⟩ := bind_eq_ok.mp h
  obtain ⟨source, -, h⟩ := bind_eq_ok.mp h
  obtain rfl := pure_eq_ok.mp h
  exact ⟨⟨rfl, rfl⟩, rfl, rfl, rfl, rfl, ⟨rfl, rfl⟩, rfl⟩

omit [Hash256] in
/-- What was checked makes the event one that may come. -/
theorem grows_of_passed {r : Request} {past : List IdeaEvent} {previous : IdeaEvent}
    {value : IdeaValue} {digest : String} (h : Admitted Grows past)
    (hlast : past.getLast? = some previous) (hpassed : Passed r past previous)
    (hnext : IsNext r previous value) : Grows past ⟨value, digest⟩ where
  sequence := by
    change value.sequence = _
    rw [hnext.sequence, length_of_grows h previous hlast]
  previous := by
    change value.previousDigest = _
    rw [hnext.digest, hlast, Option.map_some]
  first := by
    rintro rfl
    exact nomatch hlast
  next := by
    intro previous' hprevious'
    obtain rfl := Option.some.inj (hlast.symm.trans hprevious')
    refine ⟨?_, ?_, ?_, ?_⟩
    · exact hnext.kind ▸ r.appendable
    · exact hnext.kind ▸ hnext.revision
    · exact hnext.kind ▸ hpassed.budget
    · exact hnext.kind ▸ hpassed.reopened
  fixed := by
    intro a ha
    change a.parentIdeaId = value.parentIdeaId ∧ a.maxRevisions = value.maxRevisions
    have hmem : previous ∈ past := List.mem_of_getLast? hlast
    obtain ⟨first, hfirst⟩ : ∃ first, first ∈ past.head? := by
      cases past with
      | nil => exact nomatch hlast
      | cons first rest => exact ⟨first, rfl⟩
    obtain ⟨hparent, hmax⟩ := fixed_of_grows h first hfirst a ha
    obtain ⟨hparent', hmax'⟩ := fixed_of_grows h first hfirst previous hmem
    rw [hnext.fixed.1, hnext.fixed.2, hparent, hmax, hparent', hmax']
    exact ⟨rfl, rfl⟩
  roles := by
    intro a ha hactor
    change a.eventType.role = value.eventType.role
    rw [hnext.kind]
    exact hpassed.roles a ha (hactor.trans hnext.actor)
  judged := by
    intro hdisposition
    change value.eventType.isDisposition = true at hdisposition
    rw [hnext.kind] at hdisposition
    obtain ⟨c, hc, hchallenged, hrevision⟩ := hpassed.judged hdisposition
    refine ⟨c, hc, hchallenged, ?_⟩
    have hnot : r.eventType ≠ .revised := by
      intro hrevised
      rw [hrevised] at hdisposition
      exact nomatch hdisposition
    change c.revision = value.revision
    rw [hnext.revision, if_neg hnot]
    exact hrevision

/-- An event that is appended was checked against the past of its idea. -/
theorem lawful_of_checkAppend (h : Admitted Lawful log) {r : Request} {now : String}
    {value : IdeaValue} (hcheck : checkAppend r now (log.map IdeaEvent.toRow) = .ok value) :
    Lawful log value.seal := by
  rw [checkAppend, history_toRow h, ok_bind] at hcheck
  cases hlast : (ofIdea r.subjectId r.ideaId log).getLast? with
  | none =>
    rw [hlast] at hcheck
    exact nomatch hcheck
  | some previous =>
    rw [hlast] at hcheck
    dsimp only at hcheck
    obtain ⟨-, hcheck⟩ := guard_eq_ok.mp hcheck
    obtain ⟨⟨⟩, hevent, hvalue⟩ := bind_eq_ok.mp hcheck
    have hnext := isNext_of_nextValue hvalue
    have habout := (mem_ofIdea.mp (List.mem_of_getLast? hlast)).2
    have hsubject : value.subjectId = r.subjectId := hnext.idea.1.trans habout.1
    have hidea : value.ideaId = r.ideaId := hnext.idea.2.trans habout.2
    refine ⟨?_, ?_, rfl⟩
    · change Grows (ofIdea value.subjectId value.ideaId log) _
      rw [hsubject, hidea]
      exact grows_of_passed (admitted_ofIdea h _ _) hlast (passed_of_checkEvent hevent) hnext
    · intro hproposed
      exact absurd (hnext.kind.symm.trans hproposed) r.appendable

/-! ## Runs -/

/-- The table is the rows of a log whose events were checked. -/
def Built (table : Table) : Prop := ∃ log, table = log.map IdeaEvent.toRow ∧ Admitted Lawful log

theorem built_write {db : Connection} {check : Table → Except IdeaError IdeaValue} {e : IdeaEvent}
    (h : Admitted Lawful log)
    (hcheck : ∀ value, check (log.map IdeaEvent.toRow) = .ok value → Lawful log value.seal)
    (hwrite : write db check (log.map IdeaEvent.toRow) = .ok e table') : Built table' := by
  obtain ⟨value, hvalue, rfl, rfl⟩ := write_eq_ok hwrite
  refine ⟨log ++ [value.seal], ?_, h.concat (hcheck value hvalue)⟩
  rw [List.map_append, List.map_singleton]

/-- A call keeps the table the rows of a checked log. -/
theorem Built.after (h : Built table) (c : Call) : Built (c.after table) := by
  rw [Call.after]
  cases hexec : c.exec table with
  | error e t =>
    rw [atomic_exec c table e t hexec]
    exact h
  | ok e t =>
    obtain ⟨log, rfl, hlog⟩ := h
    cases c with
    | propose db now p =>
      obtain ⟨value, _, hlift, hwrite⟩ := run_bind_eq_ok.mp hexec
      obtain ⟨hprepare, rfl⟩ := run_lift_eq_ok.mp hlift
      refine built_write hlog ?_ hwrite
      exact fun _ ↦ lawful_of_checkProposal hlog (isProposal_of_prepare hprepare)
    | append db now a =>
      obtain ⟨request, _, hlift, hwrite⟩ := run_bind_eq_ok.mp hexec
      obtain ⟨-, rfl⟩ := run_lift_eq_ok.mp hlift
      exact built_write hlog (fun _ ↦ lawful_of_checkAppend hlog) hwrite

theorem built_run (calls : List Call) : Built (run calls) := by
  refine List.foldlRecOn calls _ ⟨[], rfl, .nil⟩ ?_
  exact fun table h c _ ↦ h.after c

/-! ## Parents -/

/-- An event of the idea names the other one as its parent. -/
def IsParent (table : Table) (subjectId ideaId parentId : String) : Prop :=
  ∃ events, history subjectId ideaId table = .ok events ∧
    ∃ e ∈ events, e.parentIdeaId = some parentId

def IdeaEvent.key (e : IdeaEvent) : String × String := (e.subjectId, e.ideaId)

/-- The key of the parent, which is in the same subject. -/
def IdeaEvent.parents (e : IdeaEvent) : List (String × String) :=
  e.parentIdeaId.toList.map (e.subjectId, ·)

/-- The proposals of a log. -/
def proposals (log : List IdeaEvent) : List IdeaEvent := log.filter (·.eventType == .proposed)

omit [Hash256] in
theorem mem_proposals {e : IdeaEvent} : e ∈ proposals log ↔ e ∈ log ∧ e.eventType = .proposed := by
  rw [proposals, List.mem_filter, beq_iff_eq]

/-- An idea with events has a proposal. -/
theorem exists_proposal (h : Admitted Lawful log) {subjectId ideaId : String}
    (hthere : ofIdea subjectId ideaId log ≠ []) :
    ∃ first ∈ (ofIdea subjectId ideaId log).head?, first ∈ proposals log ∧ first.sequence = 1 := by
  cases hevents : ofIdea subjectId ideaId log with
  | nil => exact absurd hevents hthere
  | cons first rest =>
    have hgrows := admitted_ofIdea h subjectId ideaId
    rw [hevents] at hgrows
    obtain ⟨hproposed, -, hsequence⟩ := first_of_grows hgrows first rfl
    have hmem : first ∈ ofIdea subjectId ideaId log := by
      rw [hevents]
      exact List.mem_cons_self
    exact ⟨first, rfl, mem_proposals.mpr ⟨(mem_ofIdea.mp hmem).1, hproposed⟩, hsequence⟩

/-- The proposals are new ideas whose parents were proposed before them. -/
theorem checked_proposals (h : Admitted Lawful log) :
    Admitted (Checked IdeaEvent.key IdeaEvent.parents) (proposals log) := by
  refine h.filter ?_
  intro before e hbefore hlawful hproposed
  rw [beq_iff_eq] at hproposed
  constructor
  · intro hmem
    obtain ⟨a, ha, hkey⟩ := List.mem_map.mp hmem
    obtain ⟨hsubject, hidea⟩ := Prod.mk.inj hkey
    have hpast : a ∈ ofIdea e.subjectId e.ideaId before :=
      mem_ofIdea.mpr ⟨(mem_proposals.mp ha).1, hsubject, hidea⟩
    -- an event that comes to others is no proposal
    obtain ⟨last, hlast⟩ : ∃ last, (ofIdea e.subjectId e.ideaId before).getLast? = some last :=
      Option.isSome_iff_exists.mp (by simpa using List.ne_nil_of_mem hpast)
    exact (hlawful.grows.next last hlast).kind hproposed
  · intro k hk
    obtain ⟨p, hp, rfl⟩ := List.mem_map.mp hk
    have hthere := hlawful.parent hproposed p (Option.mem_toList.mp hp)
    obtain ⟨first, hfirst, hmem, -⟩ := exists_proposal hbefore hthere
    obtain ⟨-, hsubject, hidea⟩ := mem_ofIdea.mp (List.mem_of_head? hfirst)
    refine List.mem_map.mpr ⟨first, hmem, ?_⟩
    rw [IdeaEvent.key, hsubject, hidea]

/-- The parent of an idea is the one that its proposal names. -/
theorem keyLinks_of_isParent (h : Admitted Lawful log) {subjectId ideaId parentId : String}
    (hparent : IsParent (log.map IdeaEvent.toRow) subjectId ideaId parentId) :
    KeyLinks IdeaEvent.key IdeaEvent.parents (proposals log) (subjectId, ideaId)
      (subjectId, parentId) := by
  obtain ⟨events, hhistory, e, he, hnamed⟩ := hparent
  rw [history_toRow h] at hhistory
  obtain rfl := Except.ok.inj hhistory
  obtain ⟨first, hfirst, hmem, -⟩ := exists_proposal h (List.ne_nil_of_mem he)
  obtain ⟨-, hsubject, hidea⟩ := mem_ofIdea.mp (List.mem_of_head? hfirst)
  have hsame := (fixed_of_grows (admitted_ofIdea h subjectId ideaId) first hfirst e he).1
  refine ⟨first, hmem, by rw [IdeaEvent.key, hsubject, hidea], ?_⟩
  rw [IdeaEvent.parents, ← hsame, hnamed, hsubject]
  exact List.mem_singleton_self _

/-- What has to hold of the table. -/
structure Sound (table : Table) : Prop where
  histories : ∀ subjectId ideaId, ∃ events,
    history subjectId ideaId table = .ok events ∧ HistorySound events
  parents : ∀ before row after, table = before ++ row :: after →
    ∀ value, IdeaValue.read row.bodyJson = some value → value.eventType = .proposed →
      ∀ p ∈ value.parentIdeaId,
        ∃ earlier ∈ before, earlier.subjectId = row.subjectId ∧ earlier.ideaId = p ∧
          earlier.sequence = 1
  acyclic : ∀ subjectId ideaId,
    ¬Relation.TransGen (IsParent table subjectId) ideaId ideaId

theorem sound_of_built (h : Built table) : Sound table := by
  obtain ⟨log, rfl, hlog⟩ := h
  refine ⟨?_, ?_, ?_⟩
  · intro subjectId ideaId
    exact ⟨ofIdea subjectId ideaId log, history_toRow hlog subjectId ideaId,
      historySound_of_grows (admitted_ofIdea hlog subjectId ideaId)⟩
  · intro before row after heq value hread hproposed p hp
    obtain ⟨front, rest, rfl, rfl, hrest⟩ := List.map_eq_append_iff.mp heq
    obtain ⟨e, back, rfl, rfl, -⟩ := List.map_eq_cons_iff.mp hrest
    obtain rfl := Option.some.inj (e.read_canonical.symm.trans hread)
    have hthere := (hlog front e back rfl).parent hproposed p hp
    obtain ⟨first, hfirst, -, hsequence⟩ := exists_proposal hlog.of_append hthere
    obtain ⟨hmem, hsubject, hidea⟩ := mem_ofIdea.mp (List.mem_of_head? hfirst)
    exact ⟨first.toRow, List.mem_map_of_mem hmem, hsubject, hidea, hsequence⟩
  · intro subjectId ideaId hcycle
    refine (checked_proposals hlog).acyclic_keys (subjectId, ideaId) ?_
    exact hcycle.lift (subjectId, ·) fun _ _ hparent ↦ keyLinks_of_isParent hlog hparent

/-- **The rules of the lineage hold in every table that calls can build, and a call that raises
leaves the table as it was.** -/
theorem lineage_sound (calls : List Call) :
    Sound (run calls) ∧
      ∀ c e table', Call.exec c (run calls) = .error e table' → table' = run calls :=
  ⟨sound_of_built (built_run calls), fun c e table' h ↦ atomic_exec c _ e table' h⟩

end Digests

end HiveMind.Ideas
