import HiveMind.Cohort.Journal
import HiveMind.Kernel.Contracts
import HiveMind.Lib.Interleave

/-!
# Stores that share a journal

Several stores append to the journal of one run. Each of them reads the directory, writes a file that
nobody reads, and links it to the name of the next event, which fails where the name is taken.

* **`journal_linear`**: however the appends are interleaved, the directory can be read by every store,
  the events in it are in an order that is allowed, and they are those of the appends that have
  returned, or are about to.

A store has a lock for its own appends, which only rules runs out and is left out. The directory
remembers in the model, as history, which append has published which event.
-/

open Raise Interleave Proc

namespace HiveMind.Cohort

/-! ## The order of events -/

/-- There is one event of the kind at most. -/
def Once (P : CohortJournalEvent → Prop) (records : List CohortJournalEvent) : Prop :=
  ∀ m n : ℕ, ∀ event event', records[m]? = some event → records[n]? = some event' → P event →
    P event' → m = n

/-- A history of a run. -/
structure WellOrdered (records : List CohortJournalEvent) : Prop where
  /-- every event has its number, and names the event before it -/
  linked : ∀ n event, records[n]? = some event → event.sequence = n + 1 ∧
    event.previousDigest = (records.take n).getLast?.map (·.eventDigest)
  first : ∀ event ∈ records[0]?, event.kind = .kickoff
  kickoff : Once (·.kind = .kickoff) records
  repairAttempt : Once (·.kind = .repairAttempt) records
  repairResult : Once (·.kind = .repairResult) records
  repaired : ∀ n event, records[n]? = some event → event.kind = .repairResult →
    ∃ item ∈ records.take n, item.kind = .repairAttempt
  results : ∀ packageId, Once (·.resultOf? = some packageId) records
  completed : ∀ n event, records[n]? = some event → event.kind = .runCompleted →
    n + 1 = records.length

variable {records : List CohortJournalEvent} {event : CohortJournalEvent}

/-- An event can come next. -/
structure Next (records : List CohortJournalEvent) (event : CohortJournalEvent) : Prop where
  sequence : event.sequence = records.length + 1
  previousDigest : event.previousDigest = records.getLast?.map (·.eventDigest)
  legal : validateTransition records event.kind event.payload = .ok ()

/-- Every event could come next when it did. -/
def Ordered (records : List CohortJournalEvent) : Prop :=
  ∀ n event, records[n]? = some event → Next (records.take n) event

theorem Ordered.concat (h : Ordered records) (hnext : Next records event) :
    Ordered (records ++ [event]) := by
  intro n event' hevent
  rcases Nat.lt_or_ge n records.length with hlt | hge
  · rw [List.getElem?_append_left hlt] at hevent
    rw [List.take_append_of_le_length hlt.le]
    exact h n event' hevent
  · have hlength := (List.getElem?_eq_some_iff.mp hevent).1
    rw [List.length_append, List.length_singleton] at hlength
    obtain rfl : n = records.length := by omega
    rw [List.getElem?_concat_length] at hevent
    obtain rfl := Option.some.inj hevent
    rw [List.take_left]
    exact hnext

/-- What is said about an event that is not the first. -/
structure Legal (records : List CohortJournalEvent) (event : CohortJournalEvent) : Prop where
  kickoff : event.kind ≠ .kickoff
  completed : ∀ last ∈ records.getLast?, last.kind ≠ .runCompleted
  repairAttempt : event.kind = .repairAttempt → ∀ item ∈ records, item.kind ≠ .repairAttempt
  repaired : event.kind = .repairResult → ∃ item ∈ records, item.kind = .repairAttempt
  repairResult : event.kind = .repairResult → ∀ item ∈ records, item.kind ≠ .repairResult
  results : ∀ packageId, event.resultOf? = some packageId →
    ∀ item ∈ records, item.resultOf? ≠ some packageId

theorem Next.legal_of_ne_nil (h : Next records event) (hne : records ≠ []) :
    Legal records event := by
  have hlegal := h.legal
  obtain ⟨last, hlast⟩ := Option.ne_none_iff_exists'.mp (List.getLast?_eq_none_iff.not.mpr hne)
  simp only [validateTransition, hlast, guard_eq_ok] at hlegal
  obtain ⟨hkickoff, hcompleted, -, hattempt, hrepaired, hrepair, hlegal⟩ := hlegal
  refine ⟨hkickoff, ?_, ?_, ?_, ?_, ?_⟩
  · intro last' hlast'
    obtain rfl := Option.some.inj (hlast.symm.trans hlast')
    exact hcompleted
  · exact fun hkind item hitem heq ↦ hattempt ⟨hkind, item, hitem, heq⟩
  · intro hkind
    by_contra hnone
    exact hrepaired ⟨hkind, hnone⟩
  · exact fun hkind item hitem heq ↦ hrepair ⟨hkind, item, hitem, heq⟩
  · intro packageId hresult item hitem heq
    rw [CohortJournalEvent.resultOf?] at hresult
    split at hresult
    · next hkind =>
      rw [if_pos hkind, hresult] at hlegal
      obtain ⟨-, hlegal⟩ := guard_eq_ok.mp hlegal
      rw [if_pos ⟨item, hitem, heq⟩] at hlegal
      exact nomatch hlegal
    · exact nomatch hresult

/-- Events that exclude earlier ones of their kind. -/
theorem once_of_excludes {P : CohortJournalEvent → Prop}
    (hexcludes : ∀ n event, records[n]? = some event → n ≠ 0 → P event →
      ∀ item ∈ records.take n, ¬P item) : Once P records := by
  have hle : ∀ m n : ℕ, ∀ event event', records[m]? = some event → records[n]? = some event' →
      P event → P event' → n ≤ m := by
    intro m n event event' hm hn hP hP'
    by_contra hlt
    rw [not_le] at hlt
    refine hexcludes n event' hn (by omega) hP' event ?_ hP
    exact List.mem_of_getElem? ((List.getElem?_take_of_lt hlt).trans hm)
  intro m n event event' hm hn hP hP'
  exact le_antisymm (hle n m event' event hn hm hP' hP) (hle m n event event' hm hn hP hP')

/-- **The rules for single events make a history of a run.** -/
theorem Ordered.wellOrdered (h : Ordered records) : WellOrdered records := by
  have hlegal : ∀ n event, records[n]? = some event → n ≠ 0 → Legal (records.take n) event := by
    intro n event hevent hn
    have hlength := (List.getElem?_eq_some_iff.mp hevent).1
    refine (h n event hevent).legal_of_ne_nil fun hnil ↦ ?_
    rw [List.take_eq_nil_iff] at hnil
    rcases hnil with hzero | hnil
    · exact hn hzero
    · rw [hnil] at hlength
      exact absurd hlength (Nat.not_lt_zero n)
  refine ⟨?_, ?_, ?_, ?_, ?_, ?_, ?_, ?_⟩
  · intro n event hevent
    have hlength := (List.getElem?_eq_some_iff.mp hevent).1
    have hsequence := (h n event hevent).sequence
    rw [List.length_take_of_le hlength.le] at hsequence
    exact ⟨hsequence, (h n event hevent).previousDigest⟩
  · intro event hevent
    have hkickoff := (h 0 event hevent).legal
    simp only [List.take_zero, validateTransition, List.getLast?_nil, guard_eq_ok,
      not_not] at hkickoff
    exact hkickoff.1
  · exact once_of_excludes fun n event hevent hn hkind ↦ absurd hkind (hlegal n event hevent hn).kickoff
  · exact once_of_excludes fun n event hevent hn ↦ (hlegal n event hevent hn).repairAttempt
  · exact once_of_excludes fun n event hevent hn ↦ (hlegal n event hevent hn).repairResult
  · intro n event hevent hkind
    have hn : n ≠ 0 := by
      rintro rfl
      have hkickoff := (h 0 event hevent).legal
      rw [hkind] at hkickoff
      exact nomatch hkickoff
    exact (hlegal n event hevent hn).repaired hkind
  · exact fun packageId ↦ once_of_excludes fun n event hevent hn ↦ (hlegal n event hevent hn).results packageId
  · intro n event hevent hkind
    have hlength := (List.getElem?_eq_some_iff.mp hevent).1
    by_contra hlast
    obtain ⟨next, hnext⟩ : ∃ next, records[n + 1]? = some next :=
      ⟨_, List.getElem?_eq_getElem (by omega)⟩
    refine (hlegal (n + 1) next hnext n.succ_ne_zero).completed event ?_ hkind
    rw [List.getLast?_take, if_neg n.succ_ne_zero, Nat.add_sub_cancel, hevent]
    rfl

/-- What is read back is in order. -/
theorem next_of_readEvent [Hash256] {runId : String} {file : String × String}
    {records' : List CohortJournalEvent} (h : readEvent runId records file = .ok records') :
    ∃ event, records' = records ++ [event] ∧ Next records event := by
  simp only [readEvent, bind_eq_ok, guard_eq_ok, pure_eq_ok] at h
  obtain ⟨_, -, -, payload, -, recordedAt, -, -, kind, -, _, hlegal, h⟩ := h
  exact ⟨_, h, rfl, rfl, hlegal⟩

theorem ordered_of_foldlM [Hash256] {runId : String} {files : List (String × String)}
    {records' : List CohortJournalEvent} (hordered : Ordered records)
    (h : files.foldlM (readEvent runId) records = .ok records') : Ordered records' := by
  induction files generalizing records with
  | nil =>
    obtain rfl := Trace.foldlM_nil_eq_ok.mp h
    exact hordered
  | cons file files ih =>
    obtain ⟨next, hread, hrest⟩ := Trace.foldlM_cons_eq_ok.mp h
    obtain ⟨event, rfl, hnext⟩ := next_of_readEvent hread
    exact ih (hordered.concat hnext) hrest

theorem Holds.wellOrdered [Hash256] {runId : String} {journal : RunJournal}
    (h : Holds runId journal records) : WellOrdered records :=
  (ordered_of_foldlM (fun n event hevent ↦ absurd hevent (by simp)) h.replays).wellOrdered

/-! ## A directory that is shared -/

/-- The directory of a run, and what its stores remember. -/
structure SharedJournal where
  files : List (String × String)
  /-- the temporary file of an append -/
  temporaries : ℕ → Option String
  seen : ℕ → Option (ℕ × String)
  published : List (ℕ × CohortJournalEvent)

inductive StoreStep where
  | read
  | write
  | link
  | unlink
  | remember

inductive StoreQuery where
  /-- the text of the time, which is not empty -/
  | clock
  /-- whether the operating system does what it is asked for -/
  | succeeds

@[reducible] def StoreQuery.Answer : StoreQuery → Type
  | clock => { text : String // text ≠ "" }
  | succeeds => Bool

abbrev StoreM := Proc RunError SharedJournal StoreStep StoreQuery StoreQuery.Answer

namespace SharedJournal

/-- What a store has of the journal. -/
def journal (s : SharedJournal) (store : ℕ) : RunJournal := ⟨s.files, s.seen store⟩

/-- `_read`. -/
def read [Hash256] (runId : String) (store : ℕ) :
    EStateM RunError SharedJournal (List CohortJournalEvent) := do
  let s ← get
  match (s.journal store).read runId with
  | .error e => throw e
  | .ok (records, journal) =>
    set { s with seen := Function.update s.seen store journal.seen }
    return records

def write (author : ℕ) (text : String) : EStateM RunError SharedJournal Unit := do
  modify fun s ↦ { s with temporaries := Function.update s.temporaries author (some text) }

/-- `os.link`, which fails where the name is taken. -/
def link (author : ℕ) (event : CohortJournalEvent) : EStateM RunError SharedJournal Bool := do
  let s ← get
  match s.temporaries author with
  | none => return false
  | some text =>
    if eventName event.sequence ∈ s.files.map Prod.fst then
      return false
    set { s with
      files := s.files ++ [(eventName event.sequence, text)]
      published := s.published ++ [(author, event)] }
    return true

def unlink (author : ℕ) : EStateM RunError SharedJournal Unit := do
  modify fun s ↦ { s with temporaries := Function.update s.temporaries author none }

def remember (store : ℕ) (event : CohortJournalEvent) : EStateM RunError SharedJournal Unit := do
  modify fun s ↦ { s with
    seen := Function.update s.seen store (some (event.sequence, event.eventDigest)) }

end SharedJournal

section Stores

variable [Hash256]

/-- What `append` does with the temporary file when the link was tried. -/
def FileCohortJournalStore.finish (author store : ℕ) (event : CohortJournalEvent) (linked : Bool) :
    StoreM CohortJournalEvent := do
  transact .unlink (SharedJournal.unlink author)
  if !linked then
    raise (.journal "cohort journal append failed")
  transact .remember (SharedJournal.remember store event)
  return event

def FileCohortJournalStore.append (runId : String) (author store : ℕ) (entry : Entry) :
    StoreM CohortJournalEvent := do
  if !isRequired runId then
    raise (.journal "cohort run id must be nonempty")
  let payload ← lift ((PyValue.reread entry.payload).mapError fun _ ↦
    .journal "journal payload must be canonical JSON")
  let records ← transact .read (SharedJournal.read runId store)
  lift (validateTransition records entry.kind payload)
  let recordedAt : { text : String // text ≠ "" } ← ask StoreQuery.clock
  let event := appendedEvent runId recordedAt.1 records entry.kind payload
  if !(← ask .succeeds) then
    raise (.journal "cohort journal append failed")
  transact .write (SharedJournal.write author ((eventDocument event).dumps ++ "\n"))
  if ← ask .succeeds then
    finish author store event (← transact .link (SharedJournal.link author event))
  else
    finish author store event false

/-! ## Appends -/

section Appends

/-- The directory when it is first shared: every store can read the records in it. -/
structure SharedOpened (runId : String) (s : SharedJournal) (start : List CohortJournalEvent) :
    Prop where
  published : s.published = []
  holds : ∀ store, Holds runId (s.journal store) start

/-- The records that were there, and those that were published since. -/
def SharedJournal.history (start : List CohortJournalEvent) (s : SharedJournal) :
    List CohortJournalEvent :=
  start ++ s.published.map Prod.snd

structure SharedInv (runId : String) (start : List CohortJournalEvent) (s : SharedJournal) :
    Prop where
  holds : ∀ store, Holds runId (s.journal store) (s.history start)
  authors : (s.published.map Prod.fst).Nodup

/-- There is room for another event. -/
def HasRoom : StoreStep → SharedJournal → Prop
  | .link, s => s.files.length + 1 < 10 ^ 8
  | _, _ => True

instance : ∀ step s, Decidable (HasRoom step s)
  | .link, s => inferInstanceAs (Decidable (s.files.length + 1 < 10 ^ 8))
  | .read, _ => isTrue trivial
  | .write, _ => isTrue trivial
  | .unlink, _ => isTrue trivial
  | .remember, _ => isTrue trivial

/-- What an append may count on. -/
structure Respects (author : ℕ) (s t : SharedJournal) : Prop where
  temporary : t.temporaries author = s.temporaries author
  published : s.published <+: t.published
  author : ∀ event, (author, event) ∈ t.published → (author, event) ∈ s.published

/-- An append has published its event if it returned, and nothing if it raised. -/
def Published (author : ℕ) : Except RunError CohortJournalEvent → SharedJournal → Prop
  | .ok event, s => (author, event) ∈ s.published
  | .error _, s => ∀ event, (author, event) ∉ s.published

abbrev Appends {α : Type} (runId : String) (start : List CohortJournalEvent) (author : ℕ)
    (p : StoreM α) (s : SharedJournal) (Post : Except RunError α → SharedJournal → Prop) : Prop :=
  Guarantees HasRoom (SharedInv runId start) (Respects author)
    (fun s t ↦ ∀ other, other ≠ author → Respects other s t) p s Post

variable {runId : String} {start : List CohortJournalEvent} {author store : ℕ}
  {s t u : SharedJournal} {event : CohortJournalEvent} {records : List CohortJournalEvent}

omit [Hash256] in
theorem Respects.refl (author : ℕ) (s : SharedJournal) : Respects author s s :=
  ⟨rfl, List.prefix_refl _, fun _ h ↦ h⟩

omit [Hash256] in
theorem Respects.trans (h : Respects author s t) (h' : Respects author t u) :
    Respects author s u :=
  ⟨h'.temporary.trans h.temporary, h.published.trans h'.published,
    fun event hevent ↦ h.author event (h'.author event hevent)⟩

omit [Hash256] in
theorem history_of_published (h : s.published <+: t.published) :
    s.history start <+: t.history start := by
  obtain ⟨more, hmore⟩ := h
  refine ⟨more.map Prod.snd, ?_⟩
  rw [SharedJournal.history, SharedJournal.history, ← hmore, List.map_append, List.append_assoc]

omit [Hash256] in
theorem Respects.history (h : Respects author s t) : s.history start <+: t.history start :=
  history_of_published h.published

omit [Hash256] in
theorem Published.of_respects {r : Except RunError CohortJournalEvent} (h : Published author r s)
    (hst : Respects author s t) : Published author r t := by
  cases r with
  | ok event => exact hst.published.subset h
  | error e => exact fun event hevent ↦ h event (hst.author event hevent)

theorem SharedOpened.sharedInv (h : SharedOpened runId s start) : SharedInv runId start s := by
  have hrecords : s.history start = start := by
    rw [SharedJournal.history, h.published, List.map_nil, List.append_nil]
  refine ⟨fun store ↦ ?_, ?_⟩
  · rw [hrecords]
    exact h.holds store
  · rw [h.published]
    exact List.nodup_nil

omit [Hash256] in
/-- What was observed is still there when events were added. -/
theorem Unchanged.of_prefix {seen : Option (ℕ × String)} {records' : List CohortJournalEvent}
    (h : Unchanged seen records) (hinit : records <+: records') : Unchanged seen records' := by
  obtain ⟨more, rfl⟩ := hinit
  intro countDigest hseen
  have hsome := h countDigest hseen
  obtain ⟨event, hevent, -⟩ := Option.map_eq_some_iff.mp hsome
  rw [List.getElem?_append_left (List.getElem?_eq_some_iff.mp hevent).1]
  exact hsome

/-- A store remembers something else that is there. -/
theorem SharedInv.see (h : SharedInv runId start s) {seen : Option (ℕ × String)}
    (hseen : Unchanged seen (s.history start)) :
    SharedInv runId start { s with seen := Function.update s.seen store seen } := by
  refine ⟨fun other ↦ ⟨(h.holds other).few, (h.holds other).replays, ?_⟩, h.authors⟩
  change Unchanged (Function.update s.seen store seen other) _
  by_cases heq : other = store
  · rw [heq, Function.update_self]
    exact hseen
  · rw [Function.update_of_ne heq]
    exact (h.holds other).unchanged

omit [Hash256] in
theorem SharedJournal.history_publish {files : List (String × String)} :
    SharedJournal.history start
      { s with files := files, published := s.published ++ [(author, event)] } =
      s.history start ++ [event] := by
  rw [SharedJournal.history, SharedJournal.history, List.map_append, ← List.append_assoc]
  rfl

/-- The next event is linked. -/
theorem SharedInv.publish (h : SharedInv runId start s)
    (hauthor : ∀ event, (author, event) ∉ s.published) {recordedAt : String}
    {kind : CohortJournalEventKind} {payload : Json.Dict} (hsorted : payload.toJson.Sorted)
    (hrecordedAt : recordedAt ≠ "")
    (hlegal : validateTransition (s.history start) kind payload = .ok ())
    (hroom : s.files.length + 1 < 10 ^ 8)
    (hevent : event = appendedEvent runId recordedAt (s.history start) kind payload) :
    SharedInv runId start { s with
      files := s.files ++ [(eventName event.sequence, (eventDocument event).dumps ++ "\n")]
      published := s.published ++ [(author, event)] } := by
  subst hevent
  have hpublish := fun store ↦
    ((h.holds store).publish hsorted hrecordedAt hlegal hroom).2
  refine ⟨fun store ↦ ⟨(hpublish store).few, ?_, ?_⟩, ?_⟩
  · rw [SharedJournal.history_publish]
    exact (hpublish store).replays
  · rw [SharedJournal.history_publish]
    exact (h.holds store).unchanged.of_prefix (List.prefix_append _ _)
  · rw [List.map_append, List.nodup_append]
    refine ⟨h.authors, List.nodup_singleton _, ?_⟩
    intro other hother author' hauthor'
    obtain rfl := List.mem_singleton.mp hauthor'
    rintro rfl
    obtain ⟨⟨_, event⟩, hevent, rfl⟩ := List.mem_map.mp hother
    exact hauthor event hevent

/-- A name that is free is that of the next event. -/
theorem SharedInv.eq_history (h : SharedInv runId start s) (hinit : records <+: s.history start)
    (hfree : eventName (records.length + 1) ∉ s.files.map Prod.fst) :
    records = s.history start := by
  have hholds := h.holds 0
  refine hinit.eq_of_length (le_antisymm hinit.length_le ?_)
  by_contra hlt
  rw [not_le, hholds.length_eq] at hlt
  refine hfree ?_
  have hname : eventName (records.length + 1) ∈
      (Numbered.sort (s.journal 0).files).map Prod.fst := by
    rw [hholds.consecutive, Numbered.length_sort]
    exact List.mem_map.mpr ⟨records.length, List.mem_range.mpr hlt, rfl⟩
  obtain ⟨file, hfile, heq⟩ := List.mem_map.mp hname
  exact List.mem_map.mpr ⟨file, Numbered.mem_sort.mp hfile, heq⟩

/-! ### Steps -/

omit [Hash256] in
/-- A step that only changes what its own append or a store knows. -/
theorem respects_of_published_eq {other : ℕ} (htemporary : t.temporaries other = s.temporaries other)
    (hpublished : t.published = s.published) : Respects other s t := by
  refine ⟨htemporary, ?_, ?_⟩
  · exact hpublished ▸ List.prefix_refl _
  · exact fun _ h ↦ hpublished ▸ h

theorem appends_read {Post : Except RunError (List CohortJournalEvent) → SharedJournal → Prop}
    (h : ∀ t, Respects author s t → Post (.ok (t.history start)) t) :
    Appends runId start author (transact .read (SharedJournal.read runId store)) s Post := by
  refine guarantees_transact fun t hst ht _ ↦ ?_
  let t' : SharedJournal := { t with
    seen := Function.update t.seen store (remember (t.seen store) (t.history start)) }
  have hread : SharedJournal.read runId store t = .ok (t.history start) t' := by
    change (match (t.journal store).read runId with
      | .error e => _
      | .ok (records, journal) => do
        set { t with seen := Function.update t.seen store journal.seen }
        pure records : EStateM _ _ _) t = _
    rw [(ht.holds store).read]
    rfl
  have hsee : SharedInv runId start t' := ht.see (unchanged_remember (ht.holds store).unchanged)
  rw [hread]
  exact ⟨hsee, fun other _ ↦ respects_of_published_eq rfl rfl,
    h t' (hst.trans (respects_of_published_eq rfl rfl))⟩

/-- The temporary file is there until the append removes it. -/
theorem appends_write {text : String} {Post : Except RunError Unit → SharedJournal → Prop}
    (h : ∀ t, s.published <+: t.published →
      (∀ event, (author, event) ∈ t.published → (author, event) ∈ s.published) →
      t.temporaries author = some text → Post (.ok ()) t) :
    Appends runId start author (transact .write (SharedJournal.write author text)) s Post := by
  refine guarantees_transact fun t hst ht _ ↦ ⟨⟨ht.holds, ht.authors⟩, fun other hother ↦ ?_, ?_⟩
  · exact respects_of_published_eq (Function.update_of_ne hother _ _) rfl
  · exact h _ hst.published hst.author (Function.update_self ..)

theorem appends_unlink {Post : Except RunError Unit → SharedJournal → Prop}
    (h : ∀ t, s.published <+: t.published →
      (∀ event, (author, event) ∈ t.published → (author, event) ∈ s.published) → Post (.ok ()) t) :
    Appends runId start author (transact .unlink (SharedJournal.unlink author)) s Post := by
  refine guarantees_transact fun t hst ht _ ↦ ⟨⟨ht.holds, ht.authors⟩, fun other hother ↦ ?_, ?_⟩
  · exact respects_of_published_eq (Function.update_of_ne hother _ _) rfl
  · exact h _ hst.published hst.author

theorem appends_remember {Post : Except RunError Unit → SharedJournal → Prop}
    (hseen : ∀ t, Respects author s t →
      Unchanged (some (event.sequence, event.eventDigest)) (t.history start))
    (h : ∀ t, Respects author s t → Post (.ok ()) t) :
    Appends runId start author (transact .remember (SharedJournal.remember store event)) s Post := by
  refine guarantees_transact fun t hst ht _ ↦ ⟨ht.see (hseen t hst), fun other _ ↦ ?_, ?_⟩
  · exact respects_of_published_eq rfl rfl
  · exact h _ (hst.trans (respects_of_published_eq rfl rfl))

/-- Where the name is free, the event that was made from what was read comes next. -/
theorem appends_link {recordedAt : String} {kind : CohortJournalEventKind} {payload : Json.Dict}
    {Post : Except RunError Bool → SharedJournal → Prop} (hsorted : payload.toJson.Sorted)
    (hrecordedAt : recordedAt ≠ "") (hlegal : validateTransition records kind payload = .ok ())
    (hinit : records <+: s.history start)
    (htext : s.temporaries author = some
      ((eventDocument (appendedEvent runId recordedAt records kind payload)).dumps ++ "\n"))
    (hauthor : ∀ event, (author, event) ∉ s.published)
    (hfree : ∀ t, t.history start = records ++
        [appendedEvent runId recordedAt records kind payload] →
      (author, appendedEvent runId recordedAt records kind payload) ∈ t.published →
      Post (.ok true) t)
    (htaken : ∀ t, Respects author s t → Post (.ok false) t) :
    Appends runId start author (transact .link (SharedJournal.link author
      (appendedEvent runId recordedAt records kind payload))) s Post := by
  refine guarantees_transact fun t hst ht hroom ↦ ?_
  let event := appendedEvent runId recordedAt records kind payload
  have htemporary := hst.temporary.trans htext
  have hsome : SharedJournal.link author event t =
      (if eventName event.sequence ∈ t.files.map Prod.fst then pure false else do
        set { t with
          files := t.files ++ [(eventName event.sequence, (eventDocument event).dumps ++ "\n")]
          published := t.published ++ [(author, event)] }
        pure true : EStateM RunError SharedJournal Bool) t := by
    change (match t.temporaries author with | none => _ | some text => _ : EStateM _ _ _) t = _
    rw [htemporary]
  by_cases hname : eventName event.sequence ∈ t.files.map Prod.fst
  · have hlink : SharedJournal.link author event t = .ok false t := by
      rw [hsome, if_pos hname]
      rfl
    rw [hlink]
    exact ⟨ht, fun other _ ↦ Respects.refl other t, htaken t hst⟩
  · have hlink : SharedJournal.link author event t = .ok true { t with
        files := t.files ++ [(eventName event.sequence, (eventDocument event).dumps ++ "\n")]
        published := t.published ++ [(author, event)] } := by
      rw [hsome, if_neg hname]
      rfl
    have heq := ht.eq_history (hinit.trans hst.history) hname
    have hnot : ∀ event, (author, event) ∉ t.published :=
      fun event hevent ↦ hauthor event (hst.author event hevent)
    rw [hlink]
    subst heq
    refine ⟨ht.publish hnot hsorted hrecordedAt hlegal hroom rfl, fun other hother ↦ ?_,
      hfree _ SharedJournal.history_publish (List.mem_append_right _ (List.mem_singleton_self _))⟩
    refine ⟨rfl, List.prefix_append _ _, fun event' hevent' ↦ ?_⟩
    rcases List.mem_append.mp hevent' with hevent' | hevent'
    · exact hevent'
    · obtain ⟨rfl, -⟩ := Prod.mk.inj (List.mem_singleton.mp hevent')
      exact absurd rfl hother

theorem appends_finish_false (hauthor : ∀ event, (author, event) ∉ s.published) :
    Appends runId start author (FileCohortJournalStore.finish author store event false) s
      (Published author) := by
  refine guarantees_bind (appends_unlink fun t _ hours event' hevent' ↦ ?_)
  exact hauthor event' (hours event' hevent')

theorem appends_finish_true (hhistory : s.history start = records ++ [event])
    (hsequence : event.sequence = records.length + 1) (hevent : (author, event) ∈ s.published) :
    Appends runId start author (FileCohortJournalStore.finish author store event true) s
      (Published author) := by
  refine guarantees_bind (appends_unlink fun t hpublished _ ↦ ?_)
  refine guarantees_bind (appends_remember (fun u htu ↦ ?_) fun u htu ↦ ?_)
  · have hinit : s.history start <+: u.history start :=
      (history_of_published hpublished).trans htu.history
    rw [hhistory] at hinit
    refine Unchanged.of_prefix ?_ hinit
    intro countDigest hseen
    obtain rfl := Option.mem_some_iff.mp hseen
    rw [hsequence, Nat.add_sub_cancel, List.getElem?_concat_length]
    rfl
  · exact htu.published.subset (hpublished.subset hevent)

/-- An append publishes the event it returns, and nothing if it raises. -/
theorem appends_append {entry : Entry} (hauthor : ∀ event, (author, event) ∉ s.published) :
    Appends runId start author (FileCohortJournalStore.append runId author store entry) s
      (Published author) := by
  refine guarantees_guard_bind (fun _ ↦ hauthor) fun _ ↦ guarantees_bind ?_
  cases hreread : PyValue.reread entry.payload with
  | error e => exact hauthor
  | ok payload =>
    refine guarantees_bind (appends_read fun t hst ↦ ?_)
    have hnot : ∀ u, Respects author t u → ∀ event, (author, event) ∉ u.published :=
      fun u htu event hevent ↦ hauthor event ((hst.trans htu).author event hevent)
    refine guarantees_bind ?_
    cases hlegal : validateTransition (t.history start) entry.kind payload with
    | error e => exact hnot t (.refl author t)
    | ok _ =>
      refine guarantees_bind fun recordedAt ↦ guarantees_bind fun succeeds ↦ ?_
      refine guarantees_guard_bind (fun _ ↦ hnot t (.refl author t)) fun _ ↦ ?_
      refine guarantees_bind (appends_write fun u hpublished hours htext ↦ ?_)
      have hnot' : ∀ v, Respects author u v → ∀ event, (author, event) ∉ v.published :=
        fun v huv event hevent ↦ hnot t (.refl author t) event (hours event (huv.author event hevent))
      refine guarantees_bind fun allowed ↦ ?_
      change Appends runId start author (if allowed = true then _ else _) u (Published author)
      by_cases hallowed : allowed = true
      · rw [if_pos hallowed]
        refine guarantees_bind (appends_link (PyValue.sorted_of_reread hreread) recordedAt.2 hlegal
          ?_ htext (hnot' u (.refl author u)) (fun v hhistory hmem ↦ ?_) fun v huv ↦ ?_)
        · exact history_of_published hpublished
        · exact appends_finish_true hhistory rfl hmem
        · exact appends_finish_false (hnot' v huv)
      · rw [if_neg hallowed]
        exact appends_finish_false (hnot' u (.refl author u))

/-! ### Runs -/

/-- Any number of appends, with their stores, none of which has begun. -/
def appending (runId : String) (s : SharedJournal) (appends : List (ℕ × Entry)) :
    Config RunError SharedJournal StoreStep StoreQuery StoreQuery.Answer CohortJournalEvent :=
  ⟨s, appends.mapIdx fun author call ↦
    FileCohortJournalStore.append runId author call.1 call.2, []⟩

/-- The journal is one history, of which every append has published its part. -/
structure Linear (runId : String) (start : List CohortJournalEvent)
    (c : Config RunError SharedJournal StoreStep StoreQuery StoreQuery.Answer CohortJournalEvent) :
    Prop where
  replays : ∀ store, ∃ journal,
    (c.shared.journal store).read runId = .ok (c.shared.history start, journal)
  wellOrdered : WellOrdered (c.shared.history start)
  authors : (c.shared.published.map Prod.fst).Nodup
  outcomes : ∀ author r, c.procs[author]? = some (.done r) → Published author r c.shared

/-- **However appends to a journal are interleaved, it remains one history that can be read, and the
appends that return have published one event each.** -/
theorem journal_linear {appends : List (ℕ × Entry)}
    {c : Config RunError SharedJournal StoreStep StoreQuery StoreQuery.Answer CohortJournalEvent}
    (hopened : SharedOpened runId s start)
    (h : Config.Reaches HasRoom (appending runId s appends) c) : Linear runId start c := by
  have hstable : ∀ author r s t, Published author r s → Respects author s t →
      Published author r t := fun _ _ _ _ hr ↦ hr.of_respects
  have hprocs : ∀ author p, (appending runId s appends).procs[author]? = some p →
      Appends runId start author p s (Published author) := by
    intro author p hp
    rw [appending, List.getElem?_mapIdx, Option.map_eq_some_iff] at hp
    obtain ⟨call, -, rfl⟩ := hp
    refine appends_append fun event hevent ↦ ?_
    rw [hopened.published] at hevent
    exact absurd hevent List.not_mem_nil
  obtain ⟨hinv, hprocs⟩ := guarantees_of_reaches Respects.refl (fun _ _ _ _ ↦ Respects.trans)
    hstable hopened.sharedInv hprocs h
  exact ⟨fun store ↦ ⟨_, (hinv.holds store).read⟩, (hinv.holds 0).wellOrdered, hinv.authors,
    fun author r hr ↦ hprocs author (.done r) hr⟩

end Appends

end Stores

/-- A run without a directory. -/
def emptyJournal : SharedJournal := ⟨[], fun _ ↦ none, fun _ ↦ none, []⟩

/-- Everything that is asked for is done. -/
def prompt : ∀ query : StoreQuery, query.Answer
  | .clock => ⟨"2026-01-01T00:00:00+00:00", by decide⟩
  | .succeeds => true

/-- Two stores both append a kickoff. -/
def twoKickoffs : Config RunError SharedJournal StoreStep StoreQuery StoreQuery.Answer
    CohortJournalEvent :=
  appending "run" emptyJournal [(0, ⟨.kickoff, []⟩), (1, ⟨.kickoff, []⟩)]

/-- Both of them have read the directory before one of them links its event. -/
def kickoffsSchedule : List ℕ := [0, 1] ++ List.replicate 8 0 ++ List.replicate 8 1

theorem journal_linear_kickoffs :
    Linear "run" [] (kickoffsSchedule.foldl (Config.turn prompt) twoKickoffs) :=
  journal_linear ⟨rfl, fun _ ↦ Holds.empty⟩
    (Config.reaches_schedule prompt (show twoKickoffs.Admitted prompt HasRoom kickoffsSchedule by
      decide))

end HiveMind.Cohort
