import HiveMind.Host.Journal

/-!
# Usage of the host

The usage of a journal is the sum over its operations of the usage that the latest outcome of each
states. A recoverable outcome counts until another one is adopted in its place. What is adopted has
used no time and read nothing, so an adoption takes back what the recoverable outcome had stated.

* **`usage_balanced`**: what is reported and what was taken back are together what was recorded.
-/

open Raise Dicts

namespace HiveMind.Host

/-! ## The report -/

/-- `HostUsage(0, 0, 0)` with the tokens that are counted from none. -/
def HostUsage.zero : HostUsage := ⟨0, 0, 0, some 0, some 0⟩

/-- Two amounts of tokens, of which either may be unavailable. -/
def addTokens : Option ℕ → Option ℕ → Option ℕ
  | some total, some tokens => some (total + tokens)
  | _, _ => none

def HostUsage.add (total usage : HostUsage) : HostUsage where
  wallMilliseconds := total.wallMilliseconds + usage.wallMilliseconds
  inputBytes := total.inputBytes + usage.inputBytes
  outputBytes := total.outputBytes + usage.outputBytes
  modelInputTokens := addTokens total.modelInputTokens usage.modelInputTokens
  modelOutputTokens := addTokens total.modelOutputTokens usage.modelOutputTokens

/-- The operations that were counted, and their usage. -/
structure Tally where
  seen : List String
  total : HostUsage

/-- The round of the loop of `usage` for an event. -/
def tally (journal : Journal) (t : Tally) (record : HostOperationRecord) :
    Except HostError Tally := do
  if record.idempotencyKey ∈ t.seen ∨ record.usage = none then
    return t
  let final ← journal.latest record.idempotencyKey
  match final.bind (·.usage) with
  | none => return t
  | some usage => return ⟨t.seen ++ [record.idempotencyKey], t.total.add usage⟩

/-- `HostRuntime.usage`. -/
def usage (journal : Journal) : Except HostError HostUsage := do
  return (← journal.events.foldlM (tally journal) ⟨[], .zero⟩).total

/-- The amounts that are reported whatever the host tells of its model. -/
inductive Amount where
  | wallMilliseconds
  | inputBytes
  | outputBytes
  deriving DecidableEq

def HostUsage.amount (usage : HostUsage) : Amount → ℕ
  | .wallMilliseconds => usage.wallMilliseconds
  | .inputBytes => usage.inputBytes
  | .outputBytes => usage.outputBytes

@[simp] theorem amount_add (total usage : HostUsage) (amount : Amount) :
    (total.add usage).amount amount = total.amount amount + usage.amount amount := by
  rcases amount <;> rfl

@[simp] theorem amount_zero (amount : Amount) : HostUsage.zero.amount amount = 0 := by
  rcases amount <;> rfl

/-! ## Sums over events and operations -/

section Sums

variable (journal : Journal) (amount : Amount)

/-- What an event states, nothing where it states no usage. -/
def stated (record : HostOperationRecord) : ℕ := (record.usage.map (·.amount amount)).getD 0

/-- The keys of the operations. -/
def operations : Finset String := (journal.events.map (·.idempotencyKey)).toFinset

/-- What the latest event of an operation states. -/
def statedLast (key : String) : ℕ := ((journal.last? key).map (stated amount)).getD 0

/-- What was recorded. -/
def recorded : ℕ := (journal.events.map (stated amount)).sum

/-- A recoverable outcome in the place of which another one was adopted. -/
def IsReplaced (record : HostOperationRecord) : Prop :=
  record.state = .recoverable ∧ journal.last? record.idempotencyKey ≠ some record

instance : DecidablePred (IsReplaced journal) := fun _ ↦ inferInstanceAs (Decidable (_ ∧ _))

/-- What the recoverable outcomes had stated in the place of which another one was adopted. -/
def replaced : ℕ :=
  (journal.events.map fun record ↦ if IsReplaced journal record then stated amount record else 0).sum

end Sums

/-! ## What is reported -/

section Report

variable {journal : Journal} {amount : Amount} {record : HostOperationRecord} {t t' : Tally}

/-- The key of a record is more than blanks. -/
theorem isRequired_key (record : HostOperationRecord) : isRequired record.idempotencyKey = true := by
  have hvalid := record.valid
  rw [RecordFields.problem?] at hvalid
  by_contra hblank
  rw [if_pos hblank] at hvalid
  cases hvalid

theorem latest_of_mem (hkept : WellKept journal) (h : record ∈ journal.events) :
    journal.latest record.idempotencyKey = .ok (journal.last? record.idempotencyKey) := by
  obtain ⟨row, hrow, hkey⟩ := hkept.canonical record h
  rw [Journal.latest, Journal.history, if_neg (not_not.mpr (isRequired_key record)), hrow,
    Option.map_some, Option.getD_some, hkey]
  rfl

/-- A tally counts each operation once. -/
structure Counts (journal : Journal) (t : Tally) : Prop where
  nodup : t.seen.Nodup
  total : ∀ amount, t.total.amount amount = (t.seen.map (statedLast journal amount)).sum
  known : ∀ key ∈ t.seen, key ∈ operations journal

/-- The event has usage, and so has the latest one of its operation. -/
def IsStated (journal : Journal) (record : HostOperationRecord) : Prop :=
  record.usage ≠ none ∧ (journal.last? record.idempotencyKey).bind (·.usage) ≠ none

/-- A round counts the operation of the event, if it has usage and was not counted. -/
theorem exists_tally (hkept : WellKept journal) (h : record ∈ journal.events) (ht : Counts journal t) :
    ∃ t', tally journal t record = .ok t' ∧ Counts journal t' ∧ t.seen ⊆ t'.seen ∧
      (IsStated journal record → record.idempotencyKey ∈ t'.seen) := by
  rw [tally]
  by_cases hskip : record.idempotencyKey ∈ t.seen ∨ record.usage = none
  · rw [if_pos hskip]
    exact ⟨t, rfl, ht, List.Subset.refl _, fun hstated ↦ hskip.resolve_right hstated.1⟩
  rw [if_neg hskip, latest_of_mem hkept h, ok_bind]
  rcases hlast : (journal.last? record.idempotencyKey).bind (·.usage) with _ | usage
  · exact ⟨t, rfl, ht, List.Subset.refl _, fun hstated ↦ absurd hlast hstated.2⟩
  · obtain ⟨last, hfound, husage⟩ := Option.bind_eq_some_iff.mp hlast
    refine ⟨_, rfl, ⟨?_, fun amount ↦ ?_, fun key hkey ↦ ?_⟩, List.subset_append_left _ _, fun _ ↦ ?_⟩
    · exact List.nodup_append.mpr ⟨ht.nodup, List.nodup_singleton _, fun key hkey _ hnew heq ↦
        hskip (.inl (List.mem_singleton.mp hnew ▸ heq ▸ hkey))⟩
    · rw [amount_add, ht.total, List.map_append, List.sum_append, List.map_singleton, List.sum_singleton,
        statedLast, hfound, Option.map_some, Option.getD_some, stated, husage]
      rfl
    · rcases List.mem_append.mp hkey with hkey | hkey
      · exact ht.known key hkey
      · rw [List.mem_singleton.mp hkey, operations, List.mem_toFinset]
        exact List.mem_map_of_mem h
    · exact List.mem_append_right _ (List.mem_singleton_self _)

theorem exists_tallies {events : List HostOperationRecord} (hkept : WellKept journal)
    (h : events ⊆ journal.events) (ht : Counts journal t) :
    ∃ t', events.foldlM (tally journal) t = .ok t' ∧ Counts journal t' ∧ t.seen ⊆ t'.seen ∧
      ∀ record ∈ events, IsStated journal record → record.idempotencyKey ∈ t'.seen := by
  induction events generalizing t with
  | nil => exact ⟨t, rfl, ht, List.Subset.refl _, fun _ h ↦ absurd h List.not_mem_nil⟩
  | cons record events ih =>
    obtain ⟨hrecord, hevents⟩ := List.cons_subset.mp h
    obtain ⟨mid, hmid, hcounts, hsubset, hseen⟩ := exists_tally hkept hrecord ht
    obtain ⟨t', ht', hcounts', hsubset', hseen'⟩ := ih hevents hcounts
    refine ⟨t', by rw [List.foldlM_cons, hmid, ok_bind, ht'], hcounts',
      fun _ hkey ↦ hsubset' (hsubset hkey), ?_⟩
    rintro other hother hstated
    rcases List.mem_cons.mp hother with rfl | hother
    · exact hsubset' (hseen hstated)
    · exact hseen' other hother hstated

/-- **The usage is the sum over the operations of what their latest outcomes state.** -/
theorem usage_eq_ok (hkept : WellKept journal) : ∃ total, usage journal = .ok total ∧
    ∀ amount, total.amount amount = ∑ key ∈ operations journal, statedLast journal amount key := by
  have hstart : Counts journal ⟨[], .zero⟩ :=
    ⟨List.nodup_nil, amount_zero, fun _ h ↦ absurd h List.not_mem_nil⟩
  obtain ⟨t, ht, hcounts, -, hseen⟩ := exists_tallies hkept (List.Subset.refl _) hstart
  refine ⟨t.total, by rw [usage, ht]; rfl, fun amount ↦ ?_⟩
  rw [hcounts.total, ← List.sum_toFinset _ hcounts.nodup]
  refine Finset.sum_subset (fun key hkey ↦ hcounts.known key (List.mem_toFinset.mp hkey)) ?_
  intro key hkey hnot
  -- An operation that is not counted has no usage.
  rw [statedLast]
  rcases hlast : journal.last? key with _ | last
  · rfl
  · obtain ⟨hmem, rfl⟩ := mem_of_last? hlast
    rcases husage : last.usage with _ | found
    · rw [Option.map_some, Option.getD_some, stated, husage]
      rfl
    · refine absurd (List.mem_toFinset.mpr (hseen last hmem ⟨?_, ?_⟩)) hnot
      · exact fun hnone ↦ nomatch hnone.symm.trans husage
      · rw [hlast, Option.bind_some]
        exact fun hnone ↦ nomatch hnone.symm.trans husage

end Report

/-! ## What is taken back -/

section Balance

variable {journal journal' : Journal} {amount : Amount} {record : HostOperationRecord}

theorem stated_of_intent (h : record.state = .intentRecorded) : stated amount record = 0 := by
  rw [stated, HostOperationRecord.usage_of_intent h]
  rfl

theorem recorded_append (h : journal'.events = journal.events ++ [record]) :
    recorded journal' amount = recorded journal amount + stated amount record := by
  rw [recorded, h, List.map_append, List.sum_append, List.map_singleton, List.sum_singleton, recorded]

/-- What the event before stated is taken back. -/
theorem sum_statedLast_append (h : journal'.events = journal.events ++ [record]) :
    (∑ key ∈ operations journal', statedLast journal' amount key) +
        statedLast journal amount record.idempotencyKey =
      (∑ key ∈ operations journal, statedLast journal amount key) + stated amount record := by
  have hkeys : operations journal' = insert record.idempotencyKey (operations journal) := by
    rw [operations, operations, h, List.map_append, List.toFinset_append, List.map_singleton,
      List.toFinset_cons, List.toFinset_nil, insert_empty_eq, Finset.union_comm,
      Finset.singleton_union]
  have hlast : ∀ key, statedLast journal' amount key =
      if record.idempotencyKey = key then stated amount record else statedLast journal amount key := by
    intro key
    rw [statedLast, last?_append h]
    split
    · rfl
    · rfl
  have hothers : ∀ key ∈ (operations journal).erase record.idempotencyKey,
      statedLast journal' amount key = statedLast journal amount key := by
    intro key hkey
    rw [hlast, if_neg (Ne.symm (Finset.ne_of_mem_erase hkey))]
  rw [hkeys, ← Finset.insert_erase (Finset.mem_insert_self record.idempotencyKey (operations journal)),
    Finset.erase_insert_eq_erase, Finset.sum_insert (Finset.notMem_erase _ _),
    Finset.sum_congr rfl hothers, hlast, if_pos rfl]
  by_cases hmem : record.idempotencyKey ∈ operations journal
  · rw [← Finset.add_sum_erase (operations journal) (fun key ↦ statedLast journal amount key) hmem]
    ring
  · have hnone : journal.last? record.idempotencyKey = none := by
      by_contra hsome
      obtain ⟨last, hfound⟩ := Option.ne_none_iff_exists'.mp hsome
      obtain ⟨hlastMem, hkey⟩ := mem_of_last? hfound
      exact hmem (List.mem_toFinset.mpr (hkey ▸ List.mem_map_of_mem hlastMem))
    rw [Finset.erase_eq_of_notMem hmem, statedLast, hnone]
    simp [add_comm]

/-- An event that is not the latest of its operation is replaced after another event as it was. -/
theorem isReplaced_append_iff (hnew : record ∉ journal.events)
    (h : journal'.events = journal.events ++ [record]) {old : HostOperationRecord}
    (hold : old ∈ journal.events) (hlast : journal.last? record.idempotencyKey ≠ some old) :
    IsReplaced journal' old ↔ IsReplaced journal old := by
  refine and_congr_right fun _ ↦ ?_
  rw [last?_append h]
  by_cases hkey : record.idempotencyKey = old.idempotencyKey
  · rw [if_pos hkey, ← hkey]
    refine iff_of_true (fun heq ↦ hnew ?_) hlast
    rw [Option.some.inj heq]
    exact hold
  · rw [if_neg hkey]

/-- An outcome that replaces a recoverable one adds what that had stated to what is replaced. -/
theorem replaced_append (hkept : WellKept journal) (hcontinues : Continues journal record)
    (h : journal'.events = journal.events ++ [record]) :
    replaced journal' amount =
      replaced journal amount + statedLast journal amount record.idempotencyKey := by
  have hnew : ¬IsReplaced journal' record := fun hreplaced ↦
    hreplaced.2 (by rw [last?_append h, if_pos rfl])
  rw [replaced, h, List.map_append, List.sum_append, List.map_singleton, List.sum_singleton, if_neg hnew,
    add_zero]
  have hnotMem := hkept.notMem hcontinues
  rcases hlast : journal.last? record.idempotencyKey with _ | prior
  · -- A new operation replaces nothing.
    rw [statedLast, hlast, Option.map_none, Option.getD_none, add_zero, replaced]
    refine congrArg List.sum (List.map_congr_left fun old hold ↦ ?_)
    have hne : journal.last? record.idempotencyKey ≠ some old := by
      rw [hlast]
      exact nofun
    simp only [isReplaced_append_iff hnotMem h hold hne]
  · -- The event before is replaced, unless it is an intent, which states nothing.
    obtain ⟨hprior, hkey⟩ := mem_of_last? hlast
    have hbefore : ¬IsReplaced journal prior := fun hreplaced ↦ hreplaced.2 (hkey ▸ hlast)
    have hafter : (if IsReplaced journal' prior then stated amount prior else 0) =
        stated amount prior := by
      rcases (hcontinues.later prior hlast).2.2 with hintent | ⟨hrecoverable, -⟩
      · rw [stated_of_intent hintent, ite_self]
      · refine if_pos ⟨hrecoverable, ?_⟩
        rw [last?_append h, if_pos hkey.symm]
        intro heq
        rw [Option.some.inj heq] at hnotMem
        exact hnotMem hprior
    have hothers : ∀ old ∈ journal.events.erase prior,
        (if IsReplaced journal' old then stated amount old else 0) =
          if IsReplaced journal old then stated amount old else 0 := by
      intro old hold
      have hne : journal.last? record.idempotencyKey ≠ some old := by
        rw [hlast]
        intro heq
        exact (hkept.nodup.mem_erase_iff.mp hold).1 (Option.some.inj heq).symm
      simp only [isReplaced_append_iff hnotMem h (List.mem_of_mem_erase hold) hne]
    rw [statedLast, hlast, Option.map_some, Option.getD_some, replaced,
      ← List.sum_map_erase _ hprior, ← List.sum_map_erase _ hprior, hafter, if_neg hbefore, zero_add,
      List.map_congr_left hothers, add_comm]

/-- What is reported and what was taken back are together what was recorded. -/
def IsBalanced (journal : Journal) (amount : Amount) : Prop :=
  (∑ key ∈ operations journal, statedLast journal amount key) + replaced journal amount =
    recorded journal amount

theorem IsBalanced.append (hbalanced : IsBalanced journal amount) (hkept : WellKept journal)
    (hcontinues : Continues journal record) (h : journal'.events = journal.events ++ [record]) :
    IsBalanced journal' amount := by
  have hsum := @sum_statedLast_append journal journal' amount record h
  rw [IsBalanced] at hbalanced ⊢
  rw [replaced_append hkept hcontinues h, recorded_append h]
  omega

theorem isBalanced_congr (h : journal'.events = journal.events) :
    IsBalanced journal' amount ↔ IsBalanced journal amount := by
  have hlast : ∀ key, statedLast journal' amount key = statedLast journal amount key := fun key ↦ by
    rw [statedLast, last?_congr h, statedLast]
  have hreplaced : ∀ record, IsReplaced journal' record ↔ IsReplaced journal record := fun record ↦ by
    rw [IsReplaced, last?_congr h, IsReplaced]
  simp only [IsBalanced, operations, replaced, recorded, h, hlast, hreplaced]

end Balance

/-! ## Runs -/

section Runs

variable [Hash256] {journal later : Journal} {amount : Amount}

theorem isBalanced_of_steps (hbalanced : IsBalanced journal amount) (hkept : WellKept journal)
    (h : Relation.ReflTransGen Step journal later) : IsBalanced later amount := by
  induction h with
  | refl => exact hbalanced
  | tail hsteps hstep ih =>
    have hmid := hkept.of_steps hsteps
    rcases (events_of_step hstep hmid).2 with hsame | ⟨record, hcontinues, hmore⟩
    · exact (isBalanced_congr hsame).mpr ih
    · exact ih.append hmid hcontinues hmore

/-- What was recorded and what was replaced stay. -/
theorem le_of_steps (hkept : WellKept journal) (h : Relation.ReflTransGen Step journal later) :
    recorded journal amount ≤ recorded later amount ∧
      replaced journal amount ≤ replaced later amount := by
  induction h with
  | refl => exact ⟨le_rfl, le_rfl⟩
  | tail hsteps hstep ih =>
    have hmid := hkept.of_steps hsteps
    rcases (events_of_step hstep hmid).2 with hsame | ⟨record, hcontinues, hmore⟩
    · have hlast : ∀ key, Journal.last? _ key = Journal.last? _ key := fun key ↦ last?_congr hsame
      simp only [recorded, replaced, IsReplaced, hsame, hlast] at ih ⊢
      exact ih
    · rw [recorded_append hmore, replaced_append hmid hcontinues hmore]
      exact ⟨ih.1.trans (Nat.le_add_right _ _), ih.2.trans (Nat.le_add_right _ _)⟩

/-- **The usage is that of the latest outcomes, and along every run it grows by what is recorded, less
what the recoverable outcomes had stated in the place of which others are adopted.** -/
theorem usage_balanced (h : Reachable journal) : ∃ total, usage journal = .ok total ∧
    (∀ amount, total.amount amount = ∑ key ∈ operations journal, statedLast journal amount key) ∧
    (∀ amount, total.amount amount + replaced journal amount = recorded journal amount) ∧
    ∀ later, Relation.ReflTransGen Step journal later → ∃ total', usage later = .ok total' ∧
      ∀ amount, recorded journal amount ≤ recorded later amount ∧
        replaced journal amount ≤ replaced later amount ∧
        total.amount amount + (recorded later amount - recorded journal amount) =
          total'.amount amount + (replaced later amount - replaced journal amount) ∧
        (replaced later amount = replaced journal amount →
          total.amount amount ≤ total'.amount amount) := by
  have hkept := wellKept_of_reachable h
  have hbalanced : ∀ amount, IsBalanced journal amount := fun amount ↦
    isBalanced_of_steps (by rfl) (wellKept_of_reachable .refl) h
  obtain ⟨total, htotal, hsum⟩ := usage_eq_ok hkept
  refine ⟨total, htotal, hsum, fun amount ↦ (hsum amount).symm ▸ hbalanced amount, fun later hsteps ↦ ?_⟩
  obtain ⟨total', htotal', hsum'⟩ := usage_eq_ok (hkept.of_steps hsteps)
  refine ⟨total', htotal', fun amount ↦ ?_⟩
  obtain ⟨hrecorded, hreplaced⟩ := @le_of_steps _ _ _ amount hkept hsteps
  have hbefore := hbalanced amount
  have hafter := isBalanced_of_steps (hbalanced amount) hkept hsteps
  rw [IsBalanced, ← hsum] at hbefore
  rw [IsBalanced, ← hsum'] at hafter
  exact ⟨hrecorded, hreplaced, by omega, fun hsame ↦ by omega⟩

end Runs

/-! ## A message that is adopted -/

def sampleRequest : Json := .obj [("node_id", .str "NODE-one")]

def sampleDigest : String :=
  "sha256:ca978112ca1bbdcafac231b39a23dc4da786eff8147c4e72b9807785afee48bb"

/-- A message of which the outcome is not known after a minute. -/
def ambiguous : Except HostError Journal := do
  let ((intent, _), started) ←
    begin .empty "message-one" "message" sampleRequest (some ("message", sampleDigest))
  let (_, journal) ← finish started intent ⟨.recoverable, none, none, ⟨60000, 5, 0, none, none⟩,
    some "host execution outcome is ambiguous: TimeoutError"⟩
  return journal

/-- Its receipt is adopted. -/
def adopted : Except HostError Journal := do
  let (_, journal) ← adopt (← ambiguous) "message-one" sampleRequest "execution-receipt"
    (.obj [("state", .str "SUCCEEDED")]) sampleDigest
  return journal

theorem wall_sample : (ambiguous >>= usage).map (·.wallMilliseconds) = .ok 60000 ∧
    (adopted >>= usage).map (·.wallMilliseconds) = .ok 0 := by decide +kernel

/-- A journal of which the wall time is known is there, and so is its usage. -/
theorem exists_of_wall {x : Except HostError Journal} {wall : ℕ}
    (h : (x >>= usage).map (·.wallMilliseconds) = .ok wall) :
    ∃ journal total, x = .ok journal ∧ usage journal = .ok total ∧ total.wallMilliseconds = wall := by
  rcases x with e | journal
  · exact nomatch h
  rw [ok_bind] at h
  rcases htotal : usage journal with e | total
  · rw [htotal] at h
    exact nomatch h
  · rw [htotal] at h
    exact ⟨journal, total, rfl, htotal, Except.ok.inj h⟩

theorem reachable_ambiguous {journal : Journal} (h : ambiguous = .ok journal) : Reachable journal := by
  simp only [ambiguous, bind_eq_ok, Prod.exists, pure_eq_ok] at h
  obtain ⟨intent, fresh, started, hbegin, out, ended, hfinish, rfl⟩ := h
  exact (Relation.ReflTransGen.single (.begin hbegin)).tail (.finish hfinish)

theorem steps_adopted {journal later : Journal} (h : ambiguous = .ok journal)
    (hlater : adopted = .ok later) : Relation.ReflTransGen Step journal later := by
  simp only [adopted, h, ok_bind, bind_eq_ok, Prod.exists, pure_eq_ok] at hlater
  obtain ⟨out, later, hadopt, rfl⟩ := hlater
  exact .single (.adopt hadopt)

theorem sample_balanced : ∃ journal total, ambiguous = .ok journal ∧ usage journal = .ok total ∧
    (∀ amount, total.amount amount = ∑ key ∈ operations journal, statedLast journal amount key) ∧
    ∀ amount, total.amount amount + replaced journal amount = recorded journal amount := by
  obtain ⟨journal, _, hjournal, -⟩ := exists_of_wall wall_sample.1
  obtain ⟨total, htotal, hsum, hbalanced, -⟩ := usage_balanced (reachable_ambiguous hjournal)
  exact ⟨journal, total, hjournal, htotal, hsum, hbalanced⟩

/-- **The minute is taken back when the receipt is adopted.** -/
theorem usage_shrinks : ¬∀ journal later : Journal, Reachable journal →
    Relation.ReflTransGen Step journal later → ∀ total total', usage journal = .ok total →
      usage later = .ok total' → (∀ amount, total.amount amount ≤ total'.amount amount) ∧
        ∀ amount, total'.amount amount = ∑ key ∈ operations later, statedLast later amount key := by
  intro hall
  obtain ⟨journal, total, hjournal, htotal, hwall⟩ := exists_of_wall wall_sample.1
  obtain ⟨later, total', hlater, htotal', hwall'⟩ := exists_of_wall wall_sample.2
  have hle := (hall journal later (reachable_ambiguous hjournal) (steps_adopted hjournal hlater)
    total total' htotal htotal').1 .wallMilliseconds
  rw [HostUsage.amount, HostUsage.amount, hwall, hwall'] at hle
  exact absurd hle (by decide)

end HiveMind.Host
