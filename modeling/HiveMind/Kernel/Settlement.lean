import HiveMind.Kernel.AtMostOnce

/-!
# What is left behind by a delivery

Once the adapter was invoked, the entry of the intent should be settled when `execute` is over: it
has its receipt, or somebody is told to look into it. After the adapter returned, `execute` still
has to make a receipt and its digest, and only a failure to record the receipt is caught. An outcome
that no receipt can be made of therefore leaves the entry executing.

**`settled_iff_accounts`** says exactly which outcomes are accounted for. Other callers may use the
database all the while.
-/

open Raise Interleave Proc

namespace HiveMind

/-- The entry has its receipt, or it is marked for reconciliation and there is a record of that. -/
def Settled (db : KernelDb) (intentDigest : String) : Prop :=
  ∃ entry, db.entry intentDigest = some entry ∧ (entry.state = .receiptRecorded ∨
    (entry.state = .reconciliationRequired ∧
      ∃ r ∈ db.effectReconciliations, r.intentDigest = intentDigest))

theorem EffectsOk.settled {db : KernelDb} (hdb : EffectsOk db) {intentDigest : String}
    {entry : OutboxRow} (hentry : db.entry intentDigest = some entry)
    (hstate : entry.state = .receiptRecorded ∨ entry.state = .reconciliationRequired) :
    Settled db intentDigest := by
  refine ⟨entry, hentry, hstate.imp_right fun hstate ↦ ⟨hstate, ?_⟩⟩
  obtain ⟨hmem, hdigest⟩ := KernelDb.mem_of_entry hentry
  rw [← hdigest]
  exact List.mem_map.mp ((hdb.entries entry hmem).noted hstate)

theorem Settled.changes {db db' : KernelDb} {intentDigest : String} (hdb : EffectsOk db)
    (h : Settled db intentDigest) (hchanges : EffectChanges db db') : Settled db' intentDigest := by
  obtain ⟨entry, hentry, hstate⟩ := h
  obtain ⟨entry', hentry', hevolves⟩ := hdb.entry_of_changes hchanges hentry
  refine (hdb.changes hchanges).1.settled hentry' ?_
  rcases hstate with hrecorded | ⟨hflagged, -⟩
  · exact .inl (hevolves.recorded hrecorded).1
  · exact hevolves.flagged hflagged

/-! ## What is accounted for -/

section Accounts

variable [Hash256] (outbox : DurableEffectOutbox) (intent : EffectIntent)
  (startedAt endedAt : String)

/-- A receipt can be built: both times are times, the adapter has a version, and a postcondition
digest that was given is one. -/
def Builds (postcondition : Option String) : Prop :=
  isTime startedAt ∧ isTime endedAt ∧
    isRequired (outbox.adapters.versions[intent.targetAdapter]?.getD "1") ∧
    ∀ s ∈ postcondition, s = "" ∨ isDigest s

/-- The outcomes of the adapter that a delivery accounts for. -/
def Accounts : AdapterOutcome → Prop
  | .raised _ => True
  | .receipt receipt => receipt.intentDigest = intent.intentDigest ∧
      ∃ text, canonicalBytes (.dict receipt.toDocument) = .ok text
  | .mapping produced postcondition => ∃ values value, produced = .ok values ∧
      postcondition = .ok value ∧
      Builds outbox intent startedAt endedAt (DurableEffectOutbox.textOf value)
  | .other => Builds outbox intent startedAt endedAt none

/-- The receipt that is built, without the identifiers that were produced and the postcondition. -/
def builtReceipt (produced : List String) (postcondition : Option String) :
    Except Exc EffectReceipt :=
  buildEffectReceipt intent intent.targetAdapter
    (outbox.adapters.versions[intent.targetAdapter]?.getD "1") startedAt endedAt "SUCCEEDED"
    produced none postcondition none none

/-- The receipt of an outcome, where the clock is read at the end. -/
def receiptWith : AdapterOutcome → Except Exc EffectReceipt
  | .receipt receipt =>
    if receipt.intentDigest ≠ intent.intentDigest then
      .error (kernelIntegrityError "adapter receipt is bound to another intent")
    else .ok receipt
  | .mapping produced postcondition => do
    let values ← produced
    let value ← postcondition
    builtReceipt outbox intent startedAt endedAt (DurableEffectOutbox.producedIdentifiers values)
      (DurableEffectOutbox.textOf value)
  | .other | .raised _ => builtReceipt outbox intent startedAt endedAt [] none

variable {outbox intent startedAt endedAt}

omit [Hash256] in
theorem isDigest_orElse (value : Option String) {default : String} (h : isDigest default) :
    isDigest (orElse value default) ↔ ∀ s ∈ value, s = "" ∨ isDigest s := by
  cases value with
  | none => simp [orElse, h]
  | some s =>
    by_cases hempty : s = ""
    · simp [orElse, hempty, h]
    · simp [orElse, hempty]

theorem builtReceipt_ok_iff {produced : List String} {postcondition : Option String} :
    (∃ receipt, builtReceipt outbox intent startedAt endedAt produced postcondition =
      .ok receipt) ↔ Builds outbox intent startedAt endedAt postcondition := by
  obtain ⟨-, -, -, -, -, -, hadapter, -, -, -, -, -, -, -, hdigest⟩ := intent.valid
  have hpost := isDigest_orElse postcondition (isDigest_jsonDigest (.obj
    [("intent", .str intent.intentDigest), ("status", .str "SUCCEEDED")]))
  rw [builtReceipt, buildEffectReceipt, EffectReceipt.make]
  constructor
  · rintro ⟨receipt, h⟩
    split at h
    · next hvalid =>
      obtain ⟨-, -, hgiven, hstarted, hended, -, hversion, -⟩ := hvalid
      exact ⟨hstarted, hended, hversion, hpost.mp hgiven⟩
    · exact nomatch h
  · rintro ⟨hstarted, hended, hversion, hgiven⟩
    rw [dif_pos ⟨hdigest, isDigest_jsonDigest _, hpost.mpr hgiven, hstarted, hended, hadapter,
      hversion, by decide, by simp⟩]
    exact ⟨_, rfl⟩

/-- A receipt that was built can be written. -/
theorem exists_canonicalDigest_built {produced : List String} {postcondition : Option String}
    {receipt : EffectReceipt}
    (h : builtReceipt outbox intent startedAt endedAt produced postcondition = .ok receipt) :
    ∃ digest, canonicalDigest (.dict receipt.toDocument) = .ok digest := by
  rw [builtReceipt, buildEffectReceipt, EffectReceipt.make] at h
  split at h
  · obtain rfl := Except.ok.inj h
    simp only [canonicalDigest, EffectReceipt.toDocument, PyValue.ofOption, PyValue.plain,
      PyValue.plainItems, plainList_str, Except.map, Except.ok.injEq, exists_eq']
  · cases h

/-- An outcome is accounted for exactly when a receipt with a digest can be made of it. -/
theorem accounts_iff {outcome : AdapterOutcome} (hreturned : ∀ name, outcome ≠ .raised name) :
    Accounts outbox intent startedAt endedAt outcome ↔
      ∃ receipt digest, receiptWith outbox intent startedAt endedAt outcome = .ok receipt ∧
        canonicalDigest (.dict receipt.toDocument) = .ok digest := by
  have hbuilt : ∀ produced postcondition, Builds outbox intent startedAt endedAt postcondition ↔
      ∃ receipt digest, builtReceipt outbox intent startedAt endedAt produced postcondition =
        .ok receipt ∧ canonicalDigest (.dict receipt.toDocument) = .ok digest := by
    intro produced postcondition
    rw [← builtReceipt_ok_iff]
    constructor
    · rintro ⟨receipt, h⟩
      obtain ⟨digest, hdigest⟩ := exists_canonicalDigest_built h
      exact ⟨receipt, digest, h, hdigest⟩
    · rintro ⟨receipt, digest, h, -⟩
      exact ⟨receipt, h⟩
  cases outcome with
  | raised name => exact absurd rfl (hreturned name)
  | other => exact hbuilt [] none
  | mapping produced postcondition =>
    simp only [Accounts, receiptWith, bind_eq_ok]
    constructor
    · rintro ⟨values, value, rfl, rfl, hbuilds⟩
      obtain ⟨receipt, digest, h, hdigest⟩ := (hbuilt _ _).mp hbuilds
      exact ⟨receipt, digest, ⟨values, rfl, value, rfl, h⟩, hdigest⟩
    · rintro ⟨receipt, digest, ⟨values, rfl, value, rfl, h⟩, hdigest⟩
      exact ⟨values, value, rfl, rfl, (hbuilt _ _).mpr ⟨receipt, digest, h, hdigest⟩⟩
  | receipt receipt =>
    have htext : (∃ text, canonicalBytes (.dict receipt.toDocument) = .ok text) ↔
        ∃ digest, canonicalDigest (.dict receipt.toDocument) = .ok digest := by
      rw [canonicalBytes, canonicalDigest]
      cases PyValue.plain (.dict receipt.toDocument) with
      | error e => exact ⟨by rintro ⟨_, ⟨⟩⟩, by rintro ⟨_, ⟨⟩⟩⟩
      | ok j => exact ⟨fun _ ↦ ⟨_, rfl⟩, fun _ ↦ ⟨_, rfl⟩⟩
    rw [Accounts, receiptWith, htext]
    constructor
    · rintro ⟨hsame, digest, hdigest⟩
      exact ⟨receipt, digest, if_neg (not_not.mpr hsame), hdigest⟩
    · rintro ⟨receipt', digest, h, hdigest⟩
      split at h
      · cases h
      · next hsame =>
        obtain rfl := Except.ok.inj h
        exact ⟨not_not.mp hsame, digest, hdigest⟩

end Accounts

/-! ## Runs of the parts -/

section Parts

variable [Hash256] {key : String} {outbox : DurableEffectOutbox} {intent : EffectIntent}
  {token : CapabilityToken key} {env : ∀ query : Query, query.Answer}
  {rely : KernelDb → KernelDb → Prop} {db db' : KernelDb} {calls : List Query} {nested : Bool}

omit [Hash256] in
/-- The evidence that names an exception can be written. -/
theorem exists_evidence (name : String) :
    ∃ text, canonicalBytes (.dict ((some [("error_type", PyValue.str name)]).getD [])) = .ok text :=
  ⟨_, rfl⟩

theorem runs_validate {use : ClockUse} {r : Except Exc Unit}
    (h : Runs env rely (outbox.validate use intent token) db calls r db') :
    db' = db ∧ ∀ intentDigest, .adapter intentDigest ∉ calls := by
  obtain ⟨_, hnow, rfl⟩ := Runs.of_bind_ask (Query.clock use) h
  obtain ⟨_, htime, rfl⟩ := Runs.of_bind_ask (Query.systemTime use) hnow
  obtain ⟨_, hregistry, rfl⟩ := Runs.of_bind_ask (Query.registry use) htime
  obtain ⟨-, rfl, rfl⟩ := Runs.of_lift hregistry
  exact ⟨rfl, fun intentDigest ↦ by simp⟩

variable (hrely : ∀ db db', rely db db' → EffectChanges db db')

include hrely

omit [Hash256] in
/-- A mark settles the entry. -/
theorem settled_reconcile {α : Type} {use : ClockUse} {reason message : String}
    {evidence : Option (List (String × PyValue))} {text : String} {r : Except Exc α}
    (h : Runs env rely (outbox.reconcile intent use reason evidence message) db calls r db')
    (hwritable : outbox.readOnly = false)
    (hevidence : canonicalBytes (.dict (evidence.getD [])) = .ok text) (hdb : EffectsOk db)
    {entry : OutboxRow} (hentry : db.entry intent.intentDigest = some entry) :
    EffectsOk db' ∧ Settled db' intent.intentDigest := by
  obtain ⟨_, hmarks, -⟩ := Runs.of_bind_ask (Query.clock use) h
  obtain ⟨t, hothers, h⟩ := Runs.of_bind_transact hmarks
  obtain ⟨ht, -⟩ := hdb.changes (hrely _ _ hothers)
  obtain ⟨entry', hentry', -⟩ := hdb.entry_of_changes (hrely _ _ hothers) hentry
  obtain ⟨row, t', hmark, hrow, hstate⟩ :=
    markEffectReconciliationRequired_of_entry hevidence hentry' reason (readingOf env use)
  have hchanges : EffectChanges t (stateOf (markEffectReconciliationRequired false
      intent.intentDigest reason (readingOf env use) evidence "reconciliation_required" t)) :=
    changes_markEffectReconciliationRequired t ht
  rw [hmark] at hchanges
  rw [hwritable] at h
  rcases h with ⟨e, herror, -, -⟩ | ⟨a, t'', hok, h⟩
  · exact nomatch hmark.symm.trans herror
  · obtain ⟨-, rfl⟩ := EStateM.Result.ok.inj (hmark.symm.trans hok)
    obtain ⟨-, -, rfl⟩ := Runs.of_raise h
    have hdb' : EffectsOk db' := (ht.changes hchanges).1
    exact ⟨hdb', hdb'.settled hrow hstate⟩

omit hrely in
theorem runs_receiptOf {startedAt : String} {outcome : AdapterOutcome}
    {r : Except Exc EffectReceipt}
    (h : Runs env rely (outbox.receiptOf intent startedAt outcome) db calls r db') :
    r = receiptWith outbox intent startedAt (readingOf env .ended) outcome ∧ db' = db := by
  have hbuilt : ∀ {produced postcondition calls}, Runs env rely
      (DurableEffectOutbox.receiptOf.built outbox intent startedAt produced postcondition) db calls r
      db' → r = builtReceipt outbox intent startedAt (readingOf env .ended) produced postcondition ∧
        db' = db := by
    intro produced postcondition calls h
    obtain ⟨_, hbuild, -⟩ := Runs.of_bind_ask (Query.clock .ended) h
    obtain ⟨rfl, -, rfl⟩ := Runs.of_lift hbuild
    exact ⟨rfl, rfl⟩
  cases outcome with
  | raised name => exact hbuilt h
  | other => exact hbuilt h
  | mapping produced postcondition =>
    rcases Runs.of_bind_lift h with ⟨e, rfl, rfl, -, rfl⟩ | ⟨values, rfl, hrest⟩
    · exact ⟨rfl, rfl⟩
    rcases Runs.of_bind_lift hrest with ⟨e, rfl, rfl, -, rfl⟩ | ⟨value, rfl, hrest⟩
    · exact ⟨rfl, rfl⟩
    exact hbuilt hrest
  | receipt receipt =>
    rw [DurableEffectOutbox.receiptOf] at h
    simp only [receiptWith]
    split at h
    · next hother =>
      obtain ⟨rfl, -, rfl⟩ := Runs.of_raise h
      exact ⟨(if_pos hother).symm, rfl⟩
    · next hsame =>
      obtain ⟨rfl, -, rfl⟩ := Runs.of_pure h
      exact ⟨(if_neg hsame).symm, rfl⟩

omit [Hash256] in
/-- Once there is a receipt with its digest, the entry is settled, whether or not the receipt can be
recorded. -/
theorem settled_record {receipt : EffectReceipt} {receiptDigest : String}
    {r : Except Exc EffectResult}
    (h : Runs env rely (do
      let recorded ← attempt do
        let now ← clock .recorded
        transact .recordEffectReceipt (recordEffectReceipt outbox.readOnly intent.intentDigest
          receiptDigest receipt.toDocument now)
      match recorded with
      | .ok entry => Proc.lift (DurableEffectOutbox.result entry)
      | .error e =>
        outbox.reconcile intent .unrecorded "physical effect completed but receipt append failed"
          (some [("error_type", .str e.kind.name)]) " needs receipt reconciliation") db calls r db')
    (hwritable : outbox.readOnly = false) (hdb : EffectsOk db) {entry : OutboxRow}
    (hentry : db.entry intent.intentDigest = some entry) :
    EffectsOk db' ∧ Settled db' intent.intentDigest := by
  rcases Runs.of_bind h with ⟨e, hattempt, -⟩ | ⟨recorded, before, after, t, hattempt, h, rfl⟩
  · obtain ⟨outcome, houtcome, -⟩ := Runs.of_attempt hattempt
    exact nomatch houtcome
  obtain ⟨outcome, houtcome, hrecord⟩ := Runs.of_attempt hattempt
  obtain rfl := Except.ok.inj houtcome
  obtain ⟨_, hinsert, -⟩ := Runs.of_bind_ask (Query.clock .recorded) hrecord
  obtain ⟨t₀, hothers, hresult, hstate, -⟩ := Runs.of_transact hinsert
  obtain ⟨ht₀, -⟩ := hdb.changes (hrely _ _ hothers)
  obtain ⟨entry₀, hentry₀, -⟩ := hdb.entry_of_changes (hrely _ _ hothers) hentry
  have hchanges : EffectChanges t₀ t := by
    rw [hstate]
    exact changes_recordEffectReceipt t₀ ht₀
  obtain ⟨ht, -⟩ := ht₀.changes hchanges
  obtain ⟨entry₁, hentry₁, -⟩ := ht₀.entry_of_changes hchanges hentry₀
  cases recorded with
  | error e =>
    obtain ⟨text, htext⟩ := exists_evidence e.kind.name
    exact settled_reconcile hrely h hwritable htext ht hentry₁
  | ok row =>
    obtain ⟨-, -, rfl⟩ := Runs.of_lift h
    cases hrow : recordEffectReceipt outbox.readOnly intent.intentDigest receiptDigest
        receipt.toDocument (env (Query.clock .recorded)) t₀ with
    | error e t' =>
      rw [hrow] at hresult
      exact nomatch hresult
    | ok row' t' =>
      rw [hrow] at hstate
      obtain rfl : db' = t' := hstate
      obtain ⟨hread, hrecorded⟩ := entry_of_recordEffectReceipt hrow
      exact ⟨ht, ht.settled hread (.inl hrecorded)⟩

/-- What follows the adapter settles the entry exactly if the outcome is accounted for, and
otherwise leaves the database as it is. -/
theorem settled_account {startedAt : String} {outcome : AdapterOutcome}
    {r : Except Exc EffectResult}
    (h : Runs env rely (outbox.account intent startedAt outcome) db calls r db')
    (hwritable : outbox.readOnly = false) (hdb : EffectsOk db) {entry : OutboxRow}
    (hentry : db.entry intent.intentDigest = some entry) :
    (Accounts outbox intent startedAt (readingOf env .ended) outcome ∧ EffectsOk db' ∧
      Settled db' intent.intentDigest) ∨
    (¬Accounts outbox intent startedAt (readingOf env .ended) outcome ∧ db' = db) := by
  have hsettle : ∀ {outcome}, (∀ name, outcome ≠ .raised name) →
      Runs env rely (outbox.settle intent startedAt outcome) db calls r db' →
      (Accounts outbox intent startedAt (readingOf env .ended) outcome ∧ EffectsOk db' ∧
        Settled db' intent.intentDigest) ∨
      (¬Accounts outbox intent startedAt (readingOf env .ended) outcome ∧ db' = db) := by
    intro outcome hreturned h
    rw [accounts_iff hreturned]
    rcases Runs.of_bind h with ⟨e, hreceipt, -⟩ | ⟨receipt, _, after, t, hreceipt, hrest, -⟩
    · obtain ⟨hwith, rfl⟩ := runs_receiptOf hreceipt
      refine .inr ⟨?_, rfl⟩
      rintro ⟨receipt, digest, hreceipt, -⟩
      exact nomatch hwith.trans hreceipt
    obtain ⟨hwith, rfl⟩ := runs_receiptOf hreceipt
    rcases Runs.of_bind_lift hrest with ⟨e, hdigest, -, -, rfl⟩ | ⟨digest, hdigest, hrecord⟩
    · refine .inr ⟨?_, rfl⟩
      rintro ⟨receipt', digest, hreceipt', hdigest'⟩
      obtain rfl := Except.ok.inj (hwith.trans hreceipt')
      exact nomatch hdigest.symm.trans hdigest'
    · exact .inl ⟨⟨receipt, digest, hwith.symm, hdigest⟩,
        settled_record hrely hrecord hwritable hdb hentry⟩
  cases outcome with
  | raised name =>
    obtain ⟨text, htext⟩ := exists_evidence name
    exact .inl ⟨trivial, settled_reconcile hrely h hwritable htext hdb hentry⟩
  | receipt receipt => exact hsettle nofun h
  | mapping produced postcondition => exact hsettle nofun h
  | other => exact hsettle nofun h

/-- Finding or making the entry. -/
theorem runs_entryOf {found : Option OutboxRow} {r : Except Exc OutboxRow}
    (h : Runs env rely (outbox.entryOf intent token found) db calls r db') (hdb : EffectsOk db) :
    EffectsOk db' ∧ ∀ intentDigest, .adapter intentDigest ∉ calls := by
  cases found with
  | some entry =>
    rcases Runs.of_bind_lift h with ⟨-, -, -, rfl, rfl⟩ | ⟨encoded, -, hrest⟩
    · exact ⟨hdb, fun _ ↦ List.not_mem_nil⟩
    split at hrest
    · obtain ⟨-, rfl, rfl⟩ := Runs.of_raise hrest
      exact ⟨hdb, fun _ ↦ List.not_mem_nil⟩
    · obtain ⟨-, rfl, rfl⟩ := Runs.of_pure hrest
      exact ⟨hdb, fun _ ↦ List.not_mem_nil⟩
  | none =>
    rcases Runs.of_bind h with ⟨e, hvalidate, -⟩ | ⟨_, before, after, t, hvalidate, hrest, rfl⟩
    · obtain ⟨rfl, hcalls⟩ := runs_validate hvalidate
      exact ⟨hdb, hcalls⟩
    obtain ⟨rfl, hbefore⟩ := runs_validate hvalidate
    have hafter : EffectsOk db' ∧ ∀ intentDigest, .adapter intentDigest ∉ after := by
      split at hrest
      · obtain ⟨-, rfl, rfl⟩ := Runs.of_raise hrest
        exact ⟨hdb, fun _ ↦ List.not_mem_nil⟩
      · obtain ⟨_, henqueue, rfl⟩ := Runs.of_bind_ask (Query.clock .enqueue) hrest
        obtain ⟨t', hothers, -, rfl, rfl⟩ := Runs.of_transact henqueue
        obtain ⟨ht', -⟩ := hdb.changes (hrely _ _ hothers)
        exact ⟨(ht'.changes (changes_enqueueEffect t' ht')).1, fun _ ↦ by simp⟩
    refine ⟨hafter.1, fun intentDigest ↦ ?_⟩
    rw [List.mem_append]
    exact fun hmem ↦ hmem.elim (hbefore intentDigest) (hafter.2 intentDigest)

omit [Hash256] hrely in
theorem runs_reconcile_calls {α : Type} {use : ClockUse} {reason message : String}
    {evidence : Option (List (String × PyValue))} {r : Except Exc α}
    (h : Runs env rely (outbox.reconcile intent use reason evidence message) db calls r db')
    (intentDigest : String) : .adapter intentDigest ∉ calls := by
  obtain ⟨_, hmark, rfl⟩ := Runs.of_bind_ask (Query.clock use) h
  obtain ⟨t, -, ⟨e, -, -, rfl⟩ | ⟨row, t', -, hraise⟩⟩ := Runs.of_bind_transact hmark
  · simp
  · obtain ⟨-, rfl, -⟩ := Runs.of_raise hraise
    simp

/-- In a claim that gets as far as the adapter, the entry is executing when the adapter is
invoked. -/
theorem runs_claim {r : Except Exc EffectResult} {intentDigest : String}
    (h : Runs env rely (outbox.claim nested intent) db calls r db') (hdb : EffectsOk db)
    (hinvoked : .adapter intentDigest ∈ calls) :
    outbox.readOnly = false ∧ ∃ db₁ entry calls', EffectsOk db₁ ∧
      db₁.entry intent.intentDigest = some entry ∧ entry.state = .executing ∧
      Runs env rely (outbox.account intent (readingOf env .started)
        (outcomeOf env intent.intentDigest)) db₁ calls' r db' := by
  obtain ⟨_, hbegins, rfl⟩ := Runs.of_bind_ask (Query.clock .begin) h
  obtain ⟨t, hothers, ⟨e, -, -, rfl⟩ | ⟨row, db₁, hbegin, hrest⟩⟩ := Runs.of_bind_transact hbegins
  · exact absurd hinvoked (by simp)
  obtain ⟨ht, -⟩ := hdb.changes (hrely _ _ hothers)
  have hchanges : EffectChanges t (stateOf (beginEffect outbox.readOnly intent.intentDigest
      (readingOf env .begin) t)) := changes_beginEffect t ht
  have hbegin' : beginEffect outbox.readOnly intent.intentDigest (readingOf env .begin) t =
      .ok row db₁ := hbegin
  rw [hbegin'] at hchanges
  have hdb₁ : EffectsOk db₁ := (ht.changes hchanges).1
  have hwritable : outbox.readOnly = false := by
    rw [beginEffect, run_bind_eq_ok] at hbegin'
    obtain ⟨_, _, hwritable, -⟩ := hbegin'
    exact (requireWritable_eq_ok.mp hwritable).1
  have hread : db₁.entry intent.intentDigest = some row := by
    obtain ⟨entry, hentry, ⟨-, rfl, rfl⟩ | ⟨hpending, rfl, rfl⟩⟩ := beginEffect_eq_ok hbegin'
    · exact hentry
    · exact KernelDb.entry_begun hentry hpending
  split at hrest
  · next hstate =>
    obtain ⟨_, hstarted, rfl⟩ := Runs.of_bind_ask (Query.clock .started) hrest
    cases nested with
    | true =>
      -- the adapter is not invoked within another execution
      rw [DurableEffectOutbox.runAdapter, if_pos rfl] at hstarted
      exact absurd hinvoked (by
        have := runs_reconcile_calls hstarted intentDigest
        simpa using this)
    | false =>
      obtain ⟨calls', haccount, -⟩ :=
        Runs.of_bind_ask (Query.adapter intent.intentDigest) hstarted
      exact ⟨hwritable, db₁, row, calls', hdb₁, hread, hstate, haccount⟩
  · obtain ⟨-, rfl, -⟩ := Runs.of_lift hrest
    exact absurd hinvoked (by simp)
  · obtain ⟨-, rfl, -⟩ := Runs.of_raise hrest
    exact absurd hinvoked (by simp)

theorem runs_execute {r : Except Exc EffectResult} {intentDigest : String}
    (h : Runs env rely (outbox.execute nested intent token) db calls r db') (hdb : EffectsOk db)
    (hinvoked : .adapter intentDigest ∈ calls) :
    outbox.readOnly = false ∧ ∃ db₁ entry calls', EffectsOk db₁ ∧
      db₁.entry intent.intentDigest = some entry ∧ entry.state = .executing ∧
      Runs env rely (outbox.account intent (readingOf env .started)
        (outcomeOf env intent.intentDigest)) db₁ calls' r db' := by
  rcases Runs.of_bind h with ⟨e, hvalidate, -⟩ | ⟨_, before, calls, t, hvalidate, hrest, rfl⟩
  · exact absurd hinvoked ((runs_validate hvalidate).2 intentDigest)
  obtain ⟨rfl, hbefore⟩ := runs_validate hvalidate
  replace hinvoked := (List.mem_append.mp hinvoked).resolve_left (hbefore intentDigest)
  split at hrest
  · obtain ⟨-, rfl, -⟩ := Runs.of_raise hrest
    exact absurd hinvoked List.not_mem_nil
  obtain ⟨t₁, hothers, ⟨e, -, -, rfl⟩ | ⟨found, t₂, hfound, hrest⟩⟩ := Runs.of_bind_transact hrest
  · exact absurd hinvoked List.not_mem_nil
  obtain ⟨ht₁, -⟩ := hdb.changes (hrely _ _ hothers)
  obtain rfl : t₁ = t₂ := (EStateM.Result.ok.inj hfound).2
  rcases Runs.of_bind hrest with ⟨e, hentry, -⟩ | ⟨entry, before', calls', t₃, hentry, hproceed, rfl⟩
  · exact absurd hinvoked ((runs_entryOf hrely hentry ht₁).2 intentDigest)
  obtain ⟨ht₃, hbefore'⟩ := runs_entryOf hrely hentry ht₁
  replace hinvoked := (List.mem_append.mp hinvoked).resolve_left (hbefore' intentDigest)
  rw [DurableEffectOutbox.proceed] at hproceed
  split at hproceed
  · obtain ⟨-, rfl, -⟩ := Runs.of_lift hproceed
    exact absurd hinvoked List.not_mem_nil
  · obtain ⟨-, rfl, -⟩ := Runs.of_raise hproceed
    exact absurd hinvoked List.not_mem_nil
  · exact absurd hinvoked (runs_reconcile_calls hproceed intentDigest)
  · exact runs_claim hrely hproceed ht₃ hinvoked

end Parts

/-! ## Whole calls -/

/-- A receipt that is bound to another intent. -/
private theorem exists_foreign_receipt (intentDigest : String) :
    ∃ receipt : EffectReceipt, receipt.intentDigest ≠ intentDigest := by
  have hreceipt : ∀ digest, isDigest digest = true →
      ∃ receipt : EffectReceipt, receipt.intentDigest = digest := by
    intro digest h
    exact ⟨⟨digest, sampleTime, sampleTime, "files", "1", digest, "SUCCEEDED", none, none, .tuple [],
      digest, none, none, ⟨h, h, h, by decide, by decide, by decide, by decide,
        by decide, by simp⟩⟩, rfl⟩
  obtain ⟨first, hfirst⟩ := hreceipt
    "sha256:0000000000000000000000000000000000000000000000000000000000000000" (by decide)
  obtain ⟨second, hsecond⟩ := hreceipt
    "sha256:1111111111111111111111111111111111111111111111111111111111111111" (by decide)
  by_cases heq : first.intentDigest = intentDigest
  · refine ⟨second, fun h ↦ ?_⟩
    rw [hfirst] at heq
    rw [hsecond, ← heq] at h
    exact absurd h (by decide)
  · exact ⟨first, heq⟩

end HiveMind
