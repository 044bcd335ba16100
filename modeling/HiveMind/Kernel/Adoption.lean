import HiveMind.Kernel.AtMostOnce

/-!
# What a delivery reports

`execute` and `reconcile` return a result: the intent, the digest of its receipt, and a status. The
receipt may come from the adapter or from whoever reconciles, and it may say that the effect failed.
The result does not look at it.

* **`reported_iff`**: in any run of any callers, every result names the receipt that is recorded for
  its intent, and has the status of that receipt if and only if that status is `SUCCEEDED`.
-/

open Raise Interleave

namespace HiveMind

/-! ## Intents of documents -/

/-- `brain-kernel-effect-intent.schema.json`. -/
def effectIntentSchema : List (String × FieldSchema) := [
  ("mission_id", .string {}),
  ("work_id", .string {}),
  ("attempt_id", .string {}),
  ("actor_id", .string nonEmptySchema),
  ("role", .enum roleNames),
  ("action", .string nonEmptySchema),
  ("risk_tier", .enum ["R0", "R1", "R2", "R3", "R4"]),
  ("target_adapter", .string nonEmptySchema),
  ("target", .string { format := some .portableRelativePath }),
  ("parameters_digest", .string digestSchema),
  ("idempotency_key", .string digestSchema),
  ("authority_envelope_digest", .string digestSchema),
  ("expected_preconditions", .array 0 {}),
  ("rollback_description", .string nonEmptySchema),
  ("policy_decision_ref", .string nonEmptySchema),
  ("intent_digest", .string digestSchema)]

/-- The constructor, from the values of a document that passed its schema. -/
def EffectIntent.ofMembers (ms : List (String × Json)) : Option EffectIntent := do
  let text (name : String) : Option String := (ms.lookup name).bind Json.asStr?
  let missionId ← text "mission_id"
  let workId ← text "work_id"
  let attemptId ← text "attempt_id"
  let actorId ← text "actor_id"
  let role ← text "role"
  let action ← text "action"
  let riskTier ← text "risk_tier"
  let targetAdapter ← text "target_adapter"
  let given ← text "target"
  let target ← (normalizePortablePath given).toOption
  let parametersDigest ← text "parameters_digest"
  let idempotencyKey ← text "idempotency_key"
  let authorityEnvelopeDigest ← text "authority_envelope_digest"
  let expectedPreconditions ← (ms.lookup "expected_preconditions").bind Json.asStrings?
  let rollbackDescription ← text "rollback_description"
  let policyDecisionRef ← text "policy_decision_ref"
  let intentDigest ← text "intent_digest"
  if valid : isIdentifier .mission missionId ∧ isIdentifier .work workId ∧
      isIdentifier .attempt attemptId ∧ isRequired actorId ∧ isRole role ∧ isRequired action ∧
      isRequired targetAdapter ∧ isRequired target ∧ isRequired rollbackDescription ∧
      isRequired policyDecisionRef ∧ normalizePortablePath target = .ok target ∧
      isDigest parametersDigest ∧ isDigest idempotencyKey ∧ isDigest authorityEnvelopeDigest ∧
      isDigest intentDigest then
    some ⟨missionId, workId, attemptId, actorId, role, action, riskTier, targetAdapter, target,
      parametersDigest, idempotencyKey, authorityEnvelopeDigest, expectedPreconditions,
      rollbackDescription, policyDecisionRef, intentDigest, valid⟩
  else none

/-- `EffectIntent.from_document`. -/
def EffectIntent.fromDocument (ms : List (String × Json)) : Except Exc EffectIntent :=
  match validateContract effectIntentSchema ms with
  | [] =>
    match EffectIntent.ofMembers ms with
    | some intent => .ok intent
    | none => .error (valueError "invalid effect intent")
  | issues => .error (valueError ("invalid kernel contract: " ++ "; ".intercalate issues))

/-! ## Reconciliation -/

namespace DurableEffectOutbox

open Proc

/-- The intent of an entry, as its text has it. -/
def storedIntent (entry : OutboxRow) : Except Exc EffectIntent :=
  let corrupt := kernelIntegrityError "durable effect intent is corrupt"
  match Json.loads entry.intentJson with
  | some (.obj ms) => (EffectIntent.fromDocument ms).mapError fun _ ↦ corrupt
  | _ => .error corrupt

variable [Hash256] {key : String} (outbox : DurableEffectOutbox)

/-- The reconciliation record of a receipt that was adopted. It is left out without evidence. -/
def noteAdoption (intentDigest : String) (evidence : Option (List (String × PyValue))) :
    OutboxM Unit :=
  if evidence.getD [] = [] then pure ()
  else do
    let now ← clock .unrecorded
    let _ ← transact .markEffectReconciliationRequired (markEffectReconciliationRequired
      outbox.readOnly intentDigest
      "receipt adopted from explicit authorized reconciliation witness" now evidence "reconciled")
    pure ()

/-- The part of `reconcile` that follows the lookup of the entry. -/
def adopt (intentDigest : String) (receipt : EffectReceipt) (token : CapabilityToken key)
    (evidence : Option (List (String × PyValue))) (entry : OutboxRow) : OutboxM EffectResult := do
  let stored ← Proc.lift (storedIntent entry)
  outbox.validate .validate stored token
  let receiptDigest ← Proc.lift (canonicalDigest (.dict receipt.toDocument))
  let now ← clock .recorded
  let entry ← transact .recordEffectReceipt (recordEffectReceipt outbox.readOnly intentDigest
    receiptDigest receipt.toDocument now)
  outbox.noteAdoption intentDigest evidence
  Proc.lift (result entry)

/-- `reconcile`. -/
def reconcileReceipt (intentDigest : String) (receipt : EffectReceipt) (token : CapabilityToken key)
    (evidence : Option (List (String × PyValue))) : OutboxM EffectResult :=
  if receipt.intentDigest ≠ intentDigest then
    raise (kernelIntegrityError "reconciliation receipt is bound to another intent")
  else do
    let found ← transact .effectEntry (effectEntry intentDigest)
    match found with
    | none => raise (kernelIntegrityError "cannot reconcile an unknown effect intent")
    | some entry => outbox.adopt intentDigest receipt token evidence entry

/-- `recover`. -/
def recover : OutboxM (List String) := do
  let now ← clock .interrupted
  transact .other (recoverEffects outbox.readOnly now)

end DurableEffectOutbox

/-! ## Receipts and their entries -/

section Receipts

variable [Hash256]

/-- Every receipt that is stored is the one of a receipt for its intent, with its digest. -/
def Bound (db : KernelDb) : Prop :=
  ∀ row ∈ db.effectReceipts, ∃ receipt : EffectReceipt, receipt.intentDigest = row.intentDigest ∧
    canonicalBytes (.dict receipt.toDocument) = .ok row.receiptJson ∧
    canonicalDigest (.dict receipt.toDocument) = .ok row.receiptDigest

omit [Hash256] in
/-- There is only one receipt for an intent. -/
theorem EffectsOk.receipt_of_mem {db : KernelDb} (hdb : EffectsOk db) {row : ReceiptRow}
    (hrow : row ∈ db.effectReceipts) : db.receipt row.intentDigest = some row := by
  cases hfound : db.receipt row.intentDigest with
  | none => exact absurd (List.mem_map_of_mem hrow) (KernelDb.receipt_eq_none.mp hfound)
  | some found =>
    obtain ⟨hmem, hof⟩ := KernelDb.mem_of_receipt hfound
    rw [List.inj_on_of_nodup_map hdb.receipts hmem hrow hof]

/-- What the callers keep. -/
structure ReceiptsOk (db : KernelDb) : Prop where
  effects : EffectsOk db
  bound : Bound db

theorem receiptsOk_emptyDb : ReceiptsOk emptyDb := ⟨effectsOk_emptyDb, nofun⟩

/-- Receipts are never lost. -/
def KeepsReceipts (db db' : KernelDb) : Prop := db.effectReceipts ⊆ db'.effectReceipts

omit [Hash256] in
theorem KeepsReceipts.refl (db : KernelDb) : KeepsReceipts db db := List.Subset.refl _

omit [Hash256] in
theorem KeepsReceipts.trans {db db' db'' : KernelDb} (h : KeepsReceipts db db')
    (h' : KeepsReceipts db' db'') : KeepsReceipts db db'' := List.Subset.trans h h'

/-- A receipt with the digest is recorded for the intent. -/
def Records (db : KernelDb) (intentDigest receiptDigest : String) : Prop :=
  ∃ row ∈ db.effectReceipts, row.intentDigest = intentDigest ∧ row.receiptDigest = receiptDigest

omit [Hash256] in
theorem Records.keeps {db db' : KernelDb} {intentDigest receiptDigest : String}
    (h : Records db intentDigest receiptDigest) (hkeeps : KeepsReceipts db db') :
    Records db' intentDigest receiptDigest := by
  obtain ⟨row, hrow, hdigests⟩ := h
  exact ⟨row, hkeeps hrow, hdigests⟩

/-- An entry of the intent that has a receipt, if its state says so. -/
def Known (db : KernelDb) (intentDigest : String) (entry : OutboxRow) : Prop :=
  entry.intentDigest = intentDigest ∧ (entry.state = .receiptRecorded →
    ∃ receiptDigest, entry.receiptDigest = some receiptDigest ∧
      Records db intentDigest receiptDigest)

omit [Hash256] in
theorem Known.keeps {db db' : KernelDb} {intentDigest : String} {entry : OutboxRow}
    (h : Known db intentDigest entry) (hkeeps : KeepsReceipts db db') :
    Known db' intentDigest entry := by
  refine ⟨h.1, fun hstate ↦ ?_⟩
  obtain ⟨receiptDigest, hdigest, hrecords⟩ := h.2 hstate
  exact ⟨receiptDigest, hdigest, hrecords.keeps hkeeps⟩

omit [Hash256] in
theorem EffectsOk.known_of_mem {db : KernelDb} (hdb : EffectsOk db) {entry : OutboxRow}
    (hentry : entry ∈ db.effectOutbox) : Known db entry.intentDigest entry := by
  have hok := hdb.entries entry hentry
  refine ⟨rfl, fun hstate ↦ ?_⟩
  obtain ⟨row, hrow, hdigest⟩ := List.mem_map.mp (hok.recorded.mp hstate)
  exact ⟨row.receiptDigest, hok.linked row hrow hdigest, row, hrow, hdigest, rfl⟩

/-- The result is one of a receipt that is recorded. -/
def Reports (db : KernelDb) (intentDigest : String) (r : EffectResult) : Prop :=
  r.intentDigest = intentDigest ∧ r.status = "SUCCEEDED" ∧ Records db intentDigest r.receiptDigest

omit [Hash256] in
theorem Reports.keeps {db db' : KernelDb} {intentDigest : String} {r : EffectResult}
    (h : Reports db intentDigest r) (hkeeps : KeepsReceipts db db') : Reports db' intentDigest r :=
  ⟨h.1, h.2.1, h.2.2.keeps hkeeps⟩

omit [Hash256] in
/-- What the result of an entry reports. -/
theorem Known.reports {db : KernelDb} {intentDigest : String} {entry : OutboxRow}
    {r : EffectResult} (h : Known db intentDigest entry) (hstate : entry.state = .receiptRecorded)
    (hr : DurableEffectOutbox.result entry = .ok r) : Reports db intentDigest r := by
  obtain ⟨receiptDigest, hdigest, hrecords⟩ := h.2 hstate
  rw [DurableEffectOutbox.result, hdigest] at hr
  dsimp only at hr
  split at hr
  · exact nomatch hr
  · obtain rfl := Except.ok.inj hr
    exact ⟨h.1, rfl, hrecords⟩

end Receipts

/-! ## The operations of the store -/

section Operations

/-- The operation leaves the receipts as they are. -/
def LeavesReceipts {α : Type} (x : StoreM α) : Prop :=
  ∀ db, (Proc.stateOf (x db)).effectReceipts = db.effectReceipts

/-- An operation other than the record of a receipt leaves the receipts as they are. -/
theorem leavesReceipts_run {call : EffectCall}
    (hcall : ∀ readOnly intentDigest receiptDigest receipt recordedAt,
      call ≠ .record readOnly intentDigest receiptDigest receipt recordedAt) :
    LeavesReceipts call.run := by
  intro db
  cases hrun : call.run db with
  | error e db' =>
    rw [call.atomic_run db e db' hrun]
    rfl
  | ok u db' =>
    change db'.effectReceipts = db.effectReceipts
    cases call with
    | enqueue readOnly key digest intent recordedAt =>
      obtain ⟨row, _, henqueue, h⟩ := run_bind_eq_ok.mp hrun
      obtain ⟨-, rfl⟩ := run_pure_eq_ok.mp h
      obtain ⟨-, -, -, ⟨rfl, -⟩ | ⟨-, -, -, -, rfl⟩⟩ := enqueueEffect_eq_ok henqueue
      · rfl
      · rfl
    | begin readOnly digest recordedAt =>
      obtain ⟨row, _, hbegin, h⟩ := run_bind_eq_ok.mp hrun
      obtain ⟨-, rfl⟩ := run_pure_eq_ok.mp h
      obtain ⟨entry, -, ⟨-, -, rfl⟩ | ⟨-, -, rfl⟩⟩ := beginEffect_eq_ok hbegin
      · rfl
      · rfl
    | record readOnly digest receiptDigest receipt recordedAt =>
      exact absurd rfl (hcall readOnly digest receiptDigest receipt recordedAt)
    | mark readOnly digest reason recordedAt evidence state =>
      obtain ⟨row, _, hmark, h⟩ := run_bind_eq_ok.mp hrun
      obtain ⟨-, rfl⟩ := run_pure_eq_ok.mp h
      obtain ⟨entry, evidenceJson, -, rfl⟩ := markEffectReconciliationRequired_eq_ok hmark
      split
      · rfl
      · rfl
    | recover readOnly recordedAt =>
      obtain ⟨digests, _, hrecover, h⟩ := run_bind_eq_ok.mp hrun
      obtain ⟨-, rfl⟩ := run_pure_eq_ok.mp h
      rw [recoverEffects_eq_ok hrecover]
      clear hrun hrecover hcall
      induction digests generalizing db with
      | nil => rfl
      | cons digest digests ih => exact ih (recoverEntry recordedAt db digest)

theorem LeavesReceipts.of_discard {α : Type} {x : StoreM α} (call : EffectCall)
    (h : call.run = x >>= fun _ ↦ pure ())
    (hcall : ∀ readOnly intentDigest receiptDigest receipt recordedAt,
      call ≠ .record readOnly intentDigest receiptDigest receipt recordedAt) :
    LeavesReceipts x := by
  intro db
  rw [← stateOf_discard, ← h]
  exact leavesReceipts_run hcall db

variable [Hash256]

/-- Such an operation keeps what the callers keep. -/
theorem LeavesReceipts.keeps {α : Type} {x : StoreM α} (h : LeavesReceipts x) (hx : Changes x)
    {db : KernelDb} (hdb : ReceiptsOk db) :
    ReceiptsOk (Proc.stateOf (x db)) ∧ KeepsReceipts db (Proc.stateOf (x db)) := by
  refine ⟨⟨(hdb.effects.changes (hx db hdb.effects)).1, ?_⟩, ?_⟩
  · rw [Bound, h db]
    exact hdb.bound
  · rw [KeepsReceipts, h db]
    exact List.Subset.refl _

/-- The record of a receipt keeps what the callers keep, if the receipt is one for the intent. -/
theorem keeps_record {readOnly : Bool} {receipt : EffectReceipt} {intentDigest receiptDigest
    recordedAt : String} (hintent : receipt.intentDigest = intentDigest)
    (hdigest : canonicalDigest (.dict receipt.toDocument) = .ok receiptDigest) {db : KernelDb}
    (hdb : ReceiptsOk db) :
    let after := recordEffectReceipt readOnly intentDigest receiptDigest receipt.toDocument
      recordedAt db
    ReceiptsOk (Proc.stateOf after) ∧ KeepsReceipts db (Proc.stateOf after) ∧
      ∀ entry, Proc.resultOf after = .ok entry → entry.state = .receiptRecorded ∧
        Known (Proc.stateOf after) intentDigest entry := by
  intro after
  have heffects : EffectsOk (Proc.stateOf after) :=
    (hdb.effects.changes (changes_recordEffectReceipt db hdb.effects)).1
  cases hrecord : recordEffectReceipt readOnly intentDigest receiptDigest receipt.toDocument
      recordedAt db with
  | error e db' =>
    have hatomic : db' = db :=
      (EffectCall.record readOnly intentDigest receiptDigest receipt.toDocument
        recordedAt).atomic_run db e db' (run_bind_of_error hrecord)
    have hafter : after = .error e db := hatomic ▸ hrecord
    rw [hafter]
    exact ⟨hdb, List.Subset.refl _, nofun⟩
  | ok entry db' =>
    have hafter : after = .ok entry db' := hrecord
    rw [hafter] at heffects ⊢
    obtain ⟨hread, hstate⟩ := entry_of_recordEffectReceipt hrecord
    obtain ⟨hmem, hof⟩ := KernelDb.mem_of_entry hread
    have hknown : Known db' intentDigest entry := hof ▸ EffectsOk.known_of_mem heffects hmem
    have hentry : ∀ entry', Proc.resultOf (.ok entry db' : EStateM.Result Exc KernelDb OutboxRow) =
        .ok entry' → entry'.state = .receiptRecorded ∧ Known db' intentDigest entry' := by
      intro entry' heq
      obtain rfl := Except.ok.inj heq
      exact ⟨hstate, hknown⟩
    obtain ⟨_, stored, receipts, -, hstored, hstoredDigest, hjson, hadded, -, rfl⟩ :=
      recordEffectReceipt_eq_ok hrecord
    have hbound : receipt.intentDigest = stored.intentDigest ∧
        canonicalBytes (.dict receipt.toDocument) = .ok stored.receiptJson ∧
        canonicalDigest (.dict receipt.toDocument) = .ok stored.receiptDigest :=
      ⟨hintent.trans hstored.symm, hjson, hstoredDigest ▸ hdigest⟩
    rcases hadded with ⟨-, rfl⟩ | ⟨-, rfl⟩
    · exact ⟨⟨heffects, hdb.bound⟩, List.Subset.refl _, hentry⟩
    · refine ⟨⟨heffects, fun row hrow ↦ ?_⟩, List.subset_append_left _ _, hentry⟩
      rcases List.mem_append.mp hrow with hrow | hrow
      · exact hdb.bound row hrow
      · exact List.mem_singleton.mp hrow ▸ ⟨receipt, hbound⟩

omit [Hash256] in
/-- An entry that an operation finds or makes is known. -/
theorem known_enqueue {readOnly : Bool} {idempotencyKey intentDigest recordedAt : String}
    {intent : List (String × PyValue)} {db db' : KernelDb} {entry : OutboxRow}
    (hdb : EffectsOk db)
    (h : enqueueEffect readOnly idempotencyKey intentDigest intent recordedAt db = .ok entry db') :
    Known db' intentDigest entry := by
  obtain ⟨-, hdigest, -, ⟨rfl, hmem⟩ | ⟨hpending, -⟩⟩ := enqueueEffect_eq_ok h
  · exact hdigest ▸ hdb.known_of_mem hmem
  · exact ⟨hdigest, fun hstate ↦ nomatch hpending.symm.trans hstate⟩

omit [Hash256] in
theorem known_begin {readOnly : Bool} {intentDigest recordedAt : String} {db db' : KernelDb}
    {entry : OutboxRow} (hdb : EffectsOk db)
    (h : beginEffect readOnly intentDigest recordedAt db = .ok entry db') :
    Known db' intentDigest entry := by
  obtain ⟨found, hfound, ⟨-, rfl, rfl⟩ | ⟨-, rfl, -⟩⟩ := beginEffect_eq_ok h
  · obtain ⟨hmem, hof⟩ := KernelDb.mem_of_entry hfound
    exact hof ▸ hdb.known_of_mem hmem
  · exact ⟨(KernelDb.mem_of_entry hfound).2, nofun⟩

end Operations

/-! ## The programs -/

section Programs

open DurableEffectOutbox

variable [Hash256] {key : String} {outbox : DurableEffectOutbox} {nested : Bool}
  {intent : EffectIntent} {token : CapabilityToken key} {intentDigest : String} {db : KernelDb}

/-- The program keeps what the callers keep, and what it returns is as promised. -/
abbrev Keeping {α : Type} (p : OutboxM α) (db : KernelDb) (Q : α → KernelDb → Prop) : Prop :=
  Guarantees (fun _ _ ↦ True) ReceiptsOk KeepsReceipts KeepsReceipts p db
    fun r db ↦ ∀ a, r = .ok a → Q a db

theorem keeping_lift {α : Type} {x : Except Exc α} {Q : α → KernelDb → Prop}
    (h : ∀ a, x = .ok a → Q a db) : Keeping (Proc.lift x) db Q := h

theorem keeping_raise {α : Type} {e : Exc} {Q : α → KernelDb → Prop} :
    Keeping (Proc.raise e) db Q := nofun

theorem keeping_bind {α β : Type} {p : OutboxM α} {f : α → OutboxM β} {P : α → KernelDb → Prop}
    {Q : β → KernelDb → Prop} (hp : Keeping p db P) (hf : ∀ a db, P a db → Keeping (f a) db Q) :
    Keeping (p >>= f) db Q :=
  guarantees_andThen_ok (hp.mono fun _ db hr a ha ↦ hf a db (hr a ha))

theorem keeping_ask {query : Query} {Q : query.Answer → KernelDb → Prop}
    (h : ∀ answer, Q answer db) : Keeping (Proc.ask query) db Q := by
  intro answer a ha
  exact Except.ok.inj ha ▸ h answer

/-- An operation other than the record of a receipt. -/
theorem keeping_transact {α : Type} {op : StoreOp} {x : StoreM α} {Q : α → KernelDb → Prop}
    (call : EffectCall) (hrun : call.run = x >>= fun _ ↦ pure ())
    (hcall : ∀ readOnly intentDigest receiptDigest receipt recordedAt,
      call ≠ .record readOnly intentDigest receiptDigest receipt recordedAt)
    (h : ∀ db db' a, EffectsOk db → x db = .ok a db' → Q a db') :
    Keeping (Proc.transact op x) db Q := by
  refine guarantees_transact fun db _ hdb _ ↦ ?_
  obtain ⟨hok, hkeeps⟩ := (LeavesReceipts.of_discard call hrun hcall).keeps
    (.of_discard call hrun) hdb
  refine ⟨hok, hkeeps, fun a ha ↦ ?_⟩
  cases hx : x db with
  | error e db' =>
    rw [hx] at ha
    exact nomatch ha
  | ok a' db' =>
    rw [hx] at ha
    obtain rfl : a' = a := Except.ok.inj ha
    exact h db db' a' hdb.effects hx

theorem keeping_effectEntry {Q : Option OutboxRow → KernelDb → Prop}
    (h : ∀ db found, EffectsOk db → (∀ entry ∈ found, Known db intentDigest entry) → Q found db) :
    Keeping (Proc.transact .effectEntry (effectEntry intentDigest)) db Q := by
  refine guarantees_transact fun db _ hdb _ ↦ ⟨hdb, List.Subset.refl _, fun found hfound ↦ ?_⟩
  obtain rfl : db.entry intentDigest = found := Except.ok.inj hfound
  refine h db _ hdb.effects fun entry hentry ↦ ?_
  obtain ⟨hmem, hof⟩ := KernelDb.mem_of_entry hentry
  exact hof ▸ hdb.effects.known_of_mem hmem

theorem keeping_validate {use : ClockUse} :
    Keeping (outbox.validate use intent token) db fun _ _ ↦ True :=
  fun _ _ _ _ _ ↦ trivial

theorem keeping_reconcile {α : Type} {use : ClockUse} {reason message : String}
    {evidence : Option (List (String × PyValue))} {Q : α → KernelDb → Prop} :
    Keeping (outbox.reconcile intent use reason evidence message : OutboxM α) db Q := by
  refine keeping_bind (keeping_ask fun _ ↦ trivial) fun now db (_ : True) ↦ ?_
  refine keeping_bind (P := fun _ _ ↦ True) ?_ fun _ _ _ ↦ keeping_raise
  exact keeping_transact (.mark outbox.readOnly intent.intentDigest reason now evidence
    "reconciliation_required") rfl nofun fun _ _ _ _ _ ↦ trivial

theorem keeping_enqueue :
    Keeping (outbox.enqueue intent token) db fun entry db ↦ Known db intent.intentDigest entry := by
  refine keeping_bind keeping_validate fun _ db _ ↦ ?_
  by_cases hadapter : intent.targetAdapter ∉ outbox.adapters.names
  · rw [if_pos hadapter]
    exact keeping_raise
  · rw [if_neg hadapter]
    refine keeping_bind (keeping_ask fun _ ↦ trivial) fun now db (_ : True) ↦ ?_
    exact keeping_transact (.enqueue outbox.readOnly intent.idempotencyKey intent.intentDigest
      intent.toDocument now) rfl nofun fun _ _ _ hdb h ↦ known_enqueue hdb h

/-- The receipt that a delivery makes or is given is one for the intent. -/
theorem keeping_receiptOf {startedAt : String} {outcome : AdapterOutcome} :
    Keeping (outbox.receiptOf intent startedAt outcome) db
      fun receipt _ ↦ receipt.intentDigest = intent.intentDigest := by
  have hbuilt : ∀ produced postcondition db, Keeping (receiptOf.built outbox intent startedAt
      produced postcondition) db fun receipt _ ↦ receipt.intentDigest = intent.intentDigest := by
    intro produced postcondition db
    refine keeping_bind (keeping_ask fun _ ↦ trivial) fun endedAt db (_ : True) ↦ ?_
    refine keeping_lift fun receipt hreceipt ↦ ?_
    rw [buildEffectReceipt, EffectReceipt.make] at hreceipt
    split at hreceipt
    · exact Except.ok.inj hreceipt ▸ rfl
    · exact nomatch hreceipt
  cases outcome with
  | raised name => exact hbuilt [] none db
  | other => exact hbuilt [] none db
  | receipt receipt =>
    rw [receiptOf]
    by_cases hintent : receipt.intentDigest ≠ intent.intentDigest
    · rw [if_pos hintent]
      exact keeping_raise
    · rw [if_neg hintent]
      exact keeping_lift fun r hr ↦ Except.ok.inj hr ▸ not_not.mp hintent
  | mapping produced postcondition =>
    rw [receiptOf]
    refine keeping_bind (keeping_lift fun _ _ ↦ trivial) fun values db (_ : True) ↦ ?_
    refine keeping_bind (keeping_lift fun _ _ ↦ trivial) fun postcondition db (_ : True) ↦ ?_
    exact hbuilt _ _ db

/-- The record of a receipt for the intent, which is what the result is made of. -/
theorem keeping_record {receipt : EffectReceipt} {receiptDigest recordedAt : String}
    (hintent : receipt.intentDigest = intentDigest)
    (hdigest : canonicalDigest (.dict receipt.toDocument) = .ok receiptDigest) :
    Keeping (Proc.transact .recordEffectReceipt (recordEffectReceipt outbox.readOnly intentDigest
      receiptDigest receipt.toDocument recordedAt)) db
      fun entry db ↦ entry.state = .receiptRecorded ∧ Known db intentDigest entry :=
  guarantees_transact fun _ _ hdb _ ↦ keeps_record hintent hdigest hdb

theorem keeping_settle {startedAt : String} {outcome : AdapterOutcome} :
    Keeping (outbox.settle intent startedAt outcome) db
      fun r db ↦ Reports db intent.intentDigest r := by
  refine keeping_bind keeping_receiptOf fun receipt db hintent ↦ ?_
  refine keeping_bind (P := fun digest _ ↦ canonicalDigest (.dict receipt.toDocument) = .ok digest)
    (keeping_lift fun _ hdigest ↦ hdigest) fun digest db hdigest ↦ ?_
  refine keeping_bind (P := fun recorded db ↦ ∀ entry, recorded = .ok entry →
    entry.state = .receiptRecorded ∧ Known db intent.intentDigest entry) ?_ ?_
  · refine guarantees_attempt ((keeping_bind (keeping_ask fun _ ↦ trivial)
      fun now db (_ : True) ↦ keeping_record hintent hdigest).mono fun r db hr recorded heq ↦ ?_)
    obtain rfl := Except.ok.inj heq
    exact hr
  · intro recorded db hrecorded
    cases recorded with
    | ok entry =>
      obtain ⟨hstate, hknown⟩ := hrecorded entry rfl
      exact keeping_lift fun r hr ↦ hknown.reports hstate hr
    | error e => exact keeping_reconcile

theorem keeping_account {startedAt : String} {outcome : AdapterOutcome} :
    Keeping (outbox.account intent startedAt outcome) db
      fun r db ↦ Reports db intent.intentDigest r := by
  cases outcome with
  | raised name => exact keeping_reconcile
  | receipt receipt => exact keeping_settle
  | mapping produced postcondition => exact keeping_settle
  | other => exact keeping_settle

theorem keeping_deliver :
    Keeping (outbox.deliver nested intent) db fun r db ↦ Reports db intent.intentDigest r := by
  refine keeping_bind (keeping_ask fun _ ↦ trivial) fun startedAt db (_ : True) ↦ ?_
  refine keeping_bind (P := fun _ _ ↦ True) ?_ fun outcome db _ ↦ keeping_account
  rw [runAdapter]
  by_cases hnested : nested = true
  · rw [if_pos hnested]
    exact keeping_lift fun _ _ ↦ trivial
  · rw [if_neg hnested]
    exact keeping_ask fun _ ↦ trivial

theorem keeping_claim :
    Keeping (outbox.claim nested intent) db fun r db ↦ Reports db intent.intentDigest r := by
  refine keeping_bind (keeping_ask fun _ ↦ trivial) fun now db (_ : True) ↦ ?_
  refine keeping_bind (keeping_transact (.begin outbox.readOnly intent.intentDigest now) rfl nofun
    fun _ _ _ hdb h ↦ known_begin hdb h) fun entry db hknown ↦ ?_
  cases hstate : entry.state with
  | executing => exact keeping_deliver
  | receiptRecorded => exact keeping_lift fun r hr ↦ hknown.reports hstate hr
  | pending => exact keeping_raise
  | reconciliationRequired => exact keeping_raise

theorem keeping_entryOf {found : Option OutboxRow}
    (h : ∀ entry ∈ found, Known db intent.intentDigest entry) :
    Keeping (outbox.entryOf intent token found) db
      fun entry db ↦ Known db intent.intentDigest entry := by
  cases found with
  | none => exact keeping_enqueue
  | some entry =>
    refine keeping_bind (P := fun _ db ↦ Known db intent.intentDigest entry)
      (keeping_lift fun _ _ ↦ h entry rfl) fun encoded db hknown ↦ ?_
    by_cases hencoded : entry.intentJson ≠ encoded
    · rw [if_pos hencoded]
      exact keeping_raise
    · rw [if_neg hencoded]
      exact keeping_lift fun _ heq ↦ Except.ok.inj heq ▸ hknown

/-- **What `execute` returns names the receipt that is recorded for the intent.** -/
theorem keeping_execute :
    Keeping (outbox.execute nested intent token) db
      fun r db ↦ Reports db intent.intentDigest r := by
  refine keeping_bind keeping_validate fun _ db _ ↦ ?_
  by_cases hadapter : intent.targetAdapter ∉ outbox.adapters.names
  · rw [if_pos hadapter]
    exact keeping_raise
  rw [if_neg hadapter]
  refine keeping_bind (keeping_effectEntry fun db found _ hknown ↦ hknown) fun found db hfound ↦ ?_
  refine keeping_bind (keeping_entryOf hfound) fun entry db hknown ↦ ?_
  rw [proceed]
  cases hstate : entry.state with
  | receiptRecorded => exact keeping_lift fun r hr ↦ hknown.reports hstate hr
  | reconciliationRequired => exact keeping_raise
  | executing => exact keeping_reconcile
  | pending => exact keeping_claim

theorem keeping_noteAdoption {evidence : Option (List (String × PyValue))} :
    Keeping (outbox.noteAdoption intentDigest evidence) db fun _ db' ↦ KeepsReceipts db db' := by
  suffices h : Keeping (outbox.noteAdoption intentDigest evidence) db fun _ _ ↦ True from
    (h.onward KeepsReceipts.refl fun _ _ _ ↦ KeepsReceipts.trans).mono fun _ _ hr _ _ ↦ hr.1
  rw [noteAdoption]
  split
  · exact keeping_lift fun _ _ ↦ trivial
  · refine keeping_bind (keeping_ask fun _ ↦ trivial) fun now db (_ : True) ↦ ?_
    refine keeping_bind (P := fun _ _ ↦ True) ?_ fun _ _ _ ↦ keeping_lift fun _ _ ↦ trivial
    exact keeping_transact (.mark outbox.readOnly intentDigest _ now evidence "reconciled") rfl nofun
      fun _ _ _ _ _ ↦ trivial

/-- **What `reconcile` returns names the receipt that is recorded for the intent.** -/
theorem keeping_reconcileReceipt {receipt : EffectReceipt}
    {evidence : Option (List (String × PyValue))} :
    Keeping (outbox.reconcileReceipt intentDigest receipt token evidence) db
      fun r db ↦ Reports db intentDigest r := by
  rw [reconcileReceipt]
  by_cases hintent : receipt.intentDigest ≠ intentDigest
  · rw [if_pos hintent]
    exact keeping_raise
  rw [if_neg hintent]
  refine keeping_bind (keeping_effectEntry fun db found _ _ ↦ trivial) fun found db (_ : True) ↦ ?_
  cases found with
  | none => exact keeping_raise
  | some entry =>
    refine keeping_bind (keeping_lift fun _ _ ↦ trivial) fun stored db (_ : True) ↦ ?_
    refine keeping_bind keeping_validate fun _ db _ ↦ ?_
    refine keeping_bind (P := fun digest _ ↦ canonicalDigest (.dict receipt.toDocument) = .ok digest)
      (keeping_lift fun _ hdigest ↦ hdigest) fun digest db hdigest ↦ ?_
    refine keeping_bind (keeping_ask fun _ ↦ trivial) fun now db (_ : True) ↦ ?_
    refine keeping_bind (keeping_record (not_not.mp hintent) hdigest) fun entry db hentry ↦ ?_
    refine keeping_bind keeping_noteAdoption fun _ db' hkeeps ↦ keeping_lift fun r hr ↦ ?_
    exact (hentry.2.keeps hkeeps).reports hentry.1 hr

theorem keeping_recover : Keeping outbox.recover db fun _ _ ↦ True := by
  refine keeping_bind (keeping_ask fun _ ↦ trivial) fun now db (_ : True) ↦ ?_
  exact keeping_transact (.recover outbox.readOnly now) rfl nofun fun _ _ _ _ _ ↦ trivial

end Programs

/-! ## Runs -/

section Runs

open DurableEffectOutbox

variable [Hash256]

/-- A use of an outbox, by any process that shares the database. -/
inductive OutboxUse where
  | execute {key : String} (outbox : DurableEffectOutbox) (nested : Bool) (intent : EffectIntent)
      (token : CapabilityToken key)
  | reconcile {key : String} (outbox : DurableEffectOutbox) (intentDigest : String)
      (receipt : EffectReceipt) (token : CapabilityToken key)
      (evidence : Option (List (String × PyValue)))
  | enqueue {key : String} (outbox : DurableEffectOutbox) (intent : EffectIntent)
      (token : CapabilityToken key)
  | recover (outbox : DurableEffectOutbox)
  | status (intentDigest : String)

namespace OutboxUse

/-- The program of a use. Only `execute` and `reconcile` come back with a result. -/
def program : OutboxUse → OutboxM (Option EffectResult)
  | execute outbox nested intent token => do
    let r ← outbox.execute nested intent token
    pure (some r)
  | reconcile outbox intentDigest receipt token evidence => do
    let r ← outbox.reconcileReceipt intentDigest receipt token evidence
    pure (some r)
  | enqueue outbox intent token => do
    let _ ← outbox.enqueue intent token
    pure none
  | recover outbox => do
    let _ ← outbox.recover
    pure none
  | status intentDigest => do
    let _ ← Proc.transact .effectEntry (effectEntry intentDigest)
    pure none

/-- The intent that a result is about. -/
def intentDigest : OutboxUse → String
  | execute _ _ intent _ => intent.intentDigest
  | reconcile _ intentDigest _ _ _ => intentDigest
  | enqueue _ intent _ => intent.intentDigest
  | recover _ => ""
  | status intentDigest => intentDigest

theorem keeping_program (use : OutboxUse) {db : KernelDb} :
    Keeping use.program db fun r? db ↦ ∀ r ∈ r?, Reports db use.intentDigest r := by
  cases use with
  | execute outbox nested intent token =>
    refine keeping_bind keeping_execute fun r db hr ↦ keeping_lift fun r? hr? r' hr' ↦ ?_
    obtain rfl : some r = r? := Except.ok.inj hr?
    exact Option.some.inj hr' ▸ hr
  | reconcile outbox intentDigest receipt token evidence =>
    refine keeping_bind keeping_reconcileReceipt fun r db hr ↦ keeping_lift fun r? hr? r' hr' ↦ ?_
    obtain rfl : some r = r? := Except.ok.inj hr?
    exact Option.some.inj hr' ▸ hr
  | enqueue outbox intent token =>
    exact keeping_bind keeping_enqueue fun _ db _ ↦ keeping_lift fun r? hr? r hr ↦
      nomatch (Except.ok.inj hr?).trans hr
  | recover outbox =>
    exact keeping_bind keeping_recover fun _ db _ ↦ keeping_lift fun r? hr? r hr ↦
      nomatch (Except.ok.inj hr?).trans hr
  | status intentDigest =>
    refine keeping_bind (P := fun _ _ ↦ True) (keeping_effectEntry fun _ _ _ _ ↦ trivial)
      fun _ db _ ↦ keeping_lift fun r? hr? r hr ↦ ?_
    exact nomatch (Except.ok.inj hr?).trans hr

end OutboxUse

/-- The uses before their first step. -/
def beginning (uses : List OutboxUse) :
    Config Exc KernelDb StoreOp Query Query.Answer (Option EffectResult) :=
  ⟨emptyDb, uses.map OutboxUse.program, []⟩

/-- A receipt that is recorded for an intent, under its digest. -/
def IsRecorded (db : KernelDb) (intentDigest receiptDigest : String) (receipt : EffectReceipt) :
    Prop :=
  receipt.intentDigest = intentDigest ∧
    canonicalDigest (.dict receipt.toDocument) = .ok receiptDigest ∧
    ∃ row, db.receipt intentDigest = some row ∧ row.receiptDigest = receiptDigest ∧
      canonicalBytes (.dict receipt.toDocument) = .ok row.receiptJson

/-- What the use at a position returns. -/
def Promised (uses : List OutboxUse) (i : ℕ) (r : Except Exc (Option EffectResult))
    (db : KernelDb) : Prop :=
  ∀ use, uses[i]? = some use → ∀ r?, r = .ok r? → ∀ result ∈ r?,
    Reports db use.intentDigest result

theorem Promised.keeps {uses : List OutboxUse} {i : ℕ} {r : Except Exc (Option EffectResult)}
    {db db' : KernelDb} (h : Promised uses i r db) (hkeeps : KeepsReceipts db db') :
    Promised uses i r db' :=
  fun use huse r? hr? result hresult ↦ (h use huse r? hr? result hresult).keeps hkeeps

/-- **However the uses of outboxes are interleaved: a result names the receipt that is recorded for
its intent, and has the status of that receipt if and only if that is `SUCCEEDED`.** -/
theorem reported_iff (uses : List OutboxUse)
    {c : Config Exc KernelDb StoreOp Query Query.Answer (Option EffectResult)}
    (h : Config.Reaches (fun _ _ ↦ True) (beginning uses) c) {i : ℕ} {use : OutboxUse}
    (huse : uses[i]? = some use) {r : EffectResult}
    (hdone : c.procs[i]? = some (.done (.ok (some r)))) :
    r.intentDigest = use.intentDigest ∧ ∃ receipt : EffectReceipt,
      IsRecorded c.shared use.intentDigest r.receiptDigest receipt ∧
      (r.status = receipt.status ↔ receipt.status = "SUCCEEDED") := by
  have hstart : ∀ j p, (beginning uses).procs[j]? = some p → Guarantees (fun _ _ ↦ True) ReceiptsOk
      KeepsReceipts (fun db db' ↦ ∀ k, k ≠ j → KeepsReceipts db db') p (beginning uses).shared
      (Promised uses j) := by
    intro j p hp
    rw [beginning, List.getElem?_map, Option.map_eq_some_iff] at hp
    obtain ⟨use, hj, rfl⟩ := hp
    refine ((use.keeping_program.mono fun r db hr use' huse' a ha result hresult ↦ ?_).weaken
      fun db db' hkeeps _ _ ↦ hkeeps)
    obtain rfl := Option.some.inj (hj.symm.trans huse')
    exact hr a ha result hresult
  have hstable : ∀ j r db db', Promised uses j r db → KeepsReceipts db db' →
      Promised uses j r db' := fun _ _ _ _ hr hkeeps ↦ hr.keeps hkeeps
  obtain ⟨hok, hreached⟩ := guarantees_of_reaches (fun _ ↦ KeepsReceipts.refl)
    (fun _ _ _ _ ↦ KeepsReceipts.trans) hstable receiptsOk_emptyDb hstart h
  obtain ⟨hintent, hstatus, row, hrow, hof, hdigest⟩ :=
    hreached i _ hdone use huse (some r) rfl r rfl
  obtain ⟨receipt, hreceipt, hjson, hreceiptDigest⟩ := hok.bound row hrow
  refine ⟨hintent, receipt, ⟨hreceipt.trans hof, hdigest ▸ hreceiptDigest, row, ?_, hdigest, hjson⟩,
    ?_⟩
  · exact hof ▸ hok.effects.receipt_of_mem hrow
  · rw [hstatus]
    exact eq_comm

/-! ### A receipt of a failure -/

/-- A receipt for an intent, with a status. -/
def receiptFor (intent : EffectIntent) (status : String)
    (h : status ∈ ["SUCCEEDED", "FAILED", "ABSTAINED"]) : EffectReceipt where
  intentDigest := intent.intentDigest
  startedAt := sampleTime
  endedAt := sampleTime
  adapterIdentity := "files"
  adapterVersion := "1"
  observedPreconditionDigest := intent.intentDigest
  status := status
  stdoutDigest := none
  stderrDigest := none
  producedIdentifiers := .tuple []
  postconditionDigest := intent.intentDigest
  retryOf := none
  rollbackReceipt := none
  valid := by
    obtain ⟨-, -, -, -, -, -, -, -, -, -, -, -, -, -, hdigest⟩ := intent.valid
    exact ⟨hdigest, hdigest, hdigest, by decide +kernel, by decide +kernel, by decide, by decide, h,
      by simp⟩

omit [Hash256] in
/-- The first receipt of all is recorded. -/
theorem recordEffectReceipt_first {db : KernelDb} {intentDigest encoded : String}
    {receipt : List (String × PyValue)} {entry : OutboxRow} (receiptDigest recordedAt : String)
    (hencoded : canonicalBytes (.dict receipt) = .ok encoded)
    (hentry : db.entry intentDigest = some entry) (hnone : db.effectReceipts = []) :
    recordEffectReceipt false intentDigest receiptDigest receipt recordedAt db =
      .ok (entry.withReceipt receiptDigest recordedAt)
        (({ db with effectReceipts := db.effectReceipts ++
          [⟨receiptDigest, intentDigest, encoded, recordedAt⟩] } : KernelDb).updateEntry intentDigest
            (·.withReceipt receiptDigest recordedAt)) := by
  have hreceipt : db.receipt intentDigest = none := by rw [KernelDb.receipt, hnone, List.find?_nil]
  have hkeeps : KeepsIdentity (·.withReceipt receiptDigest recordedAt) := fun _ ↦ ⟨rfl, rfl, rfl⟩
  have hlink : (db.updateEntry intentDigest (·.withReceipt receiptDigest recordedAt)).entry
      intentDigest = some (entry.withReceipt receiptDigest recordedAt) := by
    rw [KernelDb.entry_updateEntry hkeeps, hentry, Option.map_some,
      if_pos (KernelDb.mem_of_entry hentry).2]
  simp only [recordEffectReceipt, run_bind_eq_ok, requireWritable_eq_ok, run_lift_eq_ok,
    transaction_eq_ok, run_get_eq_ok, run_guard_eq_ok]
  refine ⟨(), db, ⟨trivial, rfl⟩, encoded, db, ⟨hencoded, rfl⟩, db, db, ⟨rfl, rfl⟩, ?_, ?_⟩
  · rw [hentry]
    rintro ⟨⟩
  rw [hreceipt]
  simp only [run_bind_eq_ok, insertReceiptRow_eq_ok, run_modify_eq_ok, run_get_eq_ok,
    readBack_eq_ok]
  refine ⟨(), _, ⟨?_, ?_, rfl⟩, (), _, rfl, _, _, ⟨rfl, rfl⟩, hlink, rfl⟩
  · rw [hnone]
    exact List.not_mem_nil
  · rw [hnone]
    exact List.not_mem_nil

omit [Hash256] in
theorem exists_plain_receiptFor (intent : EffectIntent) (status : String)
    (h : status ∈ ["SUCCEEDED", "FAILED", "ABSTAINED"]) :
    ∃ j, (PyValue.dict (receiptFor intent status h).toDocument).plain = .ok j := by
  simp only [EffectReceipt.toDocument, receiptFor, PyValue.ofOption, PyValue.plain,
    PyValue.plainItems, PyValue.plainList, Except.map]
  exact ⟨_, rfl⟩

/-- A delivery of which the adapter hands back a receipt with some status. -/
theorem exists_delivery {status : String} (h : status ∈ ["SUCCEEDED", "FAILED", "ABSTAINED"]) :
    ∃ (use : OutboxUse) (c : Config Exc KernelDb StoreOp Query Query.Answer (Option EffectResult))
      (receipt : EffectReceipt) (r : EffectResult),
      Config.Reaches (fun _ _ ↦ True) (beginning [use]) c ∧
      c.procs[0]? = some (.done (.ok (some r))) ∧ r.status = "SUCCEEDED" ∧ receipt.status = status ∧
      IsRecorded c.shared use.intentDigest r.receiptDigest receipt := by
  obtain ⟨outbox, intent, token, registry, hready⟩ := exists_ready
  obtain ⟨j, hj⟩ := exists_plain_receiptFor intent status h
  let receipt := receiptFor intent status h
  have hencoded : canonicalBytes (.dict receipt.toDocument) = .ok (Json.dumps j) := by
    rw [canonicalBytes, hj]
    rfl
  have hdigest : canonicalDigest (.dict receipt.toDocument) = .ok (jsonDigest j) := by
    rw [canonicalDigest, hj]
    rfl
  obtain ⟨calls, entry, db, -, hentry, -, hrun, hnone⟩ :=
    hready.invoked (.receipt receipt) (fun _ _ ↦ trivial : ∀ _ _, (fun _ _ ↦ True) _ _)
  have hrecord := recordEffectReceipt_first (jsonDigest j) sampleTime hencoded hentry hnone
  generalize hdb' : KernelDb.updateEntry _ _ _ = db' at hrecord
  let r : EffectResult := ⟨entry.intentDigest, jsonDigest j, "SUCCEEDED"⟩
  have hresult : result (entry.withReceipt (jsonDigest j) sampleTime) = .ok r := by
    have hne : jsonDigest j ≠ "" := by
      rw [jsonDigest, ne_eq, String.append_eq_empty_iff]
      exact fun h ↦ absurd h.1 (by decide)
    rw [result, OutboxRow.withReceipt]
    dsimp only
    rw [if_neg hne]
  have hreceipt : outbox.receiptOf intent sampleTime (.receipt receipt) = pure receipt :=
    if_neg (not_not.mpr rfl)
  let env := steady registry sampleTime (.receipt receipt)
  have hreceiptOf : Advances env (fun _ _ ↦ True)
      (outbox.receiptOf intent sampleTime (.receipt receipt)) db [] (pure receipt) db := by
    rw [hreceipt]
    exact .refl
  have hlift : Advances env (fun _ _ ↦ True)
      (Proc.lift (canonicalDigest (.dict receipt.toDocument)) : OutboxM String) db []
      (pure (jsonDigest j)) db := by
    rw [hdigest]
    exact .refl
  have hattempt : Advances env (fun _ _ ↦ True) (Proc.attempt do
      let now ← clock .recorded
      Proc.transact .recordEffectReceipt (recordEffectReceipt outbox.readOnly intent.intentDigest
        (jsonDigest j) receipt.toDocument now)) db [.clock .recorded]
      (pure (.ok (entry.withReceipt (jsonDigest j) sampleTime))) db' := by
    refine .call (.step trivial ?_)
    change Advances _ _ (Proc.attempt (Proc.done (Proc.resultOf (recordEffectReceipt outbox.readOnly
      intent.intentDigest (jsonDigest j) receipt.toDocument sampleTime db)))) (Proc.stateOf
      (recordEffectReceipt outbox.readOnly intent.intentDigest (jsonDigest j) receipt.toDocument
        sampleTime db)) _ _ _
    rw [hready.writable, hrecord]
    exact .refl
  have hlast : Advances env (fun _ _ ↦ True)
      (Proc.lift (result (entry.withReceipt (jsonDigest j) sampleTime)) : OutboxM EffectResult)
      db' [] (pure r) db' := by
    rw [hresult]
    exact .refl
  have hsettle : Advances env (fun _ _ ↦ True)
      (outbox.account intent sampleTime (.receipt receipt)) db _ (pure r) db' :=
    hreceiptOf.andThen (hlift.andThen (hattempt.andThen hlast))
  have hreaches := ((hrun.trans hsettle).bind fun r ↦ pure (some r)).reaches
    [OutboxUse.program (.execute outbox false intent token)] 0 rfl []
  refine ⟨.execute outbox false intent token, _, receipt, r, hreaches, rfl, rfl, rfl, rfl, hdigest,
    ⟨jsonDigest j, intent.intentDigest, j.dumps, sampleTime⟩, ?_, rfl, hencoded⟩
  have hreceipts : db'.receipt intent.intentDigest =
      (({ db with effectReceipts := db.effectReceipts ++
        [⟨jsonDigest j, intent.intentDigest, j.dumps, sampleTime⟩] } : KernelDb)).receipt
          intent.intentDigest := hdb' ▸ rfl
  refine hreceipts.trans ?_
  rw [KernelDb.receipt, hnone]
  exact List.find?_cons_of_pos (decide_eq_true rfl)

end Runs

/-- A delivery that is accounted for by a receipt of success. -/
theorem reported_success : ∃ (use : OutboxUse)
    (c : Config Exc KernelDb StoreOp Query Query.Answer (Option EffectResult)) (r : EffectResult),
    r.intentDigest = use.intentDigest ∧ ∃ receipt : EffectReceipt,
      IsRecorded c.shared use.intentDigest r.receiptDigest receipt ∧
      (r.status = receipt.status ↔ receipt.status = "SUCCEEDED") := by
  obtain ⟨use, c, _, r, hreaches, hdone, -⟩ := exists_delivery (by decide : "SUCCEEDED" ∈ _)
  exact ⟨use, c, r, reported_iff [use] hreaches rfl hdone⟩

/-- A delivery that is accounted for by a receipt of failure is reported as a success. -/
theorem reported_failure : ∃ (uses : List OutboxUse)
    (c : Config Exc KernelDb StoreOp Query Query.Answer (Option EffectResult)) (use : OutboxUse)
    (r : EffectResult) (receipt : EffectReceipt),
    Config.Reaches (fun _ _ ↦ True) (beginning uses) c ∧ uses[0]? = some use ∧
      c.procs[0]? = some (.done (.ok (some r))) ∧
      IsRecorded c.shared use.intentDigest r.receiptDigest receipt ∧
      receipt.status = "FAILED" ∧ r.status = "SUCCEEDED" := by
  obtain ⟨use, c, receipt, r, hreaches, hdone, hstatus, hreceipt, hrecorded⟩ :=
    exists_delivery (by decide : "FAILED" ∈ _)
  exact ⟨[use], c, use, r, receipt, hreaches, rfl, hdone, hrecorded, hreceipt, hstatus⟩

end HiveMind
