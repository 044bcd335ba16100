import HiveMind.Kernel.Tables

/-!
# The effect tables

An effect is delivered through three tables. `effect_outbox` has one entry for each intent and its
state, `effect_receipts` has the receipts, and `effect_reconciliations` has a record of every
outcome that somebody has to look into. The last two only grow.

The five operations are `enqueue_effect`, `begin_effect`, `record_effect_receipt`,
`mark_effect_reconciliation_required` and `recover_effects`. What any of them can do to the tables is
said once, by `EffectChange`: six kinds of change, of which every successful call is a sequence
(`EffectCall.run_eq_ok`). The invariant `EffectsOk` and the fate of an entry (`OutboxRow.Evolves`)
are then read off the changes.
-/

open Raise

namespace HiveMind

/-! ## Statements on the tables -/

/-- `SELECT * FROM effect_outbox WHERE intent_digest=?`. -/
def KernelDb.entry (db : KernelDb) (intentDigest : String) : Option OutboxRow :=
  db.effectOutbox.find? (·.intentDigest = intentDigest)

/-- `SELECT * FROM effect_receipts WHERE intent_digest=?`. -/
def KernelDb.receipt (db : KernelDb) (intentDigest : String) : Option ReceiptRow :=
  db.effectReceipts.find? (·.intentDigest = intentDigest)

/-- `UPDATE effect_outbox SET … WHERE intent_digest=?`. -/
def KernelDb.updateEntry (db : KernelDb) (intentDigest : String) (f : OutboxRow → OutboxRow) :
    KernelDb :=
  { db with
    effectOutbox := db.effectOutbox.map fun row ↦
      if row.intentDigest = intentDigest then f row else row }

/-- `INSERT INTO effect_reconciliations`. No row is ever deleted, so the automatic key counts the
rows. -/
def KernelDb.addReconciliation (db : KernelDb) (intentDigest state reason evidenceJson recordedAt :
    String) : KernelDb :=
  { db with
    effectReconciliations := db.effectReconciliations ++
      [⟨db.effectReconciliations.length + 1, intentDigest, state, reason, evidenceJson,
        recordedAt⟩] }

/-- `INSERT INTO effect_outbox`. -/
def insertOutboxRow (row : OutboxRow) : StoreM Unit := do
  let db ← get
  if row.idempotencyKey ∈ db.effectOutbox.map OutboxRow.idempotencyKey then
    throw (sqliteIntegrityError "effect_outbox.idempotency_key")
  if row.intentDigest ∈ db.effectOutbox.map OutboxRow.intentDigest then
    throw (sqliteIntegrityError "effect_outbox.intent_digest")
  set { db with effectOutbox := db.effectOutbox ++ [row] }

/-- `INSERT INTO effect_receipts`. -/
def insertReceiptRow (row : ReceiptRow) : StoreM Unit := do
  let db ← get
  if row.receiptDigest ∈ db.effectReceipts.map ReceiptRow.receiptDigest then
    throw (sqliteIntegrityError "effect_receipts.receipt_digest")
  if row.intentDigest ∈ db.effectReceipts.map ReceiptRow.intentDigest then
    throw (sqliteIntegrityError "effect_receipts.intent_digest")
  set { db with effectReceipts := db.effectReceipts ++ [row] }

/-- `dict` of the row that was just written. -/
def readBack : Option OutboxRow → StoreM OutboxRow
  | some row => pure row
  | none => throw (typeError "'NoneType' object is not iterable")

/-! ## The operations -/

/-- `effect_entry`. -/
def effectEntry (intentDigest : String) : StoreM (Option OutboxRow) := do
  let db ← get
  return db.entry intentDigest

/-- `enqueue_effect`. -/
def enqueueEffect (readOnly : Bool) (idempotencyKey intentDigest : String)
    (intent : List (String × PyValue)) (recordedAt : String) : StoreM OutboxRow := do
  requireWritable readOnly
  let encoded ← lift (canonicalBytes (.dict intent))
  transaction do
    let db ← get
    match db.effectOutbox.find? (·.idempotencyKey = idempotencyKey) with
    | some row => do
      if row.intentDigest ≠ intentDigest ∨ row.intentJson ≠ encoded then
        throw (kernelIntegrityError "idempotency key is already bound to another effect")
      return row
    | none => do
      insertOutboxRow ⟨idempotencyKey, intentDigest, encoded, .pending, 0, none, none, none,
        recordedAt, recordedAt⟩
      let db ← get
      readBack (db.effectOutbox.find? (·.idempotencyKey = idempotencyKey))

/-- The update of `begin_effect`. -/
def OutboxRow.begun (row : OutboxRow) (recordedAt : String) : OutboxRow :=
  { row with
    state := .executing
    attemptCount := row.attemptCount + 1
    updatedAt := recordedAt
    lastError := none }

/-- `begin_effect`. An entry that is not pending is returned as it is, also one that another call
is executing. -/
def beginEffect (readOnly : Bool) (intentDigest recordedAt : String) : StoreM OutboxRow := do
  requireWritable readOnly
  transaction do
    let db ← get
    match db.entry intentDigest with
    | none => throw (kernelIntegrityError "effect intent is not durable")
    | some row => do
      if row.state ≠ .pending then return row
      modify (·.updateEntry intentDigest fun row ↦
        if row.state = .pending then row.begun recordedAt else row)
      let db ← get
      readBack (db.entry intentDigest)

/-- The update of `record_effect_receipt`. -/
def OutboxRow.withReceipt (row : OutboxRow) (receiptDigest recordedAt : String) : OutboxRow :=
  { row with
    state := .receiptRecorded
    receiptDigest := some receiptDigest
    reconciliationReason := none
    lastError := none
    updatedAt := recordedAt }

/-- `record_effect_receipt`. -/
def recordEffectReceipt (readOnly : Bool) (intentDigest receiptDigest : String)
    (receipt : List (String × PyValue)) (recordedAt : String) : StoreM OutboxRow := do
  requireWritable readOnly
  let encoded ← lift (canonicalBytes (.dict receipt))
  transaction do
    let db ← get
    if (db.entry intentDigest).isNone then
      throw (kernelIntegrityError "effect intent is not durable")
    match db.receipt intentDigest with
    | some existing =>
      if existing.receiptDigest ≠ receiptDigest ∨ existing.receiptJson ≠ encoded then
        throw (kernelIntegrityError "effect intent already has a different receipt")
    | none => insertReceiptRow ⟨receiptDigest, intentDigest, encoded, recordedAt⟩
    modify (·.updateEntry intentDigest (·.withReceipt receiptDigest recordedAt))
    let db ← get
    readBack (db.entry intentDigest)

/-- The outbox part of a reconciliation mark. -/
def OutboxRow.flagged (row : OutboxRow) (reason recordedAt : String) : OutboxRow :=
  { row with
    state := .reconciliationRequired
    reconciliationReason := some reason
    lastError := some reason
    updatedAt := recordedAt }

/-- `mark_effect_reconciliation_required`. Evidence that is absent or empty is written as an empty
object. -/
def markEffectReconciliationRequired (readOnly : Bool) (intentDigest reason recordedAt : String)
    (evidence : Option (List (String × PyValue))) (state : String) : StoreM OutboxRow := do
  requireWritable readOnly
  if state ≠ "reconciliation_required" ∧ state ≠ "reconciled" then
    throw (kernelIntegrityError "invalid effect reconciliation state")
  let evidenceJson ← lift (canonicalBytes (.dict (evidence.getD [])))
  transaction do
    let db ← get
    match db.entry intentDigest with
    | none => throw (kernelIntegrityError "effect intent is not durable")
    | some entry => do
      if entry.state ≠ .receiptRecorded then
        modify (·.updateEntry intentDigest (·.flagged reason recordedAt))
      modify (·.addReconciliation intentDigest state reason evidenceJson recordedAt)
      let db ← get
      readBack (db.entry intentDigest)

/-- The reason that `recover_effects` gives. -/
def interruptedReason : String := "process interrupted during effect execution"

/-- One iteration of `recover_effects`. -/
def recoverEntry (recordedAt : String) (db : KernelDb) (intentDigest : String) : KernelDb :=
  (db.updateEntry intentDigest fun row ↦
    if row.state = .executing then row.flagged interruptedReason recordedAt else row)
    |>.addReconciliation intentDigest "reconciliation_required" interruptedReason "\x7b\x7d"
      recordedAt

/-- `recover_effects`. -/
def recoverEffects (readOnly : Bool) (recordedAt : String) : StoreM (List String) := do
  requireWritable readOnly
  transaction do
    let db ← get
    let digests := (db.effectOutbox.filter (·.state = .executing)).map OutboxRow.intentDigest
    set (digests.foldl (recoverEntry recordedAt) db)
    return digests

/-! ## Lookups -/

theorem KernelDb.mem_of_entry {db : KernelDb} {intentDigest : String} {row : OutboxRow}
    (h : db.entry intentDigest = some row) :
    row ∈ db.effectOutbox ∧ row.intentDigest = intentDigest := by
  have hfound := List.find?_some h
  exact ⟨List.mem_of_find?_eq_some h, of_decide_eq_true hfound⟩

theorem KernelDb.mem_of_receipt {db : KernelDb} {intentDigest : String} {row : ReceiptRow}
    (h : db.receipt intentDigest = some row) :
    row ∈ db.effectReceipts ∧ row.intentDigest = intentDigest := by
  have hfound := List.find?_some h
  exact ⟨List.mem_of_find?_eq_some h, of_decide_eq_true hfound⟩

theorem KernelDb.receipt_eq_none {db : KernelDb} {intentDigest : String} :
    db.receipt intentDigest = none ↔
      intentDigest ∉ db.effectReceipts.map ReceiptRow.intentDigest := by
  simp only [KernelDb.receipt, List.find?_eq_none, List.mem_map, decide_eq_true_eq, not_exists,
    not_and]

theorem KernelDb.mem_updateEntry {db : KernelDb} {intentDigest : String}
    {f : OutboxRow → OutboxRow} {row : OutboxRow} :
    row ∈ (db.updateEntry intentDigest f).effectOutbox ↔
      ∃ old ∈ db.effectOutbox, row = if old.intentDigest = intentDigest then f old else old := by
  simp only [KernelDb.updateEntry, List.mem_map, eq_comm]

/-- An update that leaves a column as it is leaves the column of the table as it is. -/
theorem KernelDb.map_updateEntry {α : Type} {db : KernelDb} {intentDigest : String}
    {f : OutboxRow → OutboxRow} {column : OutboxRow → α} (h : ∀ row, column (f row) = column row) :
    (db.updateEntry intentDigest f).effectOutbox.map column = db.effectOutbox.map column := by
  rw [KernelDb.updateEntry, List.map_map]
  refine List.map_congr_left fun row _ ↦ ?_
  simp only [Function.comp_apply]
  split
  · exact h row
  · rfl

/-! ## Changes -/

/-- What can happen to the effect tables. -/
inductive EffectChange (db : KernelDb) : KernelDb → Prop
  | enqueue (row : OutboxRow) (state : row.state = .pending) (attempts : row.attemptCount = 0)
      (key : row.idempotencyKey ∉ db.effectOutbox.map OutboxRow.idempotencyKey)
      (digest : row.intentDigest ∉ db.effectOutbox.map OutboxRow.intentDigest) :
      EffectChange db { db with effectOutbox := db.effectOutbox ++ [row] }
  | begin (intentDigest recordedAt : String) :
      EffectChange db (db.updateEntry intentDigest fun row ↦
        if row.state = .pending then row.begun recordedAt else row)
  | receipt (receipt : ReceiptRow) (receipts : List ReceiptRow) (recordedAt : String)
      (known : receipt.intentDigest ∈ db.effectOutbox.map OutboxRow.intentDigest)
      (added : (receipt ∈ db.effectReceipts ∧ receipts = db.effectReceipts) ∨
        (receipt.intentDigest ∉ db.effectReceipts.map ReceiptRow.intentDigest ∧
          receipts = db.effectReceipts ++ [receipt])) :
      EffectChange db { db.updateEntry receipt.intentDigest
        (·.withReceipt receipt.receiptDigest recordedAt) with effectReceipts := receipts }
  | note (intentDigest state reason evidenceJson recordedAt : String) :
      EffectChange db (db.addReconciliation intentDigest state reason evidenceJson recordedAt)
  | flag (intentDigest reason recordedAt : String) (chosen : OutboxRow → Bool)
      (noted : intentDigest ∈ db.effectReconciliations.map ReconciliationRow.intentDigest)
      (unsettled : ∀ e ∈ db.effectOutbox, e.intentDigest = intentDigest → chosen e = true →
        e.state ≠ .receiptRecorded) :
      EffectChange db (db.updateEntry intentDigest fun row ↦
        if chosen row = true then row.flagged reason recordedAt else row)

/-! ## The invariant -/

/-- What holds of an entry, given the receipts and the reconciliation records. -/
structure EntryOk (receipts : List ReceiptRow) (reconciliations : List ReconciliationRow)
    (e : OutboxRow) : Prop where
  attempts : e.attemptCount ≤ 1
  unattempted : e.state = .pending → e.attemptCount = 0
  recorded : e.state = .receiptRecorded ↔ e.intentDigest ∈ receipts.map ReceiptRow.intentDigest
  linked : ∀ r ∈ receipts, r.intentDigest = e.intentDigest → e.receiptDigest = some r.receiptDigest
  noted : e.state = .reconciliationRequired →
    e.intentDigest ∈ reconciliations.map ReconciliationRow.intentDigest

/-- What holds of the effect tables after any calls. -/
structure EffectsOk (db : KernelDb) : Prop where
  keys : (db.effectOutbox.map OutboxRow.idempotencyKey).Nodup
  digests : (db.effectOutbox.map OutboxRow.intentDigest).Nodup
  receipts : (db.effectReceipts.map ReceiptRow.intentDigest).Nodup
  known : ∀ r ∈ db.effectReceipts, r.intentDigest ∈ db.effectOutbox.map OutboxRow.intentDigest
  entries : ∀ e ∈ db.effectOutbox, EntryOk db.effectReceipts db.effectReconciliations e

theorem effectsOk_emptyDb : EffectsOk emptyDb where
  keys := List.nodup_nil
  digests := List.nodup_nil
  receipts := List.nodup_nil
  known := nofun
  entries := nofun

namespace EntryOk

variable {receipts : List ReceiptRow} {reconciliations : List ReconciliationRow} {e : OutboxRow}

theorem begun (h : EntryOk receipts reconciliations e) (hpending : e.state = .pending)
    (recordedAt : String) : EntryOk receipts reconciliations (e.begun recordedAt) where
  attempts := by
    rw [OutboxRow.begun, h.unattempted hpending]
  unattempted := nofun
  recorded := by
    refine ⟨nofun, fun hmem ↦ ?_⟩
    have hstate := h.recorded.mpr hmem
    rw [hpending] at hstate
    exact nomatch hstate
  linked := h.linked
  noted := nofun

theorem flagged (h : EntryOk receipts reconciliations e) (hstate : e.state ≠ .receiptRecorded)
    (hnoted : e.intentDigest ∈ reconciliations.map ReconciliationRow.intentDigest)
    (reason recordedAt : String) :
    EntryOk receipts reconciliations (e.flagged reason recordedAt) where
  attempts := h.attempts
  unattempted := nofun
  recorded := ⟨nofun, fun hmem ↦ absurd (h.recorded.mpr hmem) hstate⟩
  linked := h.linked
  noted := fun _ ↦ hnoted

theorem withReceipt (h : EntryOk receipts reconciliations e) {receipts' : List ReceiptRow}
    {receipt : ReceiptRow} (hmem : receipt ∈ receipts')
    (hdigest : receipt.intentDigest = e.intentDigest)
    (hunique : (receipts'.map ReceiptRow.intentDigest).Nodup) (recordedAt : String) :
    EntryOk receipts' reconciliations (e.withReceipt receipt.receiptDigest recordedAt) where
  attempts := h.attempts
  unattempted := nofun
  recorded := ⟨fun _ ↦ List.mem_map.mpr ⟨receipt, hmem, hdigest⟩, fun _ ↦ rfl⟩
  linked := by
    intro r hr heq
    have hsame : r = receipt := List.inj_on_of_nodup_map hunique hr hmem (heq.trans hdigest.symm)
    rw [hsame]
    rfl
  noted := nofun

/-- A receipt of another intent changes nothing about the entry. -/
theorem addReceipt (h : EntryOk receipts reconciliations e) {receipt : ReceiptRow}
    (hdigest : receipt.intentDigest ≠ e.intentDigest) :
    EntryOk (receipts ++ [receipt]) reconciliations e where
  attempts := h.attempts
  unattempted := h.unattempted
  recorded := by
    rw [h.recorded, List.map_append, List.mem_append, List.map_singleton, List.mem_singleton]
    exact ⟨.inl, fun hmem ↦ hmem.resolve_right fun heq ↦ hdigest heq.symm⟩
  linked := by
    intro r hr heq
    rcases List.mem_append.mp hr with hr | hr
    · exact h.linked r hr heq
    · exact absurd (List.mem_singleton.mp hr ▸ heq) hdigest
  noted := h.noted

theorem addReconciliation (h : EntryOk receipts reconciliations e) (row : ReconciliationRow) :
    EntryOk receipts (reconciliations ++ [row]) e where
  attempts := h.attempts
  unattempted := h.unattempted
  recorded := h.recorded
  linked := h.linked
  noted := by
    intro hstate
    rw [List.map_append]
    exact List.mem_append_left _ (h.noted hstate)

end EntryOk

/-- What holds of the entries after an update is shown of the updated ones and of the others. -/
private theorem forall_updateEntry {db : KernelDb} {intentDigest : String}
    {f : OutboxRow → OutboxRow} {P : OutboxRow → Prop}
    (hupdated : ∀ e ∈ db.effectOutbox, e.intentDigest = intentDigest → P (f e))
    (hother : ∀ e ∈ db.effectOutbox, e.intentDigest ≠ intentDigest → P e) :
    ∀ e ∈ (db.updateEntry intentDigest f).effectOutbox, P e := by
  intro e he
  obtain ⟨old, hold, rfl⟩ := KernelDb.mem_updateEntry.mp he
  split
  · next hdigest => exact hupdated old hold hdigest
  · next hdigest => exact hother old hold hdigest

/-- The update leaves the columns alone that say which intent an entry is of. -/
def KeepsIdentity (f : OutboxRow → OutboxRow) : Prop :=
  ∀ row, (f row).idempotencyKey = row.idempotencyKey ∧ (f row).intentDigest = row.intentDigest ∧
    (f row).intentJson = row.intentJson

private theorem EffectsOk.update {db : KernelDb} (hdb : EffectsOk db) {intentDigest : String}
    {f : OutboxRow → OutboxRow} {receipts : List ReceiptRow} (hf : KeepsIdentity f)
    (hreceipts : (receipts.map ReceiptRow.intentDigest).Nodup)
    (hknown : ∀ r ∈ receipts, r.intentDigest ∈ db.effectOutbox.map OutboxRow.intentDigest)
    (hupdated : ∀ e ∈ db.effectOutbox, e.intentDigest = intentDigest →
      EntryOk receipts db.effectReconciliations (f e))
    (hother : ∀ e ∈ db.effectOutbox, e.intentDigest ≠ intentDigest →
      EntryOk receipts db.effectReconciliations e) :
    EffectsOk { db.updateEntry intentDigest f with effectReceipts := receipts } where
  keys := by
    rw [KernelDb.map_updateEntry fun row ↦ (hf row).1]
    exact hdb.keys
  digests := by
    rw [KernelDb.map_updateEntry fun row ↦ (hf row).2.1]
    exact hdb.digests
  receipts := hreceipts
  known := by
    rw [KernelDb.map_updateEntry fun row ↦ (hf row).2.1]
    exact hknown
  entries := forall_updateEntry hupdated hother

private theorem keepsIdentity_ite {c : OutboxRow → Prop} [DecidablePred c]
    {f : OutboxRow → OutboxRow} (hf : KeepsIdentity f) :
    KeepsIdentity fun row ↦ if c row then f row else row := by
  intro row
  dsimp only
  split
  · exact hf row
  · exact ⟨rfl, rfl, rfl⟩

/-- **Every change keeps the invariant.** -/
theorem EffectsOk.change {db db' : KernelDb} (hdb : EffectsOk db) (h : EffectChange db db') :
    EffectsOk db' := by
  cases h with
  | enqueue row state attempts key digest =>
    have hnodup : ∀ {f : OutboxRow → String}, (db.effectOutbox.map f).Nodup →
        f row ∉ db.effectOutbox.map f → ((db.effectOutbox ++ [row]).map f).Nodup := by
      intro f hold hnew
      rw [List.map_append, List.map_singleton, List.nodup_append_comm]
      exact List.nodup_cons.mpr ⟨hnew, hold⟩
    -- a new entry has no receipt, because receipts are of entries
    have hnone : row.intentDigest ∉ db.effectReceipts.map ReceiptRow.intentDigest := by
      intro hmem
      obtain ⟨r, hr, heq⟩ := List.mem_map.mp hmem
      exact digest (heq ▸ hdb.known r hr)
    refine ⟨hnodup hdb.keys key, hnodup hdb.digests digest, hdb.receipts, fun r hr ↦ ?_, ?_⟩
    · rw [List.map_append]
      exact List.mem_append_left _ (hdb.known r hr)
    · intro e he
      rcases List.mem_append.mp he with he | he
      · exact hdb.entries e he
      · obtain rfl := List.mem_singleton.mp he
        refine ⟨by omega, fun _ ↦ attempts, ?_, fun r hr heq ↦ ?_, ?_⟩
        · rw [state]
          exact ⟨nofun, fun hmem ↦ absurd hmem hnone⟩
        · exact absurd (List.mem_map.mpr ⟨r, hr, heq⟩) hnone
        · rw [state]
          exact nofun
  | begin intentDigest recordedAt =>
    refine hdb.update (keepsIdentity_ite fun _ ↦ ⟨rfl, rfl, rfl⟩) hdb.receipts hdb.known
      (fun e he _ ↦ ?_) fun e he _ ↦ hdb.entries e he
    split
    · next hpending => exact (hdb.entries e he).begun hpending recordedAt
    · exact hdb.entries e he
  | receipt receipt receipts recordedAt known added =>
    rcases added with ⟨hmem, rfl⟩ | ⟨hnew, rfl⟩
    · exact hdb.update (fun _ ↦ ⟨rfl, rfl, rfl⟩) hdb.receipts hdb.known
        (fun e he heq ↦ (hdb.entries e he).withReceipt hmem heq.symm hdb.receipts recordedAt)
        fun e he _ ↦ hdb.entries e he
    · have hnodup : ((db.effectReceipts ++ [receipt]).map ReceiptRow.intentDigest).Nodup := by
        rw [List.map_append, List.map_singleton, List.nodup_append_comm]
        exact List.nodup_cons.mpr ⟨hnew, hdb.receipts⟩
      refine hdb.update (fun _ ↦ ⟨rfl, rfl, rfl⟩) hnodup (fun r hr ↦ ?_) (fun e he heq ↦ ?_)
        fun e he hne ↦ (hdb.entries e he).addReceipt fun heq ↦ hne heq.symm
      · rcases List.mem_append.mp hr with hr | hr
        · exact hdb.known r hr
        · exact List.mem_singleton.mp hr ▸ known
      · exact (hdb.entries e he).withReceipt (List.mem_append_right _ (List.mem_singleton_self _))
          heq.symm hnodup recordedAt
  | note intentDigest state reason evidenceJson recordedAt =>
    exact ⟨hdb.keys, hdb.digests, hdb.receipts, hdb.known,
      fun e he ↦ (hdb.entries e he).addReconciliation _⟩
  | flag intentDigest reason recordedAt chosen noted unsettled =>
    refine hdb.update (keepsIdentity_ite fun _ ↦ ⟨rfl, rfl, rfl⟩) hdb.receipts hdb.known
      (fun e he heq ↦ ?_) fun e he _ ↦ hdb.entries e he
    split
    · next hchosen =>
      exact (hdb.entries e he).flagged (unsettled e he heq hchosen) (heq ▸ noted) reason recordedAt
    · exact hdb.entries e he

/-! ## The fate of an entry -/

/-- What an entry can become. -/
structure OutboxRow.Evolves (e e' : OutboxRow) : Prop where
  key : e'.idempotencyKey = e.idempotencyKey
  digest : e'.intentDigest = e.intentDigest
  intent : e'.intentJson = e.intentJson
  attempts : e.attemptCount ≤ e'.attemptCount
  begun : e.state ≠ .pending → e'.state ≠ .pending
  flagged : e.state = .reconciliationRequired →
    e'.state = .receiptRecorded ∨ e'.state = .reconciliationRequired
  recorded : e.state = .receiptRecorded →
    e'.state = .receiptRecorded ∧ e'.receiptDigest = e.receiptDigest

theorem OutboxRow.Evolves.refl (e : OutboxRow) : e.Evolves e :=
  ⟨rfl, rfl, rfl, le_rfl, id, .inr, fun h ↦ ⟨h, rfl⟩⟩

theorem OutboxRow.Evolves.trans {e₁ e₂ e₃ : OutboxRow} (h : e₁.Evolves e₂) (h' : e₂.Evolves e₃) :
    e₁.Evolves e₃ where
  key := h'.key.trans h.key
  digest := h'.digest.trans h.digest
  intent := h'.intent.trans h.intent
  attempts := h.attempts.trans h'.attempts
  begun := fun hstate ↦ h'.begun (h.begun hstate)
  flagged := fun hstate ↦ by
    rcases h.flagged hstate with hrecorded | hflagged
    · exact .inl (h'.recorded hrecorded).1
    · exact h'.flagged hflagged
  recorded := fun hstate ↦ by
    obtain ⟨hstate', hdigest⟩ := h.recorded hstate
    obtain ⟨hstate'', hdigest'⟩ := h'.recorded hstate'
    exact ⟨hstate'', hdigest'.trans hdigest⟩

/-- Every entry of the first database has become one of the second, and no receipt or
reconciliation record is gone. -/
structure EffectsEvolve (db db' : KernelDb) : Prop where
  outbox : ∀ e ∈ db.effectOutbox, ∃ e' ∈ db'.effectOutbox, e.Evolves e'
  receipts : db.effectReceipts <+: db'.effectReceipts
  reconciliations : db.effectReconciliations <+: db'.effectReconciliations

theorem EffectsEvolve.refl (db : KernelDb) : EffectsEvolve db db :=
  ⟨fun e he ↦ ⟨e, he, .refl e⟩, List.prefix_rfl, List.prefix_rfl⟩

theorem EffectsEvolve.trans {db₁ db₂ db₃ : KernelDb} (h : EffectsEvolve db₁ db₂)
    (h' : EffectsEvolve db₂ db₃) : EffectsEvolve db₁ db₃ where
  outbox := by
    intro e he
    obtain ⟨e', he', hevolves⟩ := h.outbox e he
    obtain ⟨e'', he'', hevolves'⟩ := h'.outbox e' he'
    exact ⟨e'', he'', hevolves.trans hevolves'⟩
  receipts := h.receipts.trans h'.receipts
  reconciliations := h.reconciliations.trans h'.reconciliations

private theorem evolve_updateEntry {db : KernelDb} {intentDigest : String}
    {f : OutboxRow → OutboxRow}
    (h : ∀ e ∈ db.effectOutbox, e.intentDigest = intentDigest → e.Evolves (f e)) :
    ∀ e ∈ db.effectOutbox, ∃ e' ∈ (db.updateEntry intentDigest f).effectOutbox, e.Evolves e' := by
  intro e he
  refine ⟨_, KernelDb.mem_updateEntry.mpr ⟨e, he, rfl⟩, ?_⟩
  split
  · next hdigest => exact h e he hdigest
  · exact .refl e

theorem EffectsOk.evolve {db db' : KernelDb} (hdb : EffectsOk db) (h : EffectChange db db') :
    EffectsEvolve db db' := by
  cases h with
  | enqueue row state attempts key digest =>
    exact ⟨fun e he ↦ ⟨e, List.mem_append_left _ he, .refl e⟩, List.prefix_rfl, List.prefix_rfl⟩
  | begin intentDigest recordedAt =>
    refine ⟨evolve_updateEntry fun e he _ ↦ ?_, List.prefix_rfl, List.prefix_rfl⟩
    split
    · next hpending =>
      refine ⟨rfl, rfl, rfl, Nat.le_succ _, fun hstate ↦ absurd hpending hstate, fun hstate ↦ ?_,
        fun hstate ↦ ?_⟩
      · exact nomatch hpending.symm.trans hstate
      · exact nomatch hpending.symm.trans hstate
    · exact .refl e
  | receipt receipt receipts recordedAt known added =>
    refine ⟨evolve_updateEntry fun e he heq ↦ ?_, ?_, List.prefix_rfl⟩
    · refine ⟨rfl, rfl, rfl, le_rfl, nofun, fun _ ↦ .inl rfl, fun hstate ↦ ⟨rfl, ?_⟩⟩
      -- an entry with a receipt is linked to it, so this is the receipt it has
      rcases added with ⟨hmem, rfl⟩ | ⟨hnew, rfl⟩
      · exact ((hdb.entries e he).linked receipt hmem heq.symm).symm
      · exact absurd (heq ▸ (hdb.entries e he).recorded.mp hstate) hnew
    · rcases added with ⟨-, rfl⟩ | ⟨-, rfl⟩
      · exact List.prefix_rfl
      · exact List.prefix_append _ _
  | note intentDigest state reason evidenceJson recordedAt =>
    exact ⟨fun e he ↦ ⟨e, he, .refl e⟩, List.prefix_rfl, List.prefix_append _ _⟩
  | flag intentDigest reason recordedAt chosen noted unsettled =>
    refine ⟨evolve_updateEntry fun e he heq ↦ ?_, List.prefix_rfl, List.prefix_rfl⟩
    split
    · next hchosen =>
      exact ⟨rfl, rfl, rfl, le_rfl, nofun, fun _ ↦ .inr rfl,
        fun hstate ↦ absurd hstate (unsettled e he heq hchosen)⟩
    · exact .refl e

/-! ## What the operations do -/

theorem KernelDb.entry_updateEntry {db : KernelDb} {intentDigest : String}
    {f : OutboxRow → OutboxRow} (hf : KeepsIdentity f) (intentDigest' : String) :
    (db.updateEntry intentDigest f).entry intentDigest' = (db.entry intentDigest').map fun row ↦
      if row.intentDigest = intentDigest then f row else row := by
  rw [KernelDb.entry, KernelDb.updateEntry, List.find?_map, KernelDb.entry]
  congr 2
  funext row
  simp only [Function.comp_apply]
  split
  · rw [(hf row).2.1]
  · rfl

theorem insertOutboxRow_eq_ok {row : OutboxRow} {db db' : KernelDb} {u : Unit} :
    insertOutboxRow row db = .ok u db' ↔
      row.idempotencyKey ∉ db.effectOutbox.map OutboxRow.idempotencyKey ∧
        row.intentDigest ∉ db.effectOutbox.map OutboxRow.intentDigest ∧
        db' = { db with effectOutbox := db.effectOutbox ++ [row] } := by
  simp only [insertOutboxRow, run_bind_eq_ok, run_get_eq_ok, run_guard_eq_ok, run_set_eq_ok]
  constructor
  · rintro ⟨_, _, ⟨rfl, rfl⟩, h⟩
    exact h
  · intro h
    exact ⟨db, db, ⟨rfl, rfl⟩, h⟩

theorem insertReceiptRow_eq_ok {row : ReceiptRow} {db db' : KernelDb} {u : Unit} :
    insertReceiptRow row db = .ok u db' ↔
      row.receiptDigest ∉ db.effectReceipts.map ReceiptRow.receiptDigest ∧
        row.intentDigest ∉ db.effectReceipts.map ReceiptRow.intentDigest ∧
        db' = { db with effectReceipts := db.effectReceipts ++ [row] } := by
  simp only [insertReceiptRow, run_bind_eq_ok, run_get_eq_ok, run_guard_eq_ok, run_set_eq_ok]
  constructor
  · rintro ⟨_, _, ⟨rfl, rfl⟩, h⟩
    exact h
  · intro h
    exact ⟨db, db, ⟨rfl, rfl⟩, h⟩

theorem readBack_eq_ok {row? : Option OutboxRow} {db db' : KernelDb} {row : OutboxRow} :
    readBack row? db = .ok row db' ↔ row? = some row ∧ db = db' := by
  cases row? with
  | none => exact ⟨fun h ↦ (nomatch h), fun h ↦ (nomatch h.1)⟩
  | some row' =>
    rw [readBack, run_pure_eq_ok, Option.some.injEq, eq_comm (a := row)]

/-- An entry is found by its key, or a new one is pending. -/
theorem enqueueEffect_eq_ok {readOnly : Bool} {key intentDigest recordedAt : String}
    {intent : List (String × PyValue)} {db db' : KernelDb} {row : OutboxRow}
    (h : enqueueEffect readOnly key intentDigest intent recordedAt db = .ok row db') :
    readOnly = false ∧ row.intentDigest = intentDigest ∧
      canonicalBytes (.dict intent) = .ok row.intentJson ∧
      ((db' = db ∧ row ∈ db.effectOutbox) ∨
        (row.state = .pending ∧ row.attemptCount = 0 ∧
          row.idempotencyKey ∉ db.effectOutbox.map OutboxRow.idempotencyKey ∧
          row.intentDigest ∉ db.effectOutbox.map OutboxRow.intentDigest ∧
          db' = { db with effectOutbox := db.effectOutbox ++ [row] })) := by
  simp only [enqueueEffect, run_bind_eq_ok, requireWritable_eq_ok, run_lift_eq_ok,
    transaction_eq_ok, run_get_eq_ok] at h
  obtain ⟨_, _, ⟨rfl, rfl⟩, encoded, _, ⟨hencoded, rfl⟩, _, _, ⟨rfl, rfl⟩, h⟩ := h
  refine ⟨rfl, ?_⟩
  cases hfind : db.effectOutbox.find? (·.idempotencyKey = key) with
  | some found =>
    rw [hfind] at h
    simp only [run_guard_eq_ok, run_pure_eq_ok, not_or, not_not] at h
    obtain ⟨⟨hdigest, hjson⟩, rfl, rfl⟩ := h
    exact ⟨hdigest, hjson ▸ hencoded, .inl ⟨rfl, List.mem_of_find?_eq_some hfind⟩⟩
  | none =>
    rw [hfind] at h
    simp only [run_bind_eq_ok, insertOutboxRow_eq_ok, run_get_eq_ok, readBack_eq_ok] at h
    obtain ⟨_, _, ⟨hkey, hdigest, rfl⟩, _, _, ⟨rfl, rfl⟩, hrow, rfl⟩ := h
    rw [List.find?_append, hfind, Option.none_or, List.find?_singleton] at hrow
    simp only [decide_true, if_true, Option.some.injEq] at hrow
    obtain rfl := hrow
    exact ⟨rfl, hencoded, .inr ⟨rfl, rfl, hkey, hdigest, rfl⟩⟩

/-- A new entry is enqueued where neither its key nor its digest is in use. -/
theorem enqueueEffect_of_fresh {key intentDigest recordedAt encoded : String}
    {intent : List (String × PyValue)} {db : KernelDb}
    (hencoded : canonicalBytes (.dict intent) = .ok encoded)
    (hkey : key ∉ db.effectOutbox.map OutboxRow.idempotencyKey)
    (hdigest : intentDigest ∉ db.effectOutbox.map OutboxRow.intentDigest) :
    enqueueEffect false key intentDigest intent recordedAt db =
      .ok ⟨key, intentDigest, encoded, .pending, 0, none, none, none, recordedAt, recordedAt⟩
        { db with effectOutbox := db.effectOutbox ++
          [⟨key, intentDigest, encoded, .pending, 0, none, none, none, recordedAt,
            recordedAt⟩] } := by
  have hfind : db.effectOutbox.find? (·.idempotencyKey = key) = none := by
    rw [List.find?_eq_none]
    intro row hrow heq
    exact hkey (List.mem_map.mpr ⟨row, hrow, of_decide_eq_true heq⟩)
  simp only [enqueueEffect, run_bind_eq_ok, requireWritable_eq_ok, run_lift_eq_ok,
    transaction_eq_ok, run_get_eq_ok]
  refine ⟨(), db, ⟨trivial, rfl⟩, encoded, db, ⟨hencoded, rfl⟩, db, db, ⟨rfl, rfl⟩, ?_⟩
  rw [hfind]
  simp only [run_bind_eq_ok, insertOutboxRow_eq_ok, run_get_eq_ok, readBack_eq_ok]
  refine ⟨(), _, ⟨hkey, hdigest, rfl⟩, _, _, ⟨rfl, rfl⟩, ?_, rfl⟩
  rw [List.find?_append, hfind, Option.none_or, List.find?_singleton, if_pos (decide_eq_true rfl)]

theorem KernelDb.entry_begun {db : KernelDb} {intentDigest recordedAt : String} {entry : OutboxRow}
    (hentry : db.entry intentDigest = some entry) (hpending : entry.state = .pending) :
    (db.updateEntry intentDigest fun row ↦
      if row.state = .pending then row.begun recordedAt else row).entry intentDigest =
        some (entry.begun recordedAt) := by
  have hkeeps : KeepsIdentity fun row ↦
      if row.state = .pending then row.begun recordedAt else row :=
    keepsIdentity_ite fun _ ↦ ⟨rfl, rfl, rfl⟩
  rw [KernelDb.entry_updateEntry hkeeps, hentry, Option.map_some,
    if_pos (KernelDb.mem_of_entry hentry).2, if_pos hpending]

/-- A pending entry is claimed; any other is returned as it is. -/
theorem beginEffect_eq_ok {readOnly : Bool} {intentDigest recordedAt : String}
    {db db' : KernelDb} {row : OutboxRow}
    (h : beginEffect readOnly intentDigest recordedAt db = .ok row db') :
    ∃ entry, db.entry intentDigest = some entry ∧
      ((entry.state ≠ .pending ∧ row = entry ∧ db' = db) ∨
        (entry.state = .pending ∧ row = entry.begun recordedAt ∧
          db' = db.updateEntry intentDigest fun row ↦
            if row.state = .pending then row.begun recordedAt else row)) := by
  simp only [beginEffect, run_bind_eq_ok, requireWritable_eq_ok, transaction_eq_ok,
    run_get_eq_ok] at h
  obtain ⟨_, _, ⟨rfl, rfl⟩, _, _, ⟨rfl, rfl⟩, h⟩ := h
  cases hentry : db.entry intentDigest with
  | none =>
    rw [hentry] at h
    exact nomatch h
  | some entry =>
    rw [hentry] at h
    dsimp only at h
    split at h
    · next hstate =>
      obtain ⟨rfl, rfl⟩ := run_pure_eq_ok.mp h
      exact ⟨row, rfl, .inl ⟨hstate, rfl, rfl⟩⟩
    · next hstate =>
      rw [not_not] at hstate
      simp only [run_bind_eq_ok, run_modify_eq_ok, run_get_eq_ok, readBack_eq_ok] at h
      obtain ⟨_, _, rfl, _, _, ⟨rfl, rfl⟩, hrow, rfl⟩ := h
      rw [KernelDb.entry_begun hentry hstate, Option.some.injEq] at hrow
      exact ⟨entry, rfl, .inr ⟨hstate, hrow.symm, rfl⟩⟩

theorem beginEffect_of_pending {intentDigest recordedAt : String} {db : KernelDb}
    {entry : OutboxRow} (hentry : db.entry intentDigest = some entry)
    (hpending : entry.state = .pending) :
    beginEffect false intentDigest recordedAt db = .ok (entry.begun recordedAt)
      (db.updateEntry intentDigest fun row ↦
        if row.state = .pending then row.begun recordedAt else row) := by
  simp only [beginEffect, run_bind_eq_ok, requireWritable_eq_ok, transaction_eq_ok, run_get_eq_ok]
  refine ⟨(), db, ⟨trivial, rfl⟩, db, db, ⟨rfl, rfl⟩, ?_⟩
  rw [hentry]
  dsimp only
  rw [if_neg (not_not.mpr hpending)]
  simp only [run_bind_eq_ok, run_modify_eq_ok, run_get_eq_ok, readBack_eq_ok]
  exact ⟨(), _, rfl, _, _, ⟨rfl, rfl⟩, KernelDb.entry_begun hentry hpending, rfl⟩

theorem beginEffect_of_not_pending {intentDigest recordedAt : String} {db : KernelDb}
    {entry : OutboxRow} (hentry : db.entry intentDigest = some entry)
    (hstate : entry.state ≠ .pending) :
    beginEffect false intentDigest recordedAt db = .ok entry db := by
  simp only [beginEffect, run_bind_eq_ok, requireWritable_eq_ok, transaction_eq_ok, run_get_eq_ok]
  refine ⟨(), db, ⟨trivial, rfl⟩, db, db, ⟨rfl, rfl⟩, ?_⟩
  rw [hentry]
  dsimp only
  rw [if_pos hstate]
  rfl

/-- The entry gets the receipt, which is stored already or is appended. -/
theorem recordEffectReceipt_eq_ok {readOnly : Bool} {intentDigest receiptDigest recordedAt : String}
    {receipt : List (String × PyValue)} {db db' : KernelDb} {row : OutboxRow}
    (h : recordEffectReceipt readOnly intentDigest receiptDigest receipt recordedAt db =
      .ok row db') :
    ∃ entry stored receipts, db.entry intentDigest = some entry ∧
      stored.intentDigest = intentDigest ∧ stored.receiptDigest = receiptDigest ∧
      canonicalBytes (.dict receipt) = .ok stored.receiptJson ∧
      ((stored ∈ db.effectReceipts ∧ receipts = db.effectReceipts) ∨
        (intentDigest ∉ db.effectReceipts.map ReceiptRow.intentDigest ∧
          receipts = db.effectReceipts ++ [stored])) ∧
      row = entry.withReceipt receiptDigest recordedAt ∧
      db' = { db.updateEntry intentDigest (·.withReceipt receiptDigest recordedAt) with
        effectReceipts := receipts } := by
  simp only [recordEffectReceipt, run_bind_eq_ok, requireWritable_eq_ok, run_lift_eq_ok,
    transaction_eq_ok, run_get_eq_ok, run_guard_eq_ok, Option.isNone_iff_eq_none] at h
  obtain ⟨_, _, ⟨rfl, rfl⟩, encoded, _, ⟨hencoded, rfl⟩, _, _, ⟨rfl, rfl⟩, hdurable, h⟩ := h
  obtain ⟨entry, hentry⟩ := Option.ne_none_iff_exists'.mp hdurable
  have hkeeps : KeepsIdentity (·.withReceipt receiptDigest recordedAt) := fun _ ↦ ⟨rfl, rfl, rfl⟩
  -- what follows the two ways of having the receipt stored
  have hlink : ∀ {db₁ : KernelDb}, db₁.effectOutbox = db.effectOutbox →
      (db₁.updateEntry intentDigest (·.withReceipt receiptDigest recordedAt)).entry intentDigest =
        some row → row = entry.withReceipt receiptDigest recordedAt := by
    intro db₁ houtbox hrow
    have hentry₁ : db₁.entry intentDigest = some entry := by
      rw [KernelDb.entry, houtbox]
      exact hentry
    rw [KernelDb.entry_updateEntry hkeeps, hentry₁, Option.map_some,
      if_pos (KernelDb.mem_of_entry hentry).2, Option.some.injEq] at hrow
    exact hrow.symm
  cases hreceipt : db.receipt intentDigest with
  | some existing =>
    rw [hreceipt] at h
    simp only [run_bind_eq_ok, run_guard_eq_ok, run_modify_eq_ok, run_get_eq_ok, readBack_eq_ok,
      not_or, not_not] at h
    obtain ⟨⟨hdigest, hjson⟩, _, _, rfl, _, _, ⟨rfl, rfl⟩, hrow, rfl⟩ := h
    obtain ⟨hmem, hof⟩ := KernelDb.mem_of_receipt hreceipt
    exact ⟨entry, existing, _, hentry, hof, hdigest, hjson ▸ hencoded, .inl ⟨hmem, rfl⟩,
      hlink rfl hrow, rfl⟩
  | none =>
    rw [hreceipt] at h
    simp only [run_bind_eq_ok, insertReceiptRow_eq_ok, run_modify_eq_ok, run_get_eq_ok,
      readBack_eq_ok] at h
    obtain ⟨_, _, ⟨-, hnew, rfl⟩, _, _, rfl, _, _, ⟨rfl, rfl⟩, hrow, rfl⟩ := h
    exact ⟨entry, _, _, hentry, rfl, rfl, hencoded, .inr ⟨hnew, rfl⟩, hlink rfl hrow, rfl⟩

/-- What is read back after a receipt was recorded. -/
theorem entry_of_recordEffectReceipt {readOnly : Bool} {intentDigest receiptDigest recordedAt : String}
    {receipt : List (String × PyValue)} {db db' : KernelDb} {row : OutboxRow}
    (h : recordEffectReceipt readOnly intentDigest receiptDigest receipt recordedAt db =
      .ok row db') : db'.entry intentDigest = some row ∧ row.state = .receiptRecorded := by
  obtain ⟨entry, stored, receipts, hentry, -, -, -, -, rfl, rfl⟩ := recordEffectReceipt_eq_ok h
  have hkeeps : KeepsIdentity (·.withReceipt receiptDigest recordedAt) := fun _ ↦ ⟨rfl, rfl, rfl⟩
  refine ⟨?_, rfl⟩
  change (db.updateEntry intentDigest (·.withReceipt receiptDigest recordedAt)).entry
    intentDigest = _
  rw [KernelDb.entry_updateEntry hkeeps, hentry, Option.map_some,
    if_pos (KernelDb.mem_of_entry hentry).2]

/-- A mark is recorded, and an entry without a receipt is flagged. -/
theorem markEffectReconciliationRequired_eq_ok {readOnly : Bool}
    {intentDigest reason recordedAt state : String} {evidence : Option (List (String × PyValue))}
    {db db' : KernelDb} {row : OutboxRow}
    (h : markEffectReconciliationRequired readOnly intentDigest reason recordedAt evidence state db =
      .ok row db') :
    ∃ entry evidenceJson, db.entry intentDigest = some entry ∧
      db' = ((if entry.state ≠ .receiptRecorded then
        db.updateEntry intentDigest (·.flagged reason recordedAt) else db).addReconciliation
        intentDigest state reason evidenceJson recordedAt) := by
  simp only [markEffectReconciliationRequired, run_bind_eq_ok, requireWritable_eq_ok,
    run_guard_eq_ok, run_lift_eq_ok, transaction_eq_ok, run_get_eq_ok] at h
  obtain ⟨_, _, ⟨rfl, rfl⟩, -, evidenceJson, _, ⟨-, rfl⟩, _, _, ⟨rfl, rfl⟩, h⟩ := h
  cases hentry : db.entry intentDigest with
  | none =>
    rw [hentry] at h
    exact nomatch h
  | some entry =>
    rw [hentry] at h
    refine ⟨entry, evidenceJson, rfl, ?_⟩
    dsimp only at h
    split at h
    · next hstate =>
      simp only [run_bind_eq_ok, run_modify_eq_ok, run_get_eq_ok, readBack_eq_ok] at h
      obtain ⟨_, _, rfl, _, _, rfl, _, _, ⟨rfl, rfl⟩, -, rfl⟩ := h
      rw [if_pos hstate]
    · next hstate =>
      simp only [run_bind_eq_ok, run_modify_eq_ok, run_get_eq_ok, readBack_eq_ok] at h
      obtain ⟨_, _, rfl, _, _, ⟨rfl, rfl⟩, -, rfl⟩ := h
      rw [if_neg hstate]

/-- A mark is made of any entry that is there, if its evidence can be written, and the entry is
settled by it if it was not settled before. -/
theorem markEffectReconciliationRequired_of_entry {intentDigest evidenceJson : String}
    {evidence : Option (List (String × PyValue))} {db : KernelDb} {entry : OutboxRow}
    (hevidence : canonicalBytes (.dict (evidence.getD [])) = .ok evidenceJson)
    (hentry : db.entry intentDigest = some entry) (reason recordedAt : String) :
    ∃ row db', markEffectReconciliationRequired false intentDigest reason recordedAt evidence
        "reconciliation_required" db = .ok row db' ∧ db'.entry intentDigest = some row ∧
      (row.state = .receiptRecorded ∨ row.state = .reconciliationRequired) := by
  have hkeeps : KeepsIdentity (·.flagged reason recordedAt) := fun _ ↦ ⟨rfl, rfl, rfl⟩
  -- the entry that the transaction reads back
  obtain ⟨row, hrow, hstate⟩ : ∃ row, (if entry.state ≠ .receiptRecorded then
      db.updateEntry intentDigest (·.flagged reason recordedAt) else db).entry intentDigest =
        some row ∧ (row.state = .receiptRecorded ∨ row.state = .reconciliationRequired) := by
    by_cases hrecorded : entry.state = .receiptRecorded
    · exact ⟨entry, by rw [if_neg (not_not.mpr hrecorded)]; exact hentry, .inl hrecorded⟩
    · refine ⟨entry.flagged reason recordedAt, ?_, .inr rfl⟩
      rw [if_pos hrecorded, KernelDb.entry_updateEntry hkeeps, hentry, Option.map_some,
        if_pos (KernelDb.mem_of_entry hentry).2]
  refine ⟨row, (if entry.state ≠ .receiptRecorded then
      db.updateEntry intentDigest (·.flagged reason recordedAt) else db).addReconciliation
      intentDigest "reconciliation_required" reason evidenceJson recordedAt, ?_, hrow, hstate⟩
  simp only [markEffectReconciliationRequired, run_bind_eq_ok, requireWritable_eq_ok,
    run_guard_eq_ok, run_lift_eq_ok, transaction_eq_ok, run_get_eq_ok]
  refine ⟨(), db, ⟨trivial, rfl⟩, fun h ↦ h.1 rfl, evidenceJson, db, ⟨hevidence, rfl⟩, db, db,
    ⟨rfl, rfl⟩, ?_⟩
  rw [hentry]
  dsimp only
  split
  · next hne =>
    rw [if_pos hne] at hrow
    simp only [run_bind_eq_ok, run_modify_eq_ok, run_get_eq_ok, readBack_eq_ok]
    exact ⟨(), _, rfl, (), _, rfl, _, _, ⟨rfl, rfl⟩, hrow, rfl⟩
  · next hne =>
    rw [if_neg hne] at hrow
    simp only [run_bind_eq_ok, run_modify_eq_ok, run_get_eq_ok, readBack_eq_ok]
    exact ⟨(), _, rfl, _, _, ⟨rfl, rfl⟩, hrow, rfl⟩

theorem recoverEffects_eq_ok {readOnly : Bool} {recordedAt : String} {db db' : KernelDb}
    {digests : List String} (h : recoverEffects readOnly recordedAt db = .ok digests db') :
    db' = digests.foldl (recoverEntry recordedAt) db := by
  simp only [recoverEffects, run_bind_eq_ok, requireWritable_eq_ok, transaction_eq_ok,
    run_get_eq_ok, run_set_eq_ok, run_pure_eq_ok] at h
  obtain ⟨_, _, ⟨rfl, rfl⟩, _, _, ⟨rfl, rfl⟩, _, _, rfl, rfl, rfl⟩ := h
  rfl

/-! ## Calls -/

/-- A call of one of the five operations, through a handle that may be read-only. -/
inductive EffectCall where
  | enqueue (readOnly : Bool) (idempotencyKey intentDigest : String)
      (intent : List (String × PyValue)) (recordedAt : String)
  | begin (readOnly : Bool) (intentDigest recordedAt : String)
  | record (readOnly : Bool) (intentDigest receiptDigest : String)
      (receipt : List (String × PyValue)) (recordedAt : String)
  | mark (readOnly : Bool) (intentDigest reason recordedAt : String)
      (evidence : Option (List (String × PyValue))) (state : String)
  | recover (readOnly : Bool) (recordedAt : String)

namespace EffectCall

/-- The call, without what it returns. -/
def run : EffectCall → StoreM Unit
  | .enqueue readOnly key digest intent recordedAt => do
    let _ ← enqueueEffect readOnly key digest intent recordedAt
  | .begin readOnly digest recordedAt => do
    let _ ← beginEffect readOnly digest recordedAt
  | .record readOnly digest receiptDigest receipt recordedAt => do
    let _ ← recordEffectReceipt readOnly digest receiptDigest receipt recordedAt
  | .mark readOnly digest reason recordedAt evidence state => do
    let _ ← markEffectReconciliationRequired readOnly digest reason recordedAt evidence state
  | .recover readOnly recordedAt => do
    let _ ← recoverEffects readOnly recordedAt

/-- The database after the call, whether it returns or raises. -/
def after (call : EffectCall) (db : KernelDb) : KernelDb :=
  match call.run db with
  | .ok _ db' => db'
  | .error _ db' => db'

end EffectCall

/-- The changes that calls make. -/
def EffectChanges : KernelDb → KernelDb → Prop := Relation.ReflTransGen EffectChange

theorem EffectsOk.changes {db db' : KernelDb} (hdb : EffectsOk db) (h : EffectChanges db db') :
    EffectsOk db' ∧ EffectsEvolve db db' := by
  induction h with
  | refl => exact ⟨hdb, .refl db⟩
  | tail _ hchange ih => exact ⟨ih.1.change hchange, ih.2.trans (ih.1.evolve hchange)⟩

private theorem mem_addReconciliation (db : KernelDb)
    (intentDigest state reason evidenceJson recordedAt : String) :
    intentDigest ∈ (db.addReconciliation intentDigest state reason evidenceJson
      recordedAt).effectReconciliations.map ReconciliationRow.intentDigest := by
  rw [KernelDb.addReconciliation, List.map_append]
  exact List.mem_append_right _ (List.mem_singleton_self _)

/-- Recording a mark and flagging the entry for it. -/
private theorem changes_flag {db : KernelDb} {intentDigest : String} {chosen : OutboxRow → Bool}
    (hunsettled : ∀ e ∈ db.effectOutbox, e.intentDigest = intentDigest → chosen e = true →
      e.state ≠ .receiptRecorded) (state reason evidenceJson recordedAt : String) :
    EffectChanges db ((db.updateEntry intentDigest fun row ↦
      if chosen row = true then row.flagged reason recordedAt else row).addReconciliation
      intentDigest state reason evidenceJson recordedAt) :=
  (Relation.ReflTransGen.single (.note intentDigest state reason evidenceJson recordedAt)).tail
    (.flag intentDigest reason recordedAt chosen
      (mem_addReconciliation db intentDigest state reason evidenceJson recordedAt) hunsettled)

private theorem changes_recoverEntry (recordedAt : String) (db : KernelDb) (intentDigest : String) :
    EffectChanges db (recoverEntry recordedAt db intentDigest) := by
  have hunsettled : ∀ e ∈ db.effectOutbox, e.intentDigest = intentDigest →
      decide (e.state = .executing) = true → e.state ≠ .receiptRecorded := by
    intro e _ _ hexecuting
    rw [of_decide_eq_true hexecuting]
    exact nofun
  have h := changes_flag hunsettled "reconciliation_required" interruptedReason "\x7b\x7d"
    recordedAt
  simpa only [recoverEntry, decide_eq_true_eq] using h

private theorem changes_recover (recordedAt : String) (db : KernelDb) (digests : List String) :
    EffectChanges db (digests.foldl (recoverEntry recordedAt) db) := by
  induction digests generalizing db with
  | nil => exact .refl
  | cons digest digests ih => exact (changes_recoverEntry recordedAt db digest).trans (ih _)

theorem EffectsOk.eq_of_entry {db : KernelDb} (hdb : EffectsOk db) {intentDigest : String}
    {entry e : OutboxRow} (hentry : db.entry intentDigest = some entry) (he : e ∈ db.effectOutbox)
    (hdigest : e.intentDigest = intentDigest) : e = entry := by
  obtain ⟨hmem, hentryDigest⟩ := KernelDb.mem_of_entry hentry
  exact List.inj_on_of_nodup_map hdb.digests he hmem (hdigest.trans hentryDigest.symm)

/-- An entry is still there after any changes, with what has become of it. -/
theorem EffectsOk.entry_of_changes {db db' : KernelDb} (hdb : EffectsOk db)
    (h : EffectChanges db db') {intentDigest : String} {entry : OutboxRow}
    (hentry : db.entry intentDigest = some entry) :
    ∃ entry', db'.entry intentDigest = some entry' ∧ entry.Evolves entry' := by
  obtain ⟨hdb', hevolve⟩ := hdb.changes h
  obtain ⟨hmem, hdigest⟩ := KernelDb.mem_of_entry hentry
  obtain ⟨entry', hmem', hevolves⟩ := hevolve.outbox entry hmem
  have hfound : db'.entry intentDigest ≠ none := by
    intro hnone
    exact List.find?_eq_none.mp hnone entry' hmem' (decide_eq_true (hevolves.digest.trans hdigest))
  obtain ⟨found, hfound⟩ := Option.ne_none_iff_exists'.mp hfound
  rw [← hdb'.eq_of_entry hfound hmem' (hevolves.digest.trans hdigest)] at hfound
  exact ⟨entry', hfound, hevolves⟩

/-- A call that returns makes a sequence of changes. -/
theorem EffectCall.run_eq_ok {call : EffectCall} {db db' : KernelDb} {u : Unit}
    (hdb : EffectsOk db) (h : call.run db = .ok u db') : EffectChanges db db' := by
  cases call with
  | enqueue readOnly key digest intent recordedAt =>
    obtain ⟨row, _, hrun, h⟩ := run_bind_eq_ok.mp h
    obtain ⟨-, rfl⟩ := run_pure_eq_ok.mp h
    obtain ⟨-, -, -, ⟨rfl, -⟩ | ⟨hstate, hattempts, hkey, hdigest, rfl⟩⟩ :=
      enqueueEffect_eq_ok hrun
    · exact .refl
    · exact .single (.enqueue row hstate hattempts hkey hdigest)
  | begin readOnly digest recordedAt =>
    obtain ⟨row, _, hrun, h⟩ := run_bind_eq_ok.mp h
    obtain ⟨-, rfl⟩ := run_pure_eq_ok.mp h
    obtain ⟨entry, -, ⟨-, -, rfl⟩ | ⟨-, -, rfl⟩⟩ := beginEffect_eq_ok hrun
    · exact .refl
    · exact .single (.begin digest recordedAt)
  | record readOnly digest receiptDigest receipt recordedAt =>
    obtain ⟨row, _, hrun, h⟩ := run_bind_eq_ok.mp h
    obtain ⟨-, rfl⟩ := run_pure_eq_ok.mp h
    obtain ⟨entry, stored, receipts, hentry, rfl, rfl, -, hadded, -, rfl⟩ :=
      recordEffectReceipt_eq_ok hrun
    obtain ⟨hmem, hdigest⟩ := KernelDb.mem_of_entry hentry
    exact .single (.receipt stored receipts recordedAt (List.mem_map.mpr ⟨entry, hmem, hdigest⟩)
      hadded)
  | mark readOnly digest reason recordedAt evidence state =>
    obtain ⟨row, _, hrun, h⟩ := run_bind_eq_ok.mp h
    obtain ⟨-, rfl⟩ := run_pure_eq_ok.mp h
    obtain ⟨entry, evidenceJson, hentry, rfl⟩ := markEffectReconciliationRequired_eq_ok hrun
    split
    · next hstate =>
      have hunsettled : ∀ e ∈ db.effectOutbox, e.intentDigest = digest →
          (fun _ ↦ true) e = true → e.state ≠ .receiptRecorded := by
        intro e he hdigest _
        rw [hdb.eq_of_entry hentry he hdigest]
        exact hstate
      exact changes_flag hunsettled state reason evidenceJson recordedAt
    · exact .single (.note digest state reason evidenceJson recordedAt)
  | recover readOnly recordedAt =>
    obtain ⟨digests, _, hrun, h⟩ := run_bind_eq_ok.mp h
    obtain ⟨-, rfl⟩ := run_pure_eq_ok.mp h
    rw [recoverEffects_eq_ok hrun]
    exact changes_recover recordedAt db digests

/-! ## Runs -/

/-- The database after some calls, returned or raised. -/
def afterEffectCalls (db : KernelDb) (calls : List EffectCall) : KernelDb :=
  calls.foldl (fun db call ↦ call.after db) db

theorem EffectCall.atomic_run (call : EffectCall) : Atomic call.run := by
  have hencode : ∀ (v : PyValue), Atomic (lift (canonicalBytes v) : StoreM String) :=
    fun v ↦ atomic_lift _
  have hreads : ∀ (v : PyValue), Reads (lift (canonicalBytes v) : StoreM String) := by
    intro v s a s' h
    exact (run_lift_eq_ok.mp h).2.symm
  have hwritable := fun readOnly ↦ atomic_requireWritable readOnly
  have hwrites := fun readOnly ↦ reads_requireWritable readOnly
  cases call with
  | enqueue readOnly key digest intent recordedAt =>
    refine atomic_bind_pure (atomic_bind (hwritable readOnly) (hwrites readOnly) fun _ ↦ ?_)
    exact atomic_bind (hencode _) (hreads _) fun _ ↦ atomic_transaction _
  | begin readOnly digest recordedAt =>
    refine atomic_bind_pure (atomic_bind (hwritable readOnly) (hwrites readOnly) fun _ ↦ ?_)
    exact atomic_transaction _
  | record readOnly digest receiptDigest receipt recordedAt =>
    refine atomic_bind_pure (atomic_bind (hwritable readOnly) (hwrites readOnly) fun _ ↦ ?_)
    exact atomic_bind (hencode _) (hreads _) fun _ ↦ atomic_transaction _
  | mark readOnly digest reason recordedAt evidence state =>
    refine atomic_bind_pure (atomic_bind (hwritable readOnly) (hwrites readOnly) fun _ ↦ ?_)
    refine atomic_guard (atomic_bind (hencode _) (hreads _) fun _ ↦ atomic_transaction _)
  | recover readOnly recordedAt =>
    refine atomic_bind_pure (atomic_bind (hwritable readOnly) (hwrites readOnly) fun _ ↦ ?_)
    exact atomic_transaction _

theorem EffectsOk.after {db : KernelDb} (hdb : EffectsOk db) (call : EffectCall) :
    EffectChanges db (call.after db) := by
  rw [EffectCall.after]
  split
  · next h => exact EffectCall.run_eq_ok hdb h
  · next h =>
    rw [call.atomic_run _ _ _ h]
    exact .refl

theorem EffectsOk.afterEffectCalls {db : KernelDb} (hdb : EffectsOk db) (calls : List EffectCall) :
    EffectChanges db (afterEffectCalls db calls) := by
  induction calls generalizing db with
  | nil => exact .refl
  | cons call calls ih => exact (hdb.after call).trans (ih (hdb.changes (hdb.after call)).1)

/-- **After any calls of the five operations, with any arguments: intents have one entry each; an
entry was attempted at most once; it is in state `receipt_recorded` exactly when there is a receipt
of its intent, and then names that one; an entry in state `reconciliation_required` has a
reconciliation record. Whatever calls follow, the entry keeps its key and its intent, does not
become pending again, and keeps a receipt that it has. A call that raises changes nothing.** -/
theorem effect_tables_sound (calls later : List EffectCall) (call : EffectCall) :
    let db := afterEffectCalls emptyDb calls
    let db' := afterEffectCalls db later
    (db.effectOutbox.map OutboxRow.intentDigest).Nodup ∧
    (db.effectReceipts.map ReceiptRow.intentDigest).Nodup ∧
    (∀ e ∈ db.effectOutbox, e.attemptCount ≤ 1 ∧
      (e.state = .receiptRecorded ↔ ∃ r ∈ db.effectReceipts, r.intentDigest = e.intentDigest) ∧
      (∀ r ∈ db.effectReceipts, r.intentDigest = e.intentDigest →
        e.receiptDigest = some r.receiptDigest) ∧
      (e.state = .reconciliationRequired →
        ∃ r ∈ db.effectReconciliations, r.intentDigest = e.intentDigest)) ∧
    (∀ e ∈ db.effectOutbox, ∃ e' ∈ db'.effectOutbox, e'.intentDigest = e.intentDigest ∧
      e'.idempotencyKey = e.idempotencyKey ∧ e'.intentJson = e.intentJson ∧
      (e.state ≠ .pending → e'.state ≠ .pending) ∧
      (e.state = .receiptRecorded →
        e'.state = .receiptRecorded ∧ e'.receiptDigest = e.receiptDigest)) ∧
    db.effectReceipts <+: db'.effectReceipts ∧
    (∀ err db'', call.run db = .error err db'' → db'' = db) := by
  intro db db'
  have hdb : EffectsOk db :=
    (effectsOk_emptyDb.changes (effectsOk_emptyDb.afterEffectCalls calls)).1
  have hevolve : EffectsEvolve db db' := (hdb.changes (hdb.afterEffectCalls later)).2
  refine ⟨hdb.digests, hdb.receipts, fun e he ↦ ?_, fun e he ↦ ?_, hevolve.receipts,
    call.atomic_run db⟩
  · have hentry := hdb.entries e he
    refine ⟨hentry.attempts, ?_, hentry.linked, ?_⟩
    · rw [hentry.recorded, List.mem_map]
    · intro hstate
      exact List.mem_map.mp (hentry.noted hstate)
  · obtain ⟨e', he', hevolves⟩ := hevolve.outbox e he
    exact ⟨e', he', hevolves.digest, hevolves.key, hevolves.intent, hevolves.begun,
      hevolves.recorded⟩

end HiveMind
