import HiveMind.Missions.Receipts

/-!
# Which intent a step is bound to

A checkpoint is entered on two paths. `record_intent` is given the step, `checkpoint_for_intent`
looks the intent up by its digest and takes a new step if there is none. The table has a key for
each path, so an intent whose digest is taken at another step is refused. A step that is taken is
not: `record_intent` then returns what is stored there, whatever the intent.

What a stored row says is settled when it is entered, by an intent that was checked. Later changes
of the row add results to it (`Enters`), so in every state that calls lead to a row can be read back
(`Store.Bound`).

* **`intent_answered_iff`**: `record_intent` answers with the intent that it was given, or raises and
  stores nothing, exactly if no other intent is stored at the step.
-/

open Raise

namespace HiveMind.Missions

theorem Document.loads_dumps (d : Document) : Document.loads d.dumps = .ok d :=
  loads_of_loads (Json.loads_dumps d.sorted)

theorem Document.dumps_inj {d d' : Document} : d.dumps = d'.dumps ↔ d = d' := by
  refine ⟨fun h ↦ ?_, congrArg dumps⟩
  have hloads := d.loads_dumps
  rw [h, d'.loads_dumps] at hloads
  exact (Except.ok.inj hloads).symm

section Digests

variable [Hash256] {s s' : Store}

/-! ## What is entered -/

/-- The row still says the same of its intent, and what it says of its outcome can be read. -/
structure CheckpointRow.Follows (row row' : CheckpointRow) : Prop where
  missionId : row'.missionId = row.missionId
  stepIndex : row'.stepIndex = row.stepIndex
  intentDigest : row'.intentDigest = row.intentDigest
  intentJson : row'.intentJson = row.intentJson
  outcome : row'.outcomeJson = row.outcomeJson ∨ ∃ d : Document, row'.outcomeJson = some d.dumps
  receipt : row'.receiptRefJson = row.receiptRefJson ∨
    ∃ d : Document, row'.receiptRefJson = some d.dumps

/-- What a call does to the table of checkpoints: nothing, a new row for an intent that was checked,
or results in rows that are there. -/
inductive Enters (s : Store) : Store → Prop
  | elsewhere {s' : Store} (h : s'.checkpoints = s.checkpoints) : Enters s s'
  | record {missionId digest : String} {stepIndex : Int} {intent : Document}
      (hcheck : checkIntent intent = .ok digest) (hfits : FitsColumn stepIndex)
      (hstep : s.row missionId stepIndex = none)
      (hdigest : ∀ row ∈ s.checkpoints, ¬(row.missionId = missionId ∧ row.intentDigest = digest)) :
      Enters s (s.addCheckpoint
        ⟨missionId, stepIndex, digest, .intent, intent.dumps, none, none, 0⟩)
  | update {s' : Store} {p : CheckpointRow → Bool} {f : CheckpointRow → CheckpointRow}
      (hf : ∀ row : CheckpointRow, row.Follows (f row)) (h : s'.checkpoints = Rows.update p f s.checkpoints) :
      Enters s s'

/-- A reference is a document too. -/
def ReceiptReference.document (ref : ReceiptReference) : Document :=
  ⟨⟨[("digest", .str ref.digest), ("path", .str ref.path)],
      by simp only [List.map_cons, List.map_nil]; decide⟩,
    by simp only [List.map_cons, List.map_nil]; decide, trivial, trivial, trivial⟩

omit [Hash256] in
theorem checkpoints_bindIntent {cp : StepCheckpoint} {text : String} {u : Unit}
    (h : bindIntent cp text s = .ok u s') : s'.checkpoints = s.checkpoints := by
  rcases of_bindIntent h with ⟨-, rfl⟩ | ⟨-, rfl⟩
  · rfl
  · rfl

theorem steps_enters : Steps (fun _ _ _ ↦ True) Enters where
  write _ _ := .elsewhere rfl
  enter hcheck hfits hinsert := by
    obtain ⟨hstep, hfree, -, rfl⟩ := insertCheckpoint_eq_ok.mp hinsert
    exact .record hcheck hfits hstep hfree
  claim _ := by
    refine .update ?_ rfl
    exact fun _ ↦ ⟨rfl, rfl, rfl, rfl, .inl rfl, .inl rfl⟩
  complete {s s' cp ref outcome} _ hbind := by
    refine .update ?_ (congrArg _ (checkpoints_bindIntent hbind))
    exact fun _ ↦ ⟨rfl, rfl, rfl, rfl, .inr ⟨outcome, rfl⟩, .inr ⟨ref.document, rfl⟩⟩

theorem Call.enters (call : Call) : Relation.ReflTransGen Enters s (call.run s) :=
  steps_enters.reaches (fun _ _ ↦ .elsewhere rfl) (fun _ _ _ _ ↦ trivial)
    fun _ _ _ _ _ _ _ _ ↦ trivial

/-! ## Rows that can be read back -/

/-- The row holds an intent that was checked under its digest. -/
def CheckpointRow.Holds (row : CheckpointRow) (intent : Document) : Prop :=
  checkIntent intent = .ok row.intentDigest ∧ row.intentJson = intent.dumps

structure CheckpointRow.Bound (row : CheckpointRow) : Prop where
  fits : FitsColumn row.stepIndex
  intent : ∃ intent, row.Holds intent
  outcome : row.outcomeJson = none ∨ ∃ d : Document, row.outcomeJson = some d.dumps
  receipt : row.receiptRefJson = none ∨ ∃ d : Document, row.receiptRefJson = some d.dumps

/-- The keys of the table hold, and every row can be read back. -/
structure Store.Bound (s : Store) : Prop where
  keys : Rows.Unique CheckpointRow.key s.checkpoints
  digests : Rows.Unique (fun row ↦ (row.missionId, row.intentDigest)) s.checkpoints
  rows : ∀ row ∈ s.checkpoints, row.Bound

theorem CheckpointRow.Bound.follows {row row' : CheckpointRow} (h : row.Bound)
    (hfollows : row.Follows row') : row'.Bound where
  fits := hfollows.stepIndex ▸ h.fits
  intent := by
    obtain ⟨intent, hcheck, hjson⟩ := h.intent
    exact ⟨intent, hfollows.intentDigest ▸ hcheck, hfollows.intentJson.trans hjson⟩
  outcome := by
    rcases hfollows.outcome with hsame | hnew
    · exact hsame ▸ h.outcome
    · exact .inr hnew
  receipt := by
    rcases hfollows.receipt with hsame | hnew
    · exact hsame ▸ h.receipt
    · exact .inr hnew

theorem Store.Bound.of_enters (h : s.Bound) (henters : Enters s s') : s'.Bound := by
  cases henters with
  | elsewhere hsame => exact ⟨hsame ▸ h.keys, hsame ▸ h.digests, hsame ▸ h.rows⟩
  | @record missionId digest stepIndex intent hcheck hfits hstep hdigest =>
    refine ⟨h.keys.concat (Store.forall_key_ne hstep), h.digests.concat ?_, ?_⟩
    · intro row hrow hkey
      exact hdigest row hrow (Prod.mk.inj hkey)
    · intro row hrow
      rcases List.mem_append.mp hrow with hrow | hrow
      · exact h.rows row hrow
      · rw [List.mem_singleton.mp hrow]
        exact ⟨hfits, ⟨intent, hcheck, rfl⟩, .inl rfl, .inl rfl⟩
  | update hf hsame =>
    refine ⟨?_, ?_, ?_⟩
    · rw [hsame]
      exact h.keys.update fun row ↦ Prod.ext (hf row).missionId (hf row).stepIndex
    · rw [hsame]
      exact h.digests.update fun row ↦ Prod.ext (hf row).missionId (hf row).intentDigest
    · rw [hsame]
      exact Rows.forall_mem_update (fun row hrow _ ↦ h.rows row hrow) fun row hrow _ ↦
        (h.rows row hrow).follows (hf row)

theorem Store.Bound.reaches (h : s.Bound) (hreaches : Relation.ReflTransGen Enters s s') :
    s'.Bound := by
  induction hreaches with
  | refl => exact h
  | tail _ henters ih => exact ih.of_enters henters

/-- Calls lead to stores whose rows can be read back. -/
theorem bound_run (missions : List String) (calls : List Call) :
    (calls.foldl Call.run (.new missions)).Bound := by
  induction calls using List.reverseRecOn with
  | nil => exact ⟨List.nodup_nil, List.nodup_nil, nofun⟩
  | append_singleton calls call ih =>
    rw [List.foldl_append, List.foldl_cons, List.foldl_nil]
    exact ih.reaches call.enters

/-! ## Reading a checkpoint -/

theorem checkIntent_eq_ok {intent : Document} {digest : String}
    (h : checkIntent intent = .ok digest) : toolIntentDigest intent.dict = digest ∧
      intent.get? "action_digest" = some (.str digest) := by
  simp only [checkIntent] at h
  split at h
  · exact nomatch h
  next hdigest =>
  split at h
  · exact nomatch h
  · obtain rfl := Except.ok.inj h
    exact ⟨rfl, not_not.mp hdigest⟩

omit [Hash256] in
theorem exists_mapM_loads {text : Option String}
    (h : text = none ∨ ∃ d : Document, text = some d.dumps) :
    ∃ d, text.mapM Document.loads = .ok d := by
  rcases h with rfl | ⟨d, rfl⟩
  · exact ⟨none, rfl⟩
  · refine ⟨some d, ?_⟩
    rw [Option.mapM_some, d.loads_dumps]
    rfl

/-- A checkpoint is read with the intent that its row holds. -/
theorem exists_checkpoint {row : CheckpointRow} (hbound : row.Bound) {intent : Document}
    (hholds : row.Holds intent) (hrow : s.row row.missionId row.stepIndex = some row) :
    ∃ cp, checkpoint row.missionId row.stepIndex s = .ok cp s ∧ cp.intent = intent ∧
      cp.missionId = row.missionId ∧ cp.stepIndex = row.stepIndex := by
  obtain ⟨hcheck, hjson⟩ := hholds
  obtain ⟨hdigest, haction⟩ := checkIntent_eq_ok hcheck
  obtain ⟨outcome, houtcome⟩ := exists_mapM_loads hbound.outcome
  obtain ⟨receipt, hreceipt⟩ := exists_mapM_loads hbound.receipt
  refine ⟨⟨row.missionId, row.stepIndex, row.intentDigest, row.state, intent, outcome, receipt,
    row.executionCount⟩, ?_, rfl, rfl, rfl⟩
  have hloads : Document.loads row.intentJson = .ok intent := hjson ▸ intent.loads_dumps
  simp only [checkpoint, run_bind_eq_ok, run_get_eq_ok, requireM_eq_ok]
  refine ⟨(), s, ⟨hbound.fits, rfl⟩, s, s, ⟨rfl, rfl⟩, ?_⟩
  simp only [hrow, run_bind_eq_ok, run_lift_eq_ok, requireM_eq_ok, run_pure_eq_ok]
  exact ⟨intent, s, ⟨hloads, rfl⟩, (), s, ⟨⟨hdigest.symm, hdigest ▸ haction⟩, rfl⟩, outcome, s,
    ⟨houtcome, rfl⟩, receipt, s, ⟨hreceipt, rfl⟩, rfl, rfl⟩

omit [Hash256] in
theorem Store.row_eq_of_mem {row : CheckpointRow} {missionId : String} {stepIndex : Int}
    (h : s.row missionId stepIndex = some row) :
    row ∈ s.checkpoints ∧ row.missionId = missionId ∧ row.stepIndex = stepIndex := by
  have hkey := List.find?_some h
  exact ⟨List.mem_of_find?_eq_some h, Prod.mk.inj (beq_iff_eq.mp hkey)⟩

/-- Where a row holds an intent, `checkpoint_for_intent` finds that row for it. -/
theorem checkpointForIntent_of_holds (hbound : s.Bound) {row : CheckpointRow}
    (hrow : row ∈ s.checkpoints) {intent : Document} (hholds : row.Holds intent) {minimum : Int}
    (hminimum : 0 ≤ minimum) {cp : StepCheckpoint} (hintent : cp.intent = intent)
    (hcp : checkpoint row.missionId row.stepIndex s = .ok cp s) :
    checkpointForIntent row.missionId intent minimum s = .ok cp s := by
  have hfind : (s.checkpoints.find? fun other ↦
      other.missionId == row.missionId && other.intentDigest == row.intentDigest) = some row := by
    have h := hbound.digests.find?_eq hrow
    rw [← h]
    congr 1
  have hallocate :
      allocateStep row.missionId row.intentDigest intent minimum s = .ok row.stepIndex s := by
    simp only [allocateStep, run_bind_eq_ok, run_get_eq_ok]
    refine ⟨s, s, ⟨rfl, rfl⟩, ?_⟩
    rw [hfind]
    rfl
  simp only [checkpointForIntent, run_bind_eq_ok, run_lift_eq_ok, requireM_eq_ok, transaction_eq_ok,
    run_pure_eq_ok]
  exact ⟨(), s, ⟨hminimum, rfl⟩, row.intentDigest, s, ⟨hholds.1, rfl⟩, row.stepIndex, s, hallocate,
    cp, s, hcp, (), s, ⟨hintent, rfl⟩, rfl, rfl⟩

/-! ## Recording an intent -/

/-- `record_intent` raises and stores nothing, or answers with the intent that it was given, and
`checkpoint_for_intent` finds it at the same step. -/
structure Answered (s : Store) (missionId : String) (stepIndex : Int) (intent : Document) :
    Prop where
  refused : ∀ e s', recordIntent missionId stepIndex intent s = .error e s' → s' = s
  answered : ∀ cp s', recordIntent missionId stepIndex intent s = .ok cp s' →
    cp.intent = intent ∧ cp.missionId = missionId ∧ cp.stepIndex = stepIndex ∧
      ∀ minimum, 0 ≤ minimum → checkpointForIntent missionId intent minimum s' = .ok cp s'

/-- A row answers for the intent that it holds, on either path. -/
theorem exists_answer (hbound : s.Bound) {row : CheckpointRow} (hrow : row ∈ s.checkpoints)
    {intent : Document} (hholds : row.Holds intent) :
    ∃ cp, checkpoint row.missionId row.stepIndex s = .ok cp s ∧ cp.intent = intent ∧
      cp.missionId = row.missionId ∧ cp.stepIndex = row.stepIndex ∧
      ∀ minimum, 0 ≤ minimum → checkpointForIntent row.missionId intent minimum s = .ok cp s := by
  obtain ⟨cp, hcp, hintent, hmission, hstep⟩ :=
    exists_checkpoint (hbound.rows row hrow) hholds (Store.row_eq_some hbound.keys hrow)
  exact ⟨cp, hcp, hintent, hmission, hstep, fun _ hminimum ↦
    checkpointForIntent_of_holds hbound hrow hholds hminimum hintent hcp⟩

/-- At a step that is taken, `record_intent` reads what is there. -/
theorem recordIntent_of_taken {missionId digest : String} {stepIndex : Int} {intent : Document}
    (hcheck : checkIntent intent = .ok digest) (hfits : FitsColumn stepIndex)
    (htaken : s.row missionId stepIndex ≠ none) :
    recordIntent missionId stepIndex intent s = checkpoint missionId stepIndex s := by
  have hlift : lift (checkIntent intent) s = .ok digest s := run_lift_eq_ok.mpr ⟨hcheck, rfl⟩
  have hbody : transaction (do
      requireM (FitsColumn stepIndex) .overflow
      if (← get).row missionId stepIndex = none then
        insertCheckpoint missionId stepIndex digest intent) s = .ok () s := by
    simp only [transaction_eq_ok, run_bind_eq_ok, requireM_eq_ok, run_get_eq_ok]
    refine ⟨(), s, ⟨hfits, rfl⟩, s, s, ⟨rfl, rfl⟩, ?_⟩
    rw [if_neg htaken]
    rfl
  rw [recordIntent, run_bind_of_ok hlift, run_bind_of_ok hbody]

/-- At a free step, `record_intent` raises and stores nothing, or stores the intent. -/
theorem answered_of_free (hbound : s.Bound) {missionId digest : String} {stepIndex : Int}
    {intent : Document} (hcheck : checkIntent intent = .ok digest)
    (hfree : s.row missionId stepIndex = none) : Answered s missionId stepIndex intent := by
  have hlift : lift (checkIntent intent) s = .ok digest s := run_lift_eq_ok.mpr ⟨hcheck, rfl⟩
  -- whatever was inserted is read back at once
  have hinserted : ∀ u t, transaction (do
      requireM (FitsColumn stepIndex) .overflow
      if (← get).row missionId stepIndex = none then
        insertCheckpoint missionId stepIndex digest intent) s = .ok u t →
      ∃ cp, checkpoint missionId stepIndex t = .ok cp t ∧ cp.intent = intent ∧
        cp.missionId = missionId ∧ cp.stepIndex = stepIndex ∧
        ∀ minimum, 0 ≤ minimum → checkpointForIntent missionId intent minimum t = .ok cp t := by
    intro u t hbody
    simp only [transaction_eq_ok, run_bind_eq_ok, requireM_eq_ok, run_get_eq_ok] at hbody
    obtain ⟨_, _, ⟨hfits, rfl⟩, _, _, ⟨rfl, rfl⟩, hbody⟩ := hbody
    rw [if_pos hfree] at hbody
    obtain ⟨-, hdigest, -, rfl⟩ := insertCheckpoint_eq_ok.mp hbody
    have hbound' := hbound.of_enters (.record hcheck hfits hfree hdigest)
    exact exists_answer hbound' (List.mem_append_right _ List.mem_cons_self) ⟨hcheck, rfl⟩
  constructor
  · intro e s' h
    rw [recordIntent, run_bind_of_ok hlift] at h
    rcases run_bind_eq_error h with hbody | ⟨u, t, hbody, h⟩
    · exact atomic_transaction _ s e s' hbody
    · obtain ⟨cp, hcp, -⟩ := hinserted u t hbody
      cases hcp.symm.trans h
  · intro cp s' h
    rw [recordIntent, run_bind_of_ok hlift] at h
    obtain ⟨u, t, hbody, h⟩ := run_bind_eq_ok.mp h
    obtain ⟨cp', hcp, hanswer⟩ := hinserted u t hbody
    obtain ⟨rfl, rfl⟩ := EStateM.Result.ok.inj (hcp.symm.trans h)
    exact hanswer

theorem answered_iff (hbound : s.Bound) {missionId digest : String} {stepIndex : Int}
    {intent : Document} (hcheck : checkIntent intent = .ok digest) :
    Answered s missionId stepIndex intent ↔
      ∀ row, s.row missionId stepIndex = some row → row.intentJson = intent.dumps := by
  rcases hrow : s.row missionId stepIndex with _ | row
  · exact ⟨fun _ ↦ nofun, fun _ ↦ answered_of_free hbound hcheck hrow⟩
  obtain ⟨hmem, rfl, rfl⟩ := Store.row_eq_of_mem hrow
  obtain ⟨stored, hholds⟩ := (hbound.rows row hmem).intent
  obtain ⟨cp, hcp, hintent, hmission, hstep, hagain⟩ := exists_answer hbound hmem hholds
  have htaken : s.row row.missionId row.stepIndex ≠ none := by
    rw [hrow]
    exact Option.some_ne_none row
  have hrecord := (recordIntent_of_taken hcheck (hbound.rows row hmem).fits htaken).trans hcp
  constructor
  · intro h row' hrow'
    obtain rfl := Option.some.inj hrow'
    rw [hholds.2, ← hintent, (h.answered cp s hrecord).1]
  · intro hsame
    have hstored : stored = intent := Document.dumps_inj.mp (hholds.2.symm.trans (hsame row rfl))
    refine ⟨fun e s' h ↦ (nomatch hrecord.symm.trans h), fun cp' s' h ↦ ?_⟩
    obtain ⟨rfl, rfl⟩ := EStateM.Result.ok.inj (hrecord.symm.trans h)
    exact ⟨hintent.trans hstored, hmission, hstep, hstored ▸ hagain⟩

/-- **An intent is answered with itself, or refused without a trace, exactly if no other intent is
stored at its step.** -/
theorem intent_answered_iff (missions : List String) (calls : List Call)
    {missionId digest : String} {stepIndex : Int} {intent : Document}
    (hvalid : checkIntent intent = .ok digest) :
    Answered (calls.foldl Call.run (.new missions)) missionId stepIndex intent ↔
      ∀ row, (calls.foldl Call.run (.new missions)).row missionId stepIndex = some row →
        row.intentJson = intent.dumps :=
  answered_iff (bound_run missions calls) hvalid

end Digests

/-! ## One step, two intents -/

theorem push_answered :
    Answered ([].foldl Call.run (.new ["MISSION-1"])) "MISSION-1" 0 pushIntent :=
  (intent_answered_iff ["MISSION-1"] [] checkIntent_pushIntent).mpr fun _ hrow ↦
    absurd hrow (Option.some_ne_none _).symm

/-- Another intent of the mission, up to its digest. -/
def dropMembers : List (String × Json) :=
  [("action_id", .str "ACT-2"), ("actor_id", .str "agent-integrator"),
    ("description", .str "delete the branch"), ("idempotency_key", .str "KEY-2"),
    ("kind", .str "git"), ("lease_id", .str "lease-1"), ("mission_id", .str "MISSION-1"),
    ("policy_decision_ref", .str "policy-1"), ("schema_version", .int 1),
    ("state_ref", .str "MISSION_STATE:MISSION-1:1"), ("status", .str "proposed")]

def dropDigest : String := "sha256:de23c74fefdb3aae060badc19f42944b72308af78146981090774c89dd73e1df"

def dropIntent : Document :=
  .ofMembers (dropMembers ++ [("action_digest", .str dropDigest)])
    (by simp [dropMembers, Json.Sorted])

theorem checkIntent_dropIntent : checkIntent dropIntent = .ok dropDigest := by decide +kernel

/-- The step is taken by the push, and the deletion is answered with the push. -/
theorem drop_answered_with_push :
    checkIntent dropIntent = .ok dropDigest ∧
      ¬Answered ([recordPush].foldl Call.run (.new ["MISSION-1"])) "MISSION-1" 0 dropIntent := by
  refine ⟨checkIntent_dropIntent, fun h ↦ ?_⟩
  have hbound := bound_run ["MISSION-1"] [recordPush]
  have hsame := (answered_iff hbound checkIntent_dropIntent).mp h recordedRow
  rw [List.foldl_cons, List.foldl_nil, run_recordPush] at hsame
  have hintent : pushIntent = dropIntent := by
    refine Document.dumps_inj.mp (hsame ?_)
    simp [Store.row, recordedRow, CheckpointRow.key]
  have hdigest := checkIntent_pushIntent.symm.trans (hintent ▸ checkIntent_dropIntent)
  exact absurd (Except.ok.inj hdigest) (by decide)

end HiveMind.Missions
