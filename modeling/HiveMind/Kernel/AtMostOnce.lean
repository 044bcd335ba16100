import HiveMind.Kernel.Outbox

/-!
# How often an adapter is invoked

Any number of callers share one database, and their store transactions and adapter calls interleave
in any way. The adapter is paid for by the attempt count of the entry: a claim of a pending entry
raises the count, and by the invariant of the effect tables the count is at most one. A caller whose
`begin_effect` finds the entry executing already is handed the same state without a new attempt, and
so may invoke the adapter again.

* **`adapter_invoked_at_most_once`**: where no claim is made of an entry that is executing, the
  adapter is invoked at most once for each intent digest.
* **`adapter_invoked_twice`**: two callers that both find the entry pending invoke it twice.
-/

open Raise Interleave Proc

namespace HiveMind

/-- No claim is made of an entry that somebody is executing. -/
def Exclusive : StoreOp → KernelDb → Prop
  | .beginEffect intentDigest, db =>
    ∀ entry, db.entry intentDigest = some entry → entry.state ≠ .executing
  | _, _ => True

/-- The price of a query: an adapter call for the intent costs one. -/
def invocations (intentDigest : String) (query : Query) : Nat :=
  if query = .adapter intentDigest then 1 else 0

/-- The attempts at an intent so far. -/
def attempts (intentDigest : String) (db : KernelDb) : Nat :=
  match db.entry intentDigest with
  | some entry => entry.attemptCount
  | none => 0

theorem attempts_of_entry {intentDigest : String} {db : KernelDb} {entry : OutboxRow}
    (h : db.entry intentDigest = some entry) : attempts intentDigest db = entry.attemptCount := by
  rw [attempts, h]

theorem EffectsOk.attempts_le {db : KernelDb} (hdb : EffectsOk db) (intentDigest : String) :
    attempts intentDigest db ≤ 1 := by
  cases hentry : db.entry intentDigest with
  | none =>
    rw [attempts, hentry]
    exact Nat.zero_le 1
  | some entry =>
    rw [attempts_of_entry hentry]
    exact (hdb.entries entry (KernelDb.mem_of_entry hentry).1).attempts

theorem EffectsOk.attempts_mono {db db' : KernelDb} (hdb : EffectsOk db)
    (h : EffectChanges db db') (intentDigest : String) :
    attempts intentDigest db ≤ attempts intentDigest db' := by
  cases hentry : db.entry intentDigest with
  | none =>
    rw [attempts, hentry]
    exact Nat.zero_le _
  | some entry =>
    obtain ⟨entry', hentry', hevolves⟩ := hdb.entry_of_changes h hentry
    rw [attempts_of_entry hentry, attempts_of_entry hentry']
    exact hevolves.attempts

/-! ## The operations as steps -/

/-- The operation makes only the changes that the effect operations make. -/
def Changes {α : Type} (x : StoreM α) : Prop :=
  ∀ db, EffectsOk db → EffectChanges db (stateOf (x db))

theorem stateOf_discard {α : Type} (x : StoreM α) (db : KernelDb) :
    stateOf ((x >>= fun _ ↦ pure ()) db) = stateOf (x db) := by
  change stateOf (EStateM.bind x _ db) = _
  rw [EStateM.bind]
  cases x db with
  | ok a db' => rfl
  | error e db' => rfl

theorem changes_run (call : EffectCall) : Changes call.run := by
  intro db hdb
  have hafter := hdb.after call
  rw [EffectCall.after] at hafter
  cases hrun : call.run db with
  | ok u db' =>
    rw [hrun] at hafter
    exact hafter
  | error e db' =>
    rw [hrun] at hafter
    exact hafter

/-- What is discarded does not matter. -/
theorem Changes.of_discard {α : Type} {x : StoreM α} (call : EffectCall)
    (h : call.run = x >>= fun _ ↦ pure ()) : Changes x := by
  intro db hdb
  rw [← stateOf_discard, ← h]
  exact changes_run call db hdb

theorem changes_enqueueEffect {readOnly : Bool} {idempotencyKey intentDigest : String}
    {intent : List (String × PyValue)} {recordedAt : String} :
    Changes (enqueueEffect readOnly idempotencyKey intentDigest intent recordedAt) :=
  .of_discard (.enqueue readOnly idempotencyKey intentDigest intent recordedAt) rfl

theorem changes_beginEffect {readOnly : Bool} {intentDigest recordedAt : String} :
    Changes (beginEffect readOnly intentDigest recordedAt) :=
  .of_discard (.begin readOnly intentDigest recordedAt) rfl

theorem changes_recordEffectReceipt {readOnly : Bool} {intentDigest receiptDigest : String}
    {receipt : List (String × PyValue)} {recordedAt : String} :
    Changes (recordEffectReceipt readOnly intentDigest receiptDigest receipt recordedAt) :=
  .of_discard (.record readOnly intentDigest receiptDigest receipt recordedAt) rfl

theorem changes_markEffectReconciliationRequired {readOnly : Bool}
    {intentDigest reason recordedAt : String} {evidence : Option (List (String × PyValue))}
    {state : String} :
    Changes (markEffectReconciliationRequired readOnly intentDigest reason recordedAt evidence
      state) :=
  .of_discard (.mark readOnly intentDigest reason recordedAt evidence state) rfl

theorem changes_effectEntry (intentDigest : String) : Changes (effectEntry intentDigest) :=
  fun _ _ ↦ .refl

/-- A claim that comes back executing, of an entry that was not, is a new attempt. -/
theorem attempts_beginEffect {readOnly : Bool} {intentDigest recordedAt : String}
    {db db' : KernelDb} {row : OutboxRow}
    (h : beginEffect readOnly intentDigest recordedAt db = .ok row db')
    (hexclusive : Exclusive (.beginEffect intentDigest) db) (hstate : row.state = .executing) :
    attempts intentDigest db + 1 ≤ attempts intentDigest db' := by
  obtain ⟨entry, hentry, ⟨-, rfl, -⟩ | ⟨hpending, rfl, rfl⟩⟩ := beginEffect_eq_ok h
  · exact absurd hstate (hexclusive row hentry)
  · rw [attempts_of_entry hentry, attempts_of_entry (KernelDb.entry_begun hentry hpending)]
    exact le_rfl

/-! ## Callers pay for their adapter calls -/

section Credit

variable [Hash256] {key : String} {outbox : DurableEffectOutbox} {nested : Bool}
  {intent : EffectIntent} {token : CapabilityToken key} {intentDigest : String} {credit : Nat}

/-- The program can pay for its adapter calls for the intent. -/
abbrev Pays {α : Type} (intentDigest : String) (p : OutboxM α) (credit : Nat)
    (Post : Except Exc α → Nat → Prop) : Prop :=
  Affords (invocations intentDigest) (attempts intentDigest) Exclusive EffectsOk p credit Post

omit [Hash256] in
/-- A query other than the adapter is free. -/
theorem pays_ask (query : Query) {Post : Except Exc query.Answer → Nat → Prop}
    (hfree : query ≠ .adapter intentDigest) (h : ∀ r, Post r credit) :
    Pays intentDigest (ask query) credit Post :=
  affords_ask (if_neg hfree) fun _ ↦ h _

omit [Hash256] in
theorem pays_clock {use : ClockUse} {Post : Except Exc String → Nat → Prop}
    (h : ∀ r, Post r credit) : Pays intentDigest (clock use) credit Post :=
  pays_ask (.clock use) nofun h

omit [Hash256] in
/-- A step that makes the usual changes leaves the credit as it is. -/
theorem pays_transact {α : Type} {op : StoreOp} {x : StoreM α} {Post : Except Exc α → Nat → Prop}
    (hx : Changes x) (h : ∀ r, Post r credit) :
    Pays intentDigest (transact op x) credit Post := by
  refine affords_transact fun db hdb _ ↦ ?_
  have hchanges := hx db hdb
  refine ⟨(hdb.changes hchanges).1, credit, ?_, h _⟩
  exact Nat.add_le_add_left (hdb.attempts_mono hchanges intentDigest) credit

omit [Hash256] in
/-- Two programs in sequence, of which the first leaves the credit as it is. -/
theorem pays_bind {α β : Type} {p : OutboxM α} {f : α → OutboxM β}
    {Post : Except Exc β → Nat → Prop}
    (hp : ∀ Post' : Except Exc α → Nat → Prop, (∀ r, Post' r credit) →
      Pays intentDigest p credit Post')
    (hf : ∀ a, Pays intentDigest (f a) credit Post) (herror : ∀ e, Post (.error e) credit) :
    Pays intentDigest (p >>= f) credit Post := by
  refine affords_bind (hp _ fun r ↦ ?_)
  cases r with
  | ok a => exact hf a
  | error e => exact herror e

theorem pays_validate {use : ClockUse} {Post : Except Exc Unit → Nat → Prop}
    (h : ∀ r, Post r credit) : Pays intentDigest (outbox.validate use intent token) credit Post := by
  refine pays_bind (fun _ ↦ pays_clock) (fun now ↦ ?_) fun _ ↦ h _
  refine pays_bind (fun _ ↦ pays_ask (.systemTime use) nofun) (fun systemTime ↦ ?_) fun _ ↦ h _
  exact pays_bind (fun _ ↦ pays_ask (.registry use) nofun) (fun registry ↦ h _) fun _ ↦ h _

theorem pays_enqueue {Post : Except Exc OutboxRow → Nat → Prop} (h : ∀ r, Post r credit) :
    Pays intentDigest (outbox.enqueue intent token) credit Post := by
  refine pays_bind (fun _ ↦ pays_validate) (fun _ ↦ ?_) fun _ ↦ h _
  split
  · exact h _
  · refine pays_bind (fun _ ↦ pays_clock) (fun now ↦ ?_) fun _ ↦ h _
    exact pays_transact changes_enqueueEffect h

omit [Hash256] in
theorem pays_reconcile {α : Type} {use : ClockUse} {reason message : String}
    {evidence : Option (List (String × PyValue))} {Post : Except Exc α → Nat → Prop}
    (h : ∀ r, Post r credit) :
    Pays intentDigest (outbox.reconcile intent use reason evidence message) credit Post := by
  refine pays_bind (fun _ ↦ pays_clock) (fun now ↦ ?_) fun _ ↦ h _
  exact pays_bind (fun _ ↦ pays_transact changes_markEffectReconciliationRequired)
    (fun _ ↦ h _) fun _ ↦ h _

theorem pays_receiptOf {startedAt : String} {outcome : AdapterOutcome}
    {Post : Except Exc EffectReceipt → Nat → Prop} (h : ∀ r, Post r credit) :
    Pays intentDigest (outbox.receiptOf intent startedAt outcome) credit Post := by
  have hbuilt : ∀ produced postcondition, Pays intentDigest
      (DurableEffectOutbox.receiptOf.built outbox intent startedAt produced postcondition) credit
      Post :=
    fun _ _ ↦ pays_bind (fun _ ↦ pays_clock) (fun _ ↦ h _) fun _ ↦ h _
  cases outcome with
  | raised errorType => exact hbuilt _ _
  | receipt receipt =>
    rw [DurableEffectOutbox.receiptOf]
    split
    · exact h _
    · exact h _
  | mapping produced postcondition =>
    refine pays_bind (fun _ hpost ↦ hpost _) (fun values ↦ ?_) fun _ ↦ h _
    exact pays_bind (fun _ hpost ↦ hpost _) (fun _ ↦ hbuilt _ _) fun _ ↦ h _
  | other => exact hbuilt _ _

theorem pays_settle {startedAt : String} {outcome : AdapterOutcome}
    {Post : Except Exc EffectResult → Nat → Prop} (h : ∀ r, Post r credit) :
    Pays intentDigest (outbox.settle intent startedAt outcome) credit Post := by
  refine pays_bind (fun _ ↦ pays_receiptOf) (fun receipt ↦ ?_) fun _ ↦ h _
  refine pays_bind (fun _ hpost ↦ hpost _) (fun receiptDigest ↦ ?_) fun _ ↦ h _
  refine pays_bind (fun _ hpost ↦ affords_attempt ?_) (fun recorded ↦ ?_) fun _ ↦ h _
  · refine pays_bind (fun _ ↦ pays_clock) (fun now ↦ ?_) fun _ ↦ hpost _
    exact pays_transact changes_recordEffectReceipt fun _ ↦ hpost _
  · cases recorded with
    | ok entry => exact h _
    | error e => exact pays_reconcile h

theorem pays_account {startedAt : String} {outcome : AdapterOutcome}
    {Post : Except Exc EffectResult → Nat → Prop} (h : ∀ r, Post r credit) :
    Pays intentDigest (outbox.account intent startedAt outcome) credit Post := by
  cases outcome with
  | raised errorType => exact pays_reconcile h
  | receipt receipt => exact pays_settle h
  | mapping produced postcondition => exact pays_settle h
  | other => exact pays_settle h

/-- The one place where the adapter is invoked. -/
theorem pays_deliver (hcredit : invocations intentDigest (.adapter intent.intentDigest) ≤ credit) :
    Pays intentDigest (outbox.deliver nested intent) credit fun _ _ ↦ True := by
  refine pays_bind (fun _ ↦ pays_clock) (fun startedAt ↦ ?_) fun _ ↦ trivial
  cases nested with
  | true =>
    rw [DurableEffectOutbox.runAdapter, if_pos rfl]
    change Pays intentDigest (outbox.account intent startedAt (.raised "AuthorityDenied")) credit _
    exact pays_account fun _ ↦ trivial
  | false => exact ⟨hcredit, fun outcome ↦ pays_account fun _ ↦ trivial⟩

theorem pays_claim : Pays intentDigest (outbox.claim nested intent) 0 fun _ _ ↦ True := by
  refine pays_bind (fun _ ↦ pays_clock) (fun now ↦ ?_) fun _ ↦ trivial
  refine affords_bind (affords_transact fun db hdb hexclusive ↦ ?_)
  have hchanges : EffectChanges db (stateOf (beginEffect outbox.readOnly intent.intentDigest now db)) :=
    changes_beginEffect db hdb
  have hmono := hdb.attempts_mono hchanges intentDigest
  refine ⟨(hdb.changes hchanges).1, ?_⟩
  cases hbegin : beginEffect outbox.readOnly intent.intentDigest now db with
  | error e db' =>
    rw [hbegin] at hmono
    exact ⟨0, by rwa [Nat.zero_add, Nat.zero_add], trivial⟩
  | ok entry db' =>
    rw [hbegin] at hmono
    dsimp only [resultOf, stateOf] at hmono ⊢
    cases hstate : entry.state with
    | executing =>
      refine ⟨invocations intentDigest (.adapter intent.intentDigest), ?_, pays_deliver le_rfl⟩
      by_cases hsame : intent.intentDigest = intentDigest
      · -- the new attempt pays for the adapter
        have hnew := attempts_beginEffect hbegin hexclusive hstate
        rw [invocations, if_pos (congrArg Query.adapter hsame), ← hsame]
        omega
      · rw [invocations, if_neg fun h ↦ hsame (Query.adapter.inj h)]
        omega
    | receiptRecorded => exact ⟨0, by omega, trivial⟩
    | pending => exact ⟨0, by omega, trivial⟩
    | reconciliationRequired => exact ⟨0, by omega, trivial⟩

theorem pays_entryOf {found : Option OutboxRow} {Post : Except Exc OutboxRow → Nat → Prop}
    (h : ∀ r, Post r credit) : Pays intentDigest (outbox.entryOf intent token found) credit Post := by
  cases found with
  | none => exact pays_enqueue h
  | some entry =>
    refine pays_bind (fun _ hpost ↦ hpost _) (fun encoded ↦ ?_) fun _ ↦ h _
    split
    · exact h _
    · exact h _

theorem pays_execute :
    Pays intentDigest (outbox.execute nested intent token) 0 fun _ _ ↦ True := by
  refine pays_bind (fun _ ↦ pays_validate) (fun _ ↦ ?_) fun _ ↦ trivial
  split
  · trivial
  refine pays_bind (fun _ ↦ pays_transact (changes_effectEntry _)) (fun found ↦ ?_)
    fun _ ↦ trivial
  refine pays_bind (fun _ ↦ pays_entryOf) (fun entry ↦ ?_) fun _ ↦ trivial
  rw [DurableEffectOutbox.proceed]
  cases entry.state with
  | receiptRecorded => trivial
  | reconciliationRequired => trivial
  | executing => exact pays_reconcile fun _ ↦ trivial
  | pending => exact pays_claim

end Credit

/-! ## Runs -/

section Runs

variable [Hash256]

/-- Somebody who uses the database: a call of `execute` on any outbox of any process, or one effect
operation of the store on its own, such as the one that `recover` makes. -/
inductive Caller where
  | execute {key : String} (outbox : DurableEffectOutbox) (nested : Bool) (intent : EffectIntent)
      (token : CapabilityToken key)
  | store (operation : EffectCall)

def Caller.program : Caller → OutboxM Unit
  | .execute outbox nested intent token => do
    let _ ← outbox.execute nested intent token
  | .store operation => transact .other operation.run

theorem pays_program (caller : Caller) (intentDigest : String) :
    Pays intentDigest caller.program 0 fun _ _ ↦ True := by
  cases caller with
  | execute outbox nested intent token =>
    change Pays intentDigest (outbox.execute nested intent token >>= fun _ ↦ pure ()) 0 _
    refine affords_bind (pays_execute.mono fun r credit _ ↦ ?_)
    cases r with
    | ok result => trivial
    | error e => trivial
  | store operation => exact pays_transact (changes_run operation) fun _ ↦ trivial

omit [Hash256] in
private theorem sum_invocations (intentDigest : String) (queries : List Query) :
    (queries.map (invocations intentDigest)).sum = queries.count (.adapter intentDigest) := by
  induction queries with
  | nil => rfl
  | cons query queries ih =>
    rw [List.map_cons, List.sum_cons, ih, invocations, List.count_cons]
    simp only [beq_iff_eq]
    omega

/-- The callers before their first step, after any earlier effect operations. -/
def startOf (earlier : List EffectCall) (callers : List Caller) :
    Config Exc KernelDb StoreOp Query Query.Answer Unit :=
  ⟨afterEffectCalls emptyDb earlier, callers.map Caller.program, []⟩

/-- **However any number of callers are interleaved: if no claim is made of an entry that is
executing already, the adapter has been invoked at most once for each intent digest.** -/
theorem adapter_invoked_at_most_once (earlier : List EffectCall) (callers : List Caller)
    {c : Config Exc KernelDb StoreOp Query Query.Answer Unit}
    (h : Config.Reaches Exclusive (startOf earlier callers) c) (intentDigest : String) :
    c.calls.count (.adapter intentDigest) ≤ 1 := by
  have hstart : EffectsOk (afterEffectCalls emptyDb earlier) :=
    (effectsOk_emptyDb.changes (effectsOk_emptyDb.afterEffectCalls earlier)).1
  have hprocs : ∀ p ∈ (startOf earlier callers).procs, Pays intentDigest p 0 fun _ _ ↦ True := by
    intro p hp
    obtain ⟨caller, -, rfl⟩ := List.mem_map.mp hp
    exact pays_program caller intentDigest
  obtain ⟨hdb, hpaid⟩ := sum_cost_le hstart rfl hprocs h
  have hbound := hdb.attempts_le intentDigest
  rw [sum_invocations] at hpaid
  omega

end Runs

/-! ## Two callers -/

section TwoCallers

variable [Hash256]

/-- Two calls of `execute` for one intent, up to where one of them has invoked the adapter and the
other one has found the entry pending before. -/
private theorem exists_race (admits : StoreOp → KernelDb → Prop)
    (hreads : ∀ db, admits .effectEntry db ∧ admits .enqueueEffect db)
    (hclaim : ∀ db intentDigest, Exclusive (.beginEffect intentDigest) db →
      admits (.beginEffect intentDigest) db) :
    ∃ (callers : List Caller) (intent : EffectIntent)
      (c : Config Exc KernelDb StoreOp Query Query.Answer Unit),
      Config.Reaches admits (startOf [] callers) c ∧ .adapter intent.intentDigest ∈ c.calls ∧
      ((∀ op db, admits op db) → ∃ c', Config.Reaches admits c c' ∧
        c'.calls.count (.adapter intent.intentDigest) = c.calls.count (.adapter intent.intentDigest)
          + 1) := by
  obtain ⟨outbox, intent, token, registry, hready⟩ := exists_ready
  obtain ⟨row, hdigest, hpending, hjson, calls₁, hfirst⟩ := hready.enqueued .other
    false emptyDb hreads List.not_mem_nil List.not_mem_nil
  have hentry : ({ emptyDb with effectOutbox := emptyDb.effectOutbox ++ [row] } : KernelDb).entry
      intent.intentDigest = some row := by
    rw [KernelDb.entry]
    exact List.find?_cons_of_pos (decide_eq_true hdigest)
  obtain ⟨calls₂, hsecond⟩ := hready.foundPending .other false
    (fun db ↦ (hreads db).1) hentry hpending hjson
  have hexclusive : Exclusive (.beginEffect intent.intentDigest)
      { emptyDb with effectOutbox := emptyDb.effectOutbox ++ [row] } := by
    intro entry hfound
    rw [Option.some.inj (hfound.symm.trans hentry), hpending]
    rintro ⟨⟩
  obtain ⟨entry', db', hentry', hexecuting, hthird, -⟩ := hready.claimed .other
    (hclaim _ _ hexclusive) hentry (.inl hpending)
  have hrun := (((hfirst.bind fun _ ↦ pure ()).reaches [_, _] 0 rfl []).trans
    ((hsecond.bind fun _ ↦ pure ()).reaches _ 1 rfl _)).trans
    ((hthird.bind fun _ ↦ pure ()).reaches _ 0 rfl _)
  refine ⟨[.execute outbox false intent token, .execute outbox false intent token], intent, _, hrun,
    ?_, fun hall ↦ ?_⟩
  · simp
  · obtain ⟨_, _, -, -, hfourth, -⟩ := hready.claimed .other (hall _ _) hentry' (.inr hexecuting)
    refine ⟨_, (hfourth.bind fun _ ↦ pure ()).reaches _ 1 rfl _, ?_⟩
    rw [List.count_append, List.count_cons, List.count_cons, List.count_singleton_self,
      if_neg (by simp), if_neg (by simp)]

end TwoCallers

/-- A run that meets the condition, in which the adapter is invoked. -/
theorem adapter_invoked_once : ∃ (callers : List Caller) (intent : EffectIntent)
    (c : Config Exc KernelDb StoreOp Query Query.Answer Unit),
    Config.Reaches Exclusive (startOf [] callers) c ∧
      c.calls.count (.adapter intent.intentDigest) = 1 := by
  obtain ⟨callers, intent, c, hrun, hmem, -⟩ :=
    exists_race Exclusive (fun db ↦ ⟨trivial, trivial⟩) fun db intentDigest h ↦ h
  refine ⟨callers, intent, c, hrun, ?_⟩
  exact le_antisymm (adapter_invoked_at_most_once [] callers hrun intent.intentDigest)
    (List.count_pos_iff.mpr hmem)

/-- Two callers that both find the entry pending invoke the adapter twice. -/
theorem adapter_invoked_twice : ∃ (callers : List Caller)
    (c : Config Exc KernelDb StoreOp Query Query.Answer Unit) (intentDigest : String),
    Config.Reaches (fun _ _ ↦ True) (startOf [] callers) c ∧
      ¬c.calls.count (.adapter intentDigest) ≤ 1 := by
  obtain ⟨callers, intent, c, hrun, hmem, hagain⟩ :=
    exists_race (fun _ _ ↦ True) (fun db ↦ ⟨trivial, trivial⟩) fun _ _ _ ↦ trivial
  obtain ⟨c', hrun', hcount⟩ := hagain fun _ _ ↦ trivial
  refine ⟨callers, c', intent.intentDigest, hrun.trans hrun', ?_⟩
  have hpos := List.count_pos_iff.mpr hmem
  omega

end HiveMind
