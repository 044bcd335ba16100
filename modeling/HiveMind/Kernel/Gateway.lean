import HiveMind.Kernel.Effects

/-!
# The in-memory gateway

A gateway without a store remembers the result of a delivery under the idempotency key of its
intent, and answers a later call with that key by the remembered result. It does not look at whether
the later call presents the same intent.

**`presented_intent_answered_iff`** says when every answer is about the intent that was presented:
exactly when no accepted call follows a delivering one with the same key and another intent.
-/

open Std (ExtTreeMap)
open Raise

namespace HiveMind

structure EffectResult where
  intentDigest : String
  receiptDigest : String
  status : String
  deriving DecidableEq

/-- What is registered with a gateway or an outbox: the adapters by name, and what was said about
their versions and the hosts they reach. -/
structure Adapters where
  names : List String
  versions : ExtTreeMap String String
  hosts : ExtTreeMap String (List String)

def Adapters.hostsOf (adapters : Adapters) (name : String) : List String :=
  adapters.hosts[name]?.getD []

/-- `_receipts`. -/
abbrev Receipts := ExtTreeMap String EffectResult

section Gateway

variable [Hash256] {key : String}

/-- One call of `execute`, with everything it finds: the registry and the clock at the time, whether
an effect is being executed around it, and what the adapter does if it is invoked. -/
structure GatewayCall (key : String) where
  intent : EffectIntent
  token : CapabilityToken key
  authority : Option AuthorityRegistry
  now : String
  systemTime : String
  nested : Bool
  outcome : Except Exc Unit

namespace GatewayCall

def validate (call : GatewayCall key) (adapters : Adapters) : Except Exc Unit :=
  validateCapabilityToken call.intent call.token call.authority call.now call.systemTime
    (adapters.hostsOf call.intent.targetAdapter)

/-- The result of a delivery. -/
def result (call : GatewayCall key) : EffectResult :=
  ⟨call.intent.intentDigest,
    jsonDigest (.obj [("intent", .str call.intent.intentDigest), ("status", .str "SUCCEEDED")]),
    "SUCCEEDED"⟩

/-- `EffectGateway.execute` of a gateway without a store. -/
def execute (call : GatewayCall key) (adapters : Adapters) : EStateM Exc Receipts EffectResult := do
  lift (call.validate adapters)
  let receipts ← get
  match receipts[call.intent.idempotencyKey]? with
  | some previous => return previous
  | none => do
    if call.intent.targetAdapter ∉ adapters.names then
      throw (authorityDenied "adapter is not registered")
    if call.nested then
      throw (authorityDenied "nested effect execution is not permitted")
    lift call.outcome
    modify (·.insert call.intent.idempotencyKey call.result)
    return call.result

/-- The call presents a valid token. -/
def Accepted (call : GatewayCall key) (adapters : Adapters) : Prop :=
  call.validate adapters = .ok ()

/-- The call is accepted, and would deliver its effect if nothing was remembered under its key. -/
def Delivers (call : GatewayCall key) (adapters : Adapters) : Prop :=
  call.Accepted adapters ∧ call.intent.targetAdapter ∈ adapters.names ∧ call.nested = false ∧
    call.outcome = .ok ()

variable {call : GatewayCall key} {adapters : Adapters} {receipts receipts' : Receipts}

theorem execute_eq_ok {r : EffectResult} :
    call.execute adapters receipts = .ok r receipts' ↔ call.Accepted adapters ∧
      ((receipts[call.intent.idempotencyKey]? = some r ∧ receipts' = receipts) ∨
        (receipts[call.intent.idempotencyKey]? = none ∧ call.Delivers adapters ∧
          r = call.result ∧ receipts' = receipts.insert call.intent.idempotencyKey r)) := by
  simp only [execute, run_bind_eq_ok, run_lift_eq_ok, run_get_eq_ok]
  constructor
  · rintro ⟨_, _, ⟨haccepted, rfl⟩, _, _, ⟨rfl, rfl⟩, h⟩
    refine ⟨haccepted, ?_⟩
    cases hprevious : receipts[call.intent.idempotencyKey]? with
    | some previous =>
      rw [hprevious] at h
      obtain ⟨rfl, rfl⟩ := run_pure_eq_ok.mp h
      exact .inl ⟨rfl, rfl⟩
    | none =>
      rw [hprevious] at h
      simp only [run_guard_eq_ok, run_bind_eq_ok, run_lift_eq_ok, run_modify_eq_ok,
        run_pure_eq_ok, not_not] at h
      obtain ⟨hname, hnested, _, _, ⟨houtcome, rfl⟩, _, _, rfl, rfl, rfl⟩ := h
      exact .inr ⟨rfl, ⟨haccepted, hname, Bool.eq_false_iff.mpr hnested, houtcome⟩, rfl, rfl⟩
  · rintro ⟨haccepted, hrest⟩
    refine ⟨(), receipts, ⟨haccepted, rfl⟩, receipts, receipts, ⟨rfl, rfl⟩, ?_⟩
    rcases hrest with ⟨hprevious, rfl⟩ | ⟨hnone, ⟨-, hname, hnested, houtcome⟩, rfl, rfl⟩
    · rw [hprevious]
      rfl
    · rw [hnone]
      simp only [run_guard_eq_ok, run_bind_eq_ok, run_lift_eq_ok, run_modify_eq_ok,
        run_pure_eq_ok, not_not]
      exact ⟨hname, Bool.eq_false_iff.mp hnested, (), receipts, ⟨houtcome, rfl⟩, (), _, rfl, trivial,
        rfl⟩

theorem receipts_of_execute_error {e : Exc} (h : call.execute adapters receipts = .error e receipts') :
    receipts' = receipts := by
  have hatomic : Atomic (call.execute adapters) := by
    refine atomic_bind (atomic_lift _) (fun s a s' h ↦ (run_lift_eq_ok.mp h).2.symm) fun _ ↦ ?_
    refine atomic_bind (fun s e s' h ↦ nomatch h) (fun s a s' h ↦ (run_get_eq_ok.mp h).2.symm)
      fun receipts ↦ ?_
    dsimp only
    split
    · exact atomic_pure _
    · refine atomic_guard (atomic_guard ?_)
      refine atomic_bind (atomic_lift _) (fun s a s' h ↦ (run_lift_eq_ok.mp h).2.symm) fun _ ↦ ?_
      exact atomic_bind_pure fun s e s' h ↦ nomatch h
  exact hatomic receipts e receipts' h

end GatewayCall

/-! ## Runs -/

/-- The calls that are answered, each with its answer, when the calls are made one after another. -/
def answered (adapters : Adapters) :
    Receipts → List (GatewayCall key) → List (GatewayCall key × EffectResult)
  | _, [] => []
  | receipts, call :: calls =>
    match call.execute adapters receipts with
    | .ok r receipts' => (call, r) :: answered adapters receipts' calls
    | .error _ receipts' => answered adapters receipts' calls

section Runs

variable {adapters : Adapters} {receipts : Receipts} {call : GatewayCall key}
  {calls : List (GatewayCall key)}

/-- The three things that can become of a call. -/
theorem answered_cons (adapters : Adapters) (receipts : Receipts) (call : GatewayCall key)
    (calls : List (GatewayCall key)) :
    (answered adapters receipts (call :: calls) = answered adapters receipts calls ∧
      (call.Accepted adapters → receipts[call.intent.idempotencyKey]? = none ∧
        ¬call.Delivers adapters)) ∨
    (∃ r, call.Accepted adapters ∧ receipts[call.intent.idempotencyKey]? = some r ∧
      answered adapters receipts (call :: calls) = (call, r) :: answered adapters receipts calls) ∨
    (call.Delivers adapters ∧ receipts[call.intent.idempotencyKey]? = none ∧
      answered adapters receipts (call :: calls) = (call, call.result) ::
        answered adapters (receipts.insert call.intent.idempotencyKey call.result) calls) := by
  cases hrun : call.execute adapters receipts with
  | ok r receipts' =>
    rw [answered, hrun]
    obtain ⟨haccepted, ⟨hprevious, rfl⟩ | ⟨hnone, hdelivers, rfl, rfl⟩⟩ :=
      GatewayCall.execute_eq_ok.mp hrun
    · exact .inr (.inl ⟨r, haccepted, hprevious, rfl⟩)
    · exact .inr (.inr ⟨hdelivers, hnone, rfl⟩)
  | error e receipts' =>
    obtain rfl := GatewayCall.receipts_of_execute_error hrun
    refine .inl ⟨by rw [answered, hrun], fun haccepted ↦ ?_⟩
    -- otherwise the call would have been answered
    have hanswered : ∀ r receipts'', call.execute adapters receipts' ≠ .ok r receipts'' := by
      intro r receipts'' h
      exact nomatch hrun.symm.trans h
    constructor
    · by_contra hsome
      obtain ⟨r, hr⟩ := Option.ne_none_iff_exists'.mp hsome
      exact hanswered r receipts' (GatewayCall.execute_eq_ok.mpr ⟨haccepted, .inl ⟨hr, rfl⟩⟩)
    · intro hdelivers
      cases hprevious : receipts'[call.intent.idempotencyKey]? with
      | some r =>
        exact hanswered r _ (GatewayCall.execute_eq_ok.mpr ⟨haccepted, .inl ⟨hprevious, rfl⟩⟩)
      | none =>
        exact hanswered _ _ (GatewayCall.execute_eq_ok.mpr
          ⟨haccepted, .inr ⟨hprevious, hdelivers, rfl, rfl⟩⟩)

/-- What is remembered under a key answers all later calls with that key. -/
theorem eq_of_mem_answered {idempotencyKey : String} {r : EffectResult}
    (hreceipts : receipts[idempotencyKey]? = some r) {p : GatewayCall key × EffectResult}
    (hp : p ∈ answered adapters receipts calls) (hkey : p.1.intent.idempotencyKey = idempotencyKey) :
    p.2 = r := by
  induction calls generalizing receipts with
  | nil => exact nomatch hp
  | cons call calls ih =>
    obtain ⟨heq, -⟩ | ⟨previous, -, hprevious, heq⟩ | ⟨-, hnone, heq⟩ :=
      answered_cons adapters receipts call calls
    · exact ih hreceipts (heq ▸ hp)
    · rw [heq] at hp
      rcases List.mem_cons.mp hp with rfl | hp
      · rw [← hkey] at hreceipts
        exact Option.some.inj (hprevious.symm.trans hreceipts)
      · exact ih hreceipts hp
    · rw [heq] at hp
      have hne : call.intent.idempotencyKey ≠ idempotencyKey := by
        rintro rfl
        exact nomatch hnone.symm.trans hreceipts
      rcases List.mem_cons.mp hp with rfl | hp
      · exact absurd hkey hne
      · refine ih ?_ hp
        rw [ExtTreeMap.getElem?_insert, if_neg (by simpa using hne)]
        exact hreceipts

/-- Calls with the same key get the same answer. -/
theorem answers_eq {p q : GatewayCall key × EffectResult}
    (hp : p ∈ answered adapters receipts calls) (hq : q ∈ answered adapters receipts calls)
    (hkey : p.1.intent.idempotencyKey = q.1.intent.idempotencyKey) : p.2 = q.2 := by
  induction calls generalizing receipts with
  | nil => exact nomatch hp
  | cons call calls ih =>
    obtain ⟨heq, -⟩ | ⟨previous, -, hprevious, heq⟩ | ⟨-, -, heq⟩ :=
      answered_cons adapters receipts call calls
    · exact ih (heq ▸ hp) (heq ▸ hq)
    · have hall : ∀ p ∈ answered adapters receipts (call :: calls),
          p.1.intent.idempotencyKey = call.intent.idempotencyKey → p.2 = previous :=
        fun p hp hkey ↦ eq_of_mem_answered hprevious hp hkey
      by_cases hcall : q.1.intent.idempotencyKey = call.intent.idempotencyKey
      · rw [hall p hp (hkey.trans hcall), hall q hq hcall]
      · rw [heq] at hp hq
        have hne : ∀ p : GatewayCall key × EffectResult,
            p.1.intent.idempotencyKey = q.1.intent.idempotencyKey → p ≠ (call, previous) := by
          rintro _ h rfl
          exact hcall h.symm
        exact ih ((List.mem_cons.mp hp).resolve_left (hne p hkey))
          ((List.mem_cons.mp hq).resolve_left (hne q rfl))
    · rw [heq] at hp hq
      have hnew : (receipts.insert call.intent.idempotencyKey call.result)[
          call.intent.idempotencyKey]? = some call.result := ExtTreeMap.getElem?_insert_self
      rcases List.mem_cons.mp hp with rfl | hp
      · rcases List.mem_cons.mp hq with rfl | hq
        · rfl
        · exact (eq_of_mem_answered hnew hq hkey.symm).symm
      · rcases List.mem_cons.mp hq with rfl | hq
        · exact eq_of_mem_answered hnew hp hkey
        · exact ih hp hq

/-- Where the calls start from what is remembered already: the answers are about the intents
presented if and only if that is so of what is remembered, and no accepted call follows a delivering
one with the same key and another intent. -/
theorem answers_presented_iff :
    (∀ p ∈ answered adapters receipts calls, p.2.intentDigest = p.1.intent.intentDigest) ↔
      (∀ call ∈ calls, call.Accepted adapters →
        ∀ r ∈ receipts[call.intent.idempotencyKey]?, r.intentDigest = call.intent.intentDigest) ∧
      calls.Pairwise fun earlier later ↦ earlier.Delivers adapters → later.Accepted adapters →
        earlier.intent.idempotencyKey = later.intent.idempotencyKey →
        earlier.intent.intentDigest = later.intent.intentDigest := by
  induction calls generalizing receipts with
  | nil => simp [answered]
  | cons call calls ih =>
    rw [List.forall_mem_cons, List.pairwise_cons]
    obtain ⟨heq, hskipped⟩ | ⟨previous, haccepted, hprevious, heq⟩ | ⟨hdelivers, hnone, heq⟩ :=
      answered_cons adapters receipts call calls
    · rw [heq, ih]
      constructor
      · rintro ⟨hcached, hpairs⟩
        refine ⟨⟨fun haccepted r hr ↦ ?_, hcached⟩, fun _ _ hdelivers ↦ ?_, hpairs⟩
        · exact nomatch (hskipped haccepted).1.symm.trans hr
        · exact absurd hdelivers (hskipped hdelivers.1).2
      · rintro ⟨⟨-, hcached⟩, -, hpairs⟩
        exact ⟨hcached, hpairs⟩
    · rw [heq, List.forall_mem_cons, ih]
      constructor
      · rintro ⟨hsame, hcached, hpairs⟩
        refine ⟨⟨fun _ r hr ↦ ?_, hcached⟩, fun later hlater _ hlaterAccepted hkey ↦ ?_, hpairs⟩
        · rw [Option.some.inj (hr.symm.trans hprevious)]
          exact hsame
        · rw [hkey] at hprevious
          exact hsame.symm.trans (hcached later hlater hlaterAccepted previous hprevious)
      · rintro ⟨⟨hsame, hcached⟩, -, hpairs⟩
        exact ⟨hsame haccepted previous hprevious, hcached, hpairs⟩
    · rw [heq, List.forall_mem_cons, ih]
      constructor
      · rintro ⟨-, hcached, hpairs⟩
        refine ⟨⟨fun _ r hr ↦ (nomatch hnone.symm.trans hr), fun later hlater haccepted r hr ↦ ?_⟩,
          fun later hlater _ haccepted hkey ↦ ?_, hpairs⟩
        · refine hcached later hlater haccepted r ?_
          have hne : call.intent.idempotencyKey ≠ later.intent.idempotencyKey := by
            intro hkey
            rw [← hkey] at hr
            exact nomatch hnone.symm.trans hr
          rw [ExtTreeMap.getElem?_insert, if_neg (by simpa using hne)]
          exact hr
        · refine hcached later hlater haccepted call.result ?_
          rw [← hkey]
          exact ExtTreeMap.getElem?_insert_self
      · rintro ⟨⟨-, hcached⟩, hfirst, hpairs⟩
        refine ⟨rfl, fun later hlater haccepted r hr ↦ ?_, hpairs⟩
        rw [ExtTreeMap.getElem?_insert] at hr
        split at hr
        · next hkey =>
          obtain rfl := Option.some.inj hr
          exact hfirst later hlater hdelivers haccepted (by simpa using hkey)
        · exact hcached later hlater haccepted r hr

/-- **Every answer is about the intent that was presented, and no two intents with one key are both
answered, exactly when no call with a valid token follows a delivering one with the same idempotency
key and another intent digest.** -/
theorem presented_intent_answered_iff (adapters : Adapters) (calls : List (GatewayCall key)) :
    ((∀ p ∈ answered adapters ∅ calls, p.2.intentDigest = p.1.intent.intentDigest) ∧
      ∀ p ∈ answered adapters ∅ calls, ∀ q ∈ answered adapters ∅ calls,
        p.1.intent.idempotencyKey = q.1.intent.idempotencyKey →
        p.1.intent.intentDigest = q.1.intent.intentDigest) ↔
      calls.Pairwise fun earlier later ↦ earlier.Delivers adapters → later.Accepted adapters →
        earlier.intent.idempotencyKey = later.intent.idempotencyKey →
        earlier.intent.intentDigest = later.intent.intentDigest := by
  have hempty : ∀ call ∈ calls, call.Accepted adapters →
      ∀ r ∈ (∅ : Receipts)[call.intent.idempotencyKey]?,
        r.intentDigest = call.intent.intentDigest := by
    intro call _ _ r hr
    exact nomatch hr.symm.trans ExtTreeMap.getElem?_empty
  constructor
  · rintro ⟨hpresented, -⟩
    exact (answers_presented_iff.mp hpresented).2
  · intro hpairs
    have hpresented := answers_presented_iff.mpr ⟨hempty, hpairs⟩
    refine ⟨hpresented, fun p hp q hq hkey ↦ ?_⟩
    rw [← hpresented p hp, ← hpresented q hq, answers_eq hp hq hkey]

end Runs

end Gateway

/-! ## Two intents with one key -/

set_option maxRecDepth 8000

private theorem intentSeal_ne :
    intentSeal (sampleIntent "a" (by decide)) ≠ intentSeal (sampleIntent "b" (by decide)) := by
  simp only [intentSeal, EffectIntent.sealedMembers, sampleIntent, contentDigest_sampleEnvelope]
  rw [instHash256_eq]
  decide

/-- Two calls with valid tokens whose intents differ and have the same idempotency key. -/
private theorem exists_keyed_calls : ∃ (adapters : Adapters) (first second : GatewayCall "KEY"),
    first.Delivers adapters ∧ second.Delivers adapters ∧
      first.intent.idempotencyKey = second.intent.idempotencyKey ∧
      first.intent.intentDigest ≠ second.intent.intentDigest := by
  have hcall : ∀ rollback (h : isRequired rollback = true), ∃ call : GatewayCall "KEY",
      call.Delivers ⟨["files"], ∅, ∅⟩ ∧
      call.intent.idempotencyKey = (sampleIntent rollback h).idempotencyKey ∧
      intentSeal (sampleIntent rollback h) = .ok call.intent.intentDigest := by
    intro rollback h
    obtain ⟨intent, registry, token, hseal, hkey, hadapter, hvalid⟩ :=
      exists_sample "KEY" rollback h
    refine ⟨⟨intent, token, some registry, sampleTime, "", false, .ok ()⟩,
      ⟨hvalid _, ?_, rfl, rfl⟩, hkey, hseal⟩
    rw [hadapter]
    exact List.mem_singleton_self _
  obtain ⟨first, hfirst, hfirstKey, hfirstSeal⟩ := hcall "a" (by decide)
  obtain ⟨second, hsecond, hsecondKey, hsecondSeal⟩ := hcall "b" (by decide)
  refine ⟨_, first, second, hfirst, hsecond, hfirstKey.trans hsecondKey.symm, fun heq ↦ ?_⟩
  rw [heq, ← hsecondSeal] at hfirstSeal
  exact intentSeal_ne hfirstSeal

/-- The second of two intents with one key is answered with the result of the first. -/
theorem other_intent_answered :
    ¬∀ (key : String) (adapters : Adapters) (calls : List (GatewayCall key)),
      (∀ call ∈ calls, call.Accepted adapters) →
      (∀ p ∈ answered adapters ∅ calls, p.2.intentDigest = p.1.intent.intentDigest) ∧
      ∀ p ∈ answered adapters ∅ calls, ∀ q ∈ answered adapters ∅ calls,
        p.1.intent.idempotencyKey = q.1.intent.idempotencyKey →
        p.1.intent.intentDigest = q.1.intent.intentDigest := by
  intro h
  obtain ⟨adapters, first, second, hfirst, hsecond, hkey, hne⟩ := exists_keyed_calls
  have hpresented := (h "KEY" adapters [first, second] (by simp [hfirst.1, hsecond.1])).1
  have hpairs := (answers_presented_iff.mp hpresented).2
  exact hne (List.pairwise_pair.mp hpairs hfirst hsecond.1 hkey)

end HiveMind
