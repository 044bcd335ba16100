import HiveMind.Delivery.Broker
import HiveMind.Lib.AppendOnly
import HiveMind.Lib.Machines

/-!
# What a delivery broker promises

The events of a broker are a log, and each remote call and each record is checked against the
events before it. The record under a key is always the last one that was written, in memory and in
the file, and so a restart changes nothing.

A record is replaced by a fresh one when the transport times out, loses the connection or is not
permitted. If this happens after the push, the head of the branch was recorded, and the fresh record
does not have it. An observation that lacks the head replaces a record as well.

* **`honest_iff`**: the events of a run keep what the broker promises if and only if no call comes
  in a state in which it loses a head.
-/

open Raise AppendOnly Machines

namespace HiveMind.Delivery

/-! ## Events -/

/-- The records that were written under a key. -/
def recordsOf (key : String) (events : List Event) : List DeliveryResult :=
  events.filterMap fun
    | .recorded k result => if k = key then some result else none
    | _ => none

/-- The record that was written last under a key. -/
def lastRecord (key : String) (events : List Event) : Option DeliveryResult :=
  (recordsOf key events).getLast?

def Event.pushedKey : Event → Option String
  | .pushed r _ => some r.idempotencyKey
  | _ => none

def Event.draftedKey : Event → Option String
  | .drafted r => some r.idempotencyKey
  | _ => none

/-- A record that leaves the delivery unfinished has the head that was recorded before. -/
def KeepsHead (prior result : DeliveryResult) : Prop :=
  ∀ head ∈ prior.branchHead, result.state ≠ .published → result.branchHead = some head

instance (prior result : DeliveryResult) : Decidable (KeepsHead prior result) :=
  inferInstanceAs (Decidable (∀ _ ∈ _, _))

/-- What the broker promises of its events. -/
structure Honest (events : List Event) : Prop where
  pushes : (events.filterMap Event.pushedKey).Nodup
  drafts : (events.filterMap Event.draftedKey).Nodup
  granted : ∀ r grant, .pushed r grant ∈ events →
    ∃ g, grant = some (.grant g) ∧ g.allows r = true
  bound : ∀ key, ∀ first ∈ (recordsOf key events).head?, ∀ result ∈ recordsOf key events,
    result.requestDigest = first.requestDigest
  heads : ∀ before key result after, events = before ++ .recorded key result :: after →
    ∀ prior ∈ lastRecord key before, KeepsHead prior result

section Events

variable {key k : String} {events : List Event} {r : DeliveryRequest} {grant : Option GrantEntry}
  {result : DeliveryResult}

theorem recordsOf_recorded :
    recordsOf key (events ++ [.recorded k result]) =
      recordsOf key events ++ if k = key then [result] else [] := by
  rw [recordsOf, List.filterMap_append]
  by_cases hk : k = key
  · simp [recordsOf, hk]
  · simp [recordsOf, hk]

theorem lastRecord_recorded :
    lastRecord key (events ++ [.recorded k result]) =
      if k = key then some result else lastRecord key events := by
  rw [lastRecord, recordsOf_recorded]
  by_cases hk : k = key
  · rw [if_pos hk, if_pos hk, List.getLast?_concat]
  · rw [if_neg hk, if_neg hk, List.append_nil, lastRecord]

theorem lastRecord_pushed : lastRecord key (events ++ [.pushed r grant]) = lastRecord key events := by
  simp [lastRecord, recordsOf]

theorem lastRecord_drafted : lastRecord key (events ++ [.drafted r]) = lastRecord key events := by
  simp [lastRecord, recordsOf]

end Events

/-- What an event is checked for. If the run is strict, this includes that it keeps a head. -/
def Allowed (strict : Prop) (before : List Event) : Event → Prop
  | .pushed r grant => r.idempotencyKey ∉ before.filterMap Event.pushedKey ∧
      ∃ g, grant = some (.grant g) ∧ g.allows r = true
  | .drafted r => r.idempotencyKey ∉ before.filterMap Event.draftedKey
  | .recorded key result => ∀ prior ∈ lastRecord key before,
      prior.requestDigest = result.requestDigest ∧ (strict → KeepsHead prior result)

/-- A key that each event of a kind has to bring anew. -/
theorem nodup_filterMap_of_admitted {P : List Event → Event → Prop} {events : List Event}
    {keyOf : Event → Option String} (h : Admitted P events)
    (hnew : ∀ before e, P before e → ∀ k ∈ keyOf e, k ∉ before.filterMap keyOf) :
    (events.filterMap keyOf).Nodup := by
  induction events using List.reverseRecOn with
  | nil => exact List.nodup_nil
  | append_singleton events e ih =>
    rw [List.filterMap_append]
    refine List.nodup_append.mpr ⟨ih h.of_concat, ?_, ?_⟩
    · cases hkey : keyOf e <;> simp [hkey]
    · intro k hk k' hk' heq
      have hkey : keyOf e = some k' := by simpa using hk'
      subst heq
      exact hnew events e (h events e [] rfl) k hkey hk

theorem honest_of_admitted {events : List Event} (h : Admitted (Allowed True) events) :
    Honest events where
  pushes := by
    refine nodup_filterMap_of_admitted h fun before e hallowed k hk ↦ ?_
    cases e with
    | pushed r grant =>
      obtain rfl := Option.mem_some_iff.mp hk
      exact hallowed.1
    | drafted r => exact nomatch hk
    | recorded key result => exact nomatch hk
  drafts := by
    refine nodup_filterMap_of_admitted h fun before e hallowed k hk ↦ ?_
    cases e with
    | pushed r grant => exact nomatch hk
    | drafted r =>
      obtain rfl := Option.mem_some_iff.mp hk
      exact hallowed
    | recorded key result => exact nomatch hk
  granted := by
    intro r grant hmem
    obtain ⟨_, _, -, hallowed⟩ := h.exists_of_mem hmem
    exact hallowed.2
  bound := by
    intro key
    induction events using List.reverseRecOn with
    | nil => exact fun _ hfirst ↦ nomatch hfirst
    | append_singleton events e ih =>
      cases e with
      | pushed r grant => simpa [recordsOf] using ih h.of_concat
      | drafted r => simpa [recordsOf] using ih h.of_concat
      | recorded k result =>
        rw [recordsOf_recorded]
        by_cases hk : k = key
        · subst hk
          rw [if_pos rfl]
          have hallowed := h events (.recorded k result) [] rfl
          cases hrecords : recordsOf k events with
          | nil => simp
          | cons first rest =>
            intro first' hfirst'
            obtain rfl : first = first' := by simpa using hfirst'
            have hall := ih h.of_concat first (by rw [hrecords]; rfl)
            rw [hrecords] at hall
            rw [List.forall_mem_append, List.forall_mem_singleton]
            refine ⟨hall, ?_⟩
            obtain ⟨prior, hprior⟩ : ∃ prior, (first :: rest).getLast? = some prior :=
              Option.isSome_iff_exists.mp (by simp)
            have hlast : lastRecord k events = some prior := by rw [lastRecord, hrecords, hprior]
            rw [← (hallowed prior hlast).1]
            exact hall prior (List.mem_of_getLast? hprior)
        · rw [if_neg hk, List.append_nil]
          exact ih h.of_concat
  heads := fun before key result after heq prior hprior ↦
    ((h before (.recorded key result) after heq) prior hprior).2 trivial

/-! ## Steps -/

/-- What a call does to the world, one write or remote call after the other. -/
inductive Step (strict : Prop) : World → World → Prop
  | recorded {w : World} {key digest : String} {result : DeliveryResult}
      (hdigest : result.requestDigest = digest)
      (hprior : ∀ prior, w.results.lookup key = some prior →
        prior.1 = digest ∧ (strict → KeepsHead prior.2 result)) :
      Step strict w (w.write key digest result)
  | pushed {w : World} {r : DeliveryRequest} {grant : Option GrantEntry}
      (hthere : w.results.lookup r.idempotencyKey ≠ none)
      (hnew : r.idempotencyKey ∉ w.events.filterMap Event.pushedKey)
      (hgrant : ∃ g, grant = some (.grant g) ∧ g.allows r = true) :
      Step strict w (w.emit (.pushed r grant))
  | drafted {w : World} {r : DeliveryRequest}
      (hthere : w.results.lookup r.idempotencyKey ≠ none)
      (hnew : r.idempotencyKey ∉ w.events.filterMap Event.draftedKey) :
      Step strict w (w.emit (.drafted r))
  | lives {w : World} (life : ℕ) : Step strict w { w with life }

/-- The memory, the file and the events fit together. -/
structure Inv (strict : Prop) (w : World) : Prop where
  file : load w.file = w.results
  keys : (w.results.map Prod.fst).Nodup
  digests : ∀ item ∈ w.results, item.2.2.requestDigest = item.2.1
  last : ∀ key, (w.results.lookup key).map Prod.snd = lastRecord key w.events
  remote : ∀ r grant, .pushed r grant ∈ w.events ∨ .drafted r ∈ w.events →
    w.results.lookup r.idempotencyKey ≠ none
  admitted : Admitted (Allowed strict) w.events

variable {strict : Prop} {w w' : World}

theorem inv_init : Inv strict .init :=
  ⟨rfl, List.nodup_nil, nofun, fun _ ↦ rfl, fun _ _ h ↦ by simp [World.init] at h, .nil⟩

/-- **What is written to the file is read back from it.** -/
theorem load_document {results : Results} (hkeys : (results.map Prod.fst).Nodup)
    (hdigests : ∀ item ∈ results, item.2.2.requestDigest = item.2.1) :
    load (some (document results)) = results := by
  let entry : String × Item → String × (String × DeliveryResult) := fun item ↦
    (item.1, item.2.requestDigest, ⟨item.2.state, item.2.requestDigest, item.2.branchHead,
      item.2.prId, item.2.blocker⟩)
  have hback : (document results).map entry = results := by
    rw [document, List.map_map]
    refine (List.map_congr_left fun item hitem ↦ ?_).trans (List.map_id results)
    obtain ⟨key, digest, result⟩ := item
    have hdigest : result.requestDigest = digest := hdigests _ hitem
    subst hdigest
    rfl
  have hload := Dicts.foldl_setItem entry (document results) [] (by rwa [List.nil_append, hback])
  rw [hback, List.nil_append] at hload
  exact hload

theorem lookup_of_mem_keys {results : Results} {item : String × (String × DeliveryResult)}
    {key digest : String} {result : DeliveryResult} (hkeys : (results.map Prod.fst).Nodup)
    (hitem : item ∈ Dicts.setItem key (digest, result) results) :
    item = (key, digest, result) ∨ item ∈ results := by
  obtain ⟨k, v⟩ := item
  rw [Dicts.mem_setItem hkeys] at hitem
  by_cases hk : k = key
  · rw [if_pos hk] at hitem
    exact .inl (by rw [hk, hitem])
  · rw [if_neg hk] at hitem
    exact .inr hitem

theorem Inv.write (h : Inv strict w) {key digest : String} {result : DeliveryResult}
    (hdigest : result.requestDigest = digest)
    (hprior : ∀ prior, w.results.lookup key = some prior →
      prior.1 = digest ∧ (strict → KeepsHead prior.2 result)) :
    Inv strict (w.write key digest result) := by
  have hkeys : ((w.write key digest result).results.map Prod.fst).Nodup :=
    Dicts.nodup_setItem h.keys
  have hdigests : ∀ item ∈ (w.write key digest result).results,
      item.2.2.requestDigest = item.2.1 := by
    intro item hitem
    rcases lookup_of_mem_keys h.keys hitem with rfl | hitem
    · exact hdigest
    · exact h.digests item hitem
  refine ⟨load_document hkeys hdigests, hkeys, hdigests, ?_, ?_, ?_⟩
  · intro k
    change ((Dicts.setItem key (digest, result) w.results).lookup k).map Prod.snd =
      lastRecord k (w.events ++ [.recorded key result])
    rw [Dicts.lookup_setItem, lastRecord_recorded]
    by_cases hk : k = key
    · rw [if_pos hk, if_pos hk.symm, Option.map_some]
    · rw [if_neg hk, if_neg (Ne.symm hk)]
      exact h.last k
  · intro r grant hmem
    have hmem : .pushed r grant ∈ w.events ∨ .drafted r ∈ w.events := by
      simpa [World.write] using hmem
    change (Dicts.setItem key (digest, result) w.results).lookup r.idempotencyKey ≠ none
    rw [Dicts.lookup_setItem]
    by_cases hk : r.idempotencyKey = key
    · rw [if_pos hk]
      exact Option.some_ne_none _
    · rw [if_neg hk]
      exact h.remote r grant hmem
  · refine h.admitted.concat ?_
    intro prior hlast
    rw [← h.last key] at hlast
    obtain ⟨⟨priorDigest, prior'⟩, hlookup, rfl⟩ := Option.map_eq_some_iff.mp hlast
    obtain ⟨hsame, hkeeps⟩ := hprior _ hlookup
    refine ⟨?_, hkeeps⟩
    rw [hdigest, ← hsame]
    exact h.digests _ (Dicts.mem_of_lookup hlookup)

theorem Inv.emit (h : Inv strict w) {e : Event} (hallowed : Allowed strict w.events e)
    (hlast : ∀ key, lastRecord key (w.events ++ [e]) = lastRecord key w.events)
    (hthere : ∀ r grant, e = .pushed r grant ∨ e = .drafted r →
      w.results.lookup r.idempotencyKey ≠ none) : Inv strict (w.emit e) := by
  refine ⟨h.file, h.keys, h.digests, ?_, ?_, h.admitted.concat hallowed⟩
  · intro key
    exact (h.last key).trans (hlast key).symm
  · intro r grant hmem
    simp only [World.emit, List.mem_append, List.mem_singleton] at hmem
    rcases hmem with (hmem | hmem) | (hmem | hmem)
    · exact h.remote r grant (.inl hmem)
    · exact hthere r grant (.inl hmem.symm)
    · exact h.remote r grant (.inr hmem)
    · exact hthere r grant (.inr hmem.symm)

theorem Inv.step (h : Inv strict w) (hstep : Step strict w w') : Inv strict w' := by
  cases hstep with
  | recorded hdigest hprior => exact h.write hdigest hprior
  | pushed hthere hnew hgrant =>
    refine h.emit ⟨hnew, hgrant⟩ (fun _ ↦ lastRecord_pushed) ?_
    rintro r grant (⟨⟨⟩⟩ | ⟨⟨⟩⟩)
    exact hthere
  | drafted hthere hnew =>
    refine h.emit hnew (fun _ ↦ lastRecord_drafted) ?_
    rintro r grant (⟨⟨⟩⟩ | ⟨⟨⟩⟩)
    exact hthere
  | lives life => exact ⟨h.file, h.keys, h.digests, h.last, h.remote, h.admitted⟩

theorem Inv.steps (h : Inv strict w) (hsteps : Relation.ReflTransGen (Step strict) w w') :
    Inv strict w' := by
  induction hsteps with
  | refl => exact h
  | tail _ hstep ih => exact ih.step hstep

/-- A restart changes nothing. -/
theorem Inv.restart (h : Inv strict w) : w.restart = w := by
  rw [World.restart, h.file]

/-! ## Calls -/

theorem record_eq_ok {key digest : String} {result a : DeliveryResult}
    (h : record key digest result w = .ok a w') :
    a = result ∧ w' = w.write key digest result ∧ w.life ≠ 0 := by
  obtain ⟨t, _, hget, h⟩ := run_bind_eq_ok.mp h
  obtain ⟨rfl, rfl⟩ := run_get_eq_ok.mp hget
  obtain ⟨hlife, h⟩ := run_guard_eq_ok.mp h
  obtain ⟨⟨⟩, _, hset, h⟩ := run_bind_eq_ok.mp h
  obtain rfl := run_set_eq_ok.mp hset
  obtain ⟨rfl, rfl⟩ := run_pure_eq_ok.mp h
  exact ⟨rfl, rfl, hlife⟩

theorem remote_eq_ok {α : Type} {e : Event} {response a : Response α}
    (h : remote e response w = .ok a w') : a = response ∧ w' = w.emit e ∧ w.life ≠ 0 := by
  obtain ⟨t, _, hget, h⟩ := run_bind_eq_ok.mp h
  obtain ⟨rfl, rfl⟩ := run_get_eq_ok.mp hget
  obtain ⟨hlife, h⟩ := run_guard_eq_ok.mp h
  obtain ⟨⟨⟩, _, hset, h⟩ := run_bind_eq_ok.mp h
  obtain rfl := run_set_eq_ok.mp hset
  obtain ⟨rfl, rfl⟩ := run_pure_eq_ok.mp h
  exact ⟨rfl, rfl, hlife⟩

/-- A record that is written is one step. -/
theorem leads_record {key digest : String} {result : DeliveryResult}
    (h : w.life ≠ 0 → Step strict w (w.write key digest result)) :
    Leads (Step strict) (record key digest result) w := by
  refine leads_get_bind ?_
  by_cases hlife : w.life = 0
  · rw [if_pos hlife]
    exact (keeps_throw _).leads_bind fun _ hok ↦ nomatch hok
  · rw [if_neg hlife]
    exact (leads_set (h hlife)).bind fun _ _ _ ↦ (keeps_pure _).leads

theorem leads_remote {α : Type} {e : Event} {response : Response α}
    (h : Step strict w (w.emit e)) : Leads (Step strict) (remote e response) w := by
  refine leads_get_bind ?_
  by_cases hlife : w.life = 0
  · rw [if_pos hlife]
    exact (keeps_throw _).leads_bind fun _ hok ↦ nomatch hok
  · rw [if_neg hlife]
    exact (leads_set h).bind fun _ _ _ ↦ (keeps_pure _).leads

theorem lookup_write {key k digest : String} {result : DeliveryResult} :
    (w.write key digest result).results.lookup k =
      if k = key then some (digest, result) else w.results.lookup k :=
  Dicts.lookup_setItem key k (digest, result) w.results

section Digests

variable [Hash256] {r : DeliveryRequest} {transport : Transport} {grant : Option GrantEntry}

/-- An exception that is caught is recorded afresh. A recorded head is not in the new record. -/
theorem leads_handle {e : TransportError} (prior : DeliveryResult)
    (hprior : w.results.lookup r.idempotencyKey = some (r.digest, prior))
    (hkeeps : w.life ≠ 0 → e ≠ .other → strict → prior.branchHead = none) :
    Leads (Step strict) (handle r e) w := by
  have hstep {result : DeliveryResult} (hdigest : result.requestDigest = r.digest)
      (hnone : strict → prior.branchHead = none) :
      Step strict w (w.write r.idempotencyKey r.digest result) := by
    refine .recorded hdigest fun prior' hprior' ↦ ?_
    obtain rfl := Option.some.inj (hprior.symm.trans hprior')
    refine ⟨rfl, fun hstrict head hhead ↦ ?_⟩
    rw [hnone hstrict] at hhead
    exact nomatch hhead
  cases e with
  | uncertain => exact leads_record fun hlife ↦ hstep rfl (hkeeps hlife nofun)
  | permission message => exact leads_record fun hlife ↦ hstep rfl (hkeeps hlife nofun)
  | other => exact (keeps_throw _).leads

/-- The branch is pushed, and then the request for the draft raises what the broker catches, in a
process that lives to record it. -/
structure DraftFails (life : ℕ) (transport : Transport) : Prop where
  life : 5 ≤ life
  push : ∃ head, transport.push = .returns head
  draft : ∃ e, transport.findOrCreateDraft = .raises e ∧ e ≠ .other

theorem leads_deliver (h : Inv strict w) (hnew : w.results.lookup r.idempotencyKey = none)
    (hgrant : ∃ g, grant = some (.grant g) ∧ g.allows r = true)
    (hcareful : strict → ¬DraftFails w.life transport) :
    Leads (Step strict) (deliver r grant transport) w := by
  have hremote : ∀ r' grant', r'.idempotencyKey = r.idempotencyKey →
      ¬(.pushed r' grant' ∈ w.events ∨ .drafted r' ∈ w.events) := by
    intro r' grant' hkey hmem
    exact h.remote r' grant' hmem (hkey ▸ hnew)
  -- the intent is recorded
  refine (leads_record fun _ ↦ .recorded rfl fun prior hprior ↦ ?_).bind fun _ w₁ hok₁ ↦ ?_
  · exact nomatch hnew.symm.trans hprior
  obtain ⟨-, rfl, hlife₁⟩ := record_eq_ok hok₁
  -- the branch is pushed
  have hthere₁ : (w.write r.idempotencyKey r.digest
      { state := .pushPending, requestDigest := r.digest }).results.lookup r.idempotencyKey ≠
        none := by
    rw [lookup_write, if_pos rfl]
    exact Option.some_ne_none _
  refine (leads_remote (.pushed hthere₁ ?_ hgrant)).bind fun response w₂ hok₂ ↦ ?_
  · intro hmem
    obtain ⟨e, he, hkey⟩ := List.mem_filterMap.mp hmem
    cases e with
    | pushed r' grant' =>
      have he : .pushed r' grant' ∈ w.events := by simpa [World.write] using he
      exact hremote r' grant' (Option.some.inj hkey) (.inl he)
    | drafted r' => exact nomatch hkey
    | recorded key result => exact nomatch hkey
  obtain ⟨rfl, rfl, hlife₂⟩ := remote_eq_ok hok₂
  cases hpush : transport.push with
  | raises e =>
    refine leads_handle { state := .pushPending, requestDigest := r.digest } ?_ ?_
    · exact lookup_write.trans (if_pos rfl)
    · exact fun _ _ _ ↦ rfl
  | returns head =>
    -- the head is recorded
    refine (leads_record fun _ ↦ .recorded rfl fun prior hprior ↦ ?_).bind fun _ w₃ hok₃ ↦ ?_
    · obtain rfl := Option.some.inj ((lookup_write.trans (if_pos rfl)).symm.trans hprior)
      exact ⟨rfl, fun _ _ hhead ↦ nomatch hhead⟩
    obtain ⟨-, rfl, hlife₃⟩ := record_eq_ok hok₃
    -- the draft is asked for
    refine (leads_remote (.drafted ?_ ?_)).bind fun response w₄ hok₄ ↦ ?_
    · rw [lookup_write, if_pos rfl]
      exact Option.some_ne_none _
    · intro hmem
      obtain ⟨e, he, hkey⟩ := List.mem_filterMap.mp hmem
      cases e with
      | pushed r' grant' => exact nomatch hkey
      | drafted r' =>
        have he : .drafted r' ∈ w.events := by simpa [World.write, World.emit] using he
        exact hremote r' none (Option.some.inj hkey) (.inr he)
      | recorded key result => exact nomatch hkey
    obtain ⟨rfl, rfl, hlife₄⟩ := remote_eq_ok hok₄
    cases hdraft : transport.findOrCreateDraft with
    | raises e =>
      refine leads_handle
        { state := .prPending, requestDigest := r.digest, branchHead := some head } ?_ ?_
      · exact lookup_write.trans (if_pos rfl)
      · intro hlife₅ hother hstrict
        refine absurd ⟨?_, ⟨head, hpush⟩, ⟨e, hdraft, hother⟩⟩ (hcareful hstrict)
        simp only [World.write, World.emit] at hlife₁ hlife₂ hlife₃ hlife₄ hlife₅
        omega
    | returns pr =>
      refine leads_record fun _ ↦ .recorded rfl fun prior hprior ↦ ?_
      obtain rfl := Option.some.inj ((lookup_write.trans (if_pos rfl)).symm.trans hprior)
      exact ⟨rfl, fun _ _ _ hstate ↦ absurd rfl hstate⟩

theorem leads_answerPrior {prior : String × DeliveryResult}
    (hprior : w.results.lookup r.idempotencyKey = some prior) :
    Leads (Step strict) (answerPrior r prior.1 prior.2) w := by
  rw [answerPrior]
  by_cases hdigest : prior.1 ≠ r.digest
  · rw [if_pos hdigest]
    exact (keeps_pure _).leads
  rw [if_neg hdigest]
  rw [not_not] at hdigest
  by_cases hpending : prior.2.state = .pushPending ∨ prior.2.state = .prPending
  · rw [if_pos hpending]
    refine leads_record fun _ ↦ .recorded rfl fun prior' hprior' ↦ ?_
    obtain rfl := Option.some.inj (hprior.symm.trans hprior')
    exact ⟨hdigest, fun _ head hhead _ ↦ hhead⟩
  · rw [if_neg hpending]
    exact (keeps_pure _).leads

/-- The request gets as far as the remote calls. -/
structure Delivers (results : Results) (r : DeliveryRequest)
    (grants : String → Option GrantEntry) : Prop where
  content : contentBlocker r = none
  grant : ∃ g, grants r.grantRef = some (.grant g) ∧ g.allows r = true
  new : results.lookup r.idempotencyKey = none

theorem leads_prepare (h : Inv strict w) {grants : String → Option GrantEntry}
    {transport : Option Transport}
    (hcareful : strict → Delivers w.results r grants → ∀ t ∈ transport, ¬DraftFails w.life t) :
    Leads (Step strict) (prepare r grants transport) w := by
  rw [prepare.eq_def]
  cases hcontent : contentBlocker r with
  | some blocker => exact (keeps_pure _).leads
  | none =>
    cases hgrant : grants r.grantRef with
    | none => exact (keeps_pure _).leads
    | some entry =>
      cases entry with
      | foreign => exact (keeps_pure _).leads
      | grant g =>
        dsimp only
        by_cases hallows : g.allows r = true
        · rw [if_neg (by simp [hallows])]
          cases transport with
          | none => exact (keeps_pure _).leads
          | some t =>
            refine leads_get_bind ?_
            cases hlookup : w.results.lookup r.idempotencyKey with
            | some prior => exact leads_answerPrior hlookup
            | none =>
              refine leads_deliver h hlookup ⟨g, rfl, hallows⟩ fun hstrict ↦ ?_
              exact hcareful hstrict ⟨hcontent, ⟨g, hgrant, hallows⟩, hlookup⟩ t rfl
        · rw [if_pos (by simpa using hallows)]
          exact (keeps_pure _).leads

/-- An observation that is recorded. -/
structure Observes (results : Results) (r : DeliveryRequest) (t : Transport)
    (prior observed : DeliveryResult) : Prop where
  prior : results.lookup r.idempotencyKey = some (r.digest, prior)
  observe : t.observe = some (.returns (.result observed))
  digest : observed.requestDigest = r.digest

theorem leads_reconcile {transport : Option Transport}
    (hcareful : strict → w.life ≠ 0 → ∀ t ∈ transport, ∀ prior observed,
      Observes w.results r t prior observed → KeepsHead prior observed) :
    Leads (Step strict) (reconcile r transport) w := by
  refine leads_get_bind ?_
  cases hlookup : w.results.lookup r.idempotencyKey with
  | none => exact (keeps_pure _).leads
  | some prior =>
    obtain ⟨priorDigest, prior⟩ := prior
    dsimp only
    by_cases hdigest : priorDigest ≠ r.digest
    · rw [if_pos hdigest]
      exact (keeps_pure _).leads
    rw [if_neg hdigest]
    rw [not_not] at hdigest
    subst hdigest
    cases hobserve : transport.bind (·.observe) with
    | none => exact (keeps_pure _).leads
    | some response =>
      obtain ⟨t, ht, hresponse⟩ := Option.bind_eq_some_iff.mp hobserve
      cases response with
      | raises e => exact (keeps_throw _).leads
      | returns observation =>
        cases observation with
        | foreign => exact (keeps_pure _).leads
        | result observed =>
          dsimp only [settle]
          by_cases hobserved : observed.requestDigest ≠ r.digest
          · rw [if_pos hobserved]
            exact (keeps_pure _).leads
          rw [if_neg hobserved]
          rw [not_not] at hobserved
          refine leads_record fun hlife ↦ .recorded hobserved fun prior' hprior' ↦ ?_
          obtain rfl := Option.some.inj (hlookup.symm.trans hprior')
          exact ⟨rfl, fun hstrict ↦
            hcareful hstrict hlife t ht prior observed ⟨hlookup, hresponse, hobserved⟩⟩

/-! ## Runs -/

/-- The call loses a head that was recorded: a draft fails after the push, or what is observed of an
unfinished delivery does not have the head. -/
def Call.Loses (w : World) : Call → Prop
  | .prepare r grants transport life =>
    Delivers w.results r grants ∧ ∃ t ∈ transport, DraftFails life t
  | .reconcile r transport life =>
    life ≠ 0 ∧ ∃ t ∈ transport, ∃ prior observed, Observes w.results r t prior observed ∧
      ¬KeepsHead prior observed
  | .restart => False

omit [Hash256] in
theorem leads_lives (life : ℕ) :
    Leads (Step strict) (modify (fun w : World ↦ { w with life }) : EStateM BrokerError World PUnit)
      w := by
  constructor
  · intro a w' hok
    obtain rfl := run_modify_eq_ok.mp hok
    exact .single (.lives life)
  · intro e w' herror
    exact nomatch herror

theorem leads_exec (c : Call) (h : Inv strict w) (hcareful : strict → ¬c.Loses w) :
    Leads (Step strict) c.exec w := by
  cases c with
  | prepare r grants transport life =>
    refine (leads_lives life).bind fun _ w' hmodify ↦ ?_
    obtain rfl := run_modify_eq_ok.mp hmodify
    refine (leads_prepare (h.step (.lives life)) ?_).bind fun _ _ _ ↦ (keeps_pure _).leads
    intro hstrict hdelivers t ht hfails
    exact hcareful hstrict ⟨hdelivers, t, ht, hfails⟩
  | reconcile r transport life =>
    refine (leads_lives life).bind fun _ w' hmodify ↦ ?_
    obtain rfl := run_modify_eq_ok.mp hmodify
    refine (leads_reconcile ?_).bind fun _ _ _ ↦ (keeps_pure _).leads
    intro hstrict hlife t ht prior observed hobserves
    by_contra hloses
    exact hcareful hstrict ⟨hlife, t, ht, prior, observed, hobserves, hloses⟩
  | restart =>
    have hsame : Call.restart.exec w = .ok () w := by
      change EStateM.Result.ok () w.restart = _
      rw [h.restart]
    constructor
    · intro a w' hok
      obtain ⟨-, rfl⟩ := EStateM.Result.ok.inj (hsame.symm.trans hok)
      exact .refl
    · intro e w' herror
      exact nomatch hsame.symm.trans herror

/-- A call, with the restart after it if the process was killed, goes by steps. -/
theorem steps_after (c : Call) (h : Inv strict w) (hcareful : strict → ¬c.Loses w) :
    Relation.ReflTransGen (Step strict) w (c.after w) := by
  obtain ⟨hok, herror⟩ := leads_exec c h hcareful
  rw [Call.after]
  cases hexec : c.exec w with
  | ok a w' => exact hok a w' hexec
  | error e w' =>
    have hsteps := herror e w' hexec
    cases e with
    | transport => exact hsteps
    | killed =>
      change Relation.ReflTransGen _ w w'.restart
      rwa [(h.steps hsteps).restart]

/-! ### A call that loses a head -/

omit [Hash256] in
theorem record_of_life {key digest : String} {result : DeliveryResult} (h : w.life ≠ 0) :
    record key digest result w = .ok result (w.write key digest result) := by
  have hget : (get : BrokerM World) w = .ok w w := rfl
  rw [record, run_bind_of_ok hget, if_neg h]
  rfl

omit [Hash256] in
theorem remote_of_life {α : Type} {e : Event} {response : Response α} (h : w.life ≠ 0) :
    remote e response w = .ok response (w.emit e) := by
  have hget : (get : BrokerM World) w = .ok w w := rfl
  rw [remote, run_bind_of_ok hget, if_neg h]
  rfl

/-- An exception that is caught leaves a record without a head. -/
theorem handle_of_life {e : TransportError} (hlife : w.life ≠ 0) (he : e ≠ .other) :
    ∃ result, result.state ≠ .published ∧ result.branchHead = none ∧
      handle r e w = .ok result (w.write r.idempotencyKey r.digest result) := by
  cases e with
  | uncertain =>
    refine ⟨_, ?_, ?_, record_of_life hlife⟩
    · exact nofun
    · rfl
  | permission message =>
    refine ⟨_, ?_, ?_, record_of_life hlife⟩
    · exact nofun
    · rfl
  | other => exact absurd rfl he

/-- The last event of the log is a record that has lost the head of the record before. -/
def LastLoses (events : List Event) : Prop :=
  ∃ before key prior result, events = before ++ [.recorded key result] ∧
    prior ∈ lastRecord key before ∧ ¬KeepsHead prior result

theorem lastLoses_deliver (r : DeliveryRequest) (grant : Option GrantEntry)
    (h : DraftFails w.life transport) :
    ∃ a w', deliver r grant transport w = .ok a w' ∧ LastLoses w'.events := by
  obtain ⟨hlife, ⟨head, hpush⟩, e, hdraft, hother⟩ := h
  let w₁ := w.write r.idempotencyKey r.digest { state := .pushPending, requestDigest := r.digest }
  let w₂ := w₁.emit (.pushed r grant)
  let prior : DeliveryResult :=
    { state := .prPending, requestDigest := r.digest, branchHead := some head }
  let w₃ := w₂.write r.idempotencyKey r.digest prior
  let w₄ := w₃.emit (.drafted r)
  obtain ⟨result, hstate, hnone, hhandle⟩ : ∃ result, result.state ≠ .published ∧
      result.branchHead = none ∧
      handle r e w₄ = .ok result (w₄.write r.idempotencyKey r.digest result) := by
    refine handle_of_life ?_ hother
    change w.life - 1 - 1 - 1 - 1 ≠ 0
    omega
  refine ⟨result, w₄.write r.idempotencyKey r.digest result, ?_, ?_⟩
  · have hrecord : record r.idempotencyKey r.digest
        { state := .pushPending, requestDigest := r.digest } w = .ok _ w₁ :=
      record_of_life (by omega)
    have hpushed : remote (.pushed r grant) transport.push w₁ = .ok transport.push w₂ :=
      remote_of_life (by change w.life - 1 ≠ 0; omega)
    have hhead : record r.idempotencyKey r.digest prior w₂ = .ok prior w₃ :=
      record_of_life (by change w.life - 1 - 1 ≠ 0; omega)
    have hdrafted : remote (.drafted r) transport.findOrCreateDraft w₃ =
        .ok transport.findOrCreateDraft w₄ :=
      remote_of_life (by change w.life - 1 - 1 - 1 ≠ 0; omega)
    rw [deliver, run_bind_of_ok hrecord, run_bind_of_ok hpushed, hpush]
    dsimp only
    rw [run_bind_of_ok hhead, run_bind_of_ok hdrafted, hdraft]
    exact hhandle
  · refine ⟨w₄.events, r.idempotencyKey, prior, result, rfl, ?_, ?_⟩
    · change lastRecord r.idempotencyKey (w₃.events ++ [.drafted r]) = some prior
      rw [lastRecord_drafted]
      change lastRecord r.idempotencyKey (w₂.events ++ [.recorded r.idempotencyKey prior]) = _
      rw [lastRecord_recorded, if_pos rfl]
    · intro hkeeps
      have hsome := hkeeps head rfl hstate
      rw [hnone] at hsome
      exact nomatch hsome

/-- A call that loses a head leaves it in the log that it did. -/
theorem lastLoses_of_loses (h : Inv strict w) {c : Call} (hloses : c.Loses w) :
    LastLoses (c.after w).events := by
  cases c with
  | prepare r grants transport life =>
    obtain ⟨hdelivers, t, rfl, hfails⟩ := hloses
    obtain ⟨g, hgrant, hallows⟩ := hdelivers.grant
    obtain ⟨a, w', hdeliver, hlast⟩ :=
      lastLoses_deliver (w := { w with life }) r (grants r.grantRef) hfails
    have hprepare : prepare r grants (some t) { w with life } = .ok a w' := by
      have hget : (get : BrokerM World) { w with life } = .ok { w with life } { w with life } :=
        rfl
      rw [prepare.eq_def, hdelivers.content]
      dsimp only
      rw [hgrant]
      dsimp only
      rw [if_neg (by simp [hallows]), run_bind_of_ok hget]
      dsimp only
      rw [hdelivers.new, ← hgrant]
      exact hdeliver
    have hexec : (Call.prepare r grants (some t) life).exec w = .ok () w' := by
      have hmodify : (modify (fun w : World ↦ { w with life }) : BrokerM PUnit) w =
          .ok ⟨⟩ { w with life } := rfl
      rw [Call.exec, run_bind_of_ok hmodify, run_bind_of_ok hprepare]
      rfl
    rw [Call.after, hexec]
    exact hlast
  | reconcile r transport life =>
    obtain ⟨hlife, t, rfl, prior, observed, hobserves, hnot⟩ := hloses
    have hsettle : reconcile r (some t) { w with life } =
        .ok observed (({ w with life } : World).write r.idempotencyKey r.digest observed) := by
      have hget : (get : BrokerM World) { w with life } = .ok { w with life } { w with life } :=
        rfl
      rw [reconcile, run_bind_of_ok hget]
      dsimp only
      rw [hobserves.prior]
      dsimp only
      rw [if_neg (by simp), Option.bind_some, hobserves.observe]
      dsimp only [settle]
      rw [if_neg (by simp [hobserves.digest])]
      exact record_of_life hlife
    have hexec : (Call.reconcile r (some t) life).exec w =
        .ok () (({ w with life } : World).write r.idempotencyKey r.digest observed) := by
      have hmodify : (modify (fun w : World ↦ { w with life }) : BrokerM PUnit) w =
          .ok ⟨⟩ { w with life } := rfl
      rw [Call.exec, run_bind_of_ok hmodify, run_bind_of_ok hsettle]
      rfl
    rw [Call.after, hexec]
    refine ⟨w.events, r.idempotencyKey, prior, observed, rfl, ?_, hnot⟩
    rw [← h.last, hobserves.prior, Option.map_some]
    rfl
  | restart => exact hloses.elim

/-! ### The promises -/

omit [Hash256] in
theorem events_extended (h : Relation.ReflTransGen (Step strict) w w') :
    w.events <+: w'.events := by
  induction h with
  | refl => exact List.prefix_rfl
  | tail _ hstep ih =>
    refine ih.trans ?_
    cases hstep with
    | recorded _ _ => exact List.prefix_append _ _
    | pushed _ _ _ => exact List.prefix_append _ _
    | drafted _ _ => exact List.prefix_append _ _
    | lives _ => exact List.prefix_rfl

/-- The broker takes the calls one after the other. -/
def broker (w : World) (c : Call) : Unit × World := ((), c.after w)

theorem prefix_foldl_after (calls : List Call) (h : Inv False w) :
    w.events <+: (calls.foldl (fun w c ↦ c.after w) w).events := by
  induction calls generalizing w with
  | nil => exact List.prefix_rfl
  | cons c calls ih =>
    have hsteps := steps_after c h False.elim
    exact (events_extended hsteps).trans (ih (h.steps hsteps))

theorem always_of_honest (calls : List Call) (h : Inv False w)
    (hhonest : Honest (calls.foldl (fun w c ↦ c.after w) w).events) :
    Always broker (fun w c ↦ ¬c.Loses w) w calls := by
  induction calls generalizing w with
  | nil => trivial
  | cons c calls ih =>
    have hnext := h.steps (steps_after c h False.elim)
    refine ⟨fun hloses ↦ ?_, ih hnext hhonest⟩
    obtain ⟨before, key, prior, result, hevents, hprior, hnot⟩ := lastLoses_of_loses h hloses
    obtain ⟨rest, hrest⟩ := prefix_foldl_after calls hnext
    refine hnot (hhonest.heads before key result rest ?_ prior hprior)
    rw [List.foldl_cons, ← hrest, hevents, List.append_assoc, List.singleton_append]

theorem inv_of_always (calls : List Call) (h : Inv True w)
    (hall : Always broker (fun w c ↦ ¬c.Loses w) w calls) :
    Inv True (calls.foldl (fun w c ↦ c.after w) w) := by
  induction calls generalizing w with
  | nil => exact h
  | cons c calls ih => exact ih (h.steps (steps_after c h fun _ ↦ hall.1)) hall.2

/-- **A run keeps what the broker promises if and only if no call in it loses a head.** -/
theorem honest_iff (calls : List Call) :
    Honest (run calls).events ↔ Always broker (fun w c ↦ ¬c.Loses w) .init calls :=
  ⟨fun h ↦ always_of_honest calls inv_init h,
    fun h ↦ honest_of_admitted (inv_of_always calls inv_init h).admitted⟩

end Digests

/-! ### A head that is lost -/

/-- A request for an application. -/
def sampleRequest : DeliveryRequest where
  requestId := "request.one"
  packageId := "package.one"
  tenantId := "tenant.one"
  candidateCommit := "a1b2"
  candidateTree := "c3d4"
  qualificationDigest := "sha256:cc"
  target := "owner/repo"
  base := "main"
  runBranch := "codex/run"
  grantRef := "grant.one"
  artifactKind := .application
  contentDigest := "sha256:dd"
  idempotencyKey := "key"
  changedPaths := ["src/a.py"]
  identity := by decide
  unprotected := by decide

def sampleGrant : DeliveryGrant where
  grantRef := "grant.one"
  tenantId := "tenant.one"
  target := "owner/repo"
  base := "main"
  branchPrefix := "codex/"
  artifactKinds := [.application]

/-- The branch is pushed, and the request for the draft times out. -/
def timedOut : Call := .prepare sampleRequest (fun _ ↦ some (.grant sampleGrant))
  (some ⟨.returns "a1b2", .raises .uncertain, none⟩) 5

/-- The head that the push has returned is not in the record any more. -/
theorem head_lost : ¬Honest (run [timedOut]).events := by
  intro hhonest
  have hloses : timedOut.Loses .init := by
    refine ⟨⟨by decide, ⟨sampleGrant, rfl, by decide⟩, rfl⟩, _, rfl, ?_⟩
    exact ⟨le_refl 5, ⟨"a1b2", rfl⟩, ⟨.uncertain, rfl, nofun⟩⟩
  obtain ⟨before, key, prior, result, hevents, hprior, hnot⟩ :=
    lastLoses_of_loses (inv_init : Inv False .init) hloses
  exact hnot (hhonest.heads before key result [] hevents prior hprior)

end HiveMind.Delivery
