import HiveMind.Dag.Replay

/-!
# What an accepted history says

An accepted event either is about the run and leaves the nodes alone, or it takes one node a step
further. A node goes from pending to running, from there to a result or to a failure, and from a
failure to an adopted result. Its input is fixed by the first of these steps, and a result is final.

* **`applyEvent_change`**: what an accepted event does.
* **`replay_sound`**: what holds of every history that is accepted.
-/

open Raise

namespace HiveMind.Dag

variable {s s' t : ExecutionSnapshot} {e : ExecutionEvent} {runId nodeId : String}

/-! ## Nodes of a snapshot -/

theorem ExecutionSnapshot.find?_set {node : NodeOutcome} :
    (s.set node).find? nodeId =
      if node.nodeId = nodeId then (s.find? nodeId).map fun _ ↦ node else s.find? nodeId :=
  Rows.find?_update fun _ _ ↦ rfl

theorem ExecutionSnapshot.mem_of_find? {node : NodeOutcome} (h : s.find? nodeId = some node) :
    node ∈ s.nodes := List.mem_of_find?_eq_some h

theorem ExecutionSnapshot.map_nodeId_set {node : NodeOutcome} :
    (s.set node).nodes.map (·.nodeId) = s.nodes.map (·.nodeId) := by
  rw [ExecutionSnapshot.set, Rows.update, List.map_map]
  refine List.map_congr_left fun row _ ↦ ?_
  rw [Function.comp_apply]
  split
  next h => exact (beq_iff_eq.mp h).symm
  next => rfl

/-- Every outcome of a changed snapshot is the new one or an old one. -/
theorem ExecutionSnapshot.forall_mem_set {node : NodeOutcome} {P : NodeOutcome → Prop}
    (hold : ∀ old ∈ s.nodes, P old) (hnew : P node) : ∀ outcome ∈ (s.set node).nodes, P outcome :=
  Rows.forall_mem_update (fun old h _ ↦ hold old h) fun _ _ _ ↦ hnew

/-! ## Changes -/

/-- What an accepted event does to a snapshot, up to its length. -/
inductive Change (s : ExecutionSnapshot) (e : ExecutionEvent) : ExecutionSnapshot → Prop
  | start {nodeId input : String} {prior : NodeOutcome}
      (hkind : e.kind = EventKind.nodeStarted.value)
      (hnode : e.payload.get? "node_id" = some (.str nodeId))
      (hinput : e.payload.get? "input_digest" = some (.str input))
      (hrun : s.state = .running) (hfind : s.find? nodeId = some prior)
      (hprior : prior.state = .pending) :
      Change s e (s.set ⟨nodeId, .running, some input, none, none, none, none⟩)
  | result {nodeId input output evidence checkpoint : String} {prior : NodeOutcome}
      {state : NodeState} (hkind : e.kind ≠ EventKind.nodeStarted.value)
      (hfind : s.find? nodeId = some prior)
      (hprior : prior.state = .running ∨ prior.isStuck = true)
      (hinput : prior.inputDigest = some input) (hstate : state = .succeeded ∨ state = .adopted) :
      Change s e (s.set ⟨nodeId, state, some input, some output, some evidence, some checkpoint,
        none⟩)
  | failure {nodeId reason : String} {evidence : Option String} {prior : NodeOutcome}
      {state : NodeState} (hkind : e.kind ≠ EventKind.nodeStarted.value)
      (hfind : s.find? nodeId = some prior) (hprior : prior.state = .running)
      (hstate : state = .failed ∨ state = .reconciliationRequired) :
      Change s e (s.set ⟨nodeId, state, prior.inputDigest, none, evidence, none, some reason⟩)
  | run {t : ExecutionSnapshot} (hkind : e.kind ≠ EventKind.nodeStarted.value)
      (hnodes : t.nodes = s.nodes)
      (hcomplete : t.state = .completed → ∀ node ∈ s.nodes, node.isComplete) : Change s e t

theorem EventKind.value_inj {k l : EventKind} (h : k.value = l.value) : k = l := by
  have hk := EventKind.ofString?_eq_some.mpr h
  rw [EventKind.ofString?_eq_some.mpr rfl] at hk
  exact (Option.some.inj hk).symm

theorem change_of_applyResult {runStates : List RunState} {nodeStates : List NodeState}
    {state : NodeState} (hkind : e.kind ≠ EventKind.nodeStarted.value)
    (hstates : ∀ node : NodeOutcome, node.state ∈ nodeStates →
      node.state = .running ∨ node.isStuck = true)
    (hstate : state = .succeeded ∨ state = .adopted)
    (h : applyResult s e runStates nodeStates state = .ok t) : Change s e t := by
  obtain ⟨-, nodeId, prior, input, output, evidence, checkpoint, -, -, hfind, -, hprior, -, -,
    hinput, -, -, -, -, -, -, rfl⟩ := applyResult_eq_ok.mp h
  exact .result hkind hfind (hstates prior hprior) hinput hstate

theorem change_of_applyFailure {state : NodeState} (hkind : e.kind ≠ EventKind.nodeStarted.value)
    (hstate : state = .failed ∨ state = .reconciliationRequired)
    (h : applyFailure s e state = .ok t) : Change s e t := by
  obtain ⟨-, nodeId, prior, evidence, reason, -, -, hfind, -, hprior, -, -, -, rfl⟩ :=
    applyFailure_eq_ok.mp h
  exact .failure hkind hfind hprior hstate

/-- **An accepted event changes the run or takes one node a step further.** -/
theorem applyEvent_change (h : applyEvent s e = .ok s') :
    s.state.isTerminal = false ∧
      ∃ t, Change s e t ∧ s' = { t with sequence := s.sequence + 1 } := by
  obtain ⟨hactive, k, t, hk, ht, rfl⟩ := applyEvent_eq_ok.mp h
  refine ⟨hactive, t, ?_, rfl⟩
  -- events of any other kind than a start
  have hother : k ≠ .nodeStarted → e.kind ≠ EventKind.nodeStarted.value := by
    intro hne hvalue
    exact hne (EventKind.value_inj (hk.symm.trans hvalue))
  have hrunning : ∀ node : NodeOutcome, node.state ∈ [NodeState.running] →
      node.state = .running ∨ node.isStuck = true := by
    intro node hnode
    exact .inl (List.mem_singleton.mp hnode)
  cases k with
  | runInitialized => exact nomatch ht
  | hostLeaseReady =>
    obtain ⟨-, hstate, -, leaseId, -, -, rfl⟩ := applyLease_eq_ok.mp ht
    refine .run (hother nofun) rfl fun (hcompleted : s.state = .completed) ↦ ?_
    rw [hcompleted] at hactive
    exact nomatch hactive
  | runStarted =>
    obtain ⟨-, -, -, -, rfl⟩ := applyRunStart_eq_ok.mp ht
    exact .run (hother nofun) rfl nofun
  | nodeStarted =>
    obtain ⟨-, nodeId, prior, input, hnode, -, hfind, hrun, hprior, hinput, -, rfl⟩ :=
      applyStart_eq_ok.mp ht
    exact .start hk hnode hinput hrun hfind hprior
  | nodeSucceeded => exact change_of_applyResult (hother nofun) hrunning (.inl rfl) ht
  | nodeRecovered => exact change_of_applyResult (hother nofun) hrunning (.inl rfl) ht
  | nodeAdopted =>
    refine change_of_applyResult (hother nofun) (fun node hnode ↦ .inr ?_) (.inr rfl) ht
    rcases List.mem_pair.mp hnode with h | h <;> simp [NodeOutcome.isStuck, h]
  | nodeFailed => exact change_of_applyFailure (hother nofun) (.inl rfl) ht
  | nodeReconciliationRequired => exact change_of_applyFailure (hother nofun) (.inr rfl) ht
  | runBlocked =>
    obtain ⟨-, -, code, reason, -, -, -, rfl⟩ := applyBlock_eq_ok.mp ht
    exact .run (hother nofun) rfl nofun
  | runCompleted =>
    obtain ⟨-, -, hcomplete, rfl⟩ := applyCompletion_eq_ok.mp ht
    exact .run (hother nofun) rfl fun _ ↦ hcomplete
  | runCancelled =>
    obtain ⟨-, -, -, reason, -, -, rfl⟩ := applyCancellation_eq_ok.mp ht
    exact .run (hother nofun) rfl nofun

/-! ## Nodes along a history -/

/-- A node has an input from its start on, and a result has its digests. -/
structure NodeOutcome.WellFormed (node : NodeOutcome) : Prop where
  pending_iff : node.state = .pending ↔ node.inputDigest = none
  digests : node.isComplete → node.outputDigest.isSome ∧ node.evidenceDigest.isSome ∧
    node.checkpointDigest.isSome

/-- What a snapshot is, whatever the history. -/
structure ExecutionSnapshot.WellFormed (s : ExecutionSnapshot) : Prop where
  unique : Rows.Unique (·.nodeId) s.nodes
  nodes : ∀ node ∈ s.nodes, node.WellFormed
  completed : s.state = .completed → ∀ node ∈ s.nodes, node.isComplete

/-- What becomes of a node later on: its input stays, and so does all of a result. -/
structure NodeOutcome.Leads (node later : NodeOutcome) : Prop where
  input : ∀ d, node.inputDigest = some d → later.inputDigest = some d
  result : node.isComplete → later = node

theorem NodeOutcome.Leads.refl (node : NodeOutcome) : node.Leads node :=
  ⟨fun _ h ↦ h, fun _ ↦ rfl⟩

theorem NodeOutcome.Leads.trans {node later last : NodeOutcome} (h : node.Leads later)
    (h' : later.Leads last) : node.Leads last := by
  refine ⟨fun d hd ↦ h'.input d (h.input d hd), fun hcomplete ↦ ?_⟩
  have hsame := h.result hcomplete
  rw [← hsame] at hcomplete
  rw [h'.result hcomplete, hsame]

/-- The nodes stay the same ones, and each leads to the one that it is later on. -/
structure ExecutionSnapshot.Leads (s s' : ExecutionSnapshot) : Prop where
  ids : s'.nodes.map (·.nodeId) = s.nodes.map (·.nodeId)
  nodes : ∀ nodeId node, s.find? nodeId = some node →
    ∃ later, s'.find? nodeId = some later ∧ node.Leads later

theorem ExecutionSnapshot.Leads.refl (s : ExecutionSnapshot) : s.Leads s :=
  ⟨rfl, fun _ node h ↦ ⟨node, h, .refl node⟩⟩

theorem ExecutionSnapshot.Leads.trans (h : s.Leads t) (h' : t.Leads s') : s.Leads s' := by
  refine ⟨h'.ids.trans h.ids, fun nodeId node hnode ↦ ?_⟩
  obtain ⟨later, hlater, hleads⟩ := h.nodes nodeId node hnode
  obtain ⟨last, hlast, hleads'⟩ := h'.nodes nodeId later hlater
  exact ⟨last, hlast, hleads.trans hleads'⟩

/-- One outcome that leads to another one in its place. -/
theorem ExecutionSnapshot.leads_set {prior node : NodeOutcome}
    (hfind : s.find? node.nodeId = some prior) (h : prior.Leads node) : s.Leads (s.set node) := by
  refine ⟨map_nodeId_set, fun nodeId old hold ↦ ?_⟩
  rw [find?_set]
  by_cases hid : node.nodeId = nodeId
  · rw [if_pos hid, hold]
    subst hid
    rw [hfind] at hold
    obtain rfl := Option.some.inj hold
    exact ⟨node, rfl, h⟩
  · rw [if_neg hid]
    exact ⟨old, hold, .refl old⟩

/-- Another well-formed outcome in the place of one, in a run that is not over. -/
theorem ExecutionSnapshot.WellFormed.set {node : NodeOutcome} (h : s.WellFormed)
    (hactive : s.state.isTerminal = false) (hnode : node.WellFormed) : (s.set node).WellFormed := by
  refine ⟨?_, forall_mem_set h.nodes hnode, fun (hcompleted : s.state = .completed) ↦ ?_⟩
  · rw [Rows.Unique, map_nodeId_set]
    exact h.unique
  · rw [hcompleted] at hactive
    cases hactive

/-- The outcomes that an event leaves a node in. -/
theorem Change.wellFormed_and_leads (h : Change s e t) (hs : s.WellFormed)
    (hactive : s.state.isTerminal = false) : t.WellFormed ∧ s.Leads t := by
  cases h with
  | start hkind hnode hinput hrun hfind hprior =>
    refine ⟨hs.set hactive ⟨by simp, nofun⟩,
      ExecutionSnapshot.leads_set hfind ⟨fun d hd ↦ ?_, fun hcomplete ↦ ?_⟩⟩
    · have hnone := (hs.nodes _ (s.mem_of_find? hfind)).pending_iff.mp hprior
      rw [hnone] at hd
      exact nomatch hd
    · rw [NodeOutcome.isComplete, hprior] at hcomplete
      exact nomatch hcomplete
  | result hkind hfind hprior hinput hstate =>
    refine ⟨hs.set hactive ⟨?_, fun _ ↦ ⟨rfl, rfl, rfl⟩⟩,
      ExecutionSnapshot.leads_set hfind ⟨fun d hd ↦ ?_, fun hcomplete ↦ ?_⟩⟩
    · rcases hstate with rfl | rfl <;> simp
    · rw [← hinput]
      exact hd
    · rcases hprior with hprior | hprior
      · rw [NodeOutcome.isComplete, hprior] at hcomplete
        exact nomatch hcomplete
      · simp only [NodeOutcome.isStuck, NodeOutcome.isComplete, Bool.or_eq_true, beq_iff_eq]
          at hprior hcomplete
        rcases hprior with h | h <;> rw [h] at hcomplete <;> simp at hcomplete
  | @failure nodeId reason evidence prior state hkind hfind hprior hstate =>
    have hinput : prior.inputDigest ≠ none := by
      intro hnone
      have hpending := (hs.nodes _ (s.mem_of_find? hfind)).pending_iff.mpr hnone
      rw [hprior] at hpending
      exact nomatch hpending
    refine ⟨hs.set hactive ⟨?_, ?_⟩,
      ExecutionSnapshot.leads_set hfind ⟨fun d hd ↦ hd, fun hcomplete ↦ ?_⟩⟩
    · rcases hstate with rfl | rfl <;> simp [hinput]
    · rcases hstate with rfl | rfl <;> exact nofun
    · rw [NodeOutcome.isComplete, hprior] at hcomplete
      exact nomatch hcomplete
  | run hkind hnodes hcomplete =>
    refine ⟨⟨?_, ?_, ?_⟩, ?_, ?_⟩
    · rw [hnodes]
      exact hs.unique
    · rw [hnodes]
      exact hs.nodes
    · rw [hnodes]
      exact hcomplete
    · rw [hnodes]
    · intro nodeId node hfind
      refine ⟨node, ?_, .refl node⟩
      rw [ExecutionSnapshot.find?, hnodes]
      exact hfind

/-- One accepted event. -/
theorem applyEvent_wellFormed_and_leads (h : applyEvent s e = .ok s') (hs : s.WellFormed) :
    s'.WellFormed ∧ s.Leads s' := by
  obtain ⟨hactive, t, hchange, rfl⟩ := applyEvent_change h
  obtain ⟨ht, hleads⟩ := hchange.wellFormed_and_leads hs hactive
  exact ⟨⟨ht.unique, ht.nodes, ht.completed⟩, ⟨hleads.ids, hleads.nodes⟩⟩

/-- Any number of accepted events. -/
theorem foldlM_wellFormed_and_leads {events : List ExecutionEvent} (hs : s.WellFormed)
    (h : events.foldlM applyEvent s = .ok s') : s'.WellFormed ∧ s.Leads s' := by
  refine Trace.history_invariant (fun _ u ↦ u.WellFormed ∧ s.Leads u) ⟨hs, .refl s⟩ ?_ h
  rintro _ u e v ⟨hu, hleads⟩ hv
  obtain ⟨hv, hleads'⟩ := applyEvent_wellFormed_and_leads hv hu
  exact ⟨hv, hleads.trans hleads'⟩

/-! ## Histories -/

variable {events : List ExecutionEvent}

theorem requireNodeIds_eq_ok {value : Option Json} {nodeIds : List String}
    (h : requireNodeIds value = .ok nodeIds) :
    value = some (.arr (nodeIds.map Json.str)) ∧ nodeIds ≠ [] ∧ nodeIds.Nodup := by
  rw [requireNodeIds] at h
  cases htexts : value.bind Json.asStrings? with
  | none =>
    rw [htexts] at h
    exact nomatch h
  | some texts =>
    rw [htexts] at h
    obtain ⟨hids, h⟩ := guard_eq_ok.mp h
    rw [not_or, not_not] at hids
    have hsame : List.Forall₂ (· = ·) texts nodeIds :=
      (mapM_eq_ok.mp h).imp fun text nodeId htext ↦
        Json.str.inj (Option.some.inj (requireIdentifier_eq_ok.mp htext).1)
    rw [List.forall₂_eq_eq_eq] at hsame
    obtain rfl := hsame
    obtain ⟨j, rfl, hj⟩ := Option.bind_eq_some_iff.mp htexts
    rw [Json.asStrings?_eq_some.mp hj]
    exact ⟨rfl, hids.1, hids.2⟩

/-- The state after the first event. All nodes are pending, and nothing has been leased. -/
theorem applyInitialization_eq_ok (h : applyInitialization runId e = .ok s) :
    s.state = .initialized ∧ s.sequence = 1 ∧ s.WellFormed ∧
      (∀ node ∈ s.nodes, node.state = .pending) ∧ s.nodes ≠ [] ∧
      e.payload.get? "node_ids" = some (.arr ((s.nodes.map (·.nodeId)).map Json.str)) := by
  rw [applyInitialization] at h
  simp only [bind_eq_ok, pure_eq_ok] at h
  obtain ⟨-, -, planDigest, -, generationId, -, subjectId, -, compilationDigest, -, nodeIds, hids,
    rfl⟩ := h
  obtain ⟨hvalue, hne, hnodup⟩ := requireNodeIds_eq_ok hids
  have hmap : (nodeIds.map NodeOutcome.ofId).map (·.nodeId) = nodeIds := by
    rw [List.map_map]
    exact List.map_id nodeIds
  refine ⟨rfl, rfl, ⟨?_, ?_, by rintro ⟨⟩⟩, ?_, ?_, ?_⟩
  · rw [Rows.Unique, hmap]
    exact hnodup
  · intro node hnode
    obtain ⟨nodeId, -, rfl⟩ := List.mem_map.mp hnode
    exact ⟨⟨fun _ ↦ rfl, fun _ ↦ rfl⟩, by rintro ⟨⟩⟩
  · intro node hnode
    obtain ⟨nodeId, -, rfl⟩ := List.mem_map.mp hnode
    rfl
  · simpa using hne
  · rw [hmap]
    exact hvalue

/-- What is accepted: an initialization and then events that each are accepted. -/
theorem replay_cons_eq_ok {rest : List ExecutionEvent} :
    replay runId (e :: rest) = .ok s ↔
      e.kind = EventKind.runInitialized.value ∧ isDigest runId ∧
      (∀ e' ∈ e :: rest, e'.runId = runId) ∧
      ∃ t, applyInitialization runId e = .ok t ∧ rest.foldlM applyEvent t = .ok s := by
  rw [replay]
  simp only [guard_eq_ok, bind_eq_ok, requireDigest_eq_ok, not_not, List.any_eq_true, bne_iff_ne,
    ne_eq, not_exists, not_and, Option.some.injEq, Json.str.injEq]
  constructor
  · rintro ⟨hkind, _, ⟨rfl, hid⟩, hrun, ht⟩
    exact ⟨hkind, hid, fun e' he' ↦ hrun e' he', ht⟩
  · rintro ⟨hkind, hid, hrun, ht⟩
    exact ⟨hkind, runId, ⟨rfl, hid⟩, fun e' he' ↦ hrun e' he', ht⟩

/-- A history is accepted in one go or in two. -/
theorem replay_append_eq_ok {before after : List ExecutionEvent} (hne : before ≠ []) :
    replay runId (before ++ after) = .ok s ↔
      (∀ e ∈ after, e.runId = runId) ∧
      ∃ t, replay runId before = .ok t ∧ after.foldlM applyEvent t = .ok s := by
  obtain ⟨first, rest, rfl⟩ := List.exists_cons_of_ne_nil hne
  rw [List.cons_append, replay_cons_eq_ok]
  simp only [replay_cons_eq_ok, Trace.foldlM_append_eq_ok, ← List.cons_append,
    List.forall_mem_append]
  constructor
  · rintro ⟨hkind, hid, ⟨hrun, hrun'⟩, t, ht, u, hu, hs⟩
    exact ⟨hrun', u, ⟨hkind, hid, hrun, t, ht, hu⟩, hs⟩
  · rintro ⟨hrun', u, ⟨hkind, hid, hrun, t, ht, hu⟩, hs⟩
    exact ⟨hkind, hid, ⟨hrun, hrun'⟩, t, ht, u, hu, hs⟩

theorem replay_nil_ne_ok : replay runId [] ≠ .ok s := nofun

theorem ne_nil_of_replay (h : replay runId events = .ok s) : events ≠ [] := by
  rintro rfl
  exact replay_nil_ne_ok h

/-- **A history that goes on was accepted up to any point of it, in a run that was not over.** -/
theorem replay_prefix {before after : List ExecutionEvent} (hne : before ≠ []) (hmore : after ≠ [])
    (h : replay runId (before ++ after) = .ok s) :
    ∃ t, replay runId before = .ok t ∧ t.state.isTerminal = false := by
  obtain ⟨-, t, ht, hs⟩ := (replay_append_eq_ok hne).mp h
  obtain ⟨e, rest, rfl⟩ := List.exists_cons_of_ne_nil hmore
  obtain ⟨u, hu, -⟩ := Trace.foldlM_cons_eq_ok.mp hs
  exact ⟨t, ht, (applyEvent_eq_ok.mp hu).1⟩

/-- The states of a history are well formed, and they have the nodes of the initialization. -/
theorem replay_wellFormed (h : replay runId events = .ok s) :
    s.WellFormed ∧ ∃ first rest, events = first :: rest ∧ s.nodes ≠ [] ∧
      first.payload.get? "node_ids" = some (.arr ((s.nodes.map (·.nodeId)).map Json.str)) := by
  obtain ⟨first, rest, rfl⟩ := List.exists_cons_of_ne_nil (ne_nil_of_replay h)
  obtain ⟨-, -, -, t, ht, hs⟩ := replay_cons_eq_ok.mp h
  obtain ⟨-, -, hwf, -, hne, hids⟩ := applyInitialization_eq_ok ht
  obtain ⟨hwf', hleads⟩ := foldlM_wellFormed_and_leads hwf hs
  refine ⟨hwf', first, rest, rfl, ?_, ?_⟩
  · rintro hnil
    have hids' := hleads.ids
    rw [hnil, List.map_nil] at hids'
    exact hne (List.map_eq_nil_iff.mp hids'.symm)
  · rw [hleads.ids]
    exact hids

/-! ## Starts -/

/-- The event starts the node. -/
def ExecutionEvent.starts (e : ExecutionEvent) (nodeId : String) : Bool :=
  e.kind == EventKind.nodeStarted.value && e.payload.get? "node_id" == some (.str nodeId)

theorem ExecutionEvent.starts_eq_true :
    e.starts nodeId = true ↔
      e.kind = EventKind.nodeStarted.value ∧ e.payload.get? "node_id" = some (.str nodeId) := by
  rw [starts, Bool.and_eq_true, beq_iff_eq, beq_iff_eq]

theorem ExecutionEvent.starts_of_kind_ne (h : e.kind ≠ EventKind.nodeStarted.value) :
    e.starts nodeId = false := by
  rw [starts, beq_eq_false_iff_ne.mpr h, Bool.false_and]

/-- A start is of a node that is pending in a run that runs, and it fixes the input. -/
theorem applyEvent_starts (h : applyEvent s e = .ok s') (hstarts : e.starts nodeId = true) :
    s.state = .running ∧ (∃ prior, s.find? nodeId = some prior ∧ prior.state = .pending) ∧
      ∃ d, e.payload.get? "input_digest" = some (.str d) ∧
        s'.find? nodeId = some ⟨nodeId, .running, some d, none, none, none, none⟩ := by
  obtain ⟨hkind, hnode⟩ := ExecutionEvent.starts_eq_true.mp hstarts
  obtain ⟨-, t, hchange, rfl⟩ := applyEvent_change h
  cases hchange with
  | @start id input prior hkind hid hinput hrun hfind hprior =>
    obtain rfl : id = nodeId := Json.str.inj (Option.some.inj (hid.symm.trans hnode))
    refine ⟨hrun, ⟨prior, hfind, hprior⟩, input, hinput, ?_⟩
    change ExecutionSnapshot.find? (s.set _) id = _
    rw [ExecutionSnapshot.find?_set, if_pos rfl, hfind]
    rfl
  | result hkind' => exact absurd hkind hkind'
  | failure hkind' => exact absurd hkind hkind'
  | run hkind' => exact absurd hkind hkind'

/-- An event that does not start the node leaves it pending if it was, and only then. -/
theorem applyEvent_pending (h : applyEvent s e = .ok s') (hstarts : e.starts nodeId = false) :
    (∃ node, s'.find? nodeId = some node ∧ node.state ≠ .pending) ↔
      ∃ node, s.find? nodeId = some node ∧ node.state ≠ .pending := by
  obtain ⟨-, t, hchange, rfl⟩ := applyEvent_change h
  change (∃ node, t.find? nodeId = some node ∧ node.state ≠ .pending) ↔ _
  -- one node gets another outcome, and neither this nor its old one is pending
  have hset : ∀ (node prior : NodeOutcome), s.find? node.nodeId = some prior →
      node.state ≠ .pending → prior.state ≠ .pending →
      ((∃ node', (s.set node).find? nodeId = some node' ∧ node'.state ≠ .pending) ↔
        ∃ node', s.find? nodeId = some node' ∧ node'.state ≠ .pending) := by
    intro node prior hfind hnode hprior
    rw [ExecutionSnapshot.find?_set]
    by_cases hid : node.nodeId = nodeId
    · subst hid
      rw [if_pos rfl, hfind]
      exact ⟨fun _ ↦ ⟨prior, rfl, hprior⟩, fun _ ↦ ⟨node, rfl, hnode⟩⟩
    · rw [if_neg hid]
  cases hchange with
  | @start id input prior hkind hid hinput hrun hfind hprior =>
    have hne : id ≠ nodeId := by
      rintro rfl
      rw [ExecutionEvent.starts_eq_true.mpr ⟨hkind, hid⟩] at hstarts
      exact nomatch hstarts
    rw [ExecutionSnapshot.find?_set, if_neg hne]
  | @result id input output evidence checkpoint prior state hkind hfind hprior hinput hstate =>
    refine hset _ prior hfind ?_ ?_
    · rcases hstate with rfl | rfl <;> nofun
    · rcases hprior with hprior | hprior
      · rw [hprior]
        nofun
      · rintro hpending
        rw [NodeOutcome.isStuck, hpending] at hprior
        exact nomatch hprior
  | @failure id reason evidence prior state hkind hfind hprior hstate =>
    refine hset _ prior hfind ?_ ?_
    · rcases hstate with rfl | rfl <;> nofun
    · rw [hprior]
      nofun
  | run hkind hnodes =>
    rw [ExecutionSnapshot.find?, hnodes]
    rfl

/-- A node that is pending has not been started, and any other one has been started once. -/
theorem countP_starts (hs : ∀ node ∈ s.nodes, node.state = .pending)
    (h : events.foldlM applyEvent s = .ok s') (nodeId : String) :
    (events.countP (·.starts nodeId) = 0 ∧
      ¬∃ node, s'.find? nodeId = some node ∧ node.state ≠ .pending) ∨
    (events.countP (·.starts nodeId) = 1 ∧
      ∃ node, s'.find? nodeId = some node ∧ node.state ≠ .pending) := by
  refine Trace.history_invariant (fun events u ↦ (events.countP (·.starts nodeId) = 0 ∧
      ¬∃ node, u.find? nodeId = some node ∧ node.state ≠ .pending) ∨
    (events.countP (·.starts nodeId) = 1 ∧
      ∃ node, u.find? nodeId = some node ∧ node.state ≠ .pending)) (.inl ⟨rfl, ?_⟩) ?_ h
  · rintro ⟨node, hfind, hnode⟩
    exact hnode (hs node (s.mem_of_find? hfind))
  · intro as u e v ih hv
    rw [List.countP_append, List.countP_singleton]
    by_cases hstarts : e.starts nodeId = true
    · obtain ⟨-, ⟨prior, hfind, hprior⟩, d, -, hnew⟩ := applyEvent_starts hv hstarts
      rcases ih with ⟨hzero, -⟩ | ⟨-, node, hnode, hstate⟩
      · refine .inr ⟨?_, _, hnew, nofun⟩
        rw [hzero, if_pos hstarts]
      · rw [hfind] at hnode
        obtain rfl := Option.some.inj hnode
        exact absurd hprior hstate
    · rw [if_neg hstarts, Nat.add_zero, applyEvent_pending hv (Bool.eq_false_iff.mpr hstarts)]
      exact ih

/-! ## Accepted histories -/

/-- What an accepted history and its last state are like. -/
structure Replayed (runId : String) (events : List ExecutionEvent) (s : ExecutionSnapshot) :
    Prop where
  started_once : ∀ nodeId, events.countP (·.starts nodeId) ≤ 1
  started_running : ∀ before e after nodeId, events = before ++ e :: after → e.starts nodeId →
    ∃ t, replay runId before = .ok t ∧ t.state = .running
  input_frozen : ∀ before e after nodeId, events = before ++ e :: after → e.starts nodeId →
    ∃ d, e.payload.get? "input_digest" = some (.str d) ∧ ∀ more, more <+: after →
      ∃ t node, replay runId (before ++ e :: more) = .ok t ∧ t.find? nodeId = some node ∧
        node.inputDigest = some d
  result_final : ∀ before after t nodeId node, events = before ++ after →
    replay runId before = .ok t → t.find? nodeId = some node →
    (node.state = .succeeded ∨ node.state = .adopted) → ∀ more, more <+: after →
      ∃ u, replay runId (before ++ more) = .ok u ∧ u.find? nodeId = some node
  completed : s.state = .completed → ∃ first rest nodeIds, events = first :: rest ∧
    first.payload.get? "node_ids" = some (.arr (nodeIds.map Json.str)) ∧
    s.nodes.map (·.nodeId) = nodeIds ∧ ∀ node ∈ s.nodes,
      (node.state = .succeeded ∨ node.state = .adopted) ∧ node.outputDigest.isSome ∧
      node.evidenceDigest.isSome ∧ node.checkpointDigest.isSome
  prefixes : ∀ before after, events = before ++ after → before ≠ [] → after ≠ [] →
    ∃ t, replay runId before = .ok t ∧ t.state.isTerminal = false

theorem NodeOutcome.isComplete_iff {node : NodeOutcome} :
    node.isComplete = true ↔ node.state = .succeeded ∨ node.state = .adopted := by
  rw [isComplete, Bool.or_eq_true, beq_iff_eq, beq_iff_eq]

/-- A start is not the first event. -/
theorem ne_nil_of_starts {before after : List ExecutionEvent}
    (h : replay runId (before ++ e :: after) = .ok s) (hstarts : e.starts nodeId) :
    before ≠ [] := by
  rintro rfl
  have hkind := (replay_cons_eq_ok.mp h).1
  rw [(ExecutionEvent.starts_eq_true.mp hstarts).1] at hkind
  exact nomatch EventKind.value_inj hkind

/-- **What holds of every accepted history.** -/
theorem replay_sound (h : replay runId events = .ok s) : Replayed runId events s where
  started_once := by
    intro nodeId
    obtain ⟨first, rest, rfl⟩ := List.exists_cons_of_ne_nil (ne_nil_of_replay h)
    obtain ⟨hkind, -, -, t, ht, hs⟩ := replay_cons_eq_ok.mp h
    have hfirst : first.starts nodeId = false := by
      refine ExecutionEvent.starts_of_kind_ne fun hstarted ↦ ?_
      exact nomatch EventKind.value_inj (hkind.symm.trans hstarted)
    rw [List.countP_cons_of_neg (by rw [hfirst]; exact Bool.false_ne_true)]
    obtain ⟨-, -, -, hpending, -⟩ := applyInitialization_eq_ok ht
    rcases countP_starts hpending hs nodeId with ⟨hcount, -⟩ | ⟨hcount, -⟩
    · rw [hcount]
      exact Nat.zero_le 1
    · rw [hcount]
  started_running := by
    rintro before e after nodeId rfl hstarts
    obtain ⟨-, t, ht, hs⟩ := (replay_append_eq_ok (ne_nil_of_starts h hstarts)).mp h
    obtain ⟨u, hu, -⟩ := Trace.foldlM_cons_eq_ok.mp hs
    exact ⟨t, ht, (applyEvent_starts hu hstarts).1⟩
  input_frozen := by
    rintro before e after nodeId rfl hstarts
    have hne := ne_nil_of_starts h hstarts
    obtain ⟨hrun, t, ht, hs⟩ := (replay_append_eq_ok hne).mp h
    obtain ⟨u, hu, hs⟩ := Trace.foldlM_cons_eq_ok.mp hs
    obtain ⟨-, -, d, hd, hnode⟩ := applyEvent_starts hu hstarts
    refine ⟨d, hd, ?_⟩
    rintro more ⟨later, rfl⟩
    obtain ⟨v, hv, -⟩ := Trace.foldlM_append_eq_ok.mp hs
    have hwf := (applyEvent_wellFormed_and_leads hu (replay_wellFormed ht).1).1
    obtain ⟨node, hfind, hleads⟩ := (foldlM_wellFormed_and_leads hwf hv).2.nodes nodeId _ hnode
    refine ⟨v, node, (replay_append_eq_ok hne).mpr ⟨fun e' he' ↦ hrun e' ?_, t, ht, ?_⟩, hfind,
      hleads.input d rfl⟩
    · rw [← List.cons_append]
      exact List.mem_append_left later he'
    · exact Trace.foldlM_cons_eq_ok.mpr ⟨u, hu, hv⟩
  result_final := by
    rintro before after t nodeId node rfl ht hfind hstate more ⟨later, rfl⟩
    have hne := ne_nil_of_replay ht
    rw [← List.append_assoc] at h
    obtain ⟨-, u, hu, -⟩ := (replay_append_eq_ok (List.append_ne_nil_of_left_ne_nil hne more)).mp h
    obtain ⟨-, t', ht', hmore⟩ := (replay_append_eq_ok hne).mp hu
    obtain rfl := Except.ok.inj (ht.symm.trans ht')
    obtain ⟨node', hfind', hleads⟩ :=
      (foldlM_wellFormed_and_leads (replay_wellFormed ht).1 hmore).2.nodes nodeId node hfind
    obtain rfl := hleads.result (NodeOutcome.isComplete_iff.mpr hstate)
    exact ⟨u, hu, hfind'⟩
  completed := by
    intro hcompleted
    obtain ⟨hwf, first, rest, rfl, -, hids⟩ := replay_wellFormed h
    refine ⟨first, rest, _, rfl, hids, rfl, fun node hnode ↦ ?_⟩
    have hcomplete := hwf.completed hcompleted node hnode
    exact ⟨NodeOutcome.isComplete_iff.mp hcomplete, (hwf.nodes node hnode).digests hcomplete⟩
  prefixes := by
    rintro before after rfl hne hmore
    exact replay_prefix hne hmore h

/-! ## A history -/

/-- Digests for the histories below. -/
def digestOf (c : Char) : String := "sha256:" ++ String.ofList (List.replicate 64 c)

def sampleEvent (kind : EventKind) (payload : List (String × Json)) : ExecutionEvent :=
  ⟨digestOf 'a', 1, kind.value, .ofMembers payload, none, digestOf 'e'⟩

/-- A run of one node from its initialization to its completion. -/
def sampleHistory : List ExecutionEvent :=
  [sampleEvent .runInitialized [("plan_digest", .str (digestOf '1')),
      ("generation_id", .str (digestOf '2')), ("subject_id", .str (digestOf '3')),
      ("compilation_digest", .str (digestOf '4')), ("node_ids", .arr [.str "build"])],
    sampleEvent .hostLeaseReady [("lease_id", .str "lease-1")],
    sampleEvent .runStarted [],
    sampleEvent .nodeStarted [("node_id", .str "build"), ("input_digest", .str (digestOf '5'))],
    sampleEvent .nodeSucceeded [("node_id", .str "build"), ("input_digest", .str (digestOf '5')),
      ("output_digest", .str (digestOf '6')), ("evidence_digest", .str (digestOf '7')),
      ("checkpoint_digest", .str (digestOf '8'))],
    sampleEvent .runCompleted []]

def sampleCompleted : ExecutionSnapshot :=
  ⟨digestOf 'a', digestOf '1', digestOf '2', digestOf '3', digestOf '4', .completed,
    some "lease-1", 6,
    [⟨"build", .succeeded, some (digestOf '5'), some (digestOf '6'), some (digestOf '7'),
      some (digestOf '8'), none⟩], none, none⟩

theorem sampleHistory_sound :
    replay (digestOf 'a') sampleHistory = .ok sampleCompleted ∧
      Replayed (digestOf 'a') sampleHistory sampleCompleted := by
  have h : replay (digestOf 'a') sampleHistory = .ok sampleCompleted := by decide +kernel
  exact ⟨h, replay_sound h⟩

end HiveMind.Dag
