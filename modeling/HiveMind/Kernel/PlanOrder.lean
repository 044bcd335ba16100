import HiveMind.Kernel.Objectives

/-!
# The order of a plan

The items of a plan are put into rounds: an item comes in the round after the last one of its
dependencies, and the items of a round come in the order of their identifiers. Nothing in this looks
at the order in which the items were given.

* **`plan_order_sound`**: the order holds every item once, after its dependencies, and it is the
  same for every order in which the items can be given.
-/

open Raise

namespace HiveMind

/-! ## Documents -/

/-- `to_document`. The values go through `canonical_bytes`. -/
def WorkItem.toDocument (item : WorkItem) : Except Exc Json :=
  (PyValue.dict [
    ("work_id", .str item.workId), ("mission_id", .str item.missionId),
    ("parent_work_id", (item.parentWorkId.map .str).getD .none), ("depth", .int item.depth),
    ("title", .str item.title), ("objective", .str item.objective), ("role", .str item.role),
    ("risk_tier", .str item.riskTier), ("dependencies", .tuple (item.dependencies.map .str)),
    ("required_inputs", .tuple (item.requiredInputs.map .str)),
    ("expected_outputs", .tuple (item.expectedOutputs.map .str)),
    ("acceptance_specs", .tuple (item.acceptanceSpecs.map .str)),
    ("write_scope", .tuple (item.writeScope.map .str)),
    ("requested_actions", .tuple (item.requestedActions.map .str)),
    ("context_request", .dict item.contextRequest), ("max_attempts", .int item.maxAttempts),
    ("status", .str item.status.value),
    ("authority_envelope_digest", .str item.authorityEnvelopeDigest),
    ("idempotency_key", .str item.idempotencyKey)]).plain

/-- `digest`, of a graph. -/
def GraphFields.digest [Hash256] (graph : GraphFields) : Except Exc String := do
  let items ← graph.orderedItems
  let documents ← items.mapM (·.toDocument)
  return jsonDigest (.obj [("items", .arr documents), ("mission_id", .str graph.charter.missionId)])

namespace GraphFields

/-! ## The loop -/

section Loop

variable {pending pending' : List (String × List String)} {ids : List String}

/-- The loop does not look at the order of what is pending. -/
theorem orderedIds_of_perm (fuel : ℕ) (h : pending.Perm pending') :
    orderedIds fuel pending = orderedIds fuel pending' := by
  induction fuel generalizing pending pending' with
  | zero =>
    rcases pending with _ | ⟨first, pending⟩
    · rw [h.nil_eq]
    · rcases pending' with _ | ⟨first', pending'⟩
      · exact absurd h.symm.nil_eq (List.cons_ne_nil _ _).symm
      · rfl
  | succ fuel ih =>
    rcases pending with _ | ⟨first, pending⟩
    · rw [h.nil_eq]
    rcases pending' with _ | ⟨first', pending'⟩
    · exact absurd h.symm.nil_eq (List.cons_ne_nil _ _).symm
    have hready : (((first :: pending).filter fun p ↦ p.2 = []).map Prod.fst).insertionSort (· ≤ ·) =
        (((first' :: pending').filter fun p ↦ p.2 = []).map Prod.fst).insertionSort (· ≤ ·) :=
      List.Perm.eq_of_pairwise (fun _ _ _ _ hle hge ↦ le_antisymm hle hge)
        (List.pairwise_insertionSort _ _) (List.pairwise_insertionSort _ _)
        ((List.perm_insertionSort _ _).trans
          (((h.filter _).map _).trans (List.perm_insertionSort _ _).symm))
    simp only [orderedIds, hready]
    rw [ih ((h.filter _).map _)]

/-- A round leaves less than there was, if anything is ready. -/
theorem length_later_lt {ready : List String}
    (hready : ready = ((pending.filter fun p ↦ p.2 = []).map Prod.fst).insertionSort (· ≤ ·))
    (hne : ready ≠ []) : ((pending.filter fun p ↦ p.1 ∉ ready).map fun p ↦
      (p.1, p.2.filter (· ∉ ready))).length < pending.length := by
  obtain ⟨id, hid⟩ := List.exists_mem_of_ne_nil _ hne
  have hmem := hid
  rw [hready, List.mem_insertionSort] at hmem
  obtain ⟨p, hp, rfl⟩ := List.mem_map.mp hmem
  rw [List.length_map]
  refine List.length_filter_lt_length_iff_exists.mpr ⟨p, List.mem_of_mem_filter hp, ?_⟩
  simpa using hid

/-- There are no more rounds than items. -/
theorem orderedIds_of_le {fuel fuel' : ℕ} (hfuel : pending.length ≤ fuel)
    (hfuel' : pending.length ≤ fuel') : orderedIds fuel pending = orderedIds fuel' pending := by
  induction fuel generalizing fuel' pending with
  | zero =>
    rw [List.length_eq_zero_iff.mp (Nat.le_zero.mp hfuel)]
    cases fuel' <;> rfl
  | succ fuel ih =>
    rcases pending with _ | ⟨first, pending⟩
    · cases fuel' <;> rfl
    rcases fuel' with _ | fuel'
    · exact absurd hfuel' (by simp)
    rw [orderedIds, orderedIds]
    · dsimp only
      split
      · rfl
      · next hne =>
        have hlt := length_later_lt rfl hne
        rw [ih (Nat.le_of_lt_succ (hlt.trans_le hfuel)) (Nat.le_of_lt_succ (hlt.trans_le hfuel'))]
    · exact List.cons_ne_nil _ _
    · exact List.cons_ne_nil _ _

/-- **An item comes after what it waits for.** -/
theorem subset_before_of_orderedIds {fuel : ℕ} (hnodup : (pending.map Prod.fst).Nodup)
    (h : orderedIds fuel pending = .ok ids) {before after : List String} {id : String}
    (hids : ids = before ++ id :: after) {waiting : List String} (hmem : (id, waiting) ∈ pending) :
    waiting ⊆ before := by
  induction fuel generalizing pending ids before waiting with
  | zero =>
    rcases pending with _ | ⟨first, pending⟩
    · exact absurd hmem List.not_mem_nil
    · cases h
  | succ fuel ih =>
    rcases pending with _ | ⟨first, pending⟩
    · exact absurd hmem List.not_mem_nil
    rw [orderedIds] at h
    · split at h
      · cases h
      simp only [bind_eq_ok, pure_eq_ok] at h
      obtain ⟨rest, hrest, rfl⟩ := h
      have hround := perm_of_round hnodup rfl
      have hdone : ∀ id ∈ (((first :: pending).filter fun p ↦ p.2 = []).map
          Prod.fst).insertionSort (· ≤ ·), (id, waiting) ∈ first :: pending → waiting = [] := by
        intro id hid hmem
        rw [List.mem_insertionSort] at hid
        obtain ⟨p, hp, rfl⟩ := List.mem_map.mp hid
        obtain ⟨hp, hempty⟩ := List.mem_filter.mp hp
        have hsame : p = (p.1, waiting) := List.inj_on_of_nodup_map hnodup hp hmem rfl
        rw [hsame] at hempty
        exact of_decide_eq_true hempty
      generalize hready : (((first :: pending).filter fun p ↦ p.2 = []).map
        Prod.fst).insertionSort (· ≤ ·) = ready at hrest hids hround hdone
      by_cases hid : id ∈ ready
      · rw [hdone id hid hmem]
        exact List.nil_subset _
      -- the item comes in a later round, in which it waits for what is not ready
      obtain ⟨between, rfl, rfl⟩ : ∃ between, before = ready ++ between ∧
          rest = between ++ id :: after := by
        obtain ⟨between, hbefore, hrest'⟩ | ⟨last, hlast, hrest'⟩ :=
          List.append_eq_append_iff.mp hids
        · exact ⟨between, hbefore, hrest'⟩
        rcases last with _ | ⟨second, last⟩
        · exact ⟨[], by rw [hlast, List.append_nil, List.append_nil], hrest'.symm⟩
        · obtain ⟨rfl, -⟩ := List.cons.inj hrest'
          exact absurd (hlast ▸ List.mem_append_right _ List.mem_cons_self) hid
      have hlater : (id, waiting.filter (· ∉ ready)) ∈
          ((first :: pending).filter fun p ↦ p.1 ∉ ready).map fun p ↦
            (p.1, p.2.filter (· ∉ ready)) :=
        List.mem_map.mpr ⟨_, List.mem_filter.mpr ⟨hmem, decide_eq_true hid⟩, rfl⟩
      have hnodup' : ((((first :: pending).filter fun p ↦ p.1 ∉ ready).map fun p ↦
          (p.1, p.2.filter (· ∉ ready))).map Prod.fst).Nodup := by
        rw [List.map_map]
        exact (List.nodup_append.mp (hround.nodup_iff.mpr hnodup)).2.1
      have hsub := ih hnodup' hrest rfl hlater
      intro other hother
      by_cases hother' : other ∈ ready
      · exact List.mem_append_left _ hother'
      · exact List.mem_append_right _
          (hsub (List.mem_filter.mpr ⟨hother, decide_eq_true hother'⟩))
    · exact List.cons_ne_nil _ _

end Loop

/-! ## Items that are given in another order -/

section Order

variable {graph : GraphFields} {workItems : List WorkItem}

theorem workIds_perm (h : workItems.Perm graph.workItems) :
    ({ graph with workItems } : GraphFields).workIds.Perm graph.workIds := h.map _

theorem item?_of_perm (hnodup : graph.workIds.Nodup) (h : workItems.Perm graph.workItems) :
    ({ graph with workItems } : GraphFields).item? = graph.item? := by
  funext workId
  have hnodup' := (workIds_perm h).nodup_iff.mpr hnodup
  rcases hitem : graph.item? workId with _ | item
  · refine List.find?_eq_none.mpr fun item hmem ↦ ?_
    exact List.find?_eq_none.mp hitem item (h.mem_iff.mp hmem)
  · have hmem := List.mem_of_find?_eq_some hitem
    have hid : item.workId = workId := by
      rw [GraphFields.item?] at hitem
      simpa using List.find?_some hitem
    rw [← hid]
    exact item?_eq hnodup' (h.mem_iff.mpr hmem)

theorem orderedItems_of_perm (hnodup : graph.workIds.Nodup) (h : workItems.Perm graph.workItems) :
    ({ graph with workItems } : GraphFields).orderedItems = graph.orderedItems := by
  rw [orderedItems, orderedItems, item?_of_perm hnodup h]
  simp only [h.length_eq, orderedIds_of_perm _ (h.map _)]

theorem ordered_of_perm (hnodup : graph.workIds.Nodup) (h : workItems.Perm graph.workItems) :
    ({ graph with workItems } : GraphFields).ordered = graph.ordered := by
  have hdependencies : ({ graph with workItems } : GraphFields).dependenciesOf =
      graph.dependenciesOf := by
    funext workId
    rw [dependenciesOf, dependenciesOf, item?_of_perm hnodup h]
  funext predecessor successor
  simp only [ordered, hdependencies, (h.map _).sum_eq]

theorem checkItem_of_perm (hnodup : graph.workIds.Nodup) (h : workItems.Perm graph.workItems) :
    ({ graph with workItems } : GraphFields).checkItem = graph.checkItem := by
  have hsubset : ∀ ids : List String,
      ids ⊆ ({ graph with workItems } : GraphFields).workIds ↔ ids ⊆ graph.workIds := fun ids ↦
    ⟨fun hids id hid ↦ (workIds_perm h).mem_iff.mp (hids hid),
      fun hids id hid ↦ (workIds_perm h).mem_iff.mpr (hids hid)⟩
  funext item
  simp only [checkItem, hsubset, item?_of_perm hnodup h]

/-- Two items may be in one graph. -/
def Apart (graph : GraphFields) (left right : WorkItem) : Prop :=
  ¬(scopesOverlap left right = true ∧ ¬graph.ordered left.workId right.workId = true ∧
    ¬graph.ordered right.workId left.workId = true)

theorem scopesOverlap_comm (left right : WorkItem) :
    scopesOverlap left right = scopesOverlap right left := by
  rw [Bool.eq_iff_iff]
  simp only [scopesOverlap, List.any_eq_true, pathsOverlap_iff]
  constructor
  · rintro ⟨leftPath, hleft, rightPath, hright, hoverlap⟩
    exact ⟨rightPath, hright, leftPath, hleft, hoverlap.symm⟩
  · rintro ⟨rightPath, hright, leftPath, hleft, hoverlap⟩
    exact ⟨leftPath, hleft, rightPath, hright, hoverlap.symm⟩

theorem Apart.symm {left right : WorkItem} (h : Apart graph left right) :
    Apart graph right left := by
  rintro ⟨hoverlap, hleft, hright⟩
  exact h ⟨scopesOverlap_comm left right ▸ hoverlap, hright, hleft⟩

theorem validateConcurrentWrites_eq_ok {items : List WorkItem} :
    graph.validateConcurrentWrites items = .ok () ↔ items.Pairwise (Apart graph) := by
  induction items with
  | nil => exact ⟨fun _ ↦ .nil, fun _ ↦ rfl⟩
  | cons left rest ih =>
    rw [validateConcurrentWrites, bind_eq_ok, List.pairwise_cons, ← ih]
    constructor
    · rintro ⟨_, hleft, hrest⟩
      exact ⟨fun right hright ↦ check_eq_ok.mp (forM_eq_ok.mp hleft right hright), hrest⟩
    · rintro ⟨hleft, hrest⟩
      exact ⟨(), forM_eq_ok.mpr fun right hright ↦ check_eq_ok.mpr (hleft right hright), hrest⟩

/-- Items that are accepted are accepted in every order. -/
theorem validate_of_perm (hvalid : graph.validate = .ok ()) (h : workItems.Perm graph.workItems) :
    ({ graph with workItems } : GraphFields).validate = .ok () := by
  have hnodup := (accepted_of_validate hvalid).nodup
  have hfanout : (workItems.any fun item ↦
      graph.limits.maxFanout < ({ graph with workItems } : GraphFields).children item.workId) =
        graph.workItems.any fun item ↦ graph.limits.maxFanout < graph.children item.workId := by
    have hchildren : ({ graph with workItems } : GraphFields).children = graph.children := by
      funext workId
      exact h.countP_eq _
    rw [hchildren, Bool.eq_iff_iff]
    simp only [List.any_eq_true, h.mem_iff]
  have haccepted : graph.charter.acceptanceSpecs ⊆ workItems.flatMap (·.acceptanceSpecs) ↔
      graph.charter.acceptanceSpecs ⊆ graph.workItems.flatMap (·.acceptanceSpecs) := by
    have hmem : ∀ spec, spec ∈ workItems.flatMap (·.acceptanceSpecs) ↔
        spec ∈ graph.workItems.flatMap (·.acceptanceSpecs) :=
      fun spec ↦ (h.flatMap_right _).mem_iff
    exact ⟨fun hspecs spec hspec ↦ (hmem spec).mp (hspecs hspec),
      fun hspecs spec hspec ↦ (hmem spec).mpr (hspecs hspec)⟩
  have happart : ({ graph with workItems } : GraphFields).Apart = graph.Apart := by
    funext left right
    rw [Apart, Apart, ordered_of_perm hnodup h]
  have hne : workItems = [] ↔ graph.workItems = [] := by
    rw [← List.length_eq_zero_iff, ← List.length_eq_zero_iff, h.length_eq]
  simp only [validate, guard_eq_ok, bind_eq_ok, not_not, forM_eq_ok,
    validateConcurrentWrites_eq_ok, checkItem_of_perm hnodup h, orderedItems_of_perm hnodup h,
    (workIds_perm h).nodup_iff, hfanout, haccepted, happart, hne, h.length_eq, h.mem_iff] at hvalid ⊢
  obtain ⟨hnodup, hne, hlimit, u, hitems, hfanout, haccepted, items, hordered, hpairs⟩ := hvalid
  have : Std.Symm graph.Apart := ⟨fun _ _ ↦ Apart.symm⟩
  exact ⟨hnodup, hne, hlimit, u, hitems, hfanout, haccepted, items, hordered,
    (h.pairwise_iff Apart.symm).mpr hpairs⟩

end Order

end GraphFields

/-! ## The order of a plan -/

namespace ObjectiveGraph

variable {graph : ObjectiveGraph} {items : List WorkItem}

/-- The items in the order of their identifiers are those of the graph. -/
theorem exists_orderedIds (h : graph.orderedItems = .ok items) :
    GraphFields.orderedIds graph.workItems.length
      (graph.workItems.map fun item ↦ (item.workId, item.dependencies.dedup)) =
        .ok (items.map (·.workId)) ∧ items.Perm graph.workItems := by
  simp only [GraphFields.orderedItems, bind_eq_ok, pure_eq_ok] at h
  obtain ⟨ids, hids, rfl⟩ := h
  have hpending : (graph.workItems.map fun item ↦ (item.workId, item.dependencies.dedup)).map
      Prod.fst = graph.workIds := by
    rw [List.map_map]
    rfl
  have hperm := GraphFields.orderedIds_perm (hpending ▸ graph.accepted.nodup) hids
  rw [hpending] at hperm
  have hself : graph.workIds.filterMap graph.item? = graph.workItems := by
    rw [GraphFields.workIds, List.filterMap_map]
    exact (List.filterMap_congr fun item hitem ↦
      GraphFields.item?_eq graph.accepted.nodup hitem).trans List.filterMap_some
  have hitems : ids.filterMap (fun id ↦ (graph.item? id).map (·.workId)) = ids := by
    refine (List.filterMap_congr fun id hid ↦ ?_).trans List.filterMap_some
    obtain ⟨item, hitem, rfl⟩ := List.mem_map.mp (hperm.mem_iff.mp hid)
    rw [GraphFields.item?_eq graph.accepted.nodup hitem]
    rfl
  refine ⟨?_, hself ▸ hperm.filterMap _⟩
  rw [List.map_filterMap, hitems]
  exact hids

theorem new_eq_ok {charter : MissionCharter} {workItems : List WorkItem} {limits : PlanLimits}
    (hvalid : GraphFields.validate { charter, workItems, limits } = .ok ()) :
    ObjectiveGraph.new charter workItems (some limits) = .ok ⟨_, hvalid⟩ := by
  simp only [ObjectiveGraph.new, bind_eq_ok]
  refine ⟨limits, rfl, ?_⟩
  split
  · rfl
  · next e he => exact nomatch hvalid.symm.trans he

/-- What the order of a plan promises: it holds every item once, every item comes after its
dependencies, no number of further rounds changes it, and neither it nor the digest changes when the
items are given in another order. -/
structure SoundOrder [Hash256] (graph : ObjectiveGraph) (items : List WorkItem) : Prop where
  perm : items.Perm graph.workItems
  once : (items.map (·.workId)).Nodup
  after : ∀ before item later, items = before ++ item :: later →
    item.dependencies ⊆ before.map (·.workId)
  rounds : ∀ fuel, graph.workItems.length ≤ fuel → GraphFields.orderedIds fuel
    (graph.workItems.map fun item ↦ (item.workId, item.dependencies.dedup)) =
      .ok (items.map (·.workId))
  permuted : ∀ workItems, workItems.Perm graph.workItems → ∃ graph' : ObjectiveGraph,
    ObjectiveGraph.new graph.charter workItems (some graph.limits) = .ok graph' ∧
      graph'.orderedItems = .ok items ∧ graph'.digest = graph.digest

/-- **The order of a plan is sound.** -/
theorem plan_order_sound [Hash256] (graph : ObjectiveGraph) :
    ∃ items, graph.orderedItems = .ok items ∧ SoundOrder graph items := by
  obtain ⟨items, hitems⟩ := graph.accepted.items
  obtain ⟨hids, hperm⟩ := exists_orderedIds hitems
  have hpending : (graph.workItems.map fun item ↦ (item.workId, item.dependencies.dedup)).map
      Prod.fst = graph.workIds := by
    rw [List.map_map]
    rfl
  refine ⟨items, hitems, hperm, (hperm.map _).nodup_iff.mpr graph.accepted.nodup,
    fun before item later hsplit ↦ ?_, fun fuel hfuel ↦ ?_, fun workItems h ↦ ?_⟩
  · have hitem : item ∈ graph.workItems :=
      hperm.mem_iff.mp (hsplit ▸ List.mem_append_right _ List.mem_cons_self)
    have hsplit' : items.map (·.workId) =
        before.map (·.workId) ++ item.workId :: later.map (·.workId) := by
      rw [hsplit, List.map_append, List.map_cons]
    have hbefore := GraphFields.subset_before_of_orderedIds (hpending ▸ graph.accepted.nodup) hids
      hsplit' (List.mem_map_of_mem hitem)
    exact fun id hid ↦ hbefore (List.mem_dedup.mpr hid)
  · rw [← hids]
    exact GraphFields.orderedIds_of_le (by rwa [List.length_map]) (List.length_map _).le
  · have hvalid := GraphFields.validate_of_perm graph.valid h
    refine ⟨⟨{ graph.toGraphFields with workItems }, hvalid⟩, new_eq_ok hvalid, ?_, ?_⟩
    · exact (GraphFields.orderedItems_of_perm graph.accepted.nodup h).trans hitems
    · simp only [GraphFields.digest, GraphFields.orderedItems_of_perm graph.accepted.nodup h]

/-- The items of the sample, given in the other order. -/
theorem sample_order : ∃ items, sampleGraph.orderedItems = .ok items ∧
    items.Perm [workOne, workTwo, workThree] ∧ ∃ graph' : ObjectiveGraph,
      ObjectiveGraph.new sampleCharter [workThree, workTwo, workOne] (some ⟨8, 3, 8, by decide⟩) =
        .ok graph' ∧ graph'.orderedItems = .ok items := by
  obtain ⟨items, hitems, hsound⟩ := plan_order_sound sampleGraph
  obtain ⟨graph', hnew, hsame, -⟩ := hsound.permuted [workThree, workTwo, workOne]
    (List.reverse_perm [workOne, workTwo, workThree])
  exact ⟨items, hitems, hsound.perm, graph', hnew, hsame⟩

end ObjectiveGraph

end HiveMind
