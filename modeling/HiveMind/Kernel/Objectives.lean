import HiveMind.Kernel.Schema
import HiveMind.Lib.Dependencies
import HiveMind.Lib.Fields
import HiveMind.Lib.Rows

/-!
# Objective graphs

A plan is a graph of work items. It is validated once, when it is built, and asked afterwards which
items are ready. Validation looks at pairs: two items whose write scopes overlap need a dependency,
which a search through the graph finds. Readiness looks at the frontier of what has been completed.

* **`ready_items_sound`**: nothing that is ready together overlaps, and a scheduler that completes
  what is ready makes a proposed item ready exactly when everything below it is complete.
* **`ordered_eq_true_iff`**: the search finds exactly the transitive dependencies.
-/

open Raise Dependencies

namespace HiveMind

/-! ## Charters and work items -/

/-- A check that raises a `ValueError` unless it is passed. -/
def demand (ok : Bool) (message : String) : Option Exc :=
  if ok then none else some (valueError message)

/-- `_identifier`. -/
def identifierProblem? (kind : IdKind) (label value : String) : Option Exc :=
  demand (isRequired value) (label ++ " id is required") <|>
  demand (isIdentifier kind value) ("invalid " ++ label ++ " id")

/-- `_digest`. -/
def digestProblem? (value label : String) : Option Exc :=
  demand (isDigest value) (label ++ " must be lowercase sha256:<64 hex>")

structure CharterFields where
  schemaVersion : ℤ
  missionId : String
  createdAt : String
  objective : String
  acceptanceSpecs : List String
  repositoryRoot : String
  baseCommit : String
  targetBranch : String
  policyFingerprint : String
  roleRegistryFingerprint : String
  modelRouteFingerprint : String
  budget : Budget
  externalGrants : List String
  protectedBranches : List String
  humanGates : List String
  status : MissionState
  deriving DecidableEq

/-- What `MissionCharter.__post_init__` raises. -/
def CharterFields.problem? (charter : CharterFields) : Option Exc :=
  demand (charter.schemaVersion = 1) "unsupported schema version" <|>
  identifierProblem? .mission "mission" charter.missionId <|>
  demand (isTime charter.createdAt) "created_at must be an RFC 3339 time" <|>
  demand (isRequired charter.objective) "objective is required" <|>
  demand (charter.acceptanceSpecs ≠ []) "acceptance_specs is required" <|>
  demand (charter.repositoryRoot ≠ "") "repository_root is required" <|>
  demand (isSha charter.baseCommit) "base_commit must be a lowercase 40-hex SHA" <|>
  demand (isRequired charter.targetBranch) "target_branch is required" <|>
  demand (charter.targetBranch ∉ charter.protectedBranches) "target_branch must not be protected" <|>
  digestProblem? charter.policyFingerprint "fingerprint" <|>
  digestProblem? charter.roleRegistryFingerprint "fingerprint" <|>
  digestProblem? charter.modelRouteFingerprint "fingerprint"

/-- `MissionCharter`. -/
structure MissionCharter extends CharterFields where
  valid : toCharterFields.problem? = none

def riskTiers : List String := ["R0", "R1", "R2", "R3", "R4"]

structure WorkFields where
  workId : String
  missionId : String
  parentWorkId : Option String
  depth : ℤ
  title : String
  objective : String
  role : String
  riskTier : String
  dependencies : List String
  requiredInputs : List String
  expectedOutputs : List String
  acceptanceSpecs : List String
  writeScope : List String
  requestedActions : List String
  contextRequest : List (String × PyValue)
  maxAttempts : ℤ
  status : WorkState
  authorityEnvelopeDigest : String
  idempotencyKey : String

/-- The checks of `WorkItem.__post_init__` before the write scope is normalized. -/
def WorkFields.problem? (item : WorkFields) : Option Exc :=
  identifierProblem? .work "work" item.workId <|>
  identifierProblem? .mission "mission" item.missionId <|>
  item.parentWorkId.bind (identifierProblem? .work "work") <|>
  demand (0 ≤ item.depth) "depth must be a non-negative integer" <|>
  demand (isRequired item.title) "title is required" <|>
  demand (isRequired item.objective) "objective is required" <|>
  demand (isRole item.role) "role is not registered" <|>
  demand (riskTiers.contains item.riskTier) "invalid risk_tier"

/-- The checks after it. -/
def WorkFields.laterProblem? (item : WorkFields) : Option Exc :=
  demand (1 ≤ item.maxAttempts) "max_attempts must be positive" <|>
  digestProblem? item.authorityEnvelopeDigest "digest" <|>
  digestProblem? item.idempotencyKey "idempotency_key"

/-- `WorkItem.__post_init__`, which stores the normalized write scope. -/
def WorkFields.postInit (item : WorkFields) : Except Exc WorkFields := do
  (item.problem?.map .error).getD (.ok ())
  let writeScope ← item.writeScope.mapM normalizePortablePath
  (item.laterProblem?.map .error).getD (.ok ())
  return { item with writeScope }

theorem WorkFields.postInit_eq_self {item : WorkFields} (h : item.problem? = none)
    (hscope : item.writeScope.mapM normalizePortablePath = .ok item.writeScope)
    (hlater : item.laterProblem? = none) : item.postInit = .ok item := by
  rw [postInit, h, hscope, hlater]
  rfl

/-- `WorkItem`: fields that `__post_init__` has no complaint about and leaves as they are. -/
structure WorkItem extends WorkFields where
  valid : toWorkFields.postInit = .ok toWorkFields

/-! ## Paths -/

/-- `paths_overlap`. -/
def pathsOverlap (left right : String) : Bool :=
  left == right || (right ++ "/").toList.isPrefixOf left.toList ||
    (left ++ "/").toList.isPrefixOf right.toList

/-- The segments of a path. -/
def segments (path : String) : List (List Char) := splitOn '/' path.toList

/-! ## Limits -/

/-- `PlanLimits`. -/
structure PlanLimits where
  maxWorkItems : ℤ
  maxDepth : ℤ
  maxFanout : ℤ
  positive : 1 ≤ maxWorkItems ∧ 1 ≤ maxDepth ∧ 1 ≤ maxFanout
  deriving DecidableEq

/-- `PlanLimits(...)`. -/
def PlanLimits.new (maxWorkItems maxDepth maxFanout : ℤ) : Except Exc PlanLimits :=
  if positive : 1 ≤ maxWorkItems ∧ 1 ≤ maxDepth ∧ 1 ≤ maxFanout then
    .ok { maxWorkItems, maxDepth, maxFanout, positive }
  else .error (valueError "plan limits must be positive")

/-! ## Graphs -/

/-- What the checks of a graph look at. -/
structure GraphFields where
  charter : MissionCharter
  workItems : List WorkItem
  limits : PlanLimits

namespace GraphFields

variable (graph : GraphFields)

def workIds : List String := graph.workItems.map (·.workId)

/-- `_by_id.get`. -/
def item? (workId : String) : Option WorkItem := graph.workItems.find? (·.workId == workId)

def dependenciesOf (workId : String) : List String :=
  ((graph.item? workId).map (·.dependencies)).getD []

/-- The rounds of `ordered_items`: what waits for nothing any more is ordered, and nothing waits for
it. -/
def orderedIds : ℕ → List (String × List String) → Except Exc (List String)
  | _, [] => .ok []
  | 0, _ :: _ => .error (valueError "work graph contains a cycle")
  | fuel + 1, pending =>
    let ready := ((pending.filter fun p ↦ p.2 = []).map Prod.fst).insertionSort (· ≤ ·)
    if ready = [] then .error (valueError "work graph contains a cycle")
    else do
      let later := (pending.filter fun p ↦ p.1 ∉ ready).map fun p ↦
        (p.1, p.2.filter (· ∉ ready))
      let rest ← orderedIds fuel later
      return ready ++ rest

/-- `ordered_items`. Every round orders an item, so there are no more rounds than items. -/
def orderedItems : Except Exc (List WorkItem) := do
  let ids ← orderedIds graph.workItems.length
    (graph.workItems.map fun item ↦ (item.workId, item.dependencies.dedup))
  return ids.filterMap graph.item?

/-- `ready_items`. -/
def readyItems (completed : List String) : Except Exc (List WorkItem) := do
  let items ← graph.orderedItems
  return items.filter fun item ↦ item.status = .proposed ∧ item.dependencies ⊆ completed

/-- `_ordered`. The search puts no more on its stack than there are dependencies, and those of the
point it starts from. -/
def ordered (predecessor successor : String) : Bool :=
  search graph.dependenciesOf predecessor
    (2 * (graph.workItems.map (·.dependencies.length)).sum + 1) []
    (graph.dependenciesOf successor).reverse

/-- The round of the first loop of `_validate` for an item. -/
def checkItem (item : WorkItem) : Except Exc Unit := do
  if item.missionId ≠ graph.charter.missionId then
    throw (valueError "work item belongs to another mission")
  if graph.limits.maxDepth < item.depth then
    throw (valueError "work graph exceeds depth limit")
  if ¬item.dependencies ⊆ graph.workIds then
    throw (valueError "work graph has missing dependency")
  if item.workId ∈ item.dependencies then
    throw (valueError "work item cannot depend on itself")
  match item.parentWorkId with
  | none => pure ()
  | some parentId =>
    match graph.item? parentId with
    | none => throw (valueError "work graph has orphan parent")
    | some parent =>
      if item.depth ≠ parent.depth + 1 then
        throw (valueError "work item depth does not match parent")

/-- `children[work_id]`, after the loop. -/
def children (workId : String) : ℕ := graph.workItems.countP (·.parentWorkId = some workId)

def scopesOverlap (left right : WorkItem) : Bool :=
  left.writeScope.any fun leftPath ↦ right.writeScope.any fun rightPath ↦
    pathsOverlap leftPath rightPath

/-- `_validate_concurrent_writes`, for the items from one on. -/
def validateConcurrentWrites : List WorkItem → Except Exc Unit
  | [] => .ok ()
  | left :: rest => do
    forM rest fun right ↦ do
      if scopesOverlap left right ∧ ¬graph.ordered left.workId right.workId ∧
          ¬graph.ordered right.workId left.workId then
        throw (valueError "overlapping write scopes require a dependency")
    validateConcurrentWrites rest

/-- The checks that `__init__` makes. -/
def validate : Except Exc Unit := do
  if ¬graph.workIds.Nodup then
    throw (valueError "work item ids must be unique")
  if graph.workItems = [] then
    throw (valueError "work graph needs at least one item")
  if graph.limits.maxWorkItems < graph.workItems.length then
    throw (valueError "work graph exceeds work item limit")
  forM graph.workItems graph.checkItem
  if graph.workItems.any fun item ↦ graph.limits.maxFanout < graph.children item.workId then
    throw (valueError "work graph exceeds fanout limit")
  if ¬graph.charter.acceptanceSpecs ⊆ graph.workItems.flatMap (·.acceptanceSpecs) then
    throw (valueError "work graph is missing charter acceptance")
  let _ ← graph.orderedItems
  graph.validateConcurrentWrites graph.workItems

end GraphFields

/-- `ObjectiveGraph`. -/
structure ObjectiveGraph extends GraphFields where
  valid : toGraphFields.validate = .ok ()

/-- `ObjectiveGraph(...)`. Without limits of its own, a graph is limited by the budget of its
charter. -/
def ObjectiveGraph.new (charter : MissionCharter) (workItems : List WorkItem)
    (limits : Option PlanLimits) : Except Exc ObjectiveGraph := do
  let limits ← match limits with
    | some limits => pure limits
    | none => PlanLimits.new charter.budget.maxWorkItems charter.budget.maxDepth 8
  let graph : GraphFields := { charter, workItems, limits }
  match valid : graph.validate with
  | .ok () => return { graph with valid }
  | .error e => throw e

/-! ## Paths by their segments -/

section Segments

theorem splitOn_eq (sep : Char) (cs : List Char) : splitOn sep cs = cs.splitOn sep := by
  induction cs with
  | nil => rfl
  | cons c cs ih =>
    rw [splitOn, List.splitOn_cons_eq_if_modifyHead, ih]
    by_cases hsep : c = sep
    · rw [if_pos hsep, if_pos (beq_iff_eq.mpr hsep)]
    · rw [if_neg hsep, if_neg (mt beq_iff_eq.mp hsep)]
      rcases hparts : cs.splitOn sep with _ | ⟨part, parts⟩
      · exact absurd hparts (List.splitOn_ne_nil sep cs)
      · rfl

/-- The segments of one path begin another when the paths are equal or the one contains the
other. -/
theorem segments_prefix_iff {left right : String} : segments right <+: segments left ↔
    left = right ∨ (right ++ "/").toList.isPrefixOf left.toList = true := by
  rw [List.isPrefixOf_iff_prefix, String.toList_append, segments, segments, splitOn_eq, splitOn_eq]
  constructor
  · rintro ⟨rest, hrest⟩
    have hjoin := congrArg ([('/' : Char)].intercalate) hrest
    rw [List.intercalate_splitOn] at hjoin
    by_cases hempty : rest = []
    · rw [hempty, List.append_nil, List.intercalate_splitOn] at hjoin
      exact .inl (String.toList_injective hjoin.symm)
    · rw [Fields.intercalate_append (List.splitOn_ne_nil _ _) hempty,
        List.intercalate_splitOn] at hjoin
      exact .inr ⟨_, (List.append_assoc _ _ _).trans hjoin⟩
  · rintro (rfl | ⟨rest, hrest⟩)
    · exact List.prefix_rfl
    · refine ⟨rest.splitOn '/', ?_⟩
      rw [← hrest, List.append_assoc, ← List.splitOn_append_cons_self]
      rfl

/-- **Two paths overlap when the segments of one begin the other.** -/
theorem pathsOverlap_iff {left right : String} : pathsOverlap left right = true ↔
    segments right <+: segments left ∨ segments left <+: segments right := by
  rw [segments_prefix_iff, segments_prefix_iff, pathsOverlap, Bool.or_eq_true, Bool.or_eq_true,
    beq_iff_eq]
  constructor
  · rintro ((hsame | hleft) | hright)
    · exact .inl (.inl hsame)
    · exact .inl (.inr hleft)
    · exact .inr (.inr hright)
  · rintro ((hsame | hleft) | (hsame | hright))
    · exact .inl (.inl hsame)
    · exact .inl (.inr hleft)
    · exact .inl (.inl hsame.symm)
    · exact .inr hright

end Segments

/-! ## The order of the items -/

namespace GraphFields

/-- What a round leaves and what it orders are all that was pending. -/
theorem perm_of_round {pending : List (String × List String)} (hnodup : (pending.map Prod.fst).Nodup)
    {ready : List String}
    (hready : ready = ((pending.filter fun p ↦ p.2 = []).map Prod.fst).insertionSort (· ≤ ·)) :
    (ready ++ (pending.filter fun p ↦ p.1 ∉ ready).map Prod.fst).Perm (pending.map Prod.fst) := by
  have hmem : ∀ p ∈ pending, p.1 ∈ ready ↔ p.2 = [] := by
    intro p hp
    rw [hready, List.mem_insertionSort, List.mem_map]
    constructor
    · rintro ⟨q, hq, hkey⟩
      obtain ⟨hq, hdone⟩ := List.mem_filter.mp hq
      rw [← List.inj_on_of_nodup_map hnodup hq hp hkey]
      exact of_decide_eq_true hdone
    · intro hdone
      exact ⟨p, List.mem_filter.mpr ⟨hp, decide_eq_true hdone⟩, rfl⟩
  have hrest : (pending.filter fun p ↦ p.1 ∉ ready) = pending.filter fun p ↦ !decide (p.2 = []) :=
    List.filter_congr fun p hp ↦ by rw [decide_not, decide_eq_decide.mpr (hmem p hp)]
  rw [hrest]
  have hsort : ready.Perm ((pending.filter fun p ↦ p.2 = []).map Prod.fst) :=
    hready ▸ List.perm_insertionSort _ _
  refine (hsort.append_right _).trans ?_
  rw [← List.map_append]
  exact (List.filter_append_perm _ pending).map _

/-- **Every item is ordered once.** -/
theorem orderedIds_perm {fuel : ℕ} {pending : List (String × List String)} {ids : List String}
    (hnodup : (pending.map Prod.fst).Nodup) (h : orderedIds fuel pending = .ok ids) :
    ids.Perm (pending.map Prod.fst) := by
  induction fuel generalizing pending ids with
  | zero =>
    rcases pending with _ | ⟨first, pending⟩
    · obtain rfl := Except.ok.inj h
      exact .nil
    · exact nomatch h
  | succ fuel ih =>
    rcases pending with _ | ⟨first, pending⟩
    · obtain rfl := Except.ok.inj h
      exact .nil
    rw [orderedIds] at h
    · split at h
      · exact nomatch h
      simp only [bind_eq_ok, pure_eq_ok] at h
      obtain ⟨rest, hrest, rfl⟩ := h
      have hlater := ih ?_ hrest
      · rw [List.map_map] at hlater
        exact (hlater.append_left _).trans (perm_of_round hnodup rfl)
      · rw [List.map_map]
        exact (hnodup.sublist (List.filter_sublist.map _))
    · exact List.cons_ne_nil _ _

/-! ## What is accepted -/

section Accepted

variable {graph : GraphFields}

theorem item?_eq (h : graph.workIds.Nodup) {item : WorkItem} (hitem : item ∈ graph.workItems) :
    graph.item? item.workId = some item := Rows.Unique.find?_eq h hitem

theorem dependenciesOf_eq (h : graph.workIds.Nodup) {item : WorkItem}
    (hitem : item ∈ graph.workItems) : graph.dependenciesOf item.workId = item.dependencies := by
  rw [dependenciesOf, item?_eq h hitem]
  rfl

/-- What the checks of a graph establish. -/
structure Accepted (graph : GraphFields) : Prop where
  nodup : graph.workIds.Nodup
  closed : ∀ item ∈ graph.workItems, item.dependencies ⊆ graph.workIds
  items : ∃ items, graph.orderedItems = .ok items
  apart : graph.workItems.Pairwise fun left right ↦ scopesOverlap left right = true →
    graph.ordered left.workId right.workId = true ∨ graph.ordered right.workId left.workId = true

theorem pairwise_of_validateConcurrentWrites {items : List WorkItem}
    (h : graph.validateConcurrentWrites items = .ok ()) :
    items.Pairwise fun left right ↦ scopesOverlap left right = true →
      graph.ordered left.workId right.workId = true ∨
        graph.ordered right.workId left.workId = true := by
  induction items with
  | nil => exact .nil
  | cons left rest ih =>
    rw [validateConcurrentWrites, bind_eq_ok] at h
    obtain ⟨_, hleft, hrest⟩ := h
    refine .cons (fun right hright hoverlap ↦ ?_) (ih hrest)
    have hcheck := forM_eq_ok.mp hleft right hright
    rw [check_eq_ok] at hcheck
    by_contra hnot
    rw [not_or] at hnot
    exact hcheck ⟨hoverlap, hnot⟩

theorem accepted_of_validate (h : graph.validate = .ok ()) : Accepted graph := by
  simp only [validate, guard_eq_ok, bind_eq_ok, not_not] at h
  obtain ⟨hnodup, -, -, _, hitems, -, -, items, hordered, happart⟩ := h
  refine ⟨hnodup, fun item hitem ↦ ?_, ⟨items, hordered⟩,
    pairwise_of_validateConcurrentWrites happart⟩
  have hitem := forM_eq_ok.mp hitems item hitem
  simp only [checkItem, guard_eq_ok, not_not] at hitem
  exact hitem.2.2.1

theorem dependenciesOf_subset (h : Accepted graph) (workId : String) :
    graph.dependenciesOf workId ⊆ graph.workIds := by
  rw [dependenciesOf]
  rcases hitem : graph.item? workId with _ | item
  · exact List.nil_subset _
  · exact h.closed item (List.mem_of_find?_eq_some hitem)

/-- What the order holds are the items. -/
theorem mem_orderedItems (h : Accepted graph) {items : List WorkItem}
    (hitems : graph.orderedItems = .ok items) {item : WorkItem} :
    item ∈ items ↔ item ∈ graph.workItems := by
  simp only [orderedItems, bind_eq_ok, pure_eq_ok] at hitems
  obtain ⟨ids, hids, rfl⟩ := hitems
  have hpending : (graph.workItems.map fun item ↦ (item.workId, item.dependencies.dedup)).map
      Prod.fst = graph.workIds := by
    rw [List.map_map]
    rfl
  have hperm := orderedIds_perm (hpending ▸ h.nodup) hids
  rw [hpending] at hperm
  rw [List.mem_filterMap]
  constructor
  · rintro ⟨id, -, hitem⟩
    exact List.mem_of_find?_eq_some hitem
  · intro hitem
    exact ⟨item.workId, hperm.mem_iff.mpr (List.mem_map_of_mem hitem), item?_eq h.nodup hitem⟩

/-- **The search finds exactly the transitive dependencies**, for the identifiers of items. -/
theorem ordered_eq_true_iff (h : Accepted graph) {predecessor successor : String}
    (hsuccessor : successor ∈ graph.workIds) : graph.ordered predecessor successor = true ↔
      Below graph.dependenciesOf successor predecessor := by
  obtain ⟨item, hitem, rfl⟩ := List.mem_map.mp hsuccessor
  refine search_eq_true_iff (fun id _ ↦ dependenciesOf_subset h id) hsuccessor ?_
  have hedges : remaining graph.dependenciesOf graph.workIds [] =
      (graph.workItems.map (·.dependencies.length)).sum := by
    rw [remaining, List.toFinset_nil, Finset.sdiff_empty, List.sum_toFinset _ h.nodup, workIds,
      List.map_map]
    exact congrArg List.sum (List.map_congr_left fun item hitem ↦
      congrArg List.length (dependenciesOf_eq h.nodup hitem))
  have hlength : item.dependencies.length ≤ (graph.workItems.map (·.dependencies.length)).sum :=
    List.single_le_sum (fun _ _ ↦ Nat.zero_le _) _ (List.mem_map_of_mem hitem)
  rw [hedges, dependenciesOf_eq h.nodup hitem]
  omega

end Accepted

end GraphFields

/-! ## Readiness -/

namespace ObjectiveGraph

/-- The item is one of those that are ready once the others are completed. -/
def IsReady (graph : ObjectiveGraph) (completed : List String) (item : WorkItem) : Prop :=
  ∃ items, graph.readyItems completed = .ok items ∧ item ∈ items

/-- With an item, what it depends on is completed. -/
def DependencyClosed (graph : ObjectiveGraph) (completed : List String) : Prop :=
  ∀ id ∈ completed, graph.dependenciesOf id ⊆ completed

/-- What is completed when a scheduler completes items that are ready, in whatever order. -/
inductive Scheduled (graph : ObjectiveGraph) (start : List String) : List String → Prop
  | start : Scheduled graph start start
  | complete {completed : List String} {item : WorkItem} : Scheduled graph start completed →
      graph.IsReady completed item → Scheduled graph start (item.workId :: completed)

/-- The items may write the same: two of their paths are equal, or the one contains the other. -/
def Overlap (left right : WorkItem) : Prop :=
  ∃ leftPath ∈ left.writeScope, ∃ rightPath ∈ right.writeScope,
    segments rightPath <+: segments leftPath ∨ segments leftPath <+: segments rightPath

variable {graph : ObjectiveGraph} {completed : List String} {item : WorkItem}

theorem accepted (graph : ObjectiveGraph) : GraphFields.Accepted graph.toGraphFields :=
  GraphFields.accepted_of_validate graph.valid

theorem isReady_iff : graph.IsReady completed item ↔
    item ∈ graph.workItems ∧ item.status = .proposed ∧ item.dependencies ⊆ completed := by
  obtain ⟨items, hitems⟩ := graph.accepted.items
  have hready : graph.readyItems completed = .ok (items.filter fun item ↦
      item.status = .proposed ∧ item.dependencies ⊆ completed) := by
    rw [GraphFields.readyItems, hitems]
    rfl
  rw [IsReady, hready]
  simp only [Except.ok.injEq, exists_eq_left', List.mem_filter, decide_eq_true_eq,
    GraphFields.mem_orderedItems graph.accepted hitems]

theorem scopesOverlap_iff {left right : WorkItem} :
    GraphFields.scopesOverlap left right = true ↔ Overlap left right := by
  simp only [GraphFields.scopesOverlap, List.any_eq_true, pathsOverlap_iff, Overlap]

theorem overlap_symm {left right : WorkItem} (h : Overlap left right) : Overlap right left := by
  obtain ⟨leftPath, hleft, rightPath, hright, hoverlap⟩ := h
  exact ⟨rightPath, hright, leftPath, hleft, hoverlap.symm⟩

/-- Two items that overlap depend on each other, one way or the other. -/
theorem below_of_overlap {left right : WorkItem} (hleft : left ∈ graph.workItems)
    (hright : right ∈ graph.workItems) (hne : left ≠ right) (h : Overlap left right) :
    Below graph.dependenciesOf right.workId left.workId ∨
      Below graph.dependenciesOf left.workId right.workId := by
  let Dependent (left right : WorkItem) : Prop := left ≠ right → Overlap left right →
    Below graph.dependenciesOf right.workId left.workId ∨
      Below graph.dependenciesOf left.workId right.workId
  have : Std.Symm Dependent :=
    ⟨fun _ _ hdependent hne hoverlap ↦ (hdependent hne.symm (overlap_symm hoverlap)).symm⟩
  have hpairs : graph.workItems.Pairwise Dependent := by
    refine graph.accepted.apart.imp_of_mem fun {left right} hleft hright happart _ hoverlap ↦ ?_
    rcases happart (scopesOverlap_iff.mpr hoverlap) with hordered | hordered
    · exact .inl ((GraphFields.ordered_eq_true_iff graph.accepted
        (List.mem_map_of_mem hright)).mp hordered)
    · exact .inr ((GraphFields.ordered_eq_true_iff graph.accepted
        (List.mem_map_of_mem hleft)).mp hordered)
  exact hpairs.forall_of_forall (fun _ _ hself ↦ absurd rfl hself) hleft hright hne h

/-- What is below an item of a closed set, or below one that is ready, is in the set. -/
theorem mem_of_below (hclosed : graph.DependencyClosed completed) {id other : String}
    (hdeps : graph.dependenciesOf id ⊆ completed) (h : Below graph.dependenciesOf id other) :
    other ∈ completed :=
  h.mem (S := (· ∈ completed)) (fun _ hmem ↦ hdeps hmem) fun id hid _ hmem ↦ hclosed id hid hmem

/-- A set that holds what an item depends on holds everything below the item. -/
theorem isReady_iff_below (hclosed : graph.DependencyClosed completed)
    (hitem : item ∈ graph.workItems) (hproposed : item.status = .proposed) :
    graph.IsReady completed item ↔
      ∀ id, Below graph.dependenciesOf item.workId id → id ∈ completed := by
  have hdeps := GraphFields.dependenciesOf_eq graph.accepted.nodup hitem
  rw [isReady_iff]
  constructor
  · rintro ⟨-, -, hready⟩ id hbelow
    exact mem_of_below hclosed (hdeps ▸ hready) hbelow
  · intro h
    exact ⟨hitem, hproposed, fun id hid ↦ h id (below_of_mem (hdeps ▸ hid))⟩

/-- A scheduler keeps the set of what is completed closed. -/
theorem Scheduled.dependencyClosed {start : List String} (hstart : graph.DependencyClosed start)
    (h : graph.Scheduled start completed) : graph.DependencyClosed completed := by
  induction h with
  | start => exact hstart
  | @complete completed item _ hready ih =>
    obtain ⟨hitem, -, hdeps⟩ := isReady_iff.mp hready
    rintro id hid other hother
    rcases List.mem_cons.mp hid with rfl | hid
    · rw [GraphFields.dependenciesOf_eq graph.accepted.nodup hitem] at hother
      exact List.mem_cons_of_mem _ (hdeps hother)
    · exact List.mem_cons_of_mem _ (ih id hid hother)

/-- **What is ready together does not overlap, and what waits for nothing is ready.** -/
theorem ready_items_sound (graph : ObjectiveGraph) :
    (∀ completed, graph.DependencyClosed completed → ∀ left right,
      graph.IsReady completed left → graph.IsReady completed right → left ≠ right →
      left.workId ∉ completed → right.workId ∉ completed → ¬Overlap left right) ∧
    ∀ start completed, graph.DependencyClosed start → graph.Scheduled start completed →
      ∀ item ∈ graph.workItems, item.status = .proposed →
        (graph.IsReady completed item ↔
          ∀ id, Below graph.dependenciesOf item.workId id → id ∈ completed) := by
  refine ⟨fun completed hclosed left right hleft hright hne hnew hnew' hoverlap ↦ ?_,
    fun start completed hstart hscheduled item hitem hproposed ↦
      isReady_iff_below (hscheduled.dependencyClosed hstart) hitem hproposed⟩
  have hleft' := (isReady_iff.mp hleft)
  have hright' := (isReady_iff.mp hright)
  -- the one that the other waits for would be completed
  rcases below_of_overlap hleft'.1 hright'.1 hne hoverlap with hbelow | hbelow
  · exact hnew ((isReady_iff_below hclosed hright'.1 hright'.2.1).mp hright _ hbelow)
  · exact hnew' ((isReady_iff_below hclosed hleft'.1 hleft'.2.1).mp hleft _ hbelow)

/-! ## A graph of three items -/

def sampleCharter : MissionCharter where
  schemaVersion := 1
  missionId := "MISSION-plan"
  createdAt := "2026-08-07T12:00:00Z"
  objective := "deliver a bounded change"
  acceptanceSpecs := ["ACCEPT-1"]
  repositoryRoot := "repo"
  baseCommit := "0000000000000000000000000000000000000000"
  targetBranch := "codex/phase"
  policyFingerprint := "sha256:0000000000000000000000000000000000000000000000000000000000000000"
  roleRegistryFingerprint :=
    "sha256:0000000000000000000000000000000000000000000000000000000000000000"
  modelRouteFingerprint :=
    "sha256:0000000000000000000000000000000000000000000000000000000000000000"
  budget := ⟨1, 0, 0, 0, 0, 0, 8, 3⟩
  externalGrants := []
  protectedBranches := []
  humanGates := []
  status := .created
  valid := by decide +kernel

def sampleFields (workId : String) (dependencies writeScope : List String) (status : WorkState) :
    WorkFields where
  workId := workId
  missionId := "MISSION-plan"
  parentWorkId := none
  depth := 0
  title := workId
  objective := "do work"
  role := "builder"
  riskTier := "R1"
  dependencies := dependencies
  requiredInputs := []
  expectedOutputs := []
  acceptanceSpecs := ["ACCEPT-1"]
  writeScope := writeScope
  requestedActions := []
  contextRequest := []
  maxAttempts := 1
  status := status
  authorityEnvelopeDigest :=
    "sha256:0000000000000000000000000000000000000000000000000000000000000000"
  idempotencyKey := "sha256:0000000000000000000000000000000000000000000000000000000000000000"

def workOne : WorkItem where
  toWorkFields := sampleFields "WORK-one" [] ["src"] .proposed
  valid := WorkFields.postInit_eq_self (by decide +kernel) (by rfl) (by decide +kernel)

def workTwo : WorkItem where
  toWorkFields := sampleFields "WORK-two" ["WORK-one"] ["src/main.py"] .proposed
  valid := WorkFields.postInit_eq_self (by decide +kernel) (by rfl) (by decide +kernel)

def workThree : WorkItem where
  toWorkFields := sampleFields "WORK-three" [] ["docs"] .proposed
  valid := WorkFields.postInit_eq_self (by decide +kernel) (by rfl) (by decide +kernel)

/-- One item writes a directory, another a file in it, and the third something else. -/
def sampleGraph : ObjectiveGraph where
  charter := sampleCharter
  workItems := [workOne, workTwo, workThree]
  limits := ⟨8, 3, 8, by decide⟩
  valid := by rfl

theorem sample_ready : ¬Overlap workOne workThree ∧
    (sampleGraph.IsReady ["WORK-one"] workTwo ↔
      ∀ id, Below sampleGraph.dependenciesOf "WORK-two" id → id ∈ ["WORK-one"]) := by
  have hone : sampleGraph.IsReady [] workOne :=
    isReady_iff.mpr ⟨List.mem_cons_self, rfl, List.nil_subset _⟩
  have hthree : sampleGraph.IsReady [] workThree :=
    isReady_iff.mpr ⟨List.mem_cons_of_mem _ (List.mem_cons_of_mem _ List.mem_cons_self), rfl,
      List.nil_subset _⟩
  have hne : workOne ≠ workThree := fun h ↦ absurd (congrArg (fun item ↦ item.workId) h) (by decide)
  have hstart : sampleGraph.DependencyClosed [] := fun _ hid ↦ absurd hid List.not_mem_nil
  exact ⟨(ready_items_sound sampleGraph).1 [] hstart _ _ hone hthree hne List.not_mem_nil
    List.not_mem_nil,
    (ready_items_sound sampleGraph).2 [] _ hstart (.complete .start hone) workTwo
      (List.mem_cons_of_mem _ List.mem_cons_self) rfl⟩

/-- An item that was accepted before. -/
def acceptedOne : WorkItem where
  toWorkFields := sampleFields "WORK-one" [] ["src"] .accepted
  valid := WorkFields.postInit_eq_self (by decide +kernel) (by rfl) (by decide +kernel)

def acceptedGraph : ObjectiveGraph where
  charter := sampleCharter
  workItems := [acceptedOne]
  limits := ⟨8, 3, 8, by decide⟩
  valid := by rfl

/-- Nothing is below the item, and `ready_items` does not return it. -/
theorem accepted_item_not_ready : ¬∀ completed, acceptedGraph.Scheduled [] completed →
    ∀ item ∈ acceptedGraph.workItems, (acceptedGraph.IsReady completed item ↔
      ∀ id, Below acceptedGraph.dependenciesOf item.workId id → id ∈ completed) := by
  intro h
  have hready := (h [] .start _ List.mem_cons_self).mpr fun id hbelow ↦
    hbelow.mem (S := (· ∈ [])) (fun _ hmem ↦ hmem) fun _ hmem ↦ absurd hmem List.not_mem_nil
  exact WorkState.noConfusion (isReady_iff.mp hready).2.1

end ObjectiveGraph

end HiveMind
