import HiveMind.Dag.Replay
import HiveMind.Lib.Dependencies
import HiveMind.Kernel.Documents
import HiveMind.Runtime.Contracts

/-!
# Runtime contracts of nodes

A node names the nodes it depends on, the providers of its durability and the paths it writes. The
contracts of all nodes are validated together: what is below a node is collected by a search that
goes down from it, once for every node. A single search notices a circle only if it runs through the
node it started from, and since every node is started from, no circle gets through.

* **`runtime_contracts_sound`**: what is validated has no circle and no open end, the ancestors of a
  node are what is below it, providers are strict ancestors that provide, and a path has one owner.
-/

open Raise Dependencies

namespace HiveMind.Runtime

/-! ## Checks of fields -/

/-- `_unique_strings`, where the values may be none. -/
def uniqueStrings? (values : List String) (label : String) : Option String :=
  if "" ∈ values then some (label ++ " must contain non-empty strings")
  else if ¬values.Nodup then some (label ++ " contains duplicates")
  else none

/-- `require_identifier`. -/
def requireIdentifier? (value label : String) : Option String :=
  if Dag.isPortableIdentifier value then none else some (label ++ " is not a portable identifier")

/-- `portable_path`. Since no segment is empty or a dot, joining the segments again gives the text
back. -/
def portablePath (value : String) : Except ContractViolation String :=
  let candidate := value.toList.map fun c ↦ if c = '\\' then '/' else c
  if value = "" then .error ⟨"path is required"⟩
  else if value.toList.any fun c ↦ 128 ≤ c.toNat then
    .error ⟨"path must contain ASCII characters only"⟩
  else if value.toList.any fun c ↦ c.toNat < 32 || c.toNat = 127 then
    .error ⟨"path contains a control character"⟩
  else if candidate.head? = some '/' || startsWithDrive candidate then
    .error ⟨"path must be repository-relative"⟩
  else if (splitOn '/' candidate).any isUnsafeSegment then
    .error ⟨"path contains an unsafe segment"⟩
  else .ok (String.ofList candidate)

/-- The check that paths are as `portable_path` gives them. -/
def normalizedPaths? (paths : List String) (label : String) : Option String :=
  match paths.mapM portablePath with
  | .error e => some e.message
  | .ok normalized =>
    if normalized ≠ paths then some (label ++ " paths must use normalized POSIX spelling") else none

/-! ## Contracts -/

inductive DurabilityRole where
  | none
  | provider
  | consumer
  deriving DecidableEq, Repr

def DurabilityRole.value : DurabilityRole → String
  | none => "none"
  | provider => "provider"
  | consumer => "consumer"

structure NodeFields where
  nodeId : String
  dependencies : List String
  durabilityRole : DurabilityRole
  durabilityProviders : List String
  writeScope : List String
  deriving DecidableEq

/-- What `NodeRuntimeContract.__post_init__` raises. -/
def NodeFields.problem? (node : NodeFields) : Option String :=
  requireIdentifier? node.nodeId "node_id" <|>
  uniqueStrings? node.dependencies "dependencies" <|>
  uniqueStrings? node.durabilityProviders "durability_providers" <|>
  uniqueStrings? node.writeScope "write_scope" <|>
  (if node.nodeId ∈ node.dependencies then some "node cannot depend on itself" else none) <|>
  normalizedPaths? node.writeScope "write_scope" <|>
  (if node.durabilityRole ≠ .consumer ∧ node.durabilityProviders ≠ [] then
    some "only durability consumers may name providers" else none)

/-- `NodeRuntimeContract`. -/
structure NodeRuntimeContract extends NodeFields where
  valid : toNodeFields.problem? = none
  deriving DecidableEq

structure SurfaceFields where
  surface : String
  owner : String
  paths : List String
  deriving DecidableEq

/-- What `SharedSurfaceOwner.__post_init__` raises. -/
def SurfaceFields.problem? (surface : SurfaceFields) : Option String :=
  requireIdentifier? surface.surface "surface" <|>
  requireIdentifier? surface.owner "surface owner" <|>
  (if "" ∈ surface.paths then some "surface paths must contain non-empty strings" else none) <|>
  (if surface.paths = [] then some "surface paths is required" else none) <|>
  uniqueStrings? surface.paths "surface paths" <|>
  normalizedPaths? surface.paths "surface"

/-- `SharedSurfaceOwner`. -/
structure SharedSurfaceOwner extends SurfaceFields where
  valid : toSurfaceFields.problem? = none
  deriving DecidableEq

/-- `to_document`. -/
def NodeRuntimeContract.document (node : NodeRuntimeContract) : Json :=
  Json.mkObj [("node_id", .str node.nodeId), ("dependencies", Json.ofStrings node.dependencies),
    ("durability_role", .str node.durabilityRole.value),
    ("durability_providers", Json.ofStrings node.durabilityProviders),
    ("write_scope", Json.ofStrings node.writeScope)]

/-- `to_document`. -/
def SharedSurfaceOwner.document (surface : SharedSurfaceOwner) : Json :=
  Json.mkObj [("surface", .str surface.surface), ("owner", .str surface.owner),
    ("paths", Json.ofStrings surface.paths)]

/-- `RuntimeContractSummary`. -/
structure RuntimeContractSummary where
  nodeCount : ℕ
  uniqueWritePathCount : ℕ
  sharedSurfaceCount : ℕ
  digest : String
  deriving DecidableEq

/-! ## Validation -/

/-- `by_id[node_id]`, for the identifier of a node. -/
def nodeOf (nodes : List NodeRuntimeContract) (nodeId : String) : Option NodeRuntimeContract :=
  nodes.find? (·.nodeId == nodeId)

def dependenciesOf (nodes : List NodeRuntimeContract) (nodeId : String) : List String :=
  ((nodeOf nodes nodeId).map (·.dependencies)).getD []

/-- `_ancestors`. A way without a circle has no more nodes than there are. -/
def ancestors (nodes : List NodeRuntimeContract) (nodeId : String) :
    Except ContractViolation (List String) :=
  collect (dependenciesOf nodes) (fun id ↦ (nodeOf nodes id).isSome)
    ⟨"node dependency graph contains a cycle"⟩
    (fun current dependency ↦
      ⟨"node " ++ current ++ " has unknown dependency " ++ dependency⟩)
    (nodes.length + 1) [] [] nodeId

/-- What a node expects of its providers. -/
def checkProvider (nodes : List NodeRuntimeContract) (found : List String)
    (node : NodeRuntimeContract) (provider : String) : Except ContractViolation Unit := do
  if provider ∉ found then
    throw ⟨"durability provider " ++ provider ++ " is not an ancestor of " ++ node.nodeId⟩
  if (nodeOf nodes provider).map (·.durabilityRole) ≠ some .provider then
    throw ⟨"durability provider " ++ provider ++ " is not typed provider"⟩

/-- `all_paths[path] = node_id`, unless the path has an owner. -/
def claimPath (nodeId : String) (allPaths : List (String × String)) (path : String) :
    Except ContractViolation (List (String × String)) :=
  match allPaths.lookup path with
  | some previous =>
    .error ⟨"write path " ++ path ++ " has multiple owners: " ++ previous ++ ", " ++ nodeId⟩
  | none => .ok (Dicts.setItem path nodeId allPaths)

/-- The round of the loop for a node. -/
def checkNode (nodes : List NodeRuntimeContract) (closures : List (String × List String))
    (expectedDurability : List (String × DurabilityRole × List String))
    (allPaths : List (String × String)) (node : NodeRuntimeContract) :
    Except ContractViolation (List (String × String)) := do
  if expectedDurability.lookup node.nodeId ≠ some (node.durabilityRole, node.durabilityProviders)
  then
    throw ⟨"durability assignment changed for " ++ node.nodeId⟩
  forM node.durabilityProviders
    (checkProvider nodes ((closures.lookup node.nodeId).getD []) node)
  node.writeScope.foldlM (claimPath node.nodeId) allPaths

/-- The round of the last loop for a shared surface. -/
def checkSurface (nodes : List NodeRuntimeContract) (allPaths : List (String × String))
    (surface : SharedSurfaceOwner) : Except ContractViolation Unit := do
  if nodeOf nodes surface.owner = none then
    throw ⟨"shared surface owner " ++ surface.owner ++ " is unknown"⟩
  forM surface.paths fun path ↦ do
    if allPaths.lookup path ≠ some surface.owner then
      throw ⟨"shared surface path " ++ path ++ " is not solely owned by " ++ surface.owner⟩

section Digests

variable [Hash256]

/-- `validate_runtime_contracts`. Dicts with the same items are equal in whatever order they were
filled. -/
def validateRuntimeContracts (nodes : List NodeRuntimeContract)
    (sharedSurfaces : List SharedSurfaceOwner)
    (expectedDurability : List (String × DurabilityRole × List String))
    (expectedSharedSurfaceOwners : List (String × String))
    (expectedNodeCount expectedWritePathCount : ℤ) :
    Except ContractViolation RuntimeContractSummary := do
  let ids := nodes.map (·.nodeId)
  if (nodes.length : ℤ) ≠ expectedNodeCount then
    throw ⟨"runtime contract node count does not match the sealed expectation"⟩
  if ¬ids.Nodup then
    throw ⟨"runtime contract contains duplicate node ids"⟩
  if ¬(ids ⊆ expectedDurability.map Prod.fst ∧ expectedDurability.map Prod.fst ⊆ ids) then
    throw ⟨"durability assignment inventory is incomplete or substituted"⟩
  let closures ← ids.mapM fun id ↦ (ancestors nodes id).map fun found ↦ (id, found)
  let allPaths ← nodes.foldlM (checkNode nodes closures expectedDurability) []
  if (allPaths.length : ℤ) ≠ expectedWritePathCount then
    throw ⟨"unique write-path count does not match the sealed expectation"⟩
  let surfaces : List (String × String) :=
    sharedSurfaces.map fun surface ↦ (surface.surface, surface.owner)
  if ¬(sharedSurfaces.map (·.surface)).Nodup then
    throw ⟨"shared surface inventory contains duplicates"⟩
  if ¬(surfaces ⊆ expectedSharedSurfaceOwners ∧ expectedSharedSurfaceOwners ⊆ surfaces) then
    throw ⟨"shared surface owner mapping changed"⟩
  forM sharedSurfaces (checkSurface nodes allPaths)
  return ⟨nodes.length, allPaths.length, sharedSurfaces.length, jsonDigest (Json.mkObj [
    ("nodes", .arr (nodes.map (·.document))),
    ("shared_surfaces", .arr (sharedSurfaces.map (·.document)))])⟩

end Digests

/-! ## What is validated -/

/-- What the contracts of a graph promise together. -/
structure SoundContracts (nodes : List NodeRuntimeContract) : Prop where
  acyclic : Acyclic (dependenciesOf nodes)
  closed : ∀ node ∈ nodes, ∀ dependency ∈ node.dependencies,
    ∃ other ∈ nodes, other.nodeId = dependency
  closures : ∀ node ∈ nodes, ∃ found, ancestors nodes node.nodeId = .ok found ∧
    ∀ id, id ∈ found ↔ Below (dependenciesOf nodes) node.nodeId id
  providers : ∀ node ∈ nodes, ∀ provider ∈ node.durabilityProviders, provider ≠ node.nodeId ∧
    Below (dependenciesOf nodes) node.nodeId provider ∧
    ∃ other ∈ nodes, other.nodeId = provider ∧ other.durabilityRole = .provider
  owners : ∀ node ∈ nodes, ∀ other ∈ nodes, ∀ path, path ∈ node.writeScope →
    path ∈ other.writeScope → node = other

section Graph

variable {nodes : List NodeRuntimeContract}

theorem nodeOf_eq (h : (nodes.map (·.nodeId)).Nodup) {node : NodeRuntimeContract}
    (hnode : node ∈ nodes) : nodeOf nodes node.nodeId = some node := Rows.Unique.find?_eq h hnode

theorem mem_of_nodeOf {nodeId : String} {node : NodeRuntimeContract}
    (h : nodeOf nodes nodeId = some node) : node ∈ nodes ∧ node.nodeId = nodeId :=
  ⟨List.mem_of_find?_eq_some h, by simpa using List.find?_some h⟩

theorem dependenciesOf_eq (h : (nodes.map (·.nodeId)).Nodup) {node : NodeRuntimeContract}
    (hnode : node ∈ nodes) : dependenciesOf nodes node.nodeId = node.dependencies := by
  rw [dependenciesOf, nodeOf_eq h hnode]
  rfl

/-- What has a dependency is a node. -/
theorem exists_node_of_needs {nodeId dependency : String}
    (h : dependency ∈ dependenciesOf nodes nodeId) : ∃ node ∈ nodes, node.nodeId = nodeId := by
  rw [dependenciesOf] at h
  rcases hnode : nodeOf nodes nodeId with _ | node
  · rw [hnode] at h
    exact absurd h List.not_mem_nil
  · exact ⟨node, mem_of_nodeOf hnode⟩

/-- **Where the ancestors of every node can be collected, there is no circle.** A circle has a first
step, and that is a step of a node. -/
theorem acyclic_of_ancestors
    (h : ∀ node ∈ nodes, ∃ found, ancestors nodes node.nodeId = .ok found) :
    Acyclic (dependenciesOf nodes) := by
  intro nodeId hbelow
  obtain ⟨dependency, hneeds, -⟩ := Relation.TransGen.head'_iff.mp hbelow
  obtain ⟨node, hnode, rfl⟩ := exists_node_of_needs hneeds
  obtain ⟨found, hfound⟩ := h node hnode
  exact (mem_collect hfound).2.1 hbelow

/-- In a graph without a circle and an open end, the ancestors of every node are found. -/
theorem exists_ancestors (hnodup : (nodes.map (·.nodeId)).Nodup)
    (hacyclic : Acyclic (dependenciesOf nodes))
    (hclosed : ∀ node ∈ nodes, node.dependencies ⊆ nodes.map (·.nodeId))
    {node : NodeRuntimeContract} (hnode : node ∈ nodes) :
    ∃ found, ancestors nodes node.nodeId = .ok found := by
  have hmem : node.nodeId ∈ nodes.map (·.nodeId) := List.mem_map_of_mem hnode
  refine exists_collect hacyclic ?_ ?_ [] hmem (List.nil_subset _) nofun List.nodup_nil ?_
  · intro id hid
    obtain ⟨other, hother, rfl⟩ := List.mem_map.mp hid
    rw [dependenciesOf_eq hnodup hother]
    exact hclosed other hother
  · intro id hid
    obtain ⟨other, hother, rfl⟩ := List.mem_map.mp hid
    rw [nodeOf_eq hnodup hother]
    rfl
  · rw [List.length_map, List.length_nil]
    omega

/-- **The ancestors of all nodes are found exactly if there is no circle.** -/
theorem ancestors_iff (hnodup : (nodes.map (·.nodeId)).Nodup)
    (hclosed : ∀ node ∈ nodes, node.dependencies ⊆ nodes.map (·.nodeId)) :
    (∀ node ∈ nodes, ∃ found, ancestors nodes node.nodeId = .ok found) ↔
      Acyclic (dependenciesOf nodes) :=
  ⟨acyclic_of_ancestors, fun hacyclic _ hnode ↦ exists_ancestors hnodup hacyclic hclosed hnode⟩

end Graph

/-- A dict that is filled with a value for every key has the value of each. -/
theorem lookup_of_mapM {α β ε : Type} [BEq α] [LawfulBEq α] {f : α → Except ε β} {keys : List α}
    {dict : List (α × β)}
    (h : keys.mapM (fun key ↦ (f key).map fun value ↦ (key, value)) = .ok dict) {key : α}
    (hkey : key ∈ keys) : ∃ value, f key = .ok value ∧ dict.lookup key = some value := by
  induction keys generalizing dict with
  | nil => exact absurd hkey List.not_mem_nil
  | cons first keys ih =>
    simp only [List.mapM_cons, bind_eq_ok, pure_eq_ok] at h
    obtain ⟨item, hitem, rest, hrest, rfl⟩ := h
    rcases hvalue : f first with _ | value
    · rw [hvalue] at hitem
      exact nomatch hitem
    rw [hvalue] at hitem
    obtain rfl := Except.ok.inj hitem
    by_cases hsame : key = first
    · subst hsame
      exact ⟨value, hvalue, List.lookup_cons_self⟩
    · obtain ⟨found, hfound, hlookup⟩ := ih hrest ((List.mem_cons.mp hkey).resolve_left hsame)
      refine ⟨found, hfound, ?_⟩
      rw [List.lookup_cons, beq_false_of_ne hsame]
      exact hlookup

/-! ## One owner for a path -/

section Paths

variable {nodeId : String} {allPaths allPaths' : List (String × String)}

theorem lookup_claimPath {path : String} (h : claimPath nodeId allPaths path = .ok allPaths') :
    allPaths.lookup path = none ∧
      ∀ other, allPaths'.lookup other = if other = path then some nodeId else allPaths.lookup other := by
  rw [claimPath] at h
  split at h
  · exact nomatch h
  · next hnone =>
    obtain rfl := Except.ok.inj h
    exact ⟨hnone, fun other ↦ Dicts.lookup_setItem path other nodeId allPaths⟩

/-- The paths of a node had no owner, and the node owns them now. -/
theorem lookup_claimPaths {paths : List String}
    (h : paths.foldlM (claimPath nodeId) allPaths = .ok allPaths') :
    (∀ path ∈ paths, allPaths.lookup path = none) ∧
      ∀ path, allPaths'.lookup path = if path ∈ paths then some nodeId else allPaths.lookup path := by
  induction paths generalizing allPaths with
  | nil =>
    obtain rfl := Except.ok.inj h
    exact ⟨nofun, fun path ↦ (if_neg List.not_mem_nil).symm⟩
  | cons first paths ih =>
    rw [List.foldlM_cons, bind_eq_ok] at h
    obtain ⟨next, hfirst, hrest⟩ := h
    obtain ⟨hnone, hnext⟩ := lookup_claimPath hfirst
    obtain ⟨hfree, hlookup⟩ := ih hrest
    refine ⟨List.forall_mem_cons.mpr ⟨hnone, fun path hpath ↦ ?_⟩, fun path ↦ ?_⟩
    · have hfree' := hfree path hpath
      rw [hnext] at hfree'
      split at hfree'
      · exact nomatch hfree'
      · exact hfree'
    · rw [hlookup, hnext]
      by_cases hpath : path ∈ paths
      · rw [if_pos hpath, if_pos (List.mem_cons_of_mem first hpath)]
      · rw [if_neg hpath]
        simp only [List.mem_cons, hpath, or_false]

end Paths

/-- What the rounds before say of the nodes they were for. -/
structure Checked (nodes : List NodeRuntimeContract) (closures : List (String × List String))
    (done : List NodeRuntimeContract) (allPaths : List (String × String)) : Prop where
  providers : ∀ node ∈ done, ∀ provider ∈ node.durabilityProviders,
    provider ∈ (closures.lookup node.nodeId).getD [] ∧
      (nodeOf nodes provider).map (·.durabilityRole) = some .provider
  owned : ∀ node ∈ done, ∀ path ∈ node.writeScope, allPaths.lookup path = some node.nodeId

theorem Checked.round {nodes : List NodeRuntimeContract} {closures : List (String × List String)}
    {expectedDurability : List (String × DurabilityRole × List String)}
    {done : List NodeRuntimeContract} {allPaths allPaths' : List (String × String)}
    {node : NodeRuntimeContract} (h : Checked nodes closures done allPaths)
    (hround : checkNode nodes closures expectedDurability allPaths node = .ok allPaths') :
    Checked nodes closures (done ++ [node]) allPaths' := by
  simp only [checkNode, guard_eq_ok, bind_eq_ok] at hround
  obtain ⟨-, _, hproviders, hpaths⟩ := hround
  obtain ⟨hfree, hlookup⟩ := lookup_claimPaths hpaths
  refine ⟨fun other hother ↦ ?_, fun other hother path hpath ↦ ?_⟩
  · rcases List.mem_append.mp hother with hother | hother
    · exact h.providers other hother
    · obtain rfl := List.mem_singleton.mp hother
      intro provider hprovider
      have hcheck := forM_eq_ok.mp hproviders provider hprovider
      simp only [checkProvider, guard_eq_ok, check_eq_ok, not_not] at hcheck
      exact hcheck
  · rw [hlookup]
    rcases List.mem_append.mp hother with hother | hother
    · -- a path that had an owner was not claimed again
      have howned := h.owned other hother path hpath
      have hnot : path ∉ node.writeScope := fun hmem ↦ by
        rw [hfree path hmem] at howned
        exact nomatch howned
      rw [if_neg hnot, howned]
    · obtain rfl := List.mem_singleton.mp hother
      rw [if_pos hpath]

theorem checked_of_foldlM {nodes : List NodeRuntimeContract}
    {closures : List (String × List String)}
    {expectedDurability : List (String × DurabilityRole × List String)}
    {done rest : List NodeRuntimeContract} {allPaths allPaths' : List (String × String)}
    (h : Checked nodes closures done allPaths)
    (hfold : rest.foldlM (checkNode nodes closures expectedDurability) allPaths = .ok allPaths') :
    Checked nodes closures (done ++ rest) allPaths' := by
  induction rest generalizing done allPaths with
  | nil =>
    obtain rfl := Except.ok.inj hfold
    rw [List.append_nil]
    exact h
  | cons node rest ih =>
    rw [List.foldlM_cons, bind_eq_ok] at hfold
    obtain ⟨next, hround, hrest⟩ := hfold
    have hchecked := ih (h.round hround) hrest
    rwa [List.append_assoc, List.singleton_append] at hchecked

/-! ## The result -/

section Digests

variable [Hash256]

theorem sound_of_validate {nodes : List NodeRuntimeContract}
    {sharedSurfaces : List SharedSurfaceOwner}
    {expectedDurability : List (String × DurabilityRole × List String)}
    {expectedSharedSurfaceOwners : List (String × String)}
    {expectedNodeCount expectedWritePathCount : ℤ} {summary : RuntimeContractSummary}
    (h : validateRuntimeContracts nodes sharedSurfaces expectedDurability
      expectedSharedSurfaceOwners expectedNodeCount expectedWritePathCount = .ok summary) :
    SoundContracts nodes := by
  simp only [validateRuntimeContracts, guard_eq_ok, bind_eq_ok, not_not] at h
  obtain ⟨-, hnodup, -, closures, hclosures, allPaths, hnodes, -⟩ := h
  have hstart : Checked nodes closures [] [] := ⟨nofun, nofun⟩
  have hchecked : Checked nodes closures nodes allPaths := checked_of_foldlM hstart hnodes
  -- the ancestors were collected for every node, and are what the rounds looked at
  have hfound : ∀ node ∈ nodes, ∃ found, ancestors nodes node.nodeId = .ok found ∧
      closures.lookup node.nodeId = some found :=
    fun node hnode ↦ lookup_of_mapM hclosures (List.mem_map_of_mem hnode)
  have hmem : ∀ node ∈ nodes, ∃ found, ancestors nodes node.nodeId = .ok found :=
    fun node hnode ↦ (hfound node hnode).imp fun _ h ↦ h.1
  have hacyclic := acyclic_of_ancestors hmem
  refine ⟨hacyclic, ?_, ?_, ?_, ?_⟩
  · intro node hnode dependency hdependency
    obtain ⟨found, hancestors⟩ := hmem node hnode
    rw [← dependenciesOf_eq hnodup hnode] at hdependency
    have hknown := (mem_collect hancestors).2.2 dependency (below_of_mem hdependency)
    obtain ⟨other, hother⟩ := Option.isSome_iff_exists.mp hknown
    exact ⟨other, mem_of_nodeOf hother⟩
  · intro node hnode
    obtain ⟨found, hancestors⟩ := hmem node hnode
    exact ⟨found, hancestors, (mem_collect hancestors).1⟩
  · intro node hnode provider hprovider
    obtain ⟨found, hancestors, hlookup⟩ := hfound node hnode
    obtain ⟨hancestor, hrole⟩ := hchecked.providers node hnode provider hprovider
    rw [hlookup] at hancestor
    have hbelow := ((mem_collect hancestors).1 provider).mp hancestor
    obtain ⟨other, hother, hrole⟩ := Option.map_eq_some_iff.mp hrole
    refine ⟨fun hsame ↦ hacyclic provider (hsame ▸ hbelow), hbelow, other, ?_⟩
    exact ⟨(mem_of_nodeOf hother).1, (mem_of_nodeOf hother).2, hrole⟩
  · intro node hnode other hother path hpath hpath'
    have howner := (hchecked.owned node hnode path hpath).symm.trans
      (hchecked.owned other hother path hpath')
    exact List.inj_on_of_nodup_map hnodup hnode hother (Option.some.inj howner)

/-- **What is validated is sound, and no graph with a circle is.** -/
theorem runtime_contracts_sound (nodes : List NodeRuntimeContract)
    (sharedSurfaces : List SharedSurfaceOwner)
    (expectedDurability : List (String × DurabilityRole × List String))
    (expectedSharedSurfaceOwners : List (String × String))
    (expectedNodeCount expectedWritePathCount : ℤ) :
    (∀ summary, validateRuntimeContracts nodes sharedSurfaces expectedDurability
        expectedSharedSurfaceOwners expectedNodeCount expectedWritePathCount = .ok summary →
      SoundContracts nodes) ∧
    ∀ nodeId, Below (dependenciesOf nodes) nodeId nodeId →
      ∀ summary, validateRuntimeContracts nodes sharedSurfaces expectedDurability
        expectedSharedSurfaceOwners expectedNodeCount expectedWritePathCount ≠ .ok summary := by
  refine ⟨fun _ h ↦ sound_of_validate h, fun nodeId hbelow summary h ↦ ?_⟩
  exact (sound_of_validate h).acyclic nodeId hbelow

end Digests

/-- A node that keeps what others write. -/
def clerk : NodeRuntimeContract where
  nodeId := "clerk"
  dependencies := []
  durabilityRole := .provider
  durabilityProviders := []
  writeScope := ["ledger/clerk.md"]
  valid := by decide +kernel

def worker : NodeRuntimeContract where
  nodeId := "worker"
  dependencies := ["clerk"]
  durabilityRole := .consumer
  durabilityProviders := ["clerk"]
  writeScope := ["src/app.py"]
  valid := by decide +kernel

theorem clerk_worker_sound : SoundContracts [worker, clerk] :=
  (runtime_contracts_sound [worker, clerk] [] [("clerk", .provider, []),
    ("worker", .consumer, ["clerk"])] [] 2 2).1 _ rfl

theorem clerk_worker_acyclic : Acyclic (dependenciesOf [worker, clerk]) := by
  refine (ancestors_iff (by decide) (by decide)).mp fun node hnode ↦ ?_
  rcases List.mem_pair.mp hnode with rfl | rfl <;> exact ⟨_, rfl⟩

end HiveMind.Runtime
