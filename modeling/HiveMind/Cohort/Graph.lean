import HiveMind.Kernel.Canonical
import HiveMind.Lib.Raise
import HiveMind.Lib.Rows

/-!
# Outcome graphs

The work of a cohort is a graph of packages. A graph is compiled before anything runs: its packages
have different names, every dependency is a package of the graph, no package depends on itself
through others, and two packages with an allowed path in common are ordered by a dependency.

The search for a cycle goes down the dependencies of each package with the packages above it on a
stack. What it has left behind is a list in which every package comes before its dependencies
(`TopologicalOrder`).

* **`visit_succ`**: the depth that the search is given is never what ends it.
-/

open Raise

namespace HiveMind.Cohort

/-- `GraphError`. -/
structure GraphError where
  message : String
  deriving DecidableEq, Repr

/-! ## Packages -/

structure PackageFields where
  packageId : String
  outcomeIds : List String
  dependencies : List String
  allowedPaths : List String
  semanticLocks : List String
  acceptanceIds : List String
  riskTier : String
  requiredRoles : List String
  effort : Int
  rollback : String
  state : String
  deriving DecidableEq

/-- What `OutcomeWorkPackage.__post_init__` raises. -/
def PackageFields.problem? (p : PackageFields) : Option String :=
  if p.packageId = "" ∨ p.outcomeIds = [] then some "package and outcome ids are required"
  else if p.effort < 1 then some "effort must be positive"
  else if ¬p.dependencies.Nodup then some "duplicate dependency"
  else if p.packageId ∈ p.dependencies then some "package cannot depend on itself"
  else none

/-- `OutcomeWorkPackage`. -/
structure OutcomeWorkPackage extends PackageFields where
  valid : toPackageFields.problem? = none
  deriving DecidableEq

/-- `OutcomeGraphSpec`. -/
structure OutcomeGraphSpec where
  packages : List OutcomeWorkPackage
  baseSnapshot : String
  contractVersion : Int
  maximumConcurrent : Int
  courtReceipt : String
  deriving DecidableEq

namespace OutcomeGraphSpec

def ids (graph : OutcomeGraphSpec) : List String := graph.packages.map (·.packageId)

/-- `by_id[package_id]`, for the name of a package. -/
def package? (graph : OutcomeGraphSpec) (id : String) : Option OutcomeWorkPackage :=
  graph.packages.find? (·.packageId == id)

def dependenciesOf (graph : OutcomeGraphSpec) (id : String) : List String :=
  ((graph.package? id).map (·.dependencies)).getD []

end OutcomeGraphSpec

/-! ## The search for a cycle -/

/-- `visit`. The fuel is one more than the number of packages that are not on the stack. -/
def visit (dependenciesOf : String → List String) :
    ℕ → List String → List String → String → Except GraphError (List String)
  | 0, _, _, _ => .error ⟨"outcome graph contains a cycle"⟩
  | fuel + 1, visiting, visited, i => do
    if i ∈ visiting then
      throw ⟨"outcome graph contains a cycle"⟩
    if i ∈ visited then
      return visited
    let visited ← (dependenciesOf i).foldlM (visit dependenciesOf fuel (i :: visiting)) visited
    return i :: visited

/-- Writers with a path in common have to be ordered by a dependency. -/
def Unordered (a b : OutcomeWorkPackage) : Prop :=
  a.packageId < b.packageId ∧ (∃ path ∈ a.allowedPaths, path ∈ b.allowedPaths) ∧
    b.packageId ∉ a.dependencies ∧ a.packageId ∉ b.dependencies

instance (a b : OutcomeWorkPackage) : Decidable (Unordered a b) :=
  inferInstanceAs (Decidable (_ ∧ _))

/-- `compile_outcome_graph`, of a graph. The names that are missing are not repeated in the message. -/
def compileOutcomeGraph (spec : OutcomeGraphSpec) : Except GraphError OutcomeGraphSpec := do
  if ¬spec.ids.Nodup then
    throw ⟨"duplicate package id"⟩
  if spec.baseSnapshot = "" then
    throw ⟨"base snapshot is required"⟩
  if spec.maximumConcurrent < 1 then
    throw ⟨"capacity must be positive"⟩
  if ∃ p ∈ spec.packages, ∃ d ∈ p.dependencies, d ∉ spec.ids then
    throw ⟨"missing dependency"⟩
  let _ ← spec.ids.foldlM (visit spec.dependenciesOf (spec.ids.length + 1) []) []
  if ∃ a ∈ spec.packages, ∃ b ∈ spec.packages, Unordered a b then
    throw ⟨"overlapping writers require an ordering dependency"⟩
  return spec

/-! ## Topological orders -/

/-- Every package comes before its dependencies. -/
def TopologicalOrder (dependenciesOf : String → List String) : List String → Prop
  | [] => True
  | i :: rest => (∀ d ∈ dependenciesOf i, d ∈ rest) ∧ TopologicalOrder dependenciesOf rest

variable {dependenciesOf : String → List String}

/-- What a visit has left behind is a topological order that goes on from the one before. -/
theorem topologicalOrder_of_foldlM {f : List String → String → Except GraphError (List String)}
    (hf : ∀ visited i visited', f visited i = .ok visited' →
      TopologicalOrder dependenciesOf visited →
      TopologicalOrder dependenciesOf visited' ∧ i ∈ visited' ∧ visited ⊆ visited')
    {is visited visited' : List String} (h : is.foldlM f visited = .ok visited')
    (horder : TopologicalOrder dependenciesOf visited) :
    TopologicalOrder dependenciesOf visited' ∧ is ⊆ visited' ∧ visited ⊆ visited' := by
  induction is generalizing visited with
  | nil =>
    rw [List.foldlM_nil] at h
    obtain rfl := pure_eq_ok.mp h
    exact ⟨horder, List.nil_subset _, List.Subset.refl _⟩
  | cons i is ih =>
    rw [List.foldlM_cons, bind_eq_ok] at h
    obtain ⟨next, hi, his⟩ := h
    obtain ⟨hnext, hmem, hsub⟩ := hf visited i next hi horder
    obtain ⟨hafter, hmems, hsub'⟩ := ih his hnext
    exact ⟨hafter, List.cons_subset.mpr ⟨hsub' hmem, hmems⟩, List.Subset.trans hsub hsub'⟩

theorem topologicalOrder_of_visit {fuel : ℕ} {visiting visited visited' : List String} {i : String}
    (h : visit dependenciesOf fuel visiting visited i = .ok visited')
    (horder : TopologicalOrder dependenciesOf visited) :
    TopologicalOrder dependenciesOf visited' ∧ i ∈ visited' ∧ visited ⊆ visited' := by
  induction fuel generalizing visiting visited visited' i with
  | zero => exact nomatch h
  | succ fuel ih =>
    rw [visit, guard_eq_ok] at h
    obtain ⟨-, h⟩ := h
    by_cases hvisited : i ∈ visited
    · rw [if_pos hvisited] at h
      obtain rfl := pure_eq_ok.mp h
      exact ⟨horder, hvisited, List.Subset.refl _⟩
    · rw [if_neg hvisited, bind_eq_ok] at h
      obtain ⟨after, hfold, h⟩ := h
      obtain rfl := pure_eq_ok.mp h
      obtain ⟨hafter, hmems, hsub⟩ := topologicalOrder_of_foldlM
        (fun _ _ _ hvisit horder ↦ ih hvisit horder) hfold horder
      exact ⟨⟨fun _ hd ↦ hmems hd, hafter⟩, List.mem_cons_self, fun x hx ↦ List.mem_cons_of_mem i (hsub hx)⟩

/-- The fuel never runs out: more of it makes no difference. -/
theorem visit_succ {ids : List String} (hclosed : ∀ i ∈ ids, ∀ d ∈ dependenciesOf i, d ∈ ids)
    {fuel : ℕ} {visiting : List String} (visited : List String) {i : String} (hi : i ∈ ids)
    (hnodup : visiting.Nodup) (hsub : visiting ⊆ ids) (hfuel : ids.length < fuel + visiting.length) :
    visit dependenciesOf (fuel + 1) visiting visited i =
      visit dependenciesOf fuel visiting visited i := by
  induction fuel generalizing visiting visited i with
  | zero =>
    -- the stack would hold more packages than there are
    have hle := (List.subperm_of_subset hnodup hsub).length_le
    omega
  | succ fuel ih =>
    rw [visit, visit]
    by_cases hvisiting : i ∈ visiting
    · simp only [if_pos hvisiting]
      rfl
    have hstack : (i :: visiting).Nodup := List.nodup_cons.mpr ⟨hvisiting, hnodup⟩
    have hdeps : ∀ (ds visited : List String), ds ⊆ ids →
        ds.foldlM (visit dependenciesOf (fuel + 1) (i :: visiting)) visited =
          ds.foldlM (visit dependenciesOf fuel (i :: visiting)) visited := by
      intro ds
      induction ds with
      | nil => exact fun _ _ ↦ rfl
      | cons d ds ihds =>
        intro visited hds
        obtain ⟨hd, hds⟩ := List.cons_subset.mp hds
        have hlength : ids.length < fuel + (i :: visiting).length := by
          rw [List.length_cons]
          omega
        rw [List.foldlM_cons, List.foldlM_cons,
          ih visited hd hstack (List.cons_subset.mpr ⟨hi, hsub⟩) hlength]
        exact congrArg _ (funext fun after ↦ ihds after hds)
    rw [hdeps _ visited (hclosed i hi)]

/-! ## Compiled graphs -/

variable {graph spec : OutcomeGraphSpec}

theorem compileOutcomeGraph_eq_ok :
    compileOutcomeGraph spec = .ok graph ↔ graph = spec ∧ spec.ids.Nodup ∧ spec.baseSnapshot ≠ "" ∧
      1 ≤ spec.maximumConcurrent ∧ (∀ p ∈ spec.packages, ∀ d ∈ p.dependencies, d ∈ spec.ids) ∧
      (∃ order, spec.ids.foldlM (visit spec.dependenciesOf (spec.ids.length + 1) []) [] = .ok order) ∧
      ∀ a ∈ spec.packages, ∀ b ∈ spec.packages, ¬Unordered a b := by
  simp only [compileOutcomeGraph, guard_eq_ok, bind_eq_ok, pure_eq_ok, not_not, not_lt, not_exists,
    not_and]
  constructor
  · rintro ⟨hids, hbase, hcapacity, hdeps, order, hvisit, hwriters, rfl⟩
    exact ⟨rfl, hids, hbase, hcapacity, hdeps, ⟨order, hvisit⟩, hwriters⟩
  · rintro ⟨rfl, hids, hbase, hcapacity, hdeps, ⟨order, hvisit⟩, hwriters⟩
    exact ⟨hids, hbase, hcapacity, hdeps, order, hvisit, hwriters, rfl⟩

/-- A graph that has been compiled. -/
structure Compiled (graph : OutcomeGraphSpec) : Prop where
  nodup : graph.ids.Nodup
  capacity : 1 ≤ graph.maximumConcurrent
  closed : ∀ p ∈ graph.packages, ∀ d ∈ p.dependencies, d ∈ graph.ids
  order : ∃ order, TopologicalOrder graph.dependenciesOf order ∧ graph.ids ⊆ order
  writers : ∀ a ∈ graph.packages, ∀ b ∈ graph.packages, ¬Unordered a b

theorem compiled_of_compile (h : compileOutcomeGraph spec = .ok graph) : Compiled graph := by
  obtain ⟨rfl, hids, -, hcapacity, hdeps, ⟨order, hvisit⟩, hwriters⟩ :=
    compileOutcomeGraph_eq_ok.mp h
  obtain ⟨horder, hsub, -⟩ := topologicalOrder_of_foldlM
    (fun _ _ _ hvisit horder ↦ topologicalOrder_of_visit hvisit horder) hvisit trivial
  exact ⟨hids, hcapacity, hdeps, ⟨order, horder, hsub⟩, hwriters⟩

namespace OutcomeGraphSpec

theorem package?_eq_some (h : graph.ids.Nodup) {p : OutcomeWorkPackage} (hp : p ∈ graph.packages) :
    graph.package? p.packageId = some p :=
  Rows.Unique.find?_eq h hp

theorem exists_package {id : String} (h : id ∈ graph.ids) :
    ∃ p ∈ graph.packages, p.packageId = id := List.mem_map.mp h

theorem dependenciesOf_eq (h : graph.ids.Nodup) {p : OutcomeWorkPackage} (hp : p ∈ graph.packages) :
    graph.dependenciesOf p.packageId = p.dependencies := by
  rw [dependenciesOf, package?_eq_some h hp]
  rfl

end OutcomeGraphSpec

end HiveMind.Cohort
