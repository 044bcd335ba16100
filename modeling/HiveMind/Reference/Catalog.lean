import HiveMind.Lib.Dependencies
import HiveMind.Lib.Rows
import HiveMind.Reference.Workflows

/-!
# Catalogs of packages

A catalog is made of packages that were loaded. It asks that they have different names, and so have
their components, that all they require is there, with the version and the digest of the pin, and
that nothing requires itself through others. An agent of a package may bind skills and tools of the
packages that its own requires, directly or not, which ask for no capability that it does not have.

* **`catalog_sound`**: all this holds of every catalog. Its packages are ordered, each after those
  it requires, and whether there is a catalog, its order and its snapshot do not depend on the order
  in which the packages are given.

What the constructors of manifests and pins check on their own is left out.
-/

open Raise Dependencies

namespace HiveMind.Reference

/-! ## Packages -/

/-- `PackagePin`. -/
structure PackagePin where
  packageId : String
  version : String
  manifestDigest : String
  deriving DecidableEq

/-- `PackagePin.to_contract`, in the order of the names. -/
def PackagePin.toContract (pin : PackagePin) : Json := .obj [
  ("manifest_digest", .str pin.manifestDigest),
  ("package_id", .str pin.packageId),
  ("version", .str pin.version)]

inductive TrustState where
  | quarantined
  | trusted
  | revoked
  deriving DecidableEq

/-- `PackageManifest`. -/
structure PackageManifest where
  packageId : String
  version : String
  trustState : TrustState
  requires : List PackagePin
  replaces : List PackagePin
  rollbackTo : Option PackagePin
  deriving DecidableEq

/-- `AgentManifest`. -/
structure AgentManifest where
  componentId : String
  requestedCapabilities : List String
  skillIds : List String
  toolIds : List String
  deriving DecidableEq

/-- `SkillManifest`. -/
structure SkillManifest where
  componentId : String
  requestedCapabilities : List String
  deriving DecidableEq

/-- `ToolManifest`. -/
structure ToolManifest where
  componentId : String
  capabilityId : String
  deriving DecidableEq

inductive ComponentManifest where
  | agent (manifest : AgentManifest)
  | skill (manifest : SkillManifest)
  | tool (manifest : ToolManifest)
  | workflow (manifest : WorkflowManifest)
  deriving DecidableEq

def ComponentManifest.componentId : ComponentManifest → String
  | agent manifest => manifest.componentId
  | skill manifest => manifest.componentId
  | tool manifest => manifest.componentId
  | workflow manifest => manifest.componentId

/-- `LoadedPackage`. -/
structure LoadedPackage where
  manifest : PackageManifest
  manifestDigest : String
  components : List ComponentManifest
  deriving DecidableEq

namespace LoadedPackage

variable (package : LoadedPackage)

def packageId : String := package.manifest.packageId

/-- The pin of the package itself. -/
def pin : PackagePin := ⟨package.packageId, package.manifest.version, package.manifestDigest⟩

/-- The components, with the package that owns them. -/
def owned : List (ComponentManifest × String) :=
  package.components.map fun component ↦ (component, package.packageId)

end LoadedPackage

/-! ## The catalog -/

/-- The dicts of a catalog: packages by their names, and components by their names with their
owners. -/
structure Registry where
  packages : List LoadedPackage
  components : List (ComponentManifest × String)
  deriving DecidableEq

namespace Registry

def empty : Registry := ⟨[], []⟩

variable (registry : Registry)

/-- `_packages.get(package_id)`. -/
def package? (packageId : String) : Option LoadedPackage :=
  registry.packages.find? (·.packageId == packageId)

/-- `_components.get(component_id)`, with the owner. -/
def component? (componentId : String) : Option (ComponentManifest × String) :=
  registry.components.find? (·.1.componentId == componentId)

/-- A component is registered. -/
def addComponent (component : ComponentManifest × String) : Except String Registry := do
  if component.1.componentId ∈ registry.components.map (·.1.componentId) then
    throw ("duplicate component id: " ++ component.1.componentId)
  return { registry with components := registry.components ++ [component] }

/-- A package is registered. -/
def add (package : LoadedPackage) : Except String Registry := do
  if package.packageId ∈ registry.packages.map (·.packageId) then
    throw ("duplicate package id: " ++ package.packageId)
  package.owned.foldlM addComponent { registry with packages := registry.packages ++ [package] }

/-- The names of the packages that a package requires, sorted. -/
def requirements (packageId : String) : List String :=
  ((registry.package? packageId).map fun package ↦
    (package.manifest.requires.map (·.packageId)).insertionSort (· ≤ ·)).getD []

/-- Every package that is required is there. -/
def checkPresent : Except String Unit :=
  forM registry.packages fun package ↦ forM package.manifest.requires fun required ↦ do
    if registry.package? required.packageId = none then
      throw (package.packageId ++ " requires missing package " ++ required.packageId)

/-- The visits of `_validate_dependencies`. A name is never in `visiting` and `visited` at once. -/
def visits : Except String (List String) :=
  ((registry.packages.map (·.packageId)).insertionSort (· ≤ ·)).foldlM
    (settle registry.requirements "package dependency cycle detected"
      (registry.packages.length + 1) []) []

/-- A pin is that of the package with its name. -/
def Resolved (pin : PackagePin) : Prop :=
  ∃ package ∈ registry.package? pin.packageId,
    package.manifest.version = pin.version ∧ package.manifestDigest = pin.manifestDigest

instance (pin : PackagePin) : Decidable (registry.Resolved pin) :=
  inferInstanceAs (Decidable (∃ package ∈ registry.package? pin.packageId, _))

/-- The pins of what is required. -/
def checkRequired (required : PackagePin) : Except String Unit :=
  match registry.package? required.packageId with
  | none => .error ("unknown package: " ++ required.packageId)
  | some dependency => do
    if dependency.manifest.version ≠ required.version then
      throw ("dependency version mismatch for " ++ required.packageId)
    if dependency.manifestDigest ≠ required.manifestDigest then
      throw ("dependency digest mismatch for " ++ required.packageId)

/-- A pin of what is replaced or rolled back to. -/
def checkReferenced (package : LoadedPackage) (label : String) (pin : PackagePin) :
    Except String Unit := do
  if ¬registry.Resolved pin ∧ package.manifest.trustState ≠ .quarantined then
    throw ("unresolved " ++ label ++ " pin " ++ pin.packageId ++ " must remain quarantined")

/-- The pins of a package. -/
def checkPins (package : LoadedPackage) : Except String Unit := do
  forM package.manifest.requires registry.checkRequired
  forM package.manifest.replaces (registry.checkReferenced package "replaces")
  forM package.manifest.rollbackTo.toList (registry.checkReferenced package "rollback_to")

/-- `_validate_dependencies`. -/
def validateDependencies : Except String (List LoadedPackage) := do
  registry.checkPresent
  let visited ← registry.visits
  forM registry.packages registry.checkPins
  return visited.reverse.filterMap registry.package?

/-- `_dependency_closure`. -/
def dependencyClosure (packageId : String) : List String :=
  gather (fun id ↦ ((registry.package? id).map fun package ↦
      package.manifest.requires.map (·.packageId)).getD [])
    (registry.packages.length + 1) [packageId] [packageId]

/-- `_bound_component`, of the kind that `select` picks. -/
def boundComponent {α : Type} (agent : AgentManifest) (ownerPackageId componentId expected : String)
    (select : ComponentManifest → Option α) : Except String α :=
  match registry.component? componentId with
  | none =>
    .error ("agent " ++ agent.componentId ++ " references missing component " ++ componentId)
  | some (component, componentOwner) => do
    if componentOwner ∉ registry.dependencyClosure ownerPackageId then
      throw ("agent " ++ agent.componentId ++ " reaches undeclared package component " ++
        componentId)
    match select component with
    | none => throw ("agent " ++ agent.componentId ++ " expected " ++ componentId ++ " to be " ++
        expected)
    | some manifest => return manifest

def skill? : ComponentManifest → Option SkillManifest
  | .skill manifest => some manifest
  | _ => none

def tool? : ComponentManifest → Option ToolManifest
  | .tool manifest => some manifest
  | _ => none

/-- A skill that an agent binds. -/
def checkSkill (packageId : String) (agent : AgentManifest) (skillId : String) :
    Except String Unit := do
  let skill ← registry.boundComponent agent packageId skillId "skill" skill?
  let escalated := skill.requestedCapabilities.dedup.filter (· ∉ agent.requestedCapabilities)
  if escalated ≠ [] then
    throw ("skill " ++ skill.componentId ++ " escalates agent " ++ agent.componentId ++
      " capabilities: " ++ ", ".intercalate (escalated.insertionSort (· ≤ ·)))

/-- A tool that an agent binds. -/
def checkTool (packageId : String) (agent : AgentManifest) (toolId : String) :
    Except String Unit := do
  let tool ← registry.boundComponent agent packageId toolId "tool" tool?
  if tool.capabilityId ∉ agent.requestedCapabilities then
    throw ("tool " ++ tool.componentId ++ " escalates agent " ++ agent.componentId ++
      " capability " ++ tool.capabilityId)

def checkComponent (packageId : String) : ComponentManifest → Except String Unit
  | .agent agent => do
    forM agent.skillIds (registry.checkSkill packageId agent)
    forM agent.toolIds (registry.checkTool packageId agent)
  | _ => .ok ()

/-- `_validate_agent_bindings`. -/
def validateAgentBindings : Except String Unit :=
  forM registry.packages fun package ↦
    forM package.components (registry.checkComponent package.packageId)

end Registry

/-- `CatalogSnapshot`. -/
structure CatalogSnapshot where
  packages : List PackagePin
  fingerprint : String

structure PackageCatalog extends Registry where
  dependencyOrder : List LoadedPackage
  deriving DecidableEq

namespace PackageCatalog

/-- `PackageCatalog(...)`. -/
def new (packages : List LoadedPackage) : Except String PackageCatalog := do
  let registry ← packages.foldlM Registry.add Registry.empty
  let dependencyOrder ← registry.validateDependencies
  registry.validateAgentBindings
  return { toRegistry := registry, dependencyOrder }

/-- `snapshot`. -/
def snapshot [Hash256] (catalog : PackageCatalog) : CatalogSnapshot :=
  let pins := (Rows.orderBy (·.packageId) catalog.packages).map (·.pin)
  ⟨pins, jsonDigest (.arr (pins.map (·.toContract)))⟩

end PackageCatalog

/-! ## What is registered -/

namespace Registry

variable {registry registry' : Registry} {packages packages' : List LoadedPackage}

def componentKey (component : ComponentManifest × String) : String := component.1.componentId

/-- Packages with their components. -/
def ofPackages (packages : List LoadedPackage) : Registry :=
  ⟨packages, packages.flatMap LoadedPackage.owned⟩

/-- No two packages and no two components have the same name. -/
structure Named (registry : Registry) : Prop where
  packages : Rows.Unique LoadedPackage.packageId registry.packages
  components : Rows.Unique componentKey registry.components

variable (registry) in
theorem addComponents_eq_ok {components : List (ComponentManifest × String)}
    (h : Rows.Unique componentKey registry.components) :
    components.foldlM addComponent registry = .ok registry' ↔
      Rows.Unique componentKey (registry.components ++ components) ∧
        registry' = { registry with components := registry.components ++ components } := by
  induction components generalizing registry with
  | nil =>
    rw [List.append_nil]
    exact ⟨fun heq ↦ ⟨h, (Except.ok.inj heq).symm⟩, fun heq ↦ congrArg Except.ok heq.2.symm⟩
  | cons component components ih =>
    rw [List.foldlM_cons, bind_eq_ok]
    simp only [addComponent, guard_eq_ok, pure_eq_ok]
    have happend : registry.components ++ component :: components =
        registry.components ++ [component] ++ components := (List.append_assoc _ [_] _).symm
    rw [happend]
    constructor
    · rintro ⟨next, ⟨hnew, rfl⟩, hrest⟩
      have hnext : Rows.Unique componentKey (registry.components ++ [component]) :=
        h.concat fun old hold heq ↦ hnew (List.mem_map.mpr ⟨old, hold, heq⟩)
      exact (ih _ hnext).mp hrest
    · rintro ⟨hunique, rfl⟩
      have hnext : Rows.Unique componentKey (registry.components ++ [component]) := by
        rw [Rows.Unique, List.map_append] at hunique
        exact hunique.of_append_left
      refine ⟨_, ⟨fun hmem ↦ ?_, rfl⟩, (ih _ hnext).mpr ⟨hunique, rfl⟩⟩
      rw [Rows.Unique, List.map_append, List.map_singleton, List.nodup_append] at hnext
      exact hnext.2.2 _ hmem _ (List.mem_singleton_self _) rfl

theorem addPackages_eq_ok (h : registry.Named) :
    packages.foldlM add registry = .ok registry' ↔
      registry'.Named ∧ registry' = ⟨registry.packages ++ packages,
        registry.components ++ packages.flatMap LoadedPackage.owned⟩ := by
  induction packages generalizing registry with
  | nil =>
    rw [List.append_nil, List.flatMap_nil, List.append_nil]
    constructor
    · intro heq
      obtain rfl := Except.ok.inj heq
      exact ⟨h, rfl⟩
    · exact fun heq ↦ congrArg Except.ok heq.2.symm
  | cons package packages ih =>
    rw [List.foldlM_cons, bind_eq_ok]
    have hpackages : registry.packages ++ package :: packages =
        registry.packages ++ [package] ++ packages := (List.append_assoc _ [_] _).symm
    have hcomponents : registry.components ++ (package :: packages).flatMap LoadedPackage.owned =
        registry.components ++ package.owned ++ packages.flatMap LoadedPackage.owned := by
      rw [List.flatMap_cons, List.append_assoc]
    rw [hpackages, hcomponents]
    simp only [add, guard_eq_ok]
    constructor
    · rintro ⟨next, ⟨hnew, hnext⟩, hrest⟩
      obtain ⟨hunique, rfl⟩ := (addComponents_eq_ok { registry with
        packages := registry.packages ++ [package] } h.components).mp hnext
      refine (ih ⟨?_, hunique⟩).mp hrest
      exact h.packages.concat fun old hold heq ↦ hnew (List.mem_map.mpr ⟨old, hold, heq⟩)
    · rintro ⟨hnamed, rfl⟩
      have hids : Rows.Unique LoadedPackage.packageId (registry.packages ++ [package]) := by
        have hunique := hnamed.packages
        rw [Rows.Unique, List.map_append] at hunique
        exact hunique.of_append_left
      have hnames : Rows.Unique componentKey (registry.components ++ package.owned) := by
        have hunique := hnamed.components
        rw [Rows.Unique, List.map_append] at hunique
        exact hunique.of_append_left
      refine ⟨⟨registry.packages ++ [package], registry.components ++ package.owned⟩, ⟨?_, ?_⟩,
        (ih ⟨hids, hnames⟩).mpr ⟨hnamed, rfl⟩⟩
      · intro hmem
        rw [Rows.Unique, List.map_append, List.map_singleton, List.nodup_append] at hids
        exact hids.2.2 _ hmem _ (List.mem_singleton_self _) rfl
      · exact (addComponents_eq_ok { registry with
          packages := registry.packages ++ [package] } h.components).mpr ⟨hnames, rfl⟩

/-- Packages are registered if and only if their names and those of their components differ. -/
theorem register_eq_ok : packages.foldlM add empty = .ok registry ↔
    registry.Named ∧ registry = ofPackages packages :=
  addPackages_eq_ok ⟨List.nodup_nil, List.nodup_nil⟩

theorem package?_eq_some (h : registry.Named) {packageId : String} {package : LoadedPackage} :
    registry.package? packageId = some package ↔
      package ∈ registry.packages ∧ package.packageId = packageId :=
  h.packages.find?_eq_some_iff

theorem component?_eq_some (h : registry.Named) {componentId : String}
    {component : ComponentManifest × String} :
    registry.component? componentId = some component ↔
      component ∈ registry.components ∧ component.1.componentId = componentId :=
  h.components.find?_eq_some_iff

/-! ## The order of registration -/

theorem Named.perm (h : (ofPackages packages).Named) (hperm : packages.Perm packages') :
    (ofPackages packages').Named :=
  ⟨(hperm.map _).nodup_iff.mp h.packages,
    ((hperm.flatMap_right _).map _).nodup_iff.mp h.components⟩

theorem package?_of_perm (h : (ofPackages packages).Named) (hperm : packages.Perm packages') :
    (ofPackages packages').package? = (ofPackages packages).package? :=
  funext (h.packages.find?_eq_of_perm hperm)

theorem component?_of_perm (h : (ofPackages packages).Named) (hperm : packages.Perm packages') :
    (ofPackages packages').component? = (ofPackages packages).component? :=
  funext (h.components.find?_eq_of_perm (hperm.flatMap_right _))

theorem forM_eq_ok_of_perm {α : Type} {f : α → Except String Unit} {xs ys : List α}
    (h : xs.Perm ys) : forM ys f = .ok () ↔ forM xs f = .ok () := by
  simp only [forM_eq_ok, h.mem_iff]

theorem visits_of_perm (h : (ofPackages packages).Named) (hperm : packages.Perm packages') :
    (ofPackages packages').visits = (ofPackages packages).visits := by
  have hrequirements :
      (ofPackages packages').requirements = (ofPackages packages).requirements := by
    funext packageId
    rw [requirements, requirements, package?_of_perm h hperm]
  have hids : Rows.Unique (fun packageId : String ↦ packageId)
      (packages.map LoadedPackage.packageId) := by
    rw [Rows.Unique, List.map_id']
    exact h.packages
  have hsorted : (packages'.map LoadedPackage.packageId).insertionSort (· ≤ ·) =
      (packages.map LoadedPackage.packageId).insertionSort (· ≤ ·) :=
    hids.orderBy_eq_of_perm (hperm.map _)
  rw [visits, visits, hrequirements]
  simp only [ofPackages, hsorted, hperm.length_eq]

theorem validateDependencies_eq_ok {order : List LoadedPackage} :
    registry.validateDependencies = .ok order ↔ registry.checkPresent = .ok () ∧
      ∃ visited, registry.visits = .ok visited ∧
        forM registry.packages registry.checkPins = .ok () ∧
          order = visited.reverse.filterMap registry.package? := by
  simp only [validateDependencies, bind_eq_ok, pure_eq_ok]
  constructor
  · rintro ⟨_, hpresent, visited, hvisits, _, hpins, rfl⟩
    exact ⟨hpresent, visited, hvisits, hpins, rfl⟩
  · rintro ⟨hpresent, visited, hvisits, hpins, rfl⟩
    exact ⟨_, hpresent, visited, hvisits, _, hpins, rfl⟩

theorem validateDependencies_of_perm (h : (ofPackages packages).Named)
    (hperm : packages.Perm packages') {order : List LoadedPackage} :
    (ofPackages packages').validateDependencies = .ok order ↔
      (ofPackages packages).validateDependencies = .ok order := by
  have hpackage := package?_of_perm h hperm
  have hpins : (ofPackages packages').checkPins = (ofPackages packages).checkPins := by
    have hreferenced : (ofPackages packages').checkReferenced =
        (ofPackages packages).checkReferenced := by
      have hresolved : ∀ pin, (ofPackages packages').Resolved pin ↔
          (ofPackages packages).Resolved pin := by
        intro pin
        rw [Resolved, Resolved, hpackage]
      funext package label pin
      simp only [checkReferenced, hresolved]
    have hrequired :
        (ofPackages packages').checkRequired = (ofPackages packages).checkRequired := by
      funext required
      rw [checkRequired, checkRequired, hpackage]
    funext package
    rw [checkPins, checkPins, hreferenced, hrequired]
  have hpresent : (ofPackages packages').checkPresent = .ok () ↔
      (ofPackages packages).checkPresent = .ok () := by
    simp only [checkPresent, hpackage]
    exact forM_eq_ok_of_perm hperm
  rw [validateDependencies_eq_ok, validateDependencies_eq_ok, hpresent, visits_of_perm h hperm,
    hpins, hpackage]
  simp only [forM_eq_ok, ofPackages, hperm.mem_iff]

theorem validateAgentBindings_of_perm (h : (ofPackages packages).Named)
    (hperm : packages.Perm packages') :
    (ofPackages packages').validateAgentBindings = .ok () ↔
      (ofPackages packages).validateAgentBindings = .ok () := by
  have hclosure : (ofPackages packages').dependencyClosure =
      (ofPackages packages).dependencyClosure := by
    funext packageId
    simp only [dependencyClosure, package?_of_perm h hperm]
    simp only [ofPackages, hperm.length_eq]
  have hcomponent : (ofPackages packages').checkComponent =
      (ofPackages packages).checkComponent := by
    have hbound : ∀ {α : Type} agent owner id expected (select : ComponentManifest → Option α),
        (ofPackages packages').boundComponent agent owner id expected select =
          (ofPackages packages).boundComponent agent owner id expected select := by
      intro α agent owner id expected select
      simp only [boundComponent, component?_of_perm h hperm, hclosure]
    have hskill : (ofPackages packages').checkSkill = (ofPackages packages).checkSkill := by
      funext packageId agent skillId
      simp only [checkSkill, hbound]
    have htool : (ofPackages packages').checkTool = (ofPackages packages).checkTool := by
      funext packageId agent toolId
      simp only [checkTool, hbound]
    funext packageId component
    cases component with
    | agent agent => simp only [checkComponent, hskill, htool]
    | skill => rfl
    | tool => rfl
    | workflow => rfl
  rw [validateAgentBindings, validateAgentBindings, hcomponent]
  exact forM_eq_ok_of_perm hperm

/-! ## What is accepted -/

/-- A package requires another. -/
def Requires (packages : List LoadedPackage) (id id' : String) : Prop :=
  ∃ package ∈ packages, package.packageId = id ∧
    id' ∈ package.manifest.requires.map (·.packageId)

/-- `Needs`, of both dependency functions. -/
theorem needs_iff (h : registry.Named) {id id' : String} :
    id' ∈ ((registry.package? id).map fun package ↦
      package.manifest.requires.map (·.packageId)).getD [] ↔ Requires registry.packages id id' := by
  rcases hpackage : registry.package? id with _ | package
  · refine iff_of_false List.not_mem_nil ?_
    rintro ⟨package, hmem, hid, -⟩
    exact nomatch hpackage.symm.trans ((package?_eq_some h).mpr ⟨hmem, hid⟩)
  · obtain ⟨hmem, hid⟩ := (package?_eq_some h).mp hpackage
    constructor
    · exact fun hrequired ↦ ⟨package, hmem, hid, hrequired⟩
    · rintro ⟨package', hmem', hid', hrequired⟩
      obtain rfl : package' = package := h.packages.eq hmem' hmem (hid'.trans hid.symm)
      exact hrequired

theorem mem_requirements (h : registry.Named) {id id' : String} :
    id' ∈ registry.requirements id ↔ Requires registry.packages id id' := by
  rw [← needs_iff h, requirements]
  rcases registry.package? id with _ | package
  · exact Iff.rfl
  · exact (List.perm_insertionSort _ _).mem_iff

theorem exists_package? (h : registry.Named) {id : String} :
    (∃ package, registry.package? id = some package) ↔
      id ∈ registry.packages.map (·.packageId) := by
  simp only [package?_eq_some h, List.mem_map]

theorem checkPresent_eq_ok (h : registry.Named) (hpresent : registry.checkPresent = .ok ())
    {id id' : String} (hrequires : Requires registry.packages id id') :
    id' ∈ registry.packages.map (·.packageId) := by
  simp only [checkPresent, forM_eq_ok, check_eq_ok] at hpresent
  obtain ⟨package, hmem, -, hid⟩ := hrequires
  obtain ⟨required, hrequired, rfl⟩ := List.mem_map.mp hid
  exact (exists_package? h).mp
    (Option.ne_none_iff_exists'.mp (hpresent package hmem required hrequired))

/-- The names that are visited are those of the packages, each after those it requires. -/
theorem settled_of_visits (h : registry.Named) (hpresent : registry.checkPresent = .ok ())
    {visited : List String} (hvisits : registry.visits = .ok visited) :
    Dependencies.Settled registry.requirements visited ∧
      ∀ id, id ∈ visited ↔ id ∈ registry.packages.map (·.packageId) := by
  obtain ⟨hsettled, hall, hclosed⟩ := settled_of_foldlM hvisits
  have hsorted : ∀ id, id ∈ (registry.packages.map (·.packageId)).insertionSort (· ≤ ·) ↔
      id ∈ registry.packages.map (·.packageId) := fun id ↦ (List.perm_insertionSort _ _).mem_iff
  have honly := hclosed fun id _ id' hid' ↦
    (hsorted id').mpr (checkPresent_eq_ok h hpresent ((mem_requirements h).mp hid'))
  exact ⟨hsettled, fun id ↦ ⟨fun hid ↦ (hsorted id).mp (honly hid), fun hid ↦
    hall ((hsorted id).mpr hid)⟩⟩

theorem map_filterMap_package? (h : registry.Named) {ids : List String}
    (hids : ∀ id ∈ ids, id ∈ registry.packages.map (·.packageId)) :
    (ids.filterMap registry.package?).map (·.packageId) = ids := by
  induction ids with
  | nil => rfl
  | cons id ids ih =>
    obtain ⟨hid, hids⟩ := List.forall_mem_cons.mp hids
    obtain ⟨package, hpackage⟩ := (exists_package? h).mpr hid
    rw [List.filterMap_cons_some hpackage, List.map_cons, ih hids,
      ((package?_eq_some h).mp hpackage).2]

theorem perm_order (h : registry.Named) {ids : List String} (hnodup : ids.Nodup)
    (hids : ∀ id, id ∈ ids ↔ id ∈ registry.packages.map (·.packageId)) :
    (ids.filterMap registry.package?).Perm registry.packages := by
  have hmap := map_filterMap_package? h fun id hid ↦ (hids id).mp hid
  have hnodup' : (ids.filterMap registry.package?).Nodup := by
    refine .of_map LoadedPackage.packageId ?_
    rw [hmap]
    exact hnodup
  refine (List.perm_ext_iff_of_nodup hnodup' (.of_map _ h.packages)).mpr fun package ↦ ?_
  simp only [List.mem_filterMap, package?_eq_some h]
  constructor
  · rintro ⟨-, -, hmem, -⟩
    exact hmem
  · intro hmem
    exact ⟨_, (hids _).mpr (List.mem_map_of_mem hmem), hmem, rfl⟩

/-- The pins of what is required are those of the packages. -/
theorem pin_of_checkPins {package : LoadedPackage} (hpins : registry.checkPins package = .ok ())
    (h : registry.Named) {required : PackagePin} (hmem : required ∈ package.manifest.requires)
    {dependency : LoadedPackage} (hdependency : dependency ∈ registry.packages)
    (hid : dependency.packageId = required.packageId) : dependency.pin = required := by
  simp only [checkPins, bind_eq_ok, forM_eq_ok] at hpins
  obtain ⟨_, hrequired, -⟩ := hpins
  have hcheck := hrequired required hmem
  rw [checkRequired, (package?_eq_some h).mpr ⟨hdependency, hid⟩] at hcheck
  simp only [guard_eq_ok, check_eq_ok, not_not] at hcheck
  rcases required with ⟨id, version, digest⟩
  exact congr (congr (congrArg PackagePin.mk hid) hcheck.1) hcheck.2

theorem mem_dependencyClosure (h : registry.Named) (hpresent : registry.checkPresent = .ok ())
    {id id' : String} (hid : id ∈ registry.packages.map (·.packageId)) :
    id' ∈ registry.dependencyClosure id ↔
      Relation.ReflTransGen (Requires registry.packages) id id' := by
  have hneeds : Needs (fun id ↦ ((registry.package? id).map fun package ↦
      package.manifest.requires.map (·.packageId)).getD []) = Requires registry.packages :=
    funext fun _ ↦ funext fun _ ↦ propext (needs_iff h)
  have hfuel : (registry.packages.map (·.packageId)).length < registry.packages.length + 1 := by
    rw [List.length_map]
    exact Nat.lt_succ_self _
  rw [dependencyClosure, mem_gather_iff (fun a _ b hb ↦
    checkPresent_eq_ok h hpresent ((needs_iff h).mp hb)) hid hfuel, Below, hneeds,
    Relation.reflTransGen_iff_eq_or_transGen]

theorem skill?_eq_some {component : ComponentManifest} {manifest : SkillManifest} :
    skill? component = some manifest ↔ component = .skill manifest := by
  cases component with
  | skill found =>
    exact ⟨fun h ↦ congrArg _ (Option.some.inj h),
      fun h ↦ congrArg _ (ComponentManifest.skill.inj h)⟩
  | agent | tool | workflow => exact iff_of_false nofun nofun

theorem tool?_eq_some {component : ComponentManifest} {manifest : ToolManifest} :
    tool? component = some manifest ↔ component = .tool manifest := by
  cases component with
  | tool found =>
    exact ⟨fun h ↦ congrArg _ (Option.some.inj h),
      fun h ↦ congrArg _ (ComponentManifest.tool.inj h)⟩
  | agent | skill | workflow => exact iff_of_false nofun nofun

/-- The component that an agent binds. -/
theorem boundComponent_eq_ok {α : Type} {agent : AgentManifest}
    {ownerPackageId componentId expected : String} {select : ComponentManifest → Option α}
    {manifest : α} :
    registry.boundComponent agent ownerPackageId componentId expected select = .ok manifest ↔
      ∃ component, registry.component? componentId = some component ∧
        component.2 ∈ registry.dependencyClosure ownerPackageId ∧
          select component.1 = some manifest := by
  rw [boundComponent]
  rcases registry.component? componentId with _ | ⟨component, owner⟩
  · exact iff_of_false nofun fun ⟨_, hnone, _⟩ ↦ nomatch hnone
  · simp only [guard_eq_ok, not_not, Option.some.injEq, exists_eq_left']
    refine and_congr_right fun _ ↦ ?_
    rcases select component with _ | found
    · exact iff_of_false nofun nofun
    · exact ⟨fun h ↦ congrArg some (Except.ok.inj h),
        fun h ↦ congrArg Except.ok (Option.some.inj h)⟩

end Registry

/-! ## Catalogs -/

/-- The package of an agent requires the package of the component, directly or not. -/
def Binds (packages : List LoadedPackage) (package : LoadedPackage)
    (component : ComponentManifest) : Prop :=
  ∃ owner ∈ packages, component ∈ owner.components ∧
    Relation.ReflTransGen (Registry.Requires packages) package.packageId owner.packageId

/-- What a catalog has checked. -/
structure PackageCatalog.Sound (packages : List LoadedPackage) (catalog : PackageCatalog) :
    Prop where
  unique : (packages.map (·.packageId)).Nodup
  complete : catalog.dependencyOrder.Perm packages
  ordered : ∀ before package after, catalog.dependencyOrder = before ++ package :: after →
    ∀ required ∈ package.manifest.requires, ∃ dependency ∈ before, dependency.pin = required
  skills : ∀ package ∈ packages, ∀ agent, .agent agent ∈ package.components →
    ∀ skillId ∈ agent.skillIds, ∃ skill, Binds packages package (.skill skill) ∧
      skill.componentId = skillId ∧ skill.requestedCapabilities ⊆ agent.requestedCapabilities
  tools : ∀ package ∈ packages, ∀ agent, .agent agent ∈ package.components →
    ∀ toolId ∈ agent.toolIds, ∃ tool, Binds packages package (.tool tool) ∧
      tool.componentId = toolId ∧ tool.capabilityId ∈ agent.requestedCapabilities

namespace PackageCatalog

variable {packages packages' : List LoadedPackage} {catalog : PackageCatalog}

theorem new_eq_ok : new packages = .ok catalog ↔
    (Registry.ofPackages packages).Named ∧
      (Registry.ofPackages packages).validateDependencies = .ok catalog.dependencyOrder ∧
      (Registry.ofPackages packages).validateAgentBindings = .ok () ∧
      catalog.toRegistry = Registry.ofPackages packages := by
  simp only [new, bind_eq_ok, pure_eq_ok, Registry.register_eq_ok]
  constructor
  · rintro ⟨_, ⟨hnamed, rfl⟩, order, horder, _, hbindings, rfl⟩
    exact ⟨hnamed, horder, hbindings, rfl⟩
  · rintro ⟨hnamed, horder, hbindings, hregistry⟩
    refine ⟨_, ⟨hnamed, rfl⟩, _, horder, _, hbindings, ?_⟩
    rw [← hregistry]

theorem new_of_perm (hperm : packages.Perm packages') (h : new packages = .ok catalog) :
    new packages' = .ok { catalog with toRegistry := Registry.ofPackages packages' } := by
  obtain ⟨hnamed, horder, hbindings, -⟩ := new_eq_ok.mp h
  exact new_eq_ok.mpr ⟨hnamed.perm hperm,
    (Registry.validateDependencies_of_perm hnamed hperm).mpr horder,
    (Registry.validateAgentBindings_of_perm hnamed hperm).mpr hbindings, rfl⟩

theorem binds_of_boundComponent {α : Type} {registry : Registry} (h : registry.Named)
    (hregistry : registry = Registry.ofPackages packages)
    (hpresent : registry.checkPresent = .ok ()) {package : LoadedPackage}
    (hmem : package ∈ packages)
    {agent : AgentManifest} {componentId expected : String} {select : ComponentManifest → Option α}
    {manifest : α}
    (hbound : registry.boundComponent agent package.packageId componentId expected select =
      .ok manifest) :
    ∃ component, Binds packages package component ∧ component.componentId = componentId ∧
      select component = some manifest := by
  subst hregistry
  obtain ⟨component, hcomponent, hclosure, hselect⟩ := Registry.boundComponent_eq_ok.mp hbound
  obtain ⟨howned, hid⟩ := (Registry.component?_eq_some h).mp hcomponent
  obtain ⟨owner, howner, hcomponent⟩ := List.mem_flatMap.mp howned
  obtain ⟨manifest', hmanifest, rfl⟩ := List.mem_map.mp hcomponent
  refine ⟨manifest', ⟨owner, howner, hmanifest, ?_⟩, hid, hselect⟩
  exact (Registry.mem_dependencyClosure h hpresent (List.mem_map_of_mem hmem)).mp hclosure

theorem sound_of_new (h : new packages = .ok catalog) : Sound packages catalog := by
  obtain ⟨hnamed, horder, hbindings, -⟩ := new_eq_ok.mp h
  obtain ⟨hpresent, visited, hvisits, hpins, horder⟩ :=
    Registry.validateDependencies_eq_ok.mp horder
  obtain ⟨hsettled, hvisited⟩ := Registry.settled_of_visits hnamed hpresent hvisits
  have hreverse : ∀ id, id ∈ visited.reverse ↔ id ∈ packages.map (·.packageId) := fun id ↦
    List.mem_reverse.trans (hvisited id)
  have hcomplete : catalog.dependencyOrder.Perm packages := by
    rw [horder]
    exact Registry.perm_order hnamed (List.nodup_reverse.mpr hsettled.nodup) hreverse
  have hbinding : ∀ package ∈ packages, ∀ agent, .agent agent ∈ package.components →
      (∀ skillId ∈ agent.skillIds, (Registry.ofPackages packages).checkSkill package.packageId agent
        skillId = .ok ()) ∧
      ∀ toolId ∈ agent.toolIds, (Registry.ofPackages packages).checkTool package.packageId agent
        toolId = .ok () := by
    intro package hpackage agent hagent
    have hchecked := forM_eq_ok.mp (forM_eq_ok.mp hbindings package hpackage) _ hagent
    simp only [Registry.checkComponent, bind_eq_ok, forM_eq_ok] at hchecked
    obtain ⟨_, hskills, htools⟩ := hchecked
    exact ⟨hskills, htools⟩
  refine ⟨hnamed.packages, hcomplete, ?_, ?_, ?_⟩
  · intro before package after hsplit required hrequired
    have hids : visited.reverse = before.map (·.packageId) ++
        package.packageId :: after.map (·.packageId) := by
      rw [← Registry.map_filterMap_package? hnamed fun id hid ↦ (hreverse id).mp hid, ← horder,
        hsplit, List.map_append, List.map_cons]
    have hmem : ∀ dependency ∈ before ++ package :: after, dependency ∈ packages := fun _ hmem ↦
      hcomplete.mem_iff.mp (hsplit ▸ hmem)
    have hpackage := hmem package (List.mem_append_right _ List.mem_cons_self)
    -- the names are finished in the reverse order, so what is needed comes before
    have hvisited' : visited = (after.map (·.packageId)).reverse ++
        package.packageId :: (before.map (·.packageId)).reverse := by
      rw [← List.reverse_reverse visited, hids, List.reverse_append, List.reverse_cons,
        List.append_assoc, List.singleton_append]
    have hneeds : required.packageId ∈
        (Registry.ofPackages packages).requirements package.packageId :=
      (Registry.mem_requirements hnamed).mpr
        ⟨package, hpackage, rfl, List.mem_map_of_mem hrequired⟩
    rw [hvisited'] at hsettled
    obtain ⟨dependency, hdependency, hid⟩ :=
      List.mem_map.mp (List.mem_reverse.mp (hsettled.subset_of_append hneeds))
    exact ⟨dependency, hdependency, Registry.pin_of_checkPins
      (forM_eq_ok.mp hpins package hpackage) hnamed hrequired
      (hmem dependency (List.mem_append_left _ hdependency)) hid⟩
  · intro package hpackage agent hagent skillId hskill
    have hcheck := (hbinding package hpackage agent hagent).1 skillId hskill
    simp only [Registry.checkSkill, bind_eq_ok, check_eq_ok, not_not] at hcheck
    obtain ⟨skill, hbound, hescalated⟩ := hcheck
    obtain ⟨component, hbinds, hid, hselect⟩ :=
      binds_of_boundComponent hnamed rfl hpresent hpackage hbound
    obtain rfl := Registry.skill?_eq_some.mp hselect
    refine ⟨skill, hbinds, hid, fun capability hcapability ↦ ?_⟩
    simpa using List.filter_eq_nil_iff.mp hescalated capability (List.mem_dedup.mpr hcapability)
  · intro package hpackage agent hagent toolId htool
    have hcheck := (hbinding package hpackage agent hagent).2 toolId htool
    simp only [Registry.checkTool, bind_eq_ok, check_eq_ok, not_not] at hcheck
    obtain ⟨tool, hbound, hcapability⟩ := hcheck
    obtain ⟨component, hbinds, hid, hselect⟩ :=
      binds_of_boundComponent hnamed rfl hpresent hpackage hbound
    obtain rfl := Registry.tool?_eq_some.mp hselect
    exact ⟨tool, hbinds, hid, hcapability⟩

theorem snapshot_of_perm [Hash256] {catalog' : PackageCatalog}
    (h : Rows.Unique LoadedPackage.packageId catalog.packages)
    (hperm : catalog.packages.Perm catalog'.packages) : catalog'.snapshot = catalog.snapshot := by
  have hsorted : Rows.orderBy (·.packageId) catalog'.packages =
      Rows.orderBy (·.packageId) catalog.packages := h.orderBy_eq_of_perm hperm
  rw [snapshot, snapshot, hsorted]

/-- **A catalog that is accepted is ordered and bound as it says, and neither it nor its snapshot
depends on the order in which the packages are given.** -/
theorem catalog_sound [Hash256] (h : new packages = .ok catalog) :
    Sound packages catalog ∧ ∀ packages', packages.Perm packages' →
      ∃ catalog', new packages' = .ok catalog' ∧
        catalog'.dependencyOrder = catalog.dependencyOrder ∧
          catalog'.snapshot = catalog.snapshot := by
  refine ⟨sound_of_new h, fun packages' hperm ↦ ⟨_, new_of_perm hperm h, rfl, ?_⟩⟩
  obtain ⟨hnamed, -, -, hregistry⟩ := new_eq_ok.mp h
  have hpackages : catalog.packages = packages := congrArg Registry.packages hregistry
  refine snapshot_of_perm ?_ ?_
  · rw [hpackages]
    exact hnamed.packages
  · rw [hpackages]
    exact hperm

/-- A package with a skill. -/
def samplePackage : LoadedPackage where
  manifest := ⟨"package.notes", "1.0.0", .trusted, [], [], none⟩
  manifestDigest := "sha256:notes"
  components := [.skill ⟨"skill.notes", ["notes.read"]⟩]

/-- A package with an agent that binds the skill of the other. -/
def sampleAgentPackage : LoadedPackage where
  manifest := ⟨"package.agent", "1.0.0", .trusted, [samplePackage.pin], [], none⟩
  manifestDigest := "sha256:agent"
  components := [.agent ⟨"agent.writer", ["notes.read", "notes.write"], ["skill.notes"], []⟩]

def sampleCatalog : PackageCatalog where
  toRegistry := Registry.ofPackages [sampleAgentPackage, samplePackage]
  dependencyOrder := [samplePackage, sampleAgentPackage]

theorem sampleCatalog_sound : Sound [sampleAgentPackage, samplePackage] sampleCatalog :=
  (catalog_sound (by decide)).1

end PackageCatalog

end HiveMind.Reference
