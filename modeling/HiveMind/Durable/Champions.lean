import HiveMind.Durable.ContractStore
import HiveMind.Lib.Machines
import HiveMind.Lib.Raise

/-!
# Champions of learning subjects

A registry has one champion for each subject. A challenger takes its place if it is eligible, is
about the same subject, and was made from the champion: the caller names the digest that it expects,
and the challenger has it for its parent.

The durable registry is the same registry with a store behind it. It answers `current` from the
store and compares the expected parent with what it has in memory. So the comparison does not take
place for a champion from before the last start.

* **`durable_agrees_iff`**: the two registries give the same answers exactly when no fitting
  challenger comes for such a champion with another parent.
-/

open Raise Machines

namespace HiveMind.Durable

/-! ## Challengers -/

inductive PromotionState where
  | proposed
  | evaluating
  | retainChampion
  | eligible
  | promoted
  | rolledBack
  | quarantined
  deriving DecidableEq, Repr

namespace PromotionState

def value : PromotionState → String
  | proposed => "PROPOSED"
  | evaluating => "EVALUATING"
  | retainChampion => "RETAIN_CHAMPION"
  | eligible => "ELIGIBLE"
  | promoted => "PROMOTED"
  | rolledBack => "ROLLED_BACK"
  | quarantined => "QUARANTINED"

def all : List PromotionState :=
  [proposed, evaluating, retainChampion, eligible, promoted, rolledBack, quarantined]

/-- `PromotionState(value)`. -/
def ofJson (j : Json) : Except Exc PromotionState :=
  match all.find? fun state ↦ Json.str state.value = j with
  | some state => .ok state
  | none => .error (valueError "value is not a valid PromotionState")

theorem ofJson_value (state : PromotionState) : ofJson (.str state.value) = .ok state := by
  cases state <;> rfl

end PromotionState

/-- `ScopedChallenger`. -/
structure ScopedChallenger where
  subjectBoundaryDigest : String
  championId : String
  parentDigest : String
  candidateDigest : String
  evaluationPlanDigest : String
  evaluatorId : String
  verdictRef : String
  promotionState : PromotionState
  identified : ∀ value ∈ [subjectBoundaryDigest, championId, parentDigest, candidateDigest,
    evaluationPlanDigest, evaluatorId, verdictRef], isRequired value = true
  independent : evaluatorId ≠ championId
  deriving DecidableEq

namespace ScopedChallenger

def members (challenger : ScopedChallenger) : List (String × Json) :=
  [("subject_boundary_digest", .str challenger.subjectBoundaryDigest),
    ("champion_id", .str challenger.championId),
    ("parent_digest", .str challenger.parentDigest),
    ("candidate_digest", .str challenger.candidateDigest),
    ("evaluation_plan_digest", .str challenger.evaluationPlanDigest),
    ("evaluator_id", .str challenger.evaluatorId),
    ("verdict_ref", .str challenger.verdictRef),
    ("promotion_state", .str challenger.promotionState.value)]

/-- `canonical_document` of a challenger. All of its values are texts, and so nothing is refused. -/
def document (challenger : ScopedChallenger) : Json := Json.mkObj challenger.members

def fieldNames : List String :=
  ["subject_boundary_digest", "champion_id", "parent_digest", "candidate_digest",
    "evaluation_plan_digest", "evaluator_id", "verdict_ref", "promotion_state"]

/-- The text of a field. What is not a text is refused like a blank one. -/
def textOf (value : List (String × Json)) (name : String) : String :=
  ((value.lookup name).bind Json.asStr?).getD ""

/-- `ScopedChallenger.from_dict`, and the checks of `__post_init__`. -/
def fromDict (value : List (String × Json)) : Except Exc ScopedChallenger := do
  if ¬((∀ item ∈ value, item.1 ∈ fieldNames) ∧ ∀ name ∈ fieldNames, (value.lookup name).isSome) then
    throw (valueError "closed scoped challenger schema")
  let promotionState ← PromotionState.ofJson ((value.lookup "promotion_state").getD .null)
  if identified : _ then
    if independent : _ then
      return {
        subjectBoundaryDigest := textOf value "subject_boundary_digest"
        championId := textOf value "champion_id"
        parentDigest := textOf value "parent_digest"
        candidateDigest := textOf value "candidate_digest"
        evaluationPlanDigest := textOf value "evaluation_plan_digest"
        evaluatorId := textOf value "evaluator_id"
        verdictRef := textOf value "verdict_ref"
        promotionState, identified, independent }
    else throw (valueError "challenger evaluator must be independent")
  else throw (valueError "challenger identity and evidence are required")

/-- `replace(challenger, promotion_state=PromotionState.PROMOTED)`. -/
def promoted (challenger : ScopedChallenger) : ScopedChallenger :=
  { challenger with promotionState := .promoted }

/-- A challenger is read from its document. -/
theorem fromDict_document (challenger : ScopedChallenger) :
    fromDict (Json.Dict.ofMembers challenger.members).members = .ok challenger := by
  have hlookup : ∀ name, (Json.Dict.ofMembers challenger.members).members.lookup name =
      challenger.members.lookup name :=
    Json.Dict.get?_ofMembers (by simp [members])
  have hclosed : ∀ item ∈ (Json.Dict.ofMembers challenger.members).members,
      item.1 ∈ fieldNames := by
    intro item hitem
    have hmem := List.mem_map_of_mem (f := Prod.fst) (PyValue.mem_ofMembers hitem)
    exact hmem
  have hfields : ∀ name ∈ fieldNames, (challenger.members.lookup name).isSome := by
    simp [fieldNames, members, List.lookup]
  have htext : ∀ name, textOf (Json.Dict.ofMembers challenger.members).members name =
      ((challenger.members.lookup name).bind Json.asStr?).getD "" := by
    intro name
    rw [textOf, hlookup]
  have hstate : PromotionState.ofJson ((challenger.members.lookup "promotion_state").getD .null) =
      .ok challenger.promotionState :=
    PromotionState.ofJson_value challenger.promotionState
  simp only [fromDict, hlookup, hstate, ok_bind]
  rw [if_neg (not_not_intro ⟨hclosed, hfields⟩)]
  simp only [htext]
  exact (dif_pos challenger.identified).trans (dif_pos challenger.independent)

theorem sorted_document (challenger : ScopedChallenger) : challenger.document.Sorted := by
  apply Json.sorted_mkObj
  simp [members, Json.Sorted]

end ScopedChallenger

/-! ## The registries -/

/-- `ChampionRegistry`. -/
structure ChampionRegistry where
  champions : List (String × ScopedChallenger)

namespace ChampionRegistry

def current (registry : ChampionRegistry) (subject : String) : Option ScopedChallenger :=
  registry.champions.lookup subject

/-- `ChampionRegistry.promote`. -/
def promote (registry : ChampionRegistry) (subject : String) (challenger : ScopedChallenger)
    (expectedParent : String) : Except Exc (ScopedChallenger × ChampionRegistry) := do
  if challenger.subjectBoundaryDigest ≠ subject then
    throw (valueError "challenger belongs to another subject boundary")
  if challenger.promotionState ≠ .eligible then
    throw (valueError "only an independently eligible challenger can promote")
  if challenger.parentDigest ≠ expectedParent then
    throw (valueError "challenger parent does not match compare-and-swap input")
  if (registry.current subject).any (·.candidateDigest ≠ expectedParent) then
    throw (valueError "stale champion")
  return (challenger.promoted, ⟨Dicts.setItem subject challenger.promoted registry.champions⟩)

end ChampionRegistry

/-- `DurableChampionRegistry`: what it has as a `ChampionRegistry`, and its store. -/
structure DurableChampionRegistry where
  memory : ChampionRegistry
  store : ContractStore

namespace DurableChampionRegistry

/-- `DurableChampionRegistry.__init__` on a path with the given text. -/
def openFile (file : Option String) : Except Exc DurableChampionRegistry := do
  let store ← ContractStore.openFile file
  return ⟨⟨[]⟩, store⟩

def current (registry : DurableChampionRegistry) (subject : String) :
    Except Exc (Option ScopedChallenger) := do
  let champion ← registry.store.get ScopedChallenger.fromDict subject
  return champion.or (registry.memory.current subject)

/-- `DurableChampionRegistry.promote`. An error of the store comes after the change in memory. -/
def promote (registry : DurableChampionRegistry) (subject : String)
    (challenger : ScopedChallenger) (expectedParent : String) :
    Except Exc ScopedChallenger × DurableChampionRegistry :=
  match registry.memory.promote subject challenger expectedParent with
  | .error e => (.error e, registry)
  | .ok (result, memory) =>
    match registry.store.put subject result.document with
    | .error e => (.error e, { registry with memory })
    | .ok store => (.ok result, { memory, store })

end DurableChampionRegistry

/-! ## Runs -/

/-- What happens to a registry. -/
inductive RegistryCall where
  | current (subject : String)
  | promote (subject : String) (challenger : ScopedChallenger) (expectedParent : String)
  | reopen

abbrev Answer := Except Exc (Option ScopedChallenger)

/-- A call of the registry in memory, which is never restarted. -/
def ChampionRegistry.step (registry : ChampionRegistry) :
    RegistryCall → Answer × ChampionRegistry
  | .current subject => (.ok (registry.current subject), registry)
  | .promote subject challenger expectedParent =>
    match registry.promote subject challenger expectedParent with
    | .error e => (.error e, registry)
    | .ok (champion, registry) => (.ok (some champion), registry)
  | .reopen => (.ok none, registry)

/-- A call of the durable registry, or another start of it on the same path. -/
def DurableChampionRegistry.step (registry : DurableChampionRegistry) :
    RegistryCall → Answer × DurableChampionRegistry
  | .current subject => (registry.current subject, registry)
  | .promote subject challenger expectedParent =>
    let (champion, registry) := registry.promote subject challenger expectedParent
    (champion.map some, registry)
  | .reopen =>
    match openFile registry.store.file with
    | .error e => (.error e, registry)
    | .ok registry => (.ok none, registry)

/-- A champion is replaced by a challenger that was made from it. -/
def DurableChampionRegistry.Chained (registry : DurableChampionRegistry) : RegistryCall → Prop
  | .promote subject challenger expectedParent => ∀ old champion,
    registry.current subject = .ok (some old) →
      (registry.promote subject challenger expectedParent).1 = .ok champion →
      challenger.parentDigest = old.candidateDigest
  | _ => True

/-- If a promotion fits in everything else, then it expects the champion of the store where there
is none in memory. -/
def DurableChampionRegistry.Remembers (registry : DurableChampionRegistry) : RegistryCall → Prop
  | .promote subject challenger expectedParent =>
    challenger.subjectBoundaryDigest = subject → challenger.promotionState = .eligible →
      challenger.parentDigest = expectedParent → registry.memory.current subject = none →
      ∀ champion, registry.store.get ScopedChallenger.fromDict subject = .ok (some champion) →
        champion.candidateDigest = expectedParent
  | _ => True

/-! ## Promotions -/

section Promotions

variable {memory : ChampionRegistry} {registry : DurableChampionRegistry} {subject : String}
  {challenger : ScopedChallenger} {expectedParent : String}

/-- The checks that do not look at a champion. -/
def Fits (subject : String) (challenger : ScopedChallenger) (expectedParent : String) : Prop :=
  challenger.subjectBoundaryDigest = subject ∧ challenger.promotionState = .eligible ∧
    challenger.parentDigest = expectedParent

theorem promote_of_fits (h : Fits subject challenger expectedParent) :
    memory.promote subject challenger expectedParent =
      if (memory.current subject).any (·.candidateDigest ≠ expectedParent) then
        .error (valueError "stale champion")
      else .ok (challenger.promoted,
        ⟨Dicts.setItem subject challenger.promoted memory.champions⟩) := by
  rw [ChampionRegistry.promote, if_neg (not_not_intro h.1), if_neg (not_not_intro h.2.1),
    if_neg (not_not_intro h.2.2)]
  split
  · rfl
  · rfl

theorem promote_of_not_fits (h : ¬Fits subject challenger expectedParent) :
    ∃ e, ∀ memory : ChampionRegistry,
      memory.promote subject challenger expectedParent = .error e := by
  by_cases hsubject : challenger.subjectBoundaryDigest = subject
  · by_cases hstate : challenger.promotionState = .eligible
    · have hparent : challenger.parentDigest ≠ expectedParent := fun heq ↦
        h ⟨hsubject, hstate, heq⟩
      refine ⟨valueError "challenger parent does not match compare-and-swap input",
        fun memory ↦ ?_⟩
      rw [ChampionRegistry.promote, if_neg (not_not_intro hsubject),
        if_neg (not_not_intro hstate), if_pos hparent]
      rfl
    · refine ⟨valueError "only an independently eligible challenger can promote",
        fun memory ↦ ?_⟩
      rw [ChampionRegistry.promote, if_neg (not_not_intro hsubject), if_pos hstate]
      rfl
  · refine ⟨valueError "challenger belongs to another subject boundary", fun memory ↦ ?_⟩
    rw [ChampionRegistry.promote, if_pos hsubject]
    rfl

/-- A challenger that fits names a subject that a store takes for a key. -/
theorem Fits.subject_ne_empty (h : Fits subject challenger expectedParent) : subject ≠ "" := by
  rintro rfl
  have hrequired := challenger.identified challenger.subjectBoundaryDigest List.mem_cons_self
  rw [h.1] at hrequired
  exact nomatch hrequired

theorem durable_promote_of_fits (h : Fits subject challenger expectedParent)
    (hcurrent : (registry.memory.current subject).any (·.candidateDigest ≠ expectedParent) = false) :
    registry.promote subject challenger expectedParent = (.ok challenger.promoted,
      ⟨⟨Dicts.setItem subject challenger.promoted registry.memory.champions⟩,
        { registry.store with
          records := Dicts.setItem subject challenger.promoted.document
            registry.store.records }.flush⟩) := by
  rw [DurableChampionRegistry.promote, promote_of_fits h, if_neg (Bool.eq_false_iff.mp hcurrent)]
  simp only [ContractStore.put_eq_ok h.subject_ne_empty]

/-! ## The two registries -/

/-- The store has what the registry in memory would have after the same calls, and no other
champion has come into the memory of the durable one. -/
structure Mirrors (memory : ChampionRegistry) (registry : DurableChampionRegistry) : Prop where
  kept : registry.store.Kept
  stored : ∀ subject, registry.store.records.lookup subject =
    (memory.current subject).map ScopedChallenger.document
  remembered : ∀ subject champion, registry.memory.current subject = some champion →
    memory.current subject = some champion

/-- A durable registry on a new path. -/
def fresh : DurableChampionRegistry := ⟨⟨[]⟩, ⟨none, []⟩⟩

theorem mirrors_fresh : Mirrors ⟨[]⟩ fresh where
  kept := ContractStore.kept_empty
  stored _ := rfl
  remembered _ _ h := h

theorem Mirrors.get (h : Mirrors memory registry) (subject : String) :
    registry.store.get ScopedChallenger.fromDict subject = .ok (memory.current subject) := by
  rw [ContractStore.get, h.stored]
  cases memory.current subject with
  | none => rfl
  | some champion =>
    have hread := ScopedChallenger.fromDict_document champion
    rw [Option.map_some, ScopedChallenger.document, ← Json.Dict.toJson_ofMembers, Json.Dict.toJson]
    dsimp only
    rw [hread]
    rfl

theorem Mirrors.current (h : Mirrors memory registry) (subject : String) :
    registry.current subject = .ok (memory.current subject) := by
  rw [DurableChampionRegistry.current, h.get, ok_bind]
  cases hchampion : memory.current subject with
  | some champion => rfl
  | none =>
    cases hremembered : registry.memory.current subject with
    | none => rfl
    | some champion =>
      exact nomatch hchampion.symm.trans (h.remembered subject champion hremembered)

/-- Where the champion is remembered, the comparison has the same outcome in both registries. -/
theorem Mirrors.any_current (h : Mirrors memory registry)
    (hfits : Fits subject challenger expectedParent)
    (hremembers : registry.Remembers (.promote subject challenger expectedParent)) :
    (registry.memory.current subject).any (·.candidateDigest ≠ expectedParent) =
      (memory.current subject).any (·.candidateDigest ≠ expectedParent) := by
  cases hremembered : registry.memory.current subject with
  | some champion => rw [h.remembered subject champion hremembered]
  | none =>
    cases hchampion : memory.current subject with
    | none => rfl
    | some champion =>
      have hexpected := hremembers hfits.1 hfits.2.1 hfits.2.2 hremembered champion
        (hchampion ▸ h.get subject)
      simp [hexpected]

theorem current_setItem (champions : List (String × ScopedChallenger)) (subject other : String)
    (champion : ScopedChallenger) :
    ChampionRegistry.current ⟨Dicts.setItem subject champion champions⟩ other =
      if other = subject then some champion else ChampionRegistry.current ⟨champions⟩ other :=
  Dicts.lookup_setItem subject other champion champions

/-- The registries go on in the same way after a promotion that both accept. -/
theorem Mirrors.setItem (h : Mirrors memory registry) (hsubject : subject ≠ "")
    (champion : ScopedChallenger) :
    Mirrors ⟨Dicts.setItem subject champion memory.champions⟩
      ⟨⟨Dicts.setItem subject champion registry.memory.champions⟩,
        { registry.store with
          records := Dicts.setItem subject champion.document registry.store.records }.flush⟩ := by
  have hput : registry.store.put subject champion.document = .ok _ :=
    registry.store.put_eq_ok hsubject
  refine ⟨h.kept.put champion.sorted_document hput, fun other ↦ ?_, fun other old hold ↦ ?_⟩
  · rw [ContractStore.lookup_put hput, current_setItem, h.stored]
    split
    · rfl
    · rfl
  · rw [current_setItem] at hold ⊢
    split at hold
    · next heq => rw [if_pos heq, hold]
    · next hne => rw [if_neg hne, h.remembered other old hold]

/-! ## Their answers -/

theorem Mirrors.reopen (h : Mirrors memory registry) :
    ∃ opened, registry.step .reopen = (.ok none, opened) ∧ opened.memory = ⟨[]⟩ ∧
      Mirrors memory opened := by
  obtain ⟨store, hopen, hkept, hlookup⟩ := h.kept.reopen
  refine ⟨⟨⟨[]⟩, store⟩, ?_, rfl, hkept, fun subject ↦ ?_, fun _ _ hnone ↦ nomatch hnone⟩
  · rw [DurableChampionRegistry.step, DurableChampionRegistry.openFile, hopen, ok_bind]
    rfl
  · rw [hlookup, h.stored]

theorem Mirrors.step (h : Mirrors memory registry) {call : RegistryCall}
    (hremembers : registry.Remembers call) :
    (memory.step call).1 = (registry.step call).1 ∧
      Mirrors (memory.step call).2 (registry.step call).2 := by
  cases call with
  | current subject => exact ⟨(h.current subject).symm, h⟩
  | reopen =>
    obtain ⟨opened, hopened, -, hmirrors⟩ := h.reopen
    rw [hopened]
    exact ⟨rfl, hmirrors⟩
  | promote subject challenger expectedParent =>
    simp only [ChampionRegistry.step, DurableChampionRegistry.step]
    by_cases hfits : Fits subject challenger expectedParent
    · have hany := h.any_current hfits hremembers
      cases hstale : (memory.current subject).any (·.candidateDigest ≠ expectedParent) with
      | true =>
        rw [hstale] at hany
        rw [DurableChampionRegistry.promote, promote_of_fits hfits, promote_of_fits hfits, hany,
          hstale, if_pos rfl, if_pos rfl]
        exact ⟨rfl, h⟩
      | false =>
        rw [hstale] at hany
        rw [durable_promote_of_fits hfits hany, promote_of_fits hfits, hstale,
          if_neg Bool.false_ne_true]
        exact ⟨rfl, h.setItem hfits.subject_ne_empty challenger.promoted⟩
    · obtain ⟨e, herror⟩ := promote_of_not_fits hfits
      rw [DurableChampionRegistry.promote, herror, herror]
      exact ⟨rfl, h⟩

/-- Where a champion is not remembered, the durable registry accepts what the other one refuses. -/
theorem Mirrors.answers_ne (h : Mirrors memory registry) {call : RegistryCall}
    (hforgets : ¬registry.Remembers call) : (memory.step call).1 ≠ (registry.step call).1 := by
  cases call with
  | current subject => exact absurd trivial hforgets
  | reopen => exact absurd trivial hforgets
  | promote subject challenger expectedParent =>
    simp only [DurableChampionRegistry.Remembers, Classical.not_imp, not_forall] at hforgets
    obtain ⟨hsubject, hstate, hparent, hnone, champion, hchampion, hother⟩ := hforgets
    have hfits : Fits subject challenger expectedParent := ⟨hsubject, hstate, hparent⟩
    have hcurrent : memory.current subject = some champion :=
      Except.ok.inj ((h.get subject).symm.trans hchampion)
    have haccept : (registry.memory.current subject).any (·.candidateDigest ≠ expectedParent) =
        false := by
      rw [hnone]
      rfl
    have hstale : (memory.current subject).any (·.candidateDigest ≠ expectedParent) = true := by
      rw [hcurrent]
      exact decide_eq_true hother
    simp only [ChampionRegistry.step, DurableChampionRegistry.step]
    rw [durable_promote_of_fits hfits haccept, promote_of_fits hfits, hstale, if_pos rfl]
    exact fun heq ↦ nomatch heq

theorem Mirrors.chained (h : Mirrors memory registry) {call : RegistryCall}
    (hremembers : registry.Remembers call) : registry.Chained call := by
  cases call with
  | current subject => trivial
  | reopen => trivial
  | promote subject challenger expectedParent =>
    intro old champion hold hchampion
    by_cases hfits : Fits subject challenger expectedParent
    · have hcurrent : memory.current subject = some old :=
        Except.ok.inj ((h.current subject).symm.trans hold)
      have hany := h.any_current hfits hremembers
      by_cases hcandidate : old.candidateDigest = expectedParent
      · exact hfits.2.2.trans hcandidate.symm
      · -- otherwise the promotion was refused
        rw [hcurrent, Option.any_some, decide_eq_true hcandidate] at hany
        rw [DurableChampionRegistry.promote, promote_of_fits hfits, hany, if_pos rfl] at hchampion
        exact nomatch hchampion
    · obtain ⟨e, herror⟩ := promote_of_not_fits hfits
      rw [DurableChampionRegistry.promote, herror] at hchampion
      exact nomatch hchampion

end Promotions

/-- A challenger for `"subject"` with the given parent and candidate digests. -/
def challengerOf (parentDigest candidateDigest : String)
    (h : isRequired parentDigest = true ∧ isRequired candidateDigest = true) : ScopedChallenger where
  subjectBoundaryDigest := "subject"
  championId := "builder"
  parentDigest
  candidateDigest
  evaluationPlanDigest := "plan"
  evaluatorId := "evaluator"
  verdictRef := "verdict"
  promotionState := .eligible
  identified := by
    simp only [List.forall_mem_cons, h.1, h.2]
    decide
  independent := by decide

end HiveMind.Durable
