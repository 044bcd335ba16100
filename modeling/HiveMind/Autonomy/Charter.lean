import HiveMind.Kernel.Contracts
import HiveMind.Lib.Rows
import HiveMind.Lib.TextFiles

/-!
# The charter of a mission

A charter has a goal, the repositories that may be used and the capabilities that may not. Its
fingerprint is the hash of the lines of its canonical text: the goal, the repositories in order, and
the capabilities in order. Nothing tells where the goal ends and where the repositories end.

* **`fingerprint_pins_iff`**: the fingerprint pins a charter if and only if the charter has no
  repositories and no capabilities, and its goal has no newline after its first mark.
-/

namespace HiveMind.Autonomy

/-- `MissionCharter`. -/
structure MissionCharter where
  goal : String
  allowedRepositories : List String
  forbiddenCapabilities : List String
  id : String
  goal_required : isRequired goal = true

namespace MissionCharter

variable (charter : MissionCharter)

def canonical : String :=
  "\n".intercalate (charter.goal :: (charter.allowedRepositories.insertionSort (· ≤ ·) ++
    charter.forbiddenCapabilities.insertionSort (· ≤ ·)))

/-- The bytes that are hashed. -/
def hashed : List UInt8 := encodeText charter.canonical

/-- `fingerprint`. -/
def fingerprint [Hash256] : String := Hash256.hexdigest charter.canonical.toList

end MissionCharter

/-- What an evaluation reads of an `EpisodeOutcome` for its reasons. -/
structure EpisodeOutcome where
  evidenceCount : ℤ
  policyViolations : List String
  attemptedCapabilities : List String
  charterFingerprint : String

/-- `FitnessEvaluator`. -/
structure FitnessEvaluator where
  minimumEvidence : ℤ

/-- The reasons that `evaluate` gives. An outcome is eligible if there are none. -/
def FitnessEvaluator.evaluate [Hash256] (evaluator : FitnessEvaluator) (outcome : EpisodeOutcome)
    (charter : MissionCharter) : List String :=
  let forbidden := (outcome.attemptedCapabilities.dedup.filter
    (· ∈ charter.forbiddenCapabilities)).insertionSort (· ≤ ·)
  (if outcome.policyViolations ≠ [] then ["policy violation"] else []) ++
  (if forbidden ≠ [] then
    ["forbidden capability attempted: " ++ ", ".intercalate forbidden] else []) ++
  (if outcome.charterFingerprint ≠ charter.fingerprint then ["mission charter changed"] else []) ++
  (if outcome.evidenceCount < evaluator.minimumEvidence then ["insufficient evidence"] else [])

theorem charterChanged_mem_evaluate [Hash256] {evaluator : FitnessEvaluator}
    {outcome : EpisodeOutcome} {charter : MissionCharter} :
    "mission charter changed" ∈ evaluator.evaluate outcome charter ↔
      outcome.charterFingerprint ≠ charter.fingerprint := by
  -- The other reasons begin with other letters.
  have hhead : ∀ reason : String, reason.toList.head? ≠ some 'm' →
      "mission charter changed" ≠ reason := by
    rintro reason hreason rfl
    exact hreason rfl
  have hpolicy := hhead "policy violation" (by decide)
  have hevidence := hhead "insufficient evidence" (by decide)
  have hforbidden : ∀ names : String,
      "mission charter changed" ≠ "forbidden capability attempted: " ++ names := by
    intro names
    refine hhead _ ?_
    rw [String.toList_append]
    exact fun h ↦ nomatch Option.some.inj h
  simp only [FitnessEvaluator.evaluate, List.mem_append, List.mem_ite_nil_right, List.mem_singleton,
    hpolicy, hforbidden, hevidence, and_false, false_or, or_false, and_true]

/-! ## Lines -/

namespace MissionCharter

variable {charter charter' : MissionCharter}

theorem hashed_inj : charter.hashed = charter'.hashed ↔ charter.canonical = charter'.canonical := by
  constructor
  · intro h
    have hdecode := decodeText_eq_some.mpr h
    rw [hashed, decodeText_eq_some.mpr rfl] at hdecode
    exact (Option.some.inj hdecode)
  · intro h
    rw [hashed, hashed, h]

/-- A charter with nothing but a goal. -/
theorem canonical_of_empty (hallowed : charter.allowedRepositories = [])
    (hforbidden : charter.forbiddenCapabilities = []) : charter.canonical = charter.goal := by
  rw [canonical, hallowed, hforbidden]
  rfl

/-- A charter with more than a goal has a line after it. -/
theorem exists_line (h : charter.allowedRepositories ≠ [] ∨ charter.forbiddenCapabilities ≠ []) :
    ∃ rest, charter.canonical.toList = charter.goal.toList ++ '\n' :: rest := by
  have hlines : charter.allowedRepositories.insertionSort (· ≤ ·) ++
      charter.forbiddenCapabilities.insertionSort (· ≤ ·) ≠ [] := by
    rw [ne_eq, List.append_eq_nil_iff, ← List.length_eq_zero_iff, ← List.length_eq_zero_iff,
      List.length_insertionSort, List.length_insertionSort, List.length_eq_zero_iff,
      List.length_eq_zero_iff]
    tauto
  refine ⟨("\n".intercalate (charter.allowedRepositories.insertionSort (· ≤ ·) ++
    charter.forbiddenCapabilities.insertionSort (· ≤ ·))).toList, ?_⟩
  rw [canonical, String.intercalate_cons_of_ne_nil hlines, String.toList_append,
    String.toList_append, List.append_assoc]
  rfl

theorem exists_canonical : ∃ rest, charter.canonical.toList = charter.goal.toList ++ rest := by
  by_cases h : charter.allowedRepositories = [] ∧ charter.forbiddenCapabilities = []
  · exact ⟨[], by rw [canonical_of_empty h.1 h.2, List.append_nil]⟩
  · obtain ⟨rest, hrest⟩ := exists_line (not_and_or.mp h)
    exact ⟨_, hrest⟩

/-! ## The goal -/

theorem isRequired_iff {text : String} :
    isRequired text = true ↔ text.toList.dropWhile isSpace ≠ [] := by
  rw [isRequired, List.any_eq_true, ne_eq, List.dropWhile_eq_nil_iff]
  simp only [Bool.not_eq_true', not_forall, Bool.not_eq_true, exists_prop]

theorem isRequired_of_append {text : String} {cs rest : List Char} (h : text.toList = cs ++ rest)
    (hcs : isRequired (String.ofList cs) = true) : isRequired text = true := by
  rw [isRequired, String.toList_ofList] at hcs
  rw [isRequired, h, List.any_append, hcs, Bool.true_or]

/-- A newline after the first mark of a text splits it into a text that is more than blanks and
another one. -/
theorem newline_mem_dropWhile_iff {cs : List Char} : '\n' ∈ cs.dropWhile isSpace ↔
    ∃ first rest, cs = first ++ '\n' :: rest ∧ isRequired (String.ofList first) = true := by
  simp only [isRequired_iff, String.toList_ofList]
  constructor
  · intro hmem
    obtain ⟨marked, rest, hsplit⟩ := List.append_of_mem hmem
    refine ⟨cs.takeWhile isSpace ++ marked, rest, ?_, ?_⟩
    · rw [List.append_assoc, ← hsplit, List.takeWhile_append_dropWhile]
    · -- The first mark is not the newline, which is a blank.
      rcases marked with _ | ⟨mark, marked⟩
      · have hblank := List.head_dropWhile_not isSpace (List.ne_nil_of_mem hmem)
        simp only [hsplit, List.nil_append, List.head_cons] at hblank
        exact absurd hblank (by decide)
      · have hmark := List.head_dropWhile_not isSpace (List.ne_nil_of_mem hmem)
        simp only [hsplit, List.cons_append, List.head_cons] at hmark
        rw [ne_eq, List.dropWhile_eq_nil_iff]
        intro hall
        have := hall mark (List.mem_append_right _ List.mem_cons_self)
        rw [hmark] at this
        exact nomatch this
  · rintro ⟨first, rest, rfl, hfirst⟩
    rw [List.dropWhile_append, if_neg (by rwa [List.isEmpty_iff])]
    exact List.mem_append_right _ List.mem_cons_self

/-! ## What the fingerprint pins -/

/-- Two charters with one goal and one boundary. -/
structure SameBoundary (charter charter' : MissionCharter) : Prop where
  goal : charter.goal = charter'.goal
  allowed : charter.allowedRepositories.Perm charter'.allowedRepositories
  forbidden : charter.forbiddenCapabilities.Perm charter'.forbiddenCapabilities

/-- A charter whose canonical text is one goal and cannot be read in another way. -/
def IsPlain (charter : MissionCharter) : Prop :=
  charter.allowedRepositories = [] ∧ charter.forbiddenCapabilities = [] ∧
    '\n' ∉ charter.goal.toList.dropWhile isSpace

/-- A plain charter is the only one with its text. -/
theorem IsPlain.sameBoundary (h : charter.IsPlain) (htext : charter'.canonical = charter.canonical) :
    SameBoundary charter' charter := by
  obtain ⟨hallowed, hforbidden, hgoal⟩ := h
  rw [canonical_of_empty hallowed hforbidden] at htext
  have hempty : charter'.allowedRepositories = [] ∧ charter'.forbiddenCapabilities = [] := by
    by_contra hmore
    obtain ⟨rest, hrest⟩ := exists_line (not_and_or.mp hmore)
    rw [htext] at hrest
    refine hgoal (newline_mem_dropWhile_iff.mpr ⟨charter'.goal.toList, rest, hrest, ?_⟩)
    rw [String.ofList_toList]
    exact charter'.goal_required
  rw [canonical_of_empty hempty.1 hempty.2] at htext
  exact ⟨htext, by rw [hempty.1, hallowed], by rw [hempty.2, hforbidden]⟩

/-- A charter that no other one shares its text with is plain. -/
theorem isPlain_of_forall (h : ∀ charter' : MissionCharter,
    charter'.canonical = charter.canonical → SameBoundary charter' charter) : charter.IsPlain := by
  obtain ⟨rest, hrest⟩ := @exists_canonical charter
  have hrequired : isRequired charter.canonical = true :=
    isRequired_of_append hrest (by rw [String.ofList_toList]; exact charter.goal_required)
  -- The whole text, as a goal.
  have hwhole := h ⟨charter.canonical, [], [], charter.id, hrequired⟩ (canonical_of_empty rfl rfl)
  have hallowed := hwhole.allowed.nil_eq.symm
  have hforbidden := hwhole.forbidden.nil_eq.symm
  refine ⟨hallowed, hforbidden, fun hnewline ↦ ?_⟩
  obtain ⟨first, line, hgoal, hfirst⟩ := newline_mem_dropWhile_iff.mp hnewline
  -- The text before a newline as a goal, and the text after it as a repository.
  have hsplit := h ⟨String.ofList first, [String.ofList line], [], charter.id, hfirst⟩ ?_
  · have hline := hsplit.allowed
    rw [hallowed] at hline
    exact List.cons_ne_nil _ _ hline.eq_nil
  · rw [canonical_of_empty hallowed hforbidden, ← String.toList_inj, hgoal, canonical,
      String.toList_intercalate]
    simp [String.toList_ofList]

end MissionCharter

/-- **The fingerprint pins a charter if and only if the charter is plain**: no other charter has the
bytes that are hashed, and unless the hash maps other bytes to the same fingerprint, an evaluation
tells the charter from every other one. -/
theorem fingerprint_pins_iff [Hash256] (charter : MissionCharter) :
    ((∀ charter' : MissionCharter, charter'.hashed = charter.hashed →
        charter'.SameBoundary charter) ∧
      ∀ (charter' : MissionCharter) (evaluator : FitnessEvaluator) (outcome : EpisodeOutcome),
        (charter'.fingerprint = charter.fingerprint → charter'.hashed = charter.hashed) →
          outcome.charterFingerprint = charter'.fingerprint →
            "mission charter changed" ∉ evaluator.evaluate outcome charter →
              charter'.SameBoundary charter) ↔ charter.IsPlain := by
  constructor
  · rintro ⟨hpinned, -⟩
    exact MissionCharter.isPlain_of_forall fun charter' htext ↦
      hpinned charter' (MissionCharter.hashed_inj.mpr htext)
  · intro hplain
    have hpinned : ∀ charter' : MissionCharter, charter'.hashed = charter.hashed →
        charter'.SameBoundary charter :=
      fun charter' hhashed ↦ hplain.sameBoundary (MissionCharter.hashed_inj.mp hhashed)
    refine ⟨hpinned, fun charter' evaluator outcome happart houtcome hunchanged ↦ ?_⟩
    rw [charterChanged_mem_evaluate, not_not, houtcome] at hunchanged
    exact hpinned charter' (happart hunchanged)

/-! ## Charters that are not told apart -/

/-- The default of `forbidden_capabilities`. -/
def defaultForbidden : List String :=
  ["self_replication", "goal_mutation", "policy_mutation", "credential_exfiltration",
    "unbounded_resource_acquisition", "concealment"]

def defaultCharter : MissionCharter := ⟨"grow", [], defaultForbidden, "charter-1", by decide⟩

/-- A charter with one line more in its goal and one capability less that is forbidden. -/
def wideCharter : MissionCharter :=
  ⟨"grow\nconcealment", [], defaultForbidden.dropLast, "charter-2", by decide⟩

theorem charters_not_pinned : ¬∀ charter charter' : MissionCharter,
    charter.hashed = charter'.hashed → charter.SameBoundary charter' := by
  intro h
  have hsame := h defaultCharter wideCharter (MissionCharter.hashed_inj.mpr (by decide))
  exact absurd hsame.goal (by decide)

end HiveMind.Autonomy
