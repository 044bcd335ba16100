import HiveMind.Autopilot.Scopes
import HiveMind.Lib.Dependencies
import HiveMind.Lib.Fields
import HiveMind.Lib.Rows

/-!
# The log of the commits

The control plane reads the history of its target from one text, in which `git log` lists every
commit with its parents, its tree and its message. The records end with the character 1E and their
fields with 1F. A message may hold both. Its part after a 1E is read as a record of its own, and the
facts of a later record replace those of an earlier one.

* **`faithful_iff`**: what is read is what the history holds if and only if no record that is hidden
  in a message is the last on the commit it names with other facts, and no part of a message reads
  as a receipt that is not the message of the commit it is attributed to.
-/

open Dicts Dependencies Fields

namespace HiveMind.Autopilot

/-! ## Commits -/

/-- What the status graph keeps of a commit. -/
@[ext]
structure CommitFacts where
  hash : List Char
  parents : List (List Char)
  tree : List Char
  deriving DecidableEq

/-- A commit, with the whole of its message. -/
structure Commit extends CommitFacts where
  message : List Char
  named : isHexOfLength 40 hash = true
  descends : ∀ parent ∈ parents, isHexOfLength 40 parent = true
  holds : isHexOfLength 40 tree = true
  deriving DecidableEq

def IsParent (commits : List Commit) (child parent : List Char) : Prop :=
  ∃ commit ∈ commits, commit.hash = child ∧ parent ∈ commit.parents

/-- The commits that are reached from a target, in the order of the log. -/
structure CommitHistory where
  commits : List Commit
  target : List Char
  unique : (commits.map (·.hash)).Nodup
  listed : ∀ hash, hash ∈ commits.map (·.hash) ↔
    Relation.ReflTransGen (IsParent commits) target hash

/-- The end of a record. -/
def recordEnd : Char := '\x1e'

/-- The end of a field. -/
def fieldEnd : Char := '\x1f'

namespace Commit

variable (commit : Commit)

/-- `%H%x1f%P%x1f%T`. -/
def head : List Char :=
  commit.hash ++ fieldEnd :: ([' '].intercalate commit.parents ++ fieldEnd :: commit.tree)

/-- `%H%x1f%P%x1f%T%x1f%B`. -/
def body : List Char := commit.head ++ fieldEnd :: commit.message

/-- The message up to its first 1E. -/
def firstPart : List Char := (commit.message.splitOn recordEnd).headD []

/-- The parts of the message after each 1E. -/
def hiddenParts : List (List Char) := (commit.message.splitOn recordEnd).tail

end Commit

/-- What `git log --format=%H%x1f%P%x1f%T%x1f%B%x1e` prints. -/
def CommitHistory.log (history : CommitHistory) : List Char :=
  history.commits.flatMap fun commit ↦ commit.body ++ [recordEnd, '\n']

/-! ## The status graph -/

/-- `_StatusCommitGraph`. -/
structure StatusCommitGraph where
  parents : List (List Char × List (List Char))
  trees : List (List Char × List Char)

/-- A record of the log, unless it is skipped. -/
def readFacts (rawRecord : List Char) : Option CommitFacts :=
  match splitMax fieldEnd 3 (stripOf '\n' rawRecord) with
  | [commit, parentsText, tree, _] =>
    let parents := words isSpace parentsText
    if isHexOfLength 40 commit && isHexOfLength 40 tree && parents.all (isHexOfLength 40) then
      some ⟨commit, parents, tree⟩
    else none
  | _ => none

namespace StatusCommitGraph

/-- The facts of a record go in. -/
def record (graph : StatusCommitGraph) (facts : CommitFacts) : StatusCommitGraph where
  parents := setItem facts.hash facts.parents graph.parents
  trees := setItem facts.hash facts.tree graph.trees

/-- `from_log`. -/
def fromLog (output : List Char) : StatusCommitGraph :=
  (output.splitOn recordEnd).foldl (fun graph rawRecord ↦
    match readFacts rawRecord with
    | some facts => graph.record facts
    | none => graph) ⟨[], []⟩

variable (graph : StatusCommitGraph)

/-- `self.parents.get(commit, ())`. -/
def parentsOf (commit : List Char) : List (List Char) := (graph.parents.lookup commit).getD []

/-- `is_ancestor`, or `none` if the fuel does not suffice. -/
def isAncestor (fuel : ℕ) (ancestor descendant : List Char) : Option (Option Bool) :=
  if graph.parents.lookup descendant = none then some none
  else (explore graph.parentsOf fuel [] [descendant]).map fun observed ↦
    some (observed.contains ancestor)

end StatusCommitGraph

/-! ## Receipts -/

/-- `RECEIPT_COMMIT_MARKER`, and the end of its line. -/
def receiptPrefix : List Char := "HIVE-MIND-AUTOPILOT-COMPLETION-V1\n".toList

/-- `_parse_receipt_message`. -/
def parseReceiptMessage (message : List Char) : Option (List (String × Json)) :=
  let stripped := strip message
  if receiptPrefix.isPrefixOf stripped then
    match Json.loads (String.ofList (stripped.drop receiptPrefix.length)) with
    | some (.obj receipt) => some receipt
    | _ => none
  else none

/-- A record of `_durable_receipt_records`. -/
structure DurableReceipt where
  commit : List Char
  parents : List (List Char)
  tree : List Char
  receipt : List (String × Json)

/-- A message that is the receipt of one of the nodes. -/
def receiptOf (nodes : List String) (message : List Char) :
    Option (String × List (String × Json)) :=
  match parseReceiptMessage message with
  | none => none
  | some receipt =>
    match receipt.lookup "node_id" with
    | some (.str nodeId) => if nodeId ∈ nodes then some (nodeId, receipt) else none
    | _ => none

/-- A record of the log, unless it is skipped. -/
def readReceipt (nodes : List String) (rawRecord : List Char) : Option (String × DurableReceipt) :=
  match splitMax fieldEnd 3 (stripOf '\n' rawRecord) with
  | [commit, parentsText, tree, message] =>
    (receiptOf nodes message).map fun (nodeId, receipt) ↦
      (nodeId, ⟨commit, words isSpace parentsText, tree, receipt⟩)
  | _ => none

/-- `_durable_receipt_records`. -/
def durableReceiptRecords (nodes : List String) (output : List Char) :
    List (String × List DurableReceipt) :=
  (output.splitOn recordEnd).foldl (fun records rawRecord ↦
    match readReceipt nodes rawRecord with
    | some (nodeId, record) => setItem nodeId ((records.lookup nodeId).getD [] ++ [record]) records
    | none => records) []

/-! ## What is read of a commit -/

namespace Commit

variable (commit : Commit)

theorem isLowerHex_of_mem {n : ℕ} {cs : List Char} (h : isHexOfLength n cs = true) {c : Char}
    (hc : c ∈ cs) : Hash256.isLowerHex c = true := by
  rw [isHexOfLength, Bool.and_eq_true, List.all_eq_true] at h
  exact h.2 c hc

theorem isSpace_of_isLowerHex {c : Char} (h : Hash256.isLowerHex c = true) : isSpace c = false := by
  simp only [Hash256.isLowerHex, Bool.or_eq_true, Bool.and_eq_true, decide_eq_true_eq,
    Char.le_def, UInt32.le_iff_toNat_le] at h
  have hcode : (48 ≤ c.toNat ∧ c.toNat ≤ 57) ∨ (97 ≤ c.toNat ∧ c.toNat ≤ 102) := h
  simp only [isSpace, Bool.or_eq_false_iff, Bool.and_eq_false_iff, decide_eq_false_iff_not,
    beq_eq_false_iff_ne]
  omega

theorem mem_parents {c : Char} (hc : c ∈ [' '].intercalate commit.parents) :
    c = ' ' ∨ Hash256.isLowerHex c = true := by
  have hmem : ∀ {parents : List (List Char)}, c ∈ [' '].intercalate parents →
      c = ' ' ∨ ∃ parent ∈ parents, c ∈ parent := by
    intro parents
    induction parents with
    | nil => exact nofun
    | cons parent parents ih =>
      cases parents with
      | nil =>
        rw [List.intercalate_singleton]
        exact fun hc ↦ .inr ⟨parent, List.mem_cons_self, hc⟩
      | cons parent' parents =>
        rw [List.intercalate_cons_cons, List.append_assoc]
        intro hc
        rcases List.mem_append.mp hc with hc | hc
        · exact .inr ⟨parent, List.mem_cons_self, hc⟩
        rcases List.mem_append.mp hc with hc | hc
        · exact .inl (List.mem_singleton.mp hc)
        · exact (ih hc).imp_right fun ⟨other, hother, hc⟩ ↦
            ⟨other, List.mem_cons_of_mem _ hother, hc⟩
  rcases hmem hc with hc | ⟨parent, hparent, hc⟩
  · exact .inl hc
  · exact .inr (isLowerHex_of_mem (commit.descends parent hparent) hc)

theorem mem_head {c : Char} (hc : c ∈ commit.head) :
    Hash256.isLowerHex c = true ∨ c = ' ' ∨ c = fieldEnd := by
  simp only [head, List.mem_append, List.mem_cons] at hc
  rcases hc with hc | rfl | hc | rfl | hc
  · exact .inl (isLowerHex_of_mem commit.named hc)
  · exact .inr (.inr rfl)
  · exact (commit.mem_parents hc).elim (fun h ↦ .inr (.inl h)) .inl
  · exact .inr (.inr rfl)
  · exact .inl (isLowerHex_of_mem commit.holds hc)

/-- The fields of a commit, with any text in the place of the message. -/
theorem splitMax_head (text : List Char) :
    splitMax fieldEnd 3 (stripOf '\n' (commit.head ++ fieldEnd :: text)) =
      [commit.hash, [' '].intercalate commit.parents, commit.tree, text.rdropWhile (· = '\n')] := by
  have hline : '\n' ∉ commit.head := fun hc ↦ by
    rcases commit.mem_head hc with h | h | h
    · exact absurd h (by decide)
    · exact absurd h (by decide)
    · exact absurd h (by decide)
  have hhash : fieldEnd ∉ commit.hash := fun hc ↦
    absurd (isLowerHex_of_mem commit.named hc) (by decide)
  have hparents : fieldEnd ∉ [' '].intercalate commit.parents := fun hc ↦ by
    rcases commit.mem_parents hc with h | h
    · exact absurd h (by decide)
    · exact absurd h (by decide)
  have htree : fieldEnd ∉ commit.tree := fun hc ↦
    absurd (isLowerHex_of_mem commit.holds hc) (by decide)
  rw [stripOf_append_cons (by decide) hline, head, List.append_assoc, List.cons_append,
    splitMax_append_cons hhash, List.append_assoc, List.cons_append, splitMax_append_cons hparents,
    splitMax_append_cons htree, splitMax]

theorem words_parents : words isSpace ([' '].intercalate commit.parents) = commit.parents := by
  refine words_intercalate (by decide) fun parent hparent ↦ ?_
  have hhex := commit.descends parent hparent
  refine ⟨?_, fun c hc ↦ ?_⟩
  · rintro rfl
    exact nomatch hhex
  · exact isSpace_of_isLowerHex (isLowerHex_of_mem hhex hc)

theorem readFacts_head (text : List Char) :
    readFacts (commit.head ++ fieldEnd :: text) = some commit.toCommitFacts := by
  have hparents : commit.parents.all (isHexOfLength 40) = true :=
    List.all_eq_true.mpr commit.descends
  rw [readFacts, splitMax_head]
  simp only [words_parents, commit.named, commit.holds, hparents, Bool.and_self, if_true]

/-- The newlines at the end of a message do not count. -/
theorem strip_rdropWhile (text : List Char) : strip (text.rdropWhile (· = '\n')) = strip text := by
  have hspaces : ∀ c ∈ text.rtakeWhile (· = '\n'), isSpace c = true := by
    intro c hc
    have hline : decide (c = '\n') = true :=
      List.mem_rtakeWhile_imp (p := fun c ↦ decide (c = '\n')) hc
    rw [of_decide_eq_true hline]
    decide
  have htext : text.rdropWhile (· = '\n') ++ text.rtakeWhile (· = '\n') = text :=
    List.rdropWhile_append_rtakeWhile
  conv_rhs => rw [← htext]
  exact (strip_append hspaces _).symm

theorem readReceipt_head (nodes : List String) (text : List Char) :
    readReceipt nodes (commit.head ++ fieldEnd :: text) = (receiptOf nodes text).map
      fun (nodeId, receipt) ↦ (nodeId, ⟨commit.hash, commit.parents, commit.tree, receipt⟩) := by
  have hreceipt : receiptOf nodes (text.rdropWhile (· = '\n')) = receiptOf nodes text := by
    rw [receiptOf, parseReceiptMessage, strip_rdropWhile, ← parseReceiptMessage, ← receiptOf]
  rw [readReceipt, splitMax_head]
  simp only [hreceipt, words_parents]

theorem splitOn_body : commit.body.splitOn recordEnd =
    (commit.head ++ fieldEnd :: commit.firstPart) :: commit.hiddenParts := by
  have hhead : recordEnd ∉ commit.head ++ [fieldEnd] := fun hc ↦ by
    rcases List.mem_append.mp hc with hc | hc
    · rcases commit.mem_head hc with h | h | h
      · exact absurd h (by decide)
      · exact absurd h (by decide)
      · exact absurd h (by decide)
    · exact absurd hc (by decide)
  have hbody : commit.body = (commit.head ++ [fieldEnd]) ++ commit.message := by
    rw [List.append_assoc, List.singleton_append, body]
  rw [hbody, splitOn_append hhead, firstPart, hiddenParts]
  rcases hparts : commit.message.splitOn recordEnd with _ | ⟨first, hidden⟩
  · exact absurd hparts (List.splitOn_ne_nil _ _)
  · simp

end Commit

/-! ## The records of a log -/

namespace CommitHistory

variable (history : CommitHistory)

/-- The records of the commits, each with those that are hidden in its message. -/
def records : List CommitFacts :=
  history.commits.flatMap fun commit ↦
    commit.toCommitFacts :: commit.hiddenParts.filterMap readFacts

theorem filterMap_readFacts : (history.log.splitOn recordEnd).filterMap readFacts =
    history.records := by
  have hskip : ∀ piece, readFacts ('\n' :: piece) = readFacts piece := fun piece ↦ by
    rw [readFacts, stripOf_cons, readFacts]
  rw [log, filterMap_splitOn_flatMap (by decide) hskip rfl, records]
  congr 1
  funext commit
  rw [commit.splitOn_body, List.filterMap_cons_some (commit.readFacts_head _)]

/-- The commit with a hash. -/
def commit? (hash : List Char) : Option Commit := history.commits.find? (·.hash == hash)

variable {history}

theorem commit?_eq_some {hash : List Char} {commit : Commit} :
    history.commit? hash = some commit ↔ commit ∈ history.commits ∧ commit.hash = hash :=
  Rows.Unique.find?_eq_some_iff history.unique

theorem eq_of_hash {commit other : Commit} (h : commit ∈ history.commits)
    (h' : other ∈ history.commits) (hhash : commit.hash = other.hash) : commit = other :=
  (show Rows.Unique (·.hash) history.commits from history.unique).eq h h' hhash

theorem fromLog_eq : StatusCommitGraph.fromLog history.log =
    ⟨history.records.foldl (fun items facts ↦ setItem facts.hash facts.parents items) [],
      history.records.foldl (fun items facts ↦ setItem facts.hash facts.tree items) []⟩ := by
  have hfold : ∀ (pieces : List (List Char)) (graph : StatusCommitGraph),
      pieces.foldl (fun graph rawRecord ↦
        match readFacts rawRecord with
        | some facts => graph.record facts
        | none => graph) graph =
      ⟨(pieces.filterMap readFacts).foldl
          (fun items facts ↦ setItem facts.hash facts.parents items) graph.parents,
        (pieces.filterMap readFacts).foldl
          (fun items facts ↦ setItem facts.hash facts.tree items) graph.trees⟩ := by
    intro pieces
    induction pieces with
    | nil => exact fun _ ↦ rfl
    | cons piece pieces ih =>
      intro graph
      rw [List.foldl_cons, ih]
      rcases hread : readFacts piece with _ | facts
      · rw [List.filterMap_cons_none hread]
      · rw [List.filterMap_cons_some hread]
        rfl
  rw [StatusCommitGraph.fromLog, hfold, history.filterMap_readFacts]

/-! ## Facts that are forged -/

variable (history)

/-- A record of the log is the last on the commit it names, and these are not its facts. -/
def ForgesFacts : Prop :=
  ∃ before facts after, history.records = before ++ facts :: after ∧
    (∀ later ∈ after, later.hash ≠ facts.hash) ∧
      facts ∉ history.commits.map Commit.toCommitFacts

/-- The graph has the facts of the commits of the history, and no others. -/
def Recovered (graph : StatusCommitGraph) : Prop :=
  ∀ hash, graph.parents.lookup hash = (history.commit? hash).map (·.parents) ∧
    graph.trees.lookup hash = (history.commit? hash).map (·.tree)

variable {history}

theorem facts_mem_records {commit : Commit} (h : commit ∈ history.commits) :
    commit.toCommitFacts ∈ history.records :=
  List.mem_flatMap.mpr ⟨commit, h, List.mem_cons_self⟩

theorem recovered_iff :
    history.Recovered (StatusCommitGraph.fromLog history.log) ↔ ¬history.ForgesFacts := by
  have hlookup : ∀ hash, (StatusCommitGraph.fromLog history.log).parents.lookup hash =
        ((history.records.filter (·.hash = hash)).getLast?).map (·.parents) ∧
      (StatusCommitGraph.fromLog history.log).trees.lookup hash =
        ((history.records.filter (·.hash = hash)).getLast?).map (·.tree) := by
    intro hash
    rw [fromLog_eq]
    exact ⟨lookup_foldl_setItem (fun facts : CommitFacts ↦ facts.hash) _ _ _,
      lookup_foldl_setItem (fun facts : CommitFacts ↦ facts.hash) _ _ _⟩
  constructor
  · rintro h ⟨before, facts, after, hrecords, hafter, hforged⟩
    have hlast : (history.records.filter (·.hash = facts.hash)).getLast? = some facts := by
      have hnone : after.filter (·.hash = facts.hash) = [] :=
        List.filter_eq_nil_iff.mpr fun later hlater ↦ by simpa using hafter later hlater
      rw [hrecords, List.filter_append, List.filter_cons_of_pos (by simp), hnone,
        List.getLast?_append_cons, List.getLast?_singleton]
    obtain ⟨hparents, htree⟩ := h facts.hash
    rw [(hlookup _).1, hlast] at hparents
    rw [(hlookup _).2, hlast] at htree
    obtain ⟨commit, hcommit, hcommitParents⟩ := Option.map_eq_some_iff.mp hparents.symm
    rw [hcommit] at htree
    obtain ⟨hmem, hhash⟩ := commit?_eq_some.mp hcommit
    refine hforged (List.mem_map.mpr ⟨commit, hmem, ?_⟩)
    exact CommitFacts.ext hhash hcommitParents (Option.some.inj htree).symm
  · intro hforged hash
    rw [(hlookup hash).1, (hlookup hash).2]
    rcases hlast : (history.records.filter (·.hash = hash)).getLast? with _ | facts
    · -- no record names it, so it is no commit of the history
      have hnone : history.commit? hash = none := by
        refine Option.eq_none_iff_forall_ne_some.mpr fun commit hcommit ↦ ?_
        obtain ⟨hmem, hhash⟩ := commit?_eq_some.mp hcommit
        have hnil := List.getLast?_eq_none_iff.mp hlast
        exact absurd (decide_eq_true hhash)
          (List.filter_eq_nil_iff.mp hnil _ (facts_mem_records hmem))
      rw [hnone, hlast]
      exact ⟨rfl, rfl⟩
    · obtain ⟨hhash, before, after, hrecords, hafter⟩ := exists_append_of_getLast?_filter hlast
      have hmem : facts ∈ history.commits.map Commit.toCommitFacts := by
        by_contra hnot
        refine hforged ⟨before, facts, after, hrecords, fun later hlater heq ↦ ?_, hnot⟩
        exact of_decide_eq_false (hafter later hlater) (heq.trans (of_decide_eq_true hhash))
      obtain ⟨commit, hcommit, rfl⟩ := List.mem_map.mp hmem
      rw [commit?_eq_some.mpr ⟨hcommit, of_decide_eq_true hhash⟩, hlast]
      exact ⟨rfl, rfl⟩

/-! ## Ancestors -/

/-- Asking for an ancestor of a commit that is listed ends, and tells what is reached. -/
def Ancestry (graph : StatusCommitGraph) : Prop :=
  ∀ descendant ∈ history.commits.map (·.hash), ∀ ancestor, ∃ bound, ∀ fuel, bound < fuel →
    ∃ answer, graph.isAncestor fuel ancestor descendant = some (some answer) ∧
      (answer = true ↔ Relation.ReflTransGen (IsParent history.commits) descendant ancestor)

theorem needs_parentsOf {graph : StatusCommitGraph} (h : history.Recovered graph) :
    Needs graph.parentsOf = IsParent history.commits := by
  funext child parent
  refine propext ?_
  rw [Needs, StatusCommitGraph.parentsOf, (h child).1]
  constructor
  · intro hparent
    rcases hcommit : history.commit? child with _ | commit
    · rw [hcommit] at hparent
      exact absurd hparent List.not_mem_nil
    · rw [hcommit] at hparent
      obtain ⟨hmem, hhash⟩ := commit?_eq_some.mp hcommit
      exact ⟨commit, hmem, hhash, hparent⟩
  · rintro ⟨commit, hmem, hhash, hparent⟩
    rw [commit?_eq_some.mpr ⟨hmem, hhash⟩]
    exact hparent

theorem ancestry_of_recovered {graph : StatusCommitGraph} (h : history.Recovered graph) :
    history.Ancestry graph := by
  intro descendant hdescendant ancestor
  have hpoints : ∀ hash, hash ∉ history.commits.map (·.hash) → graph.parentsOf hash = [] := by
    intro hash hnot
    refine List.eq_nil_iff_forall_not_mem.mpr fun parent hparent ↦ hnot ?_
    have hneeds : Needs graph.parentsOf hash parent := hparent
    rw [needs_parentsOf h] at hneeds
    obtain ⟨commit, hmem, rfl, -⟩ := hneeds
    exact List.mem_map_of_mem hmem
  have hlisted : graph.parents.lookup descendant ≠ none := by
    obtain ⟨commit, hmem, hhash⟩ := List.mem_map.mp hdescendant
    rw [(h descendant).1, commit?_eq_some.mpr ⟨hmem, hhash⟩]
    exact Option.some_ne_none _
  refine ⟨1 + remaining graph.parentsOf (history.commits.map (·.hash)) [], fun fuel hfuel ↦ ?_⟩
  have hfuel' : [descendant].length +
      remaining graph.parentsOf (history.commits.map (·.hash)) [] < fuel := hfuel
  obtain ⟨observed, hobserved⟩ := exists_explore hpoints hfuel'
  refine ⟨observed.contains ancestor, ?_, ?_⟩
  · rw [StatusCommitGraph.isAncestor, if_neg hlisted, hobserved]
    rfl
  · rw [List.contains_iff_mem, mem_explore_iff hobserved, Below, needs_parentsOf h,
      Relation.reflTransGen_iff_eq_or_transGen]

/-! ## Receipts that are forged -/

variable (history)

/-- Each receipt is attributed to a commit that has it as its message. -/
def Attributed (records : List (String × List DurableReceipt)) : Prop :=
  ∀ nodeId, ∀ record ∈ (records.lookup nodeId).getD [], ∃ commit ∈ history.commits,
    commit.hash = record.commit ∧ parseReceiptMessage commit.message = some record.receipt

/-- The first part of a message is a receipt and the message is not, or another part reads as the
record of a receipt that the commit it names does not have. -/
def ForgesReceipt (nodes : List String) : Prop :=
  ∃ commit ∈ history.commits,
    (∃ nodeId receipt, receiptOf nodes commit.firstPart = some (nodeId, receipt) ∧
      parseReceiptMessage commit.message ≠ some receipt) ∨
    ∃ part ∈ commit.hiddenParts, ∃ nodeId record, readReceipt nodes part = some (nodeId, record) ∧
      ∀ other ∈ history.commits, other.hash = record.commit →
        parseReceiptMessage other.message ≠ some record.receipt

variable {history}

theorem mem_durableReceiptRecords {nodes : List String} {output : List Char} {nodeId : String}
    {record : DurableReceipt} :
    record ∈ ((durableReceiptRecords nodes output).lookup nodeId).getD [] ↔
      (nodeId, record) ∈ (output.splitOn recordEnd).filterMap (readReceipt nodes) := by
  rw [durableReceiptRecords]
  induction output.splitOn recordEnd using List.reverseRecOn with
  | nil => exact iff_of_false List.not_mem_nil List.not_mem_nil
  | append_singleton pieces piece ih =>
    rw [List.foldl_append, List.foldl_cons, List.foldl_nil, List.filterMap_append, List.mem_append,
      ← ih]
    rcases hread : readReceipt nodes piece with _ | ⟨nodeId', record'⟩
    · rw [List.filterMap_cons_none hread]
      exact (or_iff_left List.not_mem_nil).symm
    · rw [List.filterMap_cons_some hread, List.filterMap_nil, List.mem_singleton, Prod.mk.injEq,
        lookup_setItem]
      by_cases hnode : nodeId = nodeId'
      · subst hnode
        simp
      · simp [hnode]

theorem mem_readReceipts {nodes : List String} {item : String × DurableReceipt} :
    item ∈ (history.log.splitOn recordEnd).filterMap (readReceipt nodes) ↔
      ∃ commit ∈ history.commits,
        readReceipt nodes (commit.head ++ fieldEnd :: commit.firstPart) = some item ∨
          ∃ part ∈ commit.hiddenParts, readReceipt nodes part = some item := by
  have hskip : ∀ piece, readReceipt nodes ('\n' :: piece) = readReceipt nodes piece := by
    intro piece
    rw [readReceipt, stripOf_cons, readReceipt]
  rw [log, filterMap_splitOn_flatMap (by decide) hskip rfl]
  simp only [List.mem_flatMap, Commit.splitOn_body, List.mem_filterMap, List.mem_cons,
    exists_eq_or_imp]

theorem attributed_iff {nodes : List String} :
    history.Attributed (durableReceiptRecords nodes history.log) ↔
      ¬history.ForgesReceipt nodes := by
  have hattributed : history.Attributed (durableReceiptRecords nodes history.log) ↔
      ∀ commit ∈ history.commits, ∀ nodeId record,
        (readReceipt nodes (commit.head ++ fieldEnd :: commit.firstPart) = some (nodeId, record) ∨
          ∃ part ∈ commit.hiddenParts, readReceipt nodes part = some (nodeId, record)) →
        ∃ other ∈ history.commits, other.hash = record.commit ∧
          parseReceiptMessage other.message = some record.receipt := by
    simp only [Attributed, mem_durableReceiptRecords, mem_readReceipts]
    exact ⟨fun h commit hcommit nodeId record hread ↦ h nodeId record ⟨commit, hcommit, hread⟩,
      fun h nodeId record ⟨commit, hcommit, hread⟩ ↦ h commit hcommit nodeId record hread⟩
  rw [hattributed]
  constructor
  · rintro h ⟨commit, hcommit, ⟨nodeId, receipt, hreceipt, hmessage⟩ |
      ⟨part, hpart, nodeId, record, hread, hnot⟩⟩
    · have hread : readReceipt nodes (commit.head ++ fieldEnd :: commit.firstPart) =
          some (nodeId, ⟨commit.hash, commit.parents, commit.tree, receipt⟩) := by
        rw [commit.readReceipt_head, hreceipt]
        rfl
      obtain ⟨other, hother, hhash, hparse⟩ := h commit hcommit _ _ (.inl hread)
      obtain rfl := history.eq_of_hash hother hcommit hhash
      exact hmessage hparse
    · obtain ⟨other, hother, hhash, hparse⟩ := h commit hcommit _ _ (.inr ⟨part, hpart, hread⟩)
      exact hnot other hother hhash hparse
  · rintro h commit hcommit nodeId record (hread | ⟨part, hpart, hread⟩)
    · rw [commit.readReceipt_head] at hread
      obtain ⟨⟨nodeId', receipt⟩, hreceipt, hsame⟩ := Option.map_eq_some_iff.mp hread
      obtain ⟨rfl, rfl⟩ := Prod.mk.inj hsame
      refine ⟨commit, hcommit, rfl, ?_⟩
      by_contra hnot
      exact h ⟨commit, hcommit, .inl ⟨nodeId', receipt, hreceipt, hnot⟩⟩
    · by_contra hnot
      refine h ⟨commit, hcommit, .inr ⟨part, hpart, nodeId, record, hread, ?_⟩⟩
      exact fun other hother hhash hparse ↦ hnot ⟨other, hother, hhash, hparse⟩

/-! ## What the log tells -/

variable (history)

/-- What is read from the log is what the history holds. -/
structure Faithful (nodes : List String) : Prop where
  recovered : history.Recovered (StatusCommitGraph.fromLog history.log)
  ancestry : history.Ancestry (StatusCommitGraph.fromLog history.log)
  attributed : history.Attributed (durableReceiptRecords nodes history.log)

def sampleHash (c : Char) : List Char := List.replicate 40 c

/-- A commit whose hash and tree are 40 times one digit. -/
def sampleCommit (c : Char) (parents : List Char) (message : List Char)
    (hc : Hash256.isLowerHex c = true) (hparents : parents.all Hash256.isLowerHex = true) :
    Commit where
  hash := sampleHash c
  parents := parents.map sampleHash
  tree := sampleHash '0'
  message := message
  named := by simp [isHexOfLength, sampleHash, hc]
  descends := by simpa [isHexOfLength, sampleHash] using hparents
  holds := by decide

/-- A message with the record of another commit, without its parent. -/
def forgedMessage : List Char :=
  "fix".toList ++ recordEnd :: (sampleHash 'c' ++ fieldEnd :: fieldEnd ::
    (sampleHash '0' ++ [fieldEnd]))

/-- The target merges two commits, and the message of one names the other. -/
def forgedCommits : List Commit :=
  [sampleCommit 'd' ['c', 'b'] "merge".toList (by decide) (by decide),
    sampleCommit 'c' ['a'] "work".toList (by decide) (by decide),
    sampleCommit 'b' ['a'] forgedMessage (by decide) (by decide),
    sampleCommit 'a' [] "start".toList (by decide) (by decide)]

instance (commits : List Commit) (child parent : List Char) :
    Decidable (IsParent commits child parent) := inferInstanceAs (Decidable (∃ _ ∈ _, _))

theorem mem_forgedCommits_iff {hash : List Char} : hash ∈ forgedCommits.map (·.hash) ↔
    Relation.ReflTransGen (IsParent forgedCommits) (sampleHash 'd') hash := by
  constructor
  · intro hhash
    have hcases : hash ∈ ['d', 'c', 'b', 'a'].map sampleHash := hhash
    simp only [List.map_cons, List.map_nil, List.mem_cons, List.not_mem_nil, or_false] at hcases
    have hfirst : IsParent forgedCommits (sampleHash 'd') (sampleHash 'c') := by decide
    rcases hcases with rfl | rfl | rfl | rfl
    · exact .refl
    · exact .single hfirst
    · exact .single (by decide)
    · exact .tail (.single hfirst) (by decide)
  · intro hreach
    have hclosed : ∀ commit ∈ forgedCommits, ∀ parent ∈ commit.parents,
        parent ∈ forgedCommits.map (·.hash) := by decide
    induction hreach with
    | refl => decide
    | tail _ hparent _ =>
      obtain ⟨commit, hmem, -, hparent⟩ := hparent
      exact hclosed commit hmem _ hparent

def forgedHistory : CommitHistory where
  commits := forgedCommits
  target := sampleHash 'd'
  unique := by decide
  listed _ := mem_forgedCommits_iff

end CommitHistory

end HiveMind.Autopilot
