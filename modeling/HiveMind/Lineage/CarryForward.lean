import HiveMind.Dag.Replay
import HiveMind.Lib.Dicts
import HiveMind.Runtime.Contracts

/-!
# Receipts that are carried forward

A plan that is compiled again keeps some of its nodes, changes some, drops some and has new ones. A
receipt for a node holds for the contract that the node had. It is carried forward if the node still
has that contract, kept as history if there is no such node any more, and not used if the contract
has changed.

* **`carry_forward_sound`**: every node of the next plan has exactly one outcome, and the outcomes do
  not depend on the order of what was given.
-/

open Raise Dicts HiveMind.Runtime

namespace HiveMind.Lineage

/-! ## Receipts -/

section Receipts

variable [Hash256]

/-- `raw_sha256`. -/
def rawSha256 (raw : List UInt8) : String :=
  "sha256:" ++ String.ofList ((Hash256.digest raw).toList.flatMap Hash256.hexByte)

structure ReceiptFields where
  nodeId : String
  contractDigest : String
  subjectId : String
  receiptBytes : List UInt8
  receiptDigest : String
  deriving DecidableEq

/-- `require_identifier`. -/
def requireIdentifier (value label : String) : Option ContractViolation :=
  if Dag.isPortableIdentifier value then none else some ⟨label ++ " is not a portable identifier"⟩

/-- `require_digest`. -/
def requireDigest (value label : String) : Option ContractViolation :=
  if isDigest value then none else some ⟨label ++ " must be lowercase sha256:<64 hex>"⟩

/-- What `QualifiedNodeReceipt.__post_init__` raises. -/
def ReceiptFields.problem? (receipt : ReceiptFields) : Option ContractViolation :=
  requireIdentifier receipt.nodeId "receipt node_id" <|>
  requireDigest receipt.contractDigest "receipt contract_digest" <|>
  requireDigest receipt.subjectId "receipt subject_id" <|>
  (if receipt.receiptBytes = [] then some ⟨"qualified receipt bytes are required"⟩ else none) <|>
  requireDigest receipt.receiptDigest "receipt_digest" <|>
  (if rawSha256 receipt.receiptBytes ≠ receipt.receiptDigest then
    some ⟨"receipt digest does not match exact bytes"⟩ else none)

/-- `QualifiedNodeReceipt`. -/
structure QualifiedNodeReceipt extends ReceiptFields where
  valid : toReceiptFields.problem? = none
  deriving DecidableEq

theorem isDigest_rawSha256 (raw : List UInt8) : isDigest (rawSha256 raw) = true := by
  refine isDigest_digestOfHex ?_ fun digit hdigit ↦ ?_
  · rw [Hash256.length_flatMap_hexByte, Vector.length_toList]
  · obtain ⟨byte, -, hbyte⟩ := List.mem_flatMap.mp hdigit
    exact Hash256.all_isLowerHex_hexByte byte digit hbyte

/-- `QualifiedNodeReceipt.create`, for values that pass the checks. -/
def QualifiedNodeReceipt.create (nodeId contractDigest subjectId : String)
    (receiptBytes : List UInt8) (hnode : Dag.isPortableIdentifier nodeId = true)
    (hcontract : isDigest contractDigest = true) (hsubject : isDigest subjectId = true)
    (hbytes : receiptBytes ≠ []) : QualifiedNodeReceipt where
  nodeId := nodeId
  contractDigest := contractDigest
  subjectId := subjectId
  receiptBytes := receiptBytes
  receiptDigest := rawSha256 receiptBytes
  valid := by
    simp only [ReceiptFields.problem?, requireIdentifier, requireDigest, hnode, hcontract, hsubject,
      hbytes, isDigest_rawSha256, if_true, if_false, ne_eq, not_true]
    rfl

/-! ## Inventories -/

/-- A mapping from node ids to contract digests. -/
structure Inventory where
  items : List (String × String)
  nodup : (items.map Prod.fst).Nodup

namespace Inventory

def nodeIds (inventory : Inventory) : List String := inventory.items.map Prod.fst

/-- `inventory.get`. -/
def get? (inventory : Inventory) (nodeId : String) : Option String :=
  inventory.items.lookup nodeId

/-- The checks of an inventory. -/
def check (inventory : Inventory) (label : String) : Except ContractViolation Unit :=
  forM inventory.items fun item ↦
    match requireIdentifier item.1 (label ++ " node_id") <|>
      requireDigest item.2 (label ++ " contract digest") with
    | some violation => throw violation
    | none => pure ()

end Inventory

/-! ## Carrying forward -/

/-- `CarryForwardResult`. -/
structure CarryForwardResult where
  carried : List QualifiedNodeReceipt
  requalify : List String
  historical : List QualifiedNodeReceipt
  newNodes : List String
  deriving DecidableEq

/-- The round of the loop over the receipts. -/
def collectReceipt (previous : Inventory) (subjectId : String)
    (receiptByNode : List (String × QualifiedNodeReceipt)) (receipt : QualifiedNodeReceipt) :
    Except ContractViolation (List (String × QualifiedNodeReceipt)) := do
  if receipt.nodeId ∈ receiptByNode.map Prod.fst then
    throw ⟨"qualified receipt inventory contains duplicates"⟩
  if receipt.subjectId ≠ subjectId then
    throw ⟨"cross-subject receipt carry-forward is forbidden"⟩
  if previous.get? receipt.nodeId ≠ some receipt.contractDigest then
    throw ⟨"receipt is not qualified for the previous contract"⟩
  return setItem receipt.nodeId receipt receiptByNode

/-- The lists that the loop over the previous contracts fills. -/
structure Outcomes where
  carried : List QualifiedNodeReceipt
  requalify : List String
  historical : List QualifiedNodeReceipt

/-- The round of that loop. -/
def Outcomes.decide (next : Inventory) (receiptByNode : List (String × QualifiedNodeReceipt))
    (outcomes : Outcomes) (item : String × String) : Outcomes :=
  match next.get? item.1, receiptByNode.lookup item.1 with
  | none, some receipt => { outcomes with historical := outcomes.historical ++ [receipt] }
  | none, none => outcomes
  | some digest, receipt =>
    if digest = item.2 then
      match receipt with
      | some receipt => { outcomes with carried := outcomes.carried ++ [receipt] }
      | none => { outcomes with requalify := outcomes.requalify ++ [item.1] }
    else { outcomes with requalify := outcomes.requalify ++ [item.1] }

/-- `carry_forward_receipts`. -/
def carryForwardReceipts (previous next : Inventory) (receipts : List QualifiedNodeReceipt)
    (subjectId : String) : Except ContractViolation CarryForwardResult := do
  match requireDigest subjectId "subject_id" with
  | some violation => throw violation
  | none => pure ()
  previous.check "previous"
  next.check "next"
  let receiptByNode ← receipts.foldlM (collectReceipt previous subjectId) []
  let outcomes := previous.items.foldl (Outcomes.decide next receiptByNode) ⟨[], [], []⟩
  return {
    carried := Rows.orderBy (·.nodeId) outcomes.carried
    requalify := outcomes.requalify.dedup.insertionSort (· ≤ ·)
    historical := Rows.orderBy (·.nodeId) outcomes.historical
    newNodes := (next.nodeIds.filter (· ∉ previous.nodeIds)).insertionSort (· ≤ ·) }

/-! ## The receipts by their nodes -/

variable {previous next : Inventory} {receipts : List QualifiedNodeReceipt} {subjectId : String}

/-- The receipts are those of the previous contracts, one for each node. -/
structure Qualified (previous : Inventory) (receipts : List QualifiedNodeReceipt)
    (subjectId : String) : Prop where
  nodup : (receipts.map (·.nodeId)).Nodup
  subject : ∀ receipt ∈ receipts, receipt.subjectId = subjectId
  contract : ∀ receipt ∈ receipts, previous.get? receipt.nodeId = some receipt.contractDigest

theorem collected_eq_ok {receiptByNode : List (String × QualifiedNodeReceipt)} :
    receipts.foldlM (collectReceipt previous subjectId) [] = .ok receiptByNode ↔
      Qualified previous receipts subjectId ∧
        receiptByNode = receipts.map fun receipt ↦ (receipt.nodeId, receipt) := by
  induction receipts using List.reverseRecOn generalizing receiptByNode with
  | nil =>
    constructor
    · intro h
      exact ⟨⟨List.nodup_nil, nofun, nofun⟩, (Except.ok.inj h).symm⟩
    · rintro ⟨-, rfl⟩
      rfl
  | append_singleton init receipt ih =>
    have hkeys : (init.map fun receipt ↦ (receipt.nodeId, receipt)).map Prod.fst =
        init.map (·.nodeId) := by
      rw [List.map_map]
      rfl
    have hconcat : (init.map (·.nodeId) ++ [receipt.nodeId]).Nodup ↔
        receipt.nodeId ∉ init.map (·.nodeId) ∧ (init.map (·.nodeId)).Nodup := by
      rw [(List.perm_append_singleton _ _).nodup_iff, List.nodup_cons]
    rw [Trace.foldlM_concat_eq_ok]
    simp only [ih, collectReceipt, guard_eq_ok, pure_eq_ok, not_not]
    constructor
    · rintro ⟨_, ⟨hinit, rfl⟩, hnew, hsubject, hcontract, rfl⟩
      rw [hkeys] at hnew
      refine ⟨⟨?_, ?_, ?_⟩, ?_⟩
      · rw [List.map_append, List.map_singleton]
        exact hconcat.mpr ⟨hnew, hinit.nodup⟩
      · exact List.forall_mem_append.mpr ⟨hinit.subject, List.forall_mem_singleton.mpr hsubject⟩
      · exact List.forall_mem_append.mpr ⟨hinit.contract, List.forall_mem_singleton.mpr hcontract⟩
      · rw [setItem_of_notMem (hkeys ▸ hnew), List.map_append, List.map_singleton]
    · rintro ⟨hqualified, rfl⟩
      have hnodup := hqualified.nodup
      rw [List.map_append, List.map_singleton, hconcat] at hnodup
      obtain ⟨hsubject, hlastSubject⟩ := List.forall_mem_append.mp hqualified.subject
      obtain ⟨hcontract, hlastContract⟩ := List.forall_mem_append.mp hqualified.contract
      refine ⟨_, ⟨⟨hnodup.2, hsubject, hcontract⟩, rfl⟩, hkeys ▸ hnodup.1,
        hlastSubject _ List.mem_cons_self, hlastContract _ List.mem_cons_self, ?_⟩
      rw [setItem_of_notMem (hkeys ▸ hnodup.1), List.map_append, List.map_singleton]

/-- The receipt of a node. -/
theorem lookup_receipt (h : (receipts.map (·.nodeId)).Nodup) {nodeId : String}
    {receipt : QualifiedNodeReceipt} :
    (receipts.map fun receipt ↦ (receipt.nodeId, receipt)).lookup nodeId = some receipt ↔
      receipt ∈ receipts ∧ receipt.nodeId = nodeId := by
  have hkeys : ((receipts.map fun receipt ↦ (receipt.nodeId, receipt)).map Prod.fst).Nodup := by
    rw [List.map_map]
    exact h
  constructor
  · intro hlookup
    obtain ⟨found, hfound, hsame⟩ := List.mem_map.mp (mem_of_lookup hlookup)
    obtain ⟨rfl, rfl⟩ := Prod.mk.inj hsame
    exact ⟨hfound, rfl⟩
  · rintro ⟨hmem, rfl⟩
    exact lookup_of_mem hkeys (List.mem_map.mpr ⟨receipt, hmem, rfl⟩)

/-! ## The outcome of a node -/

section Outcome

variable (next : Inventory) (receiptByNode : List (String × QualifiedNodeReceipt))

/-- The receipt of a node that has kept its contract. -/
def keptReceipt (item : String × String) : Option QualifiedNodeReceipt :=
  if next.get? item.1 = some item.2 then receiptByNode.lookup item.1 else none

/-- The receipt of a node that is dropped. -/
def droppedReceipt (item : String × String) : Option QualifiedNodeReceipt :=
  if next.get? item.1 = none then receiptByNode.lookup item.1 else none

/-- A node that is left without a receipt for its contract. -/
def isUnqualified (item : String × String) : Bool :=
  (next.get? item.1).isSome && (keptReceipt next receiptByNode item).isNone

theorem foldl_decide (items : List (String × String)) (outcomes : Outcomes) :
    items.foldl (Outcomes.decide next receiptByNode) outcomes =
      ⟨outcomes.carried ++ items.filterMap (keptReceipt next receiptByNode),
        outcomes.requalify ++ (items.filter (isUnqualified next receiptByNode)).map Prod.fst,
        outcomes.historical ++ items.filterMap (droppedReceipt next receiptByNode)⟩ := by
  induction items generalizing outcomes with
  | nil => simp
  | cons item items ih =>
    rw [List.foldl_cons, ih, Outcomes.decide]
    rcases hnext : next.get? item.1 with _ | digest
    · rcases hreceipt : receiptByNode.lookup item.1 with _ | receipt
      · simp [keptReceipt, droppedReceipt, isUnqualified, hnext, hreceipt]
      · simp [keptReceipt, droppedReceipt, isUnqualified, hnext, hreceipt]
    · by_cases hsame : digest = item.2
      · subst hsame
        rcases hreceipt : receiptByNode.lookup item.1 with _ | receipt
        · simp [keptReceipt, droppedReceipt, isUnqualified, hnext, hreceipt]
        · simp [keptReceipt, droppedReceipt, isUnqualified, hnext, hreceipt]
      · simp [keptReceipt, droppedReceipt, isUnqualified, hnext, hsame]

end Outcome

/-- The result for receipts that are qualified. -/
def carriedForward (previous next : Inventory) (receipts : List QualifiedNodeReceipt) :
    CarryForwardResult :=
  let receiptByNode := receipts.map fun receipt ↦ (receipt.nodeId, receipt)
  { carried := Rows.orderBy (·.nodeId) (previous.items.filterMap (keptReceipt next receiptByNode))
    requalify := ((previous.items.filter (isUnqualified next receiptByNode)).map
      Prod.fst).dedup.insertionSort (· ≤ ·)
    historical :=
      Rows.orderBy (·.nodeId) (previous.items.filterMap (droppedReceipt next receiptByNode))
    newNodes := (next.nodeIds.filter (· ∉ previous.nodeIds)).insertionSort (· ≤ ·) }

theorem carryForwardReceipts_eq_ok {result : CarryForwardResult} :
    carryForwardReceipts previous next receipts subjectId = .ok result ↔
      requireDigest subjectId "subject_id" = none ∧ previous.check "previous" = .ok () ∧
        next.check "next" = .ok () ∧ Qualified previous receipts subjectId ∧
          result = carriedForward previous next receipts := by
  rw [carryForwardReceipts]
  rcases hsubject : requireDigest subjectId "subject_id" with _ | violation
  · simp only [bind_eq_ok, pure_eq_ok, collected_eq_ok, foldl_decide, List.nil_append]
    constructor
    · rintro ⟨_, hprevious, _, hnext, _, ⟨hqualified, rfl⟩, rfl⟩
      exact ⟨trivial, hprevious, hnext, hqualified, rfl⟩
    · rintro ⟨-, hprevious, hnext, hqualified, rfl⟩
      exact ⟨(), hprevious, (), hnext, _, ⟨hqualified, rfl⟩, rfl⟩
  · constructor
    · intro h
      exact nomatch h
    · rintro ⟨h, -⟩
      exact nomatch h

/-! ## Every node has one outcome -/

omit [Hash256] in
theorem Inventory.get?_eq_some {inventory : Inventory} {nodeId digest : String} :
    inventory.get? nodeId = some digest ↔ (nodeId, digest) ∈ inventory.items :=
  ⟨mem_of_lookup, lookup_of_mem inventory.nodup⟩

omit [Hash256] in
theorem Inventory.get?_eq_none {inventory : Inventory} {nodeId : String} :
    inventory.get? nodeId = none ↔ nodeId ∉ inventory.nodeIds := by
  rw [Option.eq_none_iff_forall_ne_some]
  simp only [ne_eq, get?_eq_some, nodeIds, List.mem_map, Prod.exists, exists_and_right,
    exists_eq_right, not_exists]

/-- What becomes of the receipts and the nodes: every node of the next plan keeps its receipt, is to
be qualified again, or is new, and every receipt is carried, historical, or for a contract that has
changed. -/
structure CarriedForward (previous next : Inventory) (receipts : List QualifiedNodeReceipt)
    (result : CarryForwardResult) : Prop where
  partition : (result.carried.map (·.nodeId) ++ result.requalify ++ result.newNodes).Perm next.nodeIds
  newNodes : ∀ nodeId, nodeId ∈ result.newNodes ↔
    nodeId ∈ next.nodeIds ∧ nodeId ∉ previous.nodeIds
  carried : ∀ receipt, receipt ∈ result.carried ↔ receipt ∈ receipts ∧
    ∃ digest, previous.get? receipt.nodeId = some digest ∧ next.get? receipt.nodeId = some digest
  historical : ∀ receipt, receipt ∈ result.historical ↔ receipt ∈ receipts ∧
    receipt.nodeId ∈ previous.nodeIds ∧ receipt.nodeId ∉ next.nodeIds
  apart : ∀ receipt ∈ result.carried, receipt ∉ result.historical
  kept : ∀ receipt ∈ receipts, receipt ∈ result.carried ∨ receipt ∈ result.historical ∨
    ∃ old new, previous.get? receipt.nodeId = some old ∧ next.get? receipt.nodeId = some new ∧
      old ≠ new

section Sound

variable (hqualified : Qualified previous receipts subjectId)

include hqualified

theorem mem_carried {receipt : QualifiedNodeReceipt} :
    receipt ∈ (carriedForward previous next receipts).carried ↔ receipt ∈ receipts ∧
      ∃ digest, previous.get? receipt.nodeId = some digest ∧
        next.get? receipt.nodeId = some digest := by
  simp only [carriedForward, Rows.orderBy_perm.mem_iff, List.mem_filterMap, keptReceipt,
    Option.ite_none_right_eq_some, lookup_receipt hqualified.nodup]
  constructor
  · rintro ⟨item, hitem, hnext, hreceipt, hid⟩
    rw [hid]
    exact ⟨hreceipt, item.2, Inventory.get?_eq_some.mpr hitem, hnext⟩
  · rintro ⟨hreceipt, digest, hprevious, hnext⟩
    exact ⟨_, Inventory.get?_eq_some.mp hprevious, hnext, hreceipt, rfl⟩

theorem mem_historical {receipt : QualifiedNodeReceipt} :
    receipt ∈ (carriedForward previous next receipts).historical ↔ receipt ∈ receipts ∧
      receipt.nodeId ∈ previous.nodeIds ∧ receipt.nodeId ∉ next.nodeIds := by
  simp only [carriedForward, Rows.orderBy_perm.mem_iff, List.mem_filterMap, droppedReceipt,
    Option.ite_none_right_eq_some, lookup_receipt hqualified.nodup, Inventory.get?_eq_none]
  constructor
  · rintro ⟨item, hitem, hnext, hreceipt, hid⟩
    rw [hid]
    exact ⟨hreceipt, List.mem_map_of_mem hitem, hnext⟩
  · rintro ⟨hreceipt, hprevious, hnext⟩
    obtain ⟨item, hitem, hid⟩ := List.mem_map.mp hprevious
    exact ⟨item, hitem, hid ▸ hnext, hreceipt, hid.symm⟩

theorem mem_requalify {nodeId : String} :
    nodeId ∈ (carriedForward previous next receipts).requalify ↔
      nodeId ∈ next.nodeIds ∧ nodeId ∈ previous.nodeIds ∧
        nodeId ∉ (carriedForward previous next receipts).carried.map (·.nodeId) := by
  simp only [carriedForward, List.mem_insertionSort, List.mem_dedup, List.mem_map, List.mem_filter,
    Rows.orderBy_perm.mem_iff, List.mem_filterMap]
  constructor
  · rintro ⟨item, ⟨hitem, hopen⟩, rfl⟩
    rw [isUnqualified, Bool.and_eq_true, Option.isSome_iff_ne_none, Option.isNone_iff_eq_none] at hopen
    refine ⟨not_not.mp fun hnot ↦ hopen.1 (Inventory.get?_eq_none.mpr hnot),
      List.mem_map_of_mem hitem, ?_⟩
    rintro ⟨receipt, ⟨item', hitem', hkept⟩, hid⟩
    have hkept' := hkept
    rw [keptReceipt, Option.ite_none_right_eq_some, lookup_receipt hqualified.nodup] at hkept'
    have hsame : item' = item :=
      List.inj_on_of_nodup_map previous.nodup hitem' hitem (hkept'.2.2.symm.trans hid)
    rw [hsame, hopen.2] at hkept
    exact nomatch hkept
  · rintro ⟨hnext, hprevious, hopen⟩
    obtain ⟨item, hitem, rfl⟩ := List.mem_map.mp hprevious
    refine ⟨item, ⟨hitem, ?_⟩, rfl⟩
    rw [isUnqualified, Bool.and_eq_true, Option.isSome_iff_ne_none, Option.isNone_iff_eq_none]
    refine ⟨fun hnone ↦ Inventory.get?_eq_none.mp hnone hnext, Option.eq_none_iff_forall_ne_some.mpr
      fun receipt hkept ↦ hopen ⟨receipt, ⟨item, hitem, hkept⟩, ?_⟩⟩
    rw [keptReceipt, Option.ite_none_right_eq_some, lookup_receipt hqualified.nodup] at hkept
    exact hkept.2.2

omit hqualified in
theorem mem_newNodes {nodeId : String} :
    nodeId ∈ (carriedForward previous next receipts).newNodes ↔
      nodeId ∈ next.nodeIds ∧ nodeId ∉ previous.nodeIds := by
  simp only [carriedForward, List.mem_insertionSort, List.mem_filter, decide_eq_true_eq]

omit hqualified in
/-- A list of receipts that are found for their nodes has no node twice. -/
theorem nodup_nodeIds {receiptOf : String × String → Option QualifiedNodeReceipt}
    (h : ∀ item receipt, receiptOf item = some receipt → receipt.nodeId = item.1) :
    ((previous.items.filterMap receiptOf).map (·.nodeId)).Nodup := by
  rw [List.map_filterMap]
  refine List.Pairwise.filterMap _ ?_ (List.pairwise_map.mp previous.nodup)
  intro item item' hne nodeId hmem nodeId' hmem' heq
  obtain ⟨receipt, hreceipt, rfl⟩ := Option.map_eq_some_iff.mp hmem
  obtain ⟨receipt', hreceipt', rfl⟩ := Option.map_eq_some_iff.mp hmem'
  exact hne ((h item receipt hreceipt).symm.trans (heq.trans (h item' receipt' hreceipt')))

theorem nodup_carried :
    ((carriedForward previous next receipts).carried.map (·.nodeId)).Nodup := by
  refine (Rows.orderBy_perm.map _).nodup_iff.mpr (nodup_nodeIds fun item receipt hkept ↦ ?_)
  rw [keptReceipt, Option.ite_none_right_eq_some, lookup_receipt hqualified.nodup] at hkept
  exact hkept.2.2

theorem nodup_historical :
    ((carriedForward previous next receipts).historical.map (·.nodeId)).Nodup := by
  refine (Rows.orderBy_perm.map _).nodup_iff.mpr (nodup_nodeIds fun item receipt hdropped ↦ ?_)
  rw [droppedReceipt, Option.ite_none_right_eq_some, lookup_receipt hqualified.nodup] at hdropped
  exact hdropped.2.2

omit hqualified in
theorem nodup_requalify : (carriedForward previous next receipts).requalify.Nodup :=
  (List.perm_insertionSort _ _).nodup_iff.mpr (List.nodup_dedup _)

omit hqualified in
theorem nodup_newNodes : (carriedForward previous next receipts).newNodes.Nodup :=
  (List.perm_insertionSort _ _).nodup_iff.mpr (next.nodup.filter _)

theorem mem_carried_nodeIds {nodeId : String}
    (h : nodeId ∈ (carriedForward previous next receipts).carried.map (·.nodeId)) :
    nodeId ∈ next.nodeIds ∧ nodeId ∈ previous.nodeIds := by
  obtain ⟨receipt, hreceipt, rfl⟩ := List.mem_map.mp h
  obtain ⟨-, digest, hprevious, hnext⟩ := (mem_carried hqualified).mp hreceipt
  exact ⟨List.mem_map_of_mem (Inventory.get?_eq_some.mp hnext),
    List.mem_map_of_mem (Inventory.get?_eq_some.mp hprevious)⟩

theorem carriedForward_sound :
    CarriedForward previous next receipts (carriedForward previous next receipts) where
  partition := by
    refine (List.perm_ext_iff_of_nodup ?_ next.nodup).mpr fun nodeId ↦ ?_
    · rw [List.nodup_append', List.nodup_append']
      refine ⟨⟨nodup_carried hqualified, nodup_requalify, ?_⟩, nodup_newNodes, ?_⟩
      · intro nodeId hcarried hrequalify
        exact ((mem_requalify hqualified).mp hrequalify).2.2 hcarried
      · intro nodeId hold hnew
        rcases List.mem_append.mp hold with hcarried | hrequalify
        · exact (mem_newNodes.mp hnew).2 (mem_carried_nodeIds hqualified hcarried).2
        · exact (mem_newNodes.mp hnew).2 ((mem_requalify hqualified).mp hrequalify).2.1
    · rw [List.mem_append, List.mem_append, mem_requalify hqualified, mem_newNodes]
      constructor
      · rintro ((hcarried | hrequalify) | hnew)
        · exact (mem_carried_nodeIds hqualified hcarried).1
        · exact hrequalify.1
        · exact hnew.1
      · intro hnext
        by_cases hprevious : nodeId ∈ previous.nodeIds
        · by_cases hcarried :
            nodeId ∈ (carriedForward previous next receipts).carried.map (·.nodeId)
          · exact .inl (.inl hcarried)
          · exact .inl (.inr ⟨hnext, hprevious, hcarried⟩)
        · exact .inr ⟨hnext, hprevious⟩
  newNodes _ := mem_newNodes
  carried _ := mem_carried hqualified
  historical _ := mem_historical hqualified
  apart receipt hcarried hhistorical := by
    obtain ⟨-, digest, -, hnext⟩ := (mem_carried hqualified).mp hcarried
    exact ((mem_historical hqualified).mp hhistorical).2.2
      (List.mem_map_of_mem (Inventory.get?_eq_some.mp hnext))
  kept receipt hreceipt := by
    have hprevious := hqualified.contract receipt hreceipt
    rcases hnext : next.get? receipt.nodeId with _ | digest
    · refine .inr (.inl ((mem_historical hqualified).mpr ⟨hreceipt, ?_, ?_⟩))
      · exact List.mem_map_of_mem (Inventory.get?_eq_some.mp hprevious)
      · exact Inventory.get?_eq_none.mp hnext
    · by_cases hsame : receipt.contractDigest = digest
      · exact .inl ((mem_carried hqualified).mpr ⟨hreceipt, digest, hsame ▸ hprevious, hnext⟩)
      · exact .inr (.inr ⟨_, _, hprevious, rfl, hsame⟩)

end Sound

/-! ## The order does not matter -/

section Order

variable {previous' next' : Inventory} {receipts' : List QualifiedNodeReceipt}

omit [Hash256] in
theorem Inventory.get?_perm {inventory inventory' : Inventory}
    (h : inventory'.items.Perm inventory.items) : inventory'.get? = inventory.get? := by
  funext nodeId
  refine Option.ext fun digest ↦ ?_
  rw [get?_eq_some, get?_eq_some, h.mem_iff]

omit [Hash256] in
theorem Inventory.check_eq_ok {inventory : Inventory} {label : String} :
    inventory.check label = .ok () ↔ ∀ item ∈ inventory.items,
      (requireIdentifier item.1 (label ++ " node_id") <|>
        requireDigest item.2 (label ++ " contract digest")) = none := by
  rw [check, forM_eq_ok]
  refine forall₂_congr fun item _ ↦ ?_
  rcases requireIdentifier item.1 (label ++ " node_id") <|>
    requireDigest item.2 (label ++ " contract digest") with _ | violation
  · exact iff_of_true rfl rfl
  · exact iff_of_false nofun nofun

theorem Qualified.perm (h : Qualified previous receipts subjectId)
    (hprevious : previous'.items.Perm previous.items) (hreceipts : receipts'.Perm receipts) :
    Qualified previous' receipts' subjectId where
  nodup := ((hreceipts.map _).nodup_iff).mpr h.nodup
  subject receipt hreceipt := h.subject receipt (hreceipts.mem_iff.mp hreceipt)
  contract receipt hreceipt := by
    rw [Inventory.get?_perm hprevious]
    exact h.contract receipt (hreceipts.mem_iff.mp hreceipt)

theorem receipt_perm (h : (receipts.map (·.nodeId)).Nodup) (hreceipts : receipts'.Perm receipts)
    (nodeId : String) : (receipts'.map fun receipt ↦ (receipt.nodeId, receipt)).lookup nodeId =
      (receipts.map fun receipt ↦ (receipt.nodeId, receipt)).lookup nodeId := by
  refine Option.ext fun receipt ↦ ?_
  rw [lookup_receipt h, lookup_receipt ((hreceipts.map _).nodup_iff.mpr h), hreceipts.mem_iff]

omit [Hash256] in
theorem orderBy_perm_eq {ρ : Type} {key : ρ → String} {rows rows' : List ρ}
    (h : (rows.map key).Nodup) (hperm : rows'.Perm rows) :
    Rows.orderBy key rows' = Rows.orderBy key rows :=
  Rows.orderBy_eq_of_perm (Rows.orderBy_perm.trans hperm.symm) (Rows.Unique.pairwise_orderBy h)

theorem carriedForward_perm (hqualified : Qualified previous receipts subjectId)
    (hprevious : previous'.items.Perm previous.items) (hnext : next'.items.Perm next.items)
    (hreceipts : receipts'.Perm receipts) :
    carriedForward previous' next' receipts' = carriedForward previous next receipts := by
  have hnodup := hqualified.nodup
  have hkept : keptReceipt next' (receipts'.map fun receipt ↦ (receipt.nodeId, receipt)) =
      keptReceipt next (receipts.map fun receipt ↦ (receipt.nodeId, receipt)) := by
    funext item
    rw [keptReceipt, keptReceipt, Inventory.get?_perm hnext, receipt_perm hnodup hreceipts]
  have hdropped : droppedReceipt next' (receipts'.map fun receipt ↦ (receipt.nodeId, receipt)) =
      droppedReceipt next (receipts.map fun receipt ↦ (receipt.nodeId, receipt)) := by
    funext item
    rw [droppedReceipt, droppedReceipt, Inventory.get?_perm hnext, receipt_perm hnodup hreceipts]
  have hopen : isUnqualified next' (receipts'.map fun receipt ↦ (receipt.nodeId, receipt)) =
      isUnqualified next (receipts.map fun receipt ↦ (receipt.nodeId, receipt)) := by
    funext item
    rw [isUnqualified, isUnqualified, hkept, Inventory.get?_perm hnext]
  have hnew : next'.nodeIds.filter (· ∉ previous'.nodeIds) =
      next'.nodeIds.filter (· ∉ previous.nodeIds) := by
    refine List.filter_congr fun nodeId _ ↦ decide_eq_decide.mpr ?_
    rw [Inventory.nodeIds, (hprevious.map _).mem_iff, Inventory.nodeIds]
  rw [carriedForward, carriedForward, CarryForwardResult.mk.injEq, hkept, hdropped, hopen, hnew]
  refine ⟨?_, ?_, ?_, ?_⟩
  · refine orderBy_perm_eq ?_ (hprevious.filterMap _)
    exact (Rows.orderBy_perm.map _).nodup_iff.mp (@nodup_carried _ _ next _ _ hqualified)
  · refine @orderBy_perm_eq _ id _ _ ?_ ((hprevious.filter _).map _).dedup
    rw [List.map_id]
    exact List.nodup_dedup _
  · refine orderBy_perm_eq ?_ (hprevious.filterMap _)
    exact (Rows.orderBy_perm.map _).nodup_iff.mp (@nodup_historical _ _ next _ _ hqualified)
  · refine @orderBy_perm_eq _ id _ _ ?_ ((hnext.map _).filter _)
    rw [List.map_id]
    exact next.nodup.filter _

end Order

/-- What is carried forward is sound, and the order of what was given does not matter. -/
theorem carry_forward_sound {result : CarryForwardResult}
    (h : carryForwardReceipts previous next receipts subjectId = .ok result) :
    CarriedForward previous next receipts result ∧
      ∀ (previous' next' : Inventory) (receipts' : List QualifiedNodeReceipt),
        previous'.items.Perm previous.items → next'.items.Perm next.items →
          receipts'.Perm receipts →
            carryForwardReceipts previous' next' receipts' subjectId = .ok result := by
  obtain ⟨hsubject, hcheck, hcheck', hqualified, rfl⟩ := carryForwardReceipts_eq_ok.mp h
  refine ⟨carriedForward_sound hqualified, ?_⟩
  intro previous' next' receipts' hprevious hnext hreceipts
  rw [Inventory.check_eq_ok] at hcheck hcheck'
  refine carryForwardReceipts_eq_ok.mpr ⟨hsubject, ?_, ?_, hqualified.perm hprevious hreceipts,
    (carriedForward_perm hqualified hprevious hnext hreceipts).symm⟩
  · exact Inventory.check_eq_ok.mpr fun item hitem ↦ hcheck item (hprevious.mem_iff.mp hitem)
  · exact Inventory.check_eq_ok.mpr fun item hitem ↦ hcheck' item (hnext.mem_iff.mp hitem)

end Receipts

/-! ## A sample -/

/-- `D1`, `D2`, `D3` and `D4` of the tests. -/
def digestOf (digit : Char) : String := "sha256:" ++ String.ofList (List.replicate 64 digit)

theorem isDigest_digestOf {digit : Char} (h : Hash256.isLowerHex digit = true) :
    isDigest (digestOf digit) = true := by
  refine isDigest_digestOfHex List.length_replicate fun c hc ↦ ?_
  rw [List.eq_of_mem_replicate hc]
  exact h

theorem requireDigest_digestOf {digit : Char} (h : Hash256.isLowerHex digit = true) :
    requireDigest (digestOf digit) = fun _ ↦ none := by
  funext label
  rw [requireDigest, if_pos (isDigest_digestOf h)]

def keptSample : QualifiedNodeReceipt :=
  .create "keep" (digestOf '1') (digestOf '3') [1] (by decide) (isDigest_digestOf (by decide))
    (isDigest_digestOf (by decide)) (by decide)

def removedSample : QualifiedNodeReceipt :=
  .create "removed" (digestOf '1') (digestOf '3') [2] (by decide) (isDigest_digestOf (by decide))
    (isDigest_digestOf (by decide)) (by decide)

def previousSample : Inventory where
  items := [("keep", digestOf '1'), ("changed", digestOf '2'), ("removed", digestOf '1')]
  nodup := by decide

def nextSample : Inventory where
  items := [("keep", digestOf '1'), ("changed", digestOf '4'), ("new", digestOf '1')]
  nodup := by decide

theorem carryForwardReceipts_sample :
    carryForwardReceipts previousSample nextSample [keptSample, removedSample] (digestOf '3') =
      .ok (carriedForward previousSample nextSample [keptSample, removedSample]) := by
  have hdigest : ∀ digit ∈ ['1', '2', '3', '4'], requireDigest (digestOf digit) = fun _ ↦ none := by
    intro digit hdigit
    refine requireDigest_digestOf (List.all_eq_true.mp ?_ digit hdigit)
    decide
  simp only [List.forall_mem_cons, List.not_mem_nil, false_imp_iff, implies_true, and_true] at hdigest
  obtain ⟨hone, htwo, hthree, hfour⟩ := hdigest
  refine carryForwardReceipts_eq_ok.mpr ⟨congrFun hthree _, Inventory.check_eq_ok.mpr ?_,
    Inventory.check_eq_ok.mpr ?_, ⟨by decide, ?_, ?_⟩, rfl⟩
  · simp only [previousSample, List.forall_mem_cons, hone, htwo]
    decide
  · simp only [nextSample, List.forall_mem_cons, hone, hfour]
    decide
  · exact List.forall_mem_cons.mpr ⟨rfl, List.forall_mem_singleton.mpr rfl⟩
  · exact List.forall_mem_cons.mpr ⟨rfl, List.forall_mem_singleton.mpr rfl⟩

theorem sample_carried_forward :
    CarriedForward previousSample nextSample [keptSample, removedSample]
        (carriedForward previousSample nextSample [keptSample, removedSample]) ∧
      carryForwardReceipts previousSample nextSample [removedSample, keptSample] (digestOf '3') =
        .ok (carriedForward previousSample nextSample [keptSample, removedSample]) := by
  obtain ⟨hsound, horder⟩ := carry_forward_sound carryForwardReceipts_sample
  exact ⟨hsound, horder _ _ _ (.refl _) (.refl _) (.swap _ _ _)⟩

end HiveMind.Lineage
