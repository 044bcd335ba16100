import HiveMind.Kernel.Contracts

/-!
# Contracts of the portable runtime

The portable contracts are read from bounded JSON texts without anything ambiguous: no byte order
mark, no two members of one name in an object, not too long and not too deep. A canonical text of
an object that is neither is read back (`strictJsonObject_dumps`).

A contract is a structure that carries the checks of its constructor, with a document that it is
written to and read from.
-/

namespace HiveMind.Runtime

/-- `ContractViolation`. -/
structure ContractViolation where
  message : String
  deriving DecidableEq, Repr

/-- `DEFAULT_MAXIMUM_JSON_BYTES`. -/
def maximumJsonBytes : Nat := 1048576

/-- `DEFAULT_MAXIMUM_JSON_DEPTH`. -/
def maximumJsonDepth : Nat := 64

mutual

/-- `_json_depth`. -/
def jsonDepth : Json → Nat
  | .arr xs => 1 + depthOfList xs
  | .obj ms => 1 + depthOfMembers ms
  | _ => 1

def depthOfList : List Json → Nat
  | [] => 0
  | x :: xs => max (jsonDepth x) (depthOfList xs)

def depthOfMembers : List (String × Json) → Nat
  | [] => 0
  | (_, x) :: ms => max (jsonDepth x) (depthOfMembers ms)

end

/-- `strict_json_object`, on a text that is well-formed UTF-8. What the decoder refuses and what the
hook for objects refuses is not told apart. The value that was read can always be written again. -/
def strictJsonObject (text : String) : Except ContractViolation Json.Dict :=
  if text.utf8ByteSize = 0 ∨ maximumJsonBytes < text.utf8ByteSize then
    .error ⟨"JSON input is empty or exceeds the byte limit"⟩
  else if text.toList.head? = some '\uFEFF' then .error ⟨"UTF-8 BOM is forbidden"⟩
  else
    match Json.loadsWith Json.closedHook text with
    | none => .error ⟨"JSON input is malformed"⟩
    | some (.obj ms) =>
      if maximumJsonDepth < jsonDepth (.obj ms) then
        .error ⟨"JSON input exceeds the nesting-depth limit"⟩
      else .ok (.ofMembers ms)
    | some _ => .error ⟨"contract JSON must be an object"⟩

theorem head?_dumps (d : Json.Dict) : d.toJson.dumps.toList.head? = some '{' := by
  rw [Json.dumps, String.toList_ofList, Json.Dict.toJson]
  cases d.members with
  | nil => rfl
  | cons m ms => rw [Json.chars]; rfl

/-- A canonical text of an object is too long or read back, unless the object is too deep. -/
theorem strictJsonObject_dumps {d : Json.Dict} (hsorted : d.toJson.Sorted)
    (hdepth : jsonDepth d.toJson ≤ maximumJsonDepth) :
    strictJsonObject d.toJson.dumps =
      if d.toJson.dumps.utf8ByteSize ≤ maximumJsonBytes then .ok d
      else .error ⟨"JSON input is empty or exceeds the byte limit"⟩ := by
  have hnonempty : d.toJson.dumps.utf8ByteSize ≠ 0 := by
    intro hzero
    have hempty : d.toJson.dumps = "" := String.utf8ByteSize_eq_zero_iff.mp hzero
    have hhead := head?_dumps d
    rw [hempty] at hhead
    exact nomatch hhead
  have hread : Json.loadsWith Json.closedHook d.toJson.dumps = some (.obj d.members) :=
    Json.loadsWith_closedHook_dumps hsorted
  by_cases hsize : d.toJson.dumps.utf8ByteSize ≤ maximumJsonBytes
  · have hok : ¬(d.toJson.dumps.utf8ByteSize = 0 ∨
        maximumJsonBytes < d.toJson.dumps.utf8ByteSize) := by omega
    have hbom : ¬(d.toJson.dumps.toList.head? = some '\uFEFF') := by
      rw [head?_dumps]
      decide
    have hdepth' : ¬(maximumJsonDepth < jsonDepth (.obj d.members)) := by
      rw [not_lt]
      exact hdepth
    simp only [strictJsonObject, if_neg hok, if_neg hbom, hread, if_neg hdepth', if_pos hsize,
      Json.Dict.ofMembers_members]
  · have hlarge : d.toJson.dumps.utf8ByteSize = 0 ∨
        maximumJsonBytes < d.toJson.dumps.utf8ByteSize := by omega
    rw [strictJsonObject, if_pos hlarge, if_neg hsize]

/-! ## Members of a document -/

/-- A member that is a text. -/
def textOf (d : Json.Dict) (name : String) : Option String := (d.get? name).bind Json.asStr?

/-- A text that may be missing. -/
def optionalText : Option String → Json
  | none => .null
  | some text => .str text

/-- A member that is a text or null. -/
def optionalTextOf (d : Json.Dict) (name : String) : Option (Option String) :=
  match d.get? name with
  | some .null => some none
  | some (.str text) => some (some text)
  | _ => none

theorem sorted_optionalText (text : Option String) : (optionalText text).Sorted := by
  cases text <;> trivial

theorem jsonDepth_optionalText (text : Option String) : jsonDepth (optionalText text) = 1 := by
  cases text <;> rfl

theorem optionalTextOf_eq {d : Json.Dict} {name : String} {text : Option String}
    (h : d.get? name = some (optionalText text)) : optionalTextOf d name = some text := by
  cases text <;> rw [optionalTextOf, h] <;> rfl

/-! ## Candidates -/

/-- `CandidateIdentity`. -/
structure CandidateIdentity where
  commit : String
  tree : String
  subjectId : String
  commit_isSha : isSha commit = true
  tree_isSha : isSha tree = true
  subjectId_isDigest : isDigest subjectId = true
  deriving DecidableEq

namespace CandidateIdentity

/-- `to_document`. -/
def toDict (c : CandidateIdentity) : Json.Dict where
  members := [("commit", .str c.commit), ("subject_id", .str c.subjectId), ("tree", .str c.tree)]
  ordered := by simp only [List.map_cons, List.map_nil]; decide

def toJson (c : CandidateIdentity) : Json := c.toDict.toJson

/-- `from_document`. A commit or tree that is no text raises a `TypeError` in the matcher, which is
not told apart. -/
def fromDocument (d : Json.Dict) : Except ContractViolation CandidateIdentity :=
  if d.names ≠ ["commit", "subject_id", "tree"] then
    .error ⟨"candidate identity has missing or unsupported fields"⟩
  else
    match textOf d "commit", textOf d "tree" with
    | some commit, some tree =>
      if hgit : isSha commit = true ∧ isSha tree = true then
        match textOf d "subject_id" with
        | some subjectId =>
          if hsubject : isDigest subjectId = true then
            .ok ⟨commit, tree, subjectId, hgit.1, hgit.2, hsubject⟩
          else .error ⟨"candidate subject_id must be lowercase sha256:<64 hex>"⟩
        | none => .error ⟨"candidate subject_id must be lowercase sha256:<64 hex>"⟩
      else .error ⟨"candidate identity requires lowercase 40-hex commit and tree"⟩
    | _, _ => .error ⟨"candidate identity requires lowercase 40-hex commit and tree"⟩

theorem sorted_toJson (c : CandidateIdentity) : c.toJson.Sorted :=
  ⟨c.toDict.ordered, trivial, trivial, trivial, trivial⟩

theorem fromDocument_toDict (c : CandidateIdentity) : fromDocument c.toDict = .ok c := by
  have hnames : c.toDict.names = ["commit", "subject_id", "tree"] := rfl
  have hcommit : textOf c.toDict "commit" = some c.commit := rfl
  have htree : textOf c.toDict "tree" = some c.tree := rfl
  have hsubject : textOf c.toDict "subject_id" = some c.subjectId := rfl
  simp only [fromDocument, hnames, hcommit, htree, hsubject, ne_eq, not_true_eq_false, if_false]
  rw [dif_pos ⟨c.commit_isSha, c.tree_isSha⟩, dif_pos c.subjectId_isDigest]

end CandidateIdentity

/-- The document of a candidate that may be missing. -/
def optionalCandidate : Option CandidateIdentity → Json
  | none => .null
  | some candidate => candidate.toJson

/-- A member that is a candidate or null. -/
def optionalCandidateOf (value : Option Json) :
    Except ContractViolation (Option CandidateIdentity) :=
  match value with
  | some (.obj ms) => (CandidateIdentity.fromDocument (.ofMembers ms)).map some
  | _ => .ok none

/-- The member is an object or null. -/
def isObjectOrNull : Option Json → Bool
  | some (.obj _) | some .null => true
  | _ => false

theorem sorted_optionalCandidate (candidate : Option CandidateIdentity) :
    (optionalCandidate candidate).Sorted := by
  cases candidate with
  | none => trivial
  | some candidate => exact candidate.sorted_toJson

theorem jsonDepth_optionalCandidate_le (candidate : Option CandidateIdentity) :
    jsonDepth (optionalCandidate candidate) ≤ 2 := by
  cases candidate with
  | none => exact Nat.le_succ 1
  | some candidate => exact le_rfl

theorem optionalCandidateOf_optionalCandidate (candidate : Option CandidateIdentity) :
    optionalCandidateOf (some (optionalCandidate candidate)) = .ok candidate := by
  cases candidate with
  | none => rfl
  | some candidate =>
    have hmembers : Json.Dict.ofMembers candidate.toDict.members = candidate.toDict :=
      Json.Dict.ofMembers_members _
    rw [optionalCandidate, CandidateIdentity.toJson, Json.Dict.toJson, optionalCandidateOf,
      hmembers, CandidateIdentity.fromDocument_toDict]
    rfl

theorem isObjectOrNull_optionalCandidate (candidate : Option CandidateIdentity) :
    isObjectOrNull (some (optionalCandidate candidate)) = true := by
  cases candidate <;> rfl

end HiveMind.Runtime
