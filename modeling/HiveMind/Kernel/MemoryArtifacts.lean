import HiveMind.Kernel.Contracts
import HiveMind.Lib.Dicts
import HiveMind.Lib.Raise
import HiveMind.Lib.TextFiles

/-!
# Memory artifacts

The body of a memory record is stored under the digest of its bytes. Bodies are written as bytes and
read as text, and the reader computes the digest again. Reading as text takes every kind of line end
for a newline, so a body with a carriage return does not come back: what was read has another
digest, unless the hash collides, and is another text in any case.

* **`artifact_returned_iff`**: exactly the bodies without a carriage return are read back.
-/

open Raise Dicts

namespace HiveMind.Memory

/-- What an operation on memory raises. A denial is a `ValueError` of its own class. -/
inductive MemoryError where
  | denied (message : String)
  | valueError (message : String)
  | keyError (message : String)
  | unicodeDecodeError
  | overflowError
  deriving DecidableEq, Repr

/-! ## Secrets -/

/-- The Unicode database, which says of which characters `str.isalnum` is true. -/
class Unicode where
  isAlnum : Char → Bool

section Secrets

variable [Unicode]

/-- `\w`. -/
def isWordChar (c : Char) : Bool := Unicode.isAlnum c || c == '_'

/-- `\b` between two characters, of which either may be missing. -/
def isBoundary (previous next : Option Char) : Bool :=
  previous.any isWordChar != next.any isWordChar

/-- A character that matches a lower case letter when case is ignored. Four characters outside ASCII
do. -/
def matchesLetter (letter c : Char) : Bool :=
  c == letter || c == letter.toUpper || letter == 'i' && (c == '\u0130' || c == '\u0131') ||
    letter == 'k' && c == '\u212A' || letter == 's' && c == '\u017F'

/-- What follows a word, in which a question mark stands for `[_-]?`. -/
def dropWord : List Char → List Char → List (List Char)
  | [], cs => [cs]
  | '?' :: word, cs => dropWord word cs ++ match cs with
    | c :: cs => if c == '_' || c == '-' then dropWord word cs else []
    | [] => []
  | _ :: _, [] => []
  | letter :: word, c :: cs => if matchesLetter letter c then dropWord word cs else []

/-- `\s*[:=]\s*\S+`. -/
def startsAssignment (cs : List Char) : Bool :=
  match cs.dropWhile isSpace with
  | c :: cs => (c == ':' || c == '=') && cs.any fun c ↦ !isSpace c
  | [] => false

/-- `[a-z0-9_-]{8,}`, case ignored. -/
def startsToken (cs : List Char) : Bool :=
  (cs.take 8).length == 8 && (cs.take 8).all fun c ↦
    isAsciiAlnum c || c == '_' || c == '-' || c == '\u0130' || c == '\u0131' || c == '\u212A' ||
      c == '\u017F'

/-- `_SECRET` matches at a place, of which the character before is given. -/
def secretAt (previous : Option Char) (cs : List Char) : Bool :=
  isBoundary previous cs.head? &&
    (["api?key", "password", "secret", "access?token"].any (fun word ↦
        (dropWord word.toList cs).any startsAssignment) ||
      ["sk_", "ghp_", "github_pat_"].any fun word ↦ (dropWord word.toList cs).any startsToken)

/-- `_SECRET.search`. -/
def hasSecret (previous : Option Char) : List Char → Bool
  | [] => secretAt previous []
  | c :: cs => secretAt previous (c :: cs) || hasSecret (some c) cs

end Secrets

/-! ## The store -/

/-- The files below the root, by their paths. -/
abbrev ArtifactFiles := List (String × List UInt8)

/-- `estimate_tokens`, of encoded text. -/
def estimateTokens (bytes : List UInt8) : ℕ := (bytes.length + 3) / 4

/-- `MemoryArtifact`. -/
structure MemoryArtifact where
  digest : String
  tokenCount : ℕ
  deriving DecidableEq

def transcriptKinds : List String := ["model_transcript", "raw_transcript", "tool_transcript"]

/-- `_path`. -/
def artifactPath (digest : String) : Except MemoryError String :=
  if isDigest digest then
    let value := digest.toList.drop 7
    .ok ("memory/artifacts/sha256/" ++ String.ofList (value.take 2) ++ "/" ++ String.ofList value)
  else .error (.valueError "artifact reference must be a sha256 digest")

section Store

variable [Hash256]

/-- The digest of the bytes of a text. -/
def textDigest (text : String) : String := "sha256:" ++ Hash256.hexdigest text.toList

/-- `put`. A text that is stored is stored as the same bytes, unless the file was changed. -/
def put [Unicode] (files : ArtifactFiles) (body contentKind : String) :
    Except MemoryError (MemoryArtifact × ArtifactFiles) := do
  if body = "" then
    throw (.denied "memory body must be non-empty UTF-8 text")
  if contentKind ∈ transcriptKinds then
    throw (.denied "raw transcripts cannot enter durable memory")
  if hasSecret none body.toList then
    throw (.denied "secret-like data cannot enter durable memory")
  let encoded := encodeText body
  let digest := textDigest body
  let target ← artifactPath digest
  match files.lookup target with
  | none => return (⟨digest, estimateTokens encoded⟩, setItem target encoded files)
  | some bytes =>
    if bytes ≠ encoded then
      throw (.denied "content-addressed evidence cannot be rewritten")
    return (⟨digest, estimateTokens encoded⟩, files)

/-- `get`. -/
def get (files : ArtifactFiles) (digest : String) : Except MemoryError String := do
  let target ← artifactPath digest
  match files.lookup target with
  | none => throw (.keyError ("unknown memory artifact: " ++ digest))
  | some bytes =>
    match readText bytes with
    | none => throw .unicodeDecodeError
    | some body =>
      if textDigest body ≠ digest then
        throw (.denied "memory artifact digest mismatch")
      return body

/-! ## What is read back -/

section Back

variable {files : ArtifactFiles} {body digest : String}

theorem isDigest_textDigest (text : String) : isDigest (textDigest text) = true :=
  isDigest_hexdigest text.toList

omit [Hash256] in
theorem notMem_universalNewlines (cs : List Char) : '\r' ∉ universalNewlines cs := by
  fun_induction universalNewlines cs with
  | case1 => exact List.not_mem_nil
  | case2 cs ih => exact List.not_mem_cons_of_ne_of_not_mem (by decide) ih
  | case3 cs hnot ih => exact List.not_mem_cons_of_ne_of_not_mem (by decide) ih
  | case4 c cs hnot hne ih => exact List.not_mem_cons_of_ne_of_not_mem (Ne.symm hne) ih

omit [Hash256] in
/-- What text mode reads of a text is the text, if there is no carriage return in it. -/
theorem readText_encodeText_eq_self_iff {text : String} :
    readText (encodeText text) = some text ↔ '\r' ∉ text.toList := by
  refine ⟨fun h hmem ↦ ?_, readText_encodeText⟩
  rw [readText, decodeText_eq_some.mpr rfl, Option.map_some] at h
  have htext := congrArg String.toList (Option.some.inj h)
  rw [String.toList_ofList] at htext
  have hnot := notMem_universalNewlines text.toList
  rw [htext] at hnot
  exact hnot hmem

/-- A body that is read is a text that its file holds. -/
theorem get_eq_ok : get files digest = .ok body ↔ ∃ target bytes,
    artifactPath digest = .ok target ∧ files.lookup target = some bytes ∧
      readText bytes = some body ∧ textDigest body = digest := by
  rw [get, bind_eq_ok]
  constructor
  · rintro ⟨target, htarget, h⟩
    rcases hbytes : files.lookup target with _ | bytes
    · rw [hbytes] at h
      exact nomatch h
    rw [hbytes] at h
    rcases hread : readText bytes with _ | text
    · simp only [hread] at h
      exact nomatch h
    simp only [hread, guard_eq_ok, pure_eq_ok, not_not] at h
    obtain ⟨hdigest, rfl⟩ := h
    exact ⟨target, bytes, htarget, hbytes, hread, hdigest⟩
  · rintro ⟨target, bytes, htarget, hbytes, hread, hdigest⟩
    refine ⟨target, htarget, ?_⟩
    simp only [hbytes, hread, guard_eq_ok, pure_eq_ok, not_not]
    exact ⟨hdigest, trivial⟩

/-- What is accepted is stored under its digest, as its bytes. -/
theorem stored_of_put [Unicode] {contentKind : String} {artifact : MemoryArtifact}
    {files' : ArtifactFiles} (h : put files body contentKind = .ok (artifact, files')) :
    artifact.digest = textDigest body ∧ ∃ target, artifactPath (textDigest body) = .ok target ∧
      files'.lookup target = some (encodeText body) := by
  simp only [put, guard_eq_ok, bind_eq_ok] at h
  obtain ⟨-, -, -, target, htarget, h⟩ := h
  rcases hbytes : files.lookup target with _ | bytes
  · simp only [hbytes, pure_eq_ok, Prod.mk.injEq] at h
    obtain ⟨rfl, rfl⟩ := h
    refine ⟨rfl, target, htarget, ?_⟩
    rw [lookup_setItem, if_pos rfl]
  · simp only [hbytes, guard_eq_ok, pure_eq_ok, not_not, Prod.mk.injEq] at h
    obtain ⟨rfl, rfl, rfl⟩ := h
    exact ⟨rfl, target, htarget, hbytes⟩

/-- **A body is returned exactly when there is no carriage return in it.** -/
theorem artifact_returned_iff [Unicode] {contentKind : String} {artifact : MemoryArtifact}
    {files' : ArtifactFiles} (h : put files body contentKind = .ok (artifact, files'))
    (later : ArtifactFiles) (hlater : ∀ target, artifactPath artifact.digest = .ok target →
      later.lookup target = files'.lookup target) :
    get later artifact.digest = .ok body ↔ '\r' ∉ body.toList := by
  obtain ⟨hdigest, target, htarget, hstored⟩ := stored_of_put h
  have hlater := hlater target (hdigest ▸ htarget)
  rw [get_eq_ok, hdigest, ← readText_encodeText_eq_self_iff]
  constructor
  · rintro ⟨target', bytes, htarget', hbytes, hread, -⟩
    obtain rfl := Except.ok.inj (htarget.symm.trans htarget')
    obtain rfl := Option.some.inj (hbytes.symm.trans (hlater.trans hstored))
    exact hread
  · intro hread
    exact ⟨target, _, htarget, hlater.trans hstored, hread, rfl⟩

/-- The first body of a store is accepted, if the checks of its text are passed. -/
theorem exists_put_nil [Unicode] {contentKind : String} (hempty : body ≠ "")
    (hkind : contentKind ∉ transcriptKinds) (hsecret : hasSecret none body.toList = false) :
    ∃ artifact files, put [] body contentKind = .ok (artifact, files) := by
  obtain ⟨target, htarget⟩ : ∃ target, artifactPath (textDigest body) = .ok target :=
    ⟨_, if_pos (isDigest_textDigest body)⟩
  refine ⟨⟨textDigest body, estimateTokens (encodeText body)⟩,
    setItem target (encodeText body) [], ?_⟩
  simp only [put, guard_eq_ok, bind_eq_ok, hsecret]
  exact ⟨hempty, hkind, Bool.false_ne_true, target, htarget, rfl⟩

end Back

end Store

/-! ## A body with carriage returns -/

/-- The database, as far as ASCII goes. -/
abbrev asciiUnicode : Unicode := ⟨isAsciiAlnum⟩

theorem artifact_lost : ∃ artifact files,
    @put _ asciiUnicode [] "one\r\ntwo" "evidence" = .ok (artifact, files) ∧
      get files artifact.digest ≠ .ok "one\r\ntwo" := by
  obtain ⟨artifact, files, hput⟩ := @exists_put_nil _ "one\r\ntwo" asciiUnicode
    "evidence" (by decide) (by decide) (by decide)
  refine ⟨artifact, files, hput, fun hget ↦ ?_⟩
  obtain ⟨hdigest, target, htarget, hstored⟩ := @stored_of_put _ _ _ asciiUnicode _ _ _ hput
  obtain ⟨target', bytes, htarget', hbytes, hread, -⟩ := get_eq_ok.mp hget
  rw [hdigest] at htarget'
  obtain rfl := Except.ok.inj (htarget.symm.trans htarget')
  obtain rfl := Option.some.inj (hbytes.symm.trans hstored)
  exact readText_encodeText_eq_self_iff.mp hread (by decide)

/-- A body in which every line ends with a newline is returned. -/
theorem artifact_kept : ∃ artifact files,
    @put _ asciiUnicode [] "one\ntwo" "evidence" = .ok (artifact, files) ∧
      (get files artifact.digest = .ok "one\ntwo" ↔ '\r' ∉ "one\ntwo".toList) := by
  obtain ⟨artifact, files, hput⟩ := @exists_put_nil _ "one\ntwo" asciiUnicode
    "evidence" (by decide) (by decide) (by decide)
  exact ⟨artifact, files, hput,
    @artifact_returned_iff _ _ _ asciiUnicode _ _ _ hput files fun _ _ ↦ rfl⟩

end HiveMind.Memory
