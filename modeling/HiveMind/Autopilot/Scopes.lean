import HiveMind.Kernel.Contracts
import HiveMind.Lib.Raise

/-!
# Scopes of nodes

A node locks scopes: paths in the repository, of which some are glob patterns. Two scopes overlap if
the part of one before its first wildcard contains that of the other, or matches the other. Texts are
lists of characters here.

Patterns are matched as `fnmatch.fnmatchcase` does: a star goes over slashes, and a bracket that is
not closed stands for itself.
-/

open Raise

namespace HiveMind.Autopilot

/-- What the control plane raises. -/
inductive AutopilotError where
  | autopilotError (message : String)
  | claimError (message : String)
  | valueError (message : String)
  | configurationError (message : String)
  | osError
  deriving DecidableEq

/-! ## Patterns -/

/-- The characters before the first hyphen that has at least `skip` characters before it, and those
behind it. -/
def breakHyphen (skip : ℕ) (cs : List Char) : Option (List Char × List Char) :=
  let rest := cs.drop skip
  if '-' ∈ rest then
    let n := skip + rest.idxOf '-'
    some (cs.take n, cs.drop (n + 1))
  else none

/-- The pieces of a bracket between the hyphens of its ranges. -/
def hyphenChunks : ℕ → ℕ → List Char → List (List Char)
  | 0, _, cs => [cs]
  | fuel + 1, skip, cs =>
    match breakHyphen skip cs with
    | none => [cs]
    | some (chunk, []) => [chunk ++ ['-']]
    | some (chunk, rest) => chunk :: hyphenChunks fuel 2 rest

/-- Pieces that make an empty range are put together, without its ends. -/
def mergeChunks : List (List Char) → List (List Char)
  | [] => []
  | chunk :: chunks =>
    match mergeChunks chunks with
    | [] => [chunk]
    | next :: rest =>
      match chunk.getLast?, next.head? with
      | some low, some high =>
        if high < low then (chunk.dropLast ++ next.tail) :: rest else chunk :: next :: rest
      | _, _ => chunk :: next :: rest

/-- A character is in one of the pieces, or in a range between two of them. -/
def inChunks (c : Char) : List (List Char) → Bool
  | [] => false
  | [chunk] => c ∈ chunk
  | chunk :: next :: chunks =>
    c ∈ chunk || (match chunk.getLast?, next.head? with
      | some low, some high => decide (low ≤ c ∧ c ≤ high)
      | _, _ => false) || inChunks c (next :: chunks)

/-- The characters that the inside of a bracket stands for. -/
def inBracket (stuff : List Char) (c : Char) : Bool :=
  let negated := stuff.head? = some '!'
  if '-' ∈ stuff then
    let chunks := mergeChunks (hyphenChunks stuff.length (if negated then 2 else 1) stuff)
    match chunks with
    | ('!' :: chunk) :: rest => !inChunks c (chunk :: rest)
    | _ => inChunks c chunks
  else if negated then c ∉ stuff.tail
  else c ∈ stuff

/-- The inside of a bracket, and what comes behind it. A closing bracket right at the beginning stands
for itself. -/
def splitBracket (cs : List Char) : Option (List Char × List Char) :=
  let start := match cs with
    | '!' :: ']' :: _ => 2
    | '!' :: _ => 1
    | ']' :: _ => 1
    | _ => 0
  let rest := cs.drop start
  if ']' ∈ rest then
    let n := start + rest.idxOf ']'
    some (cs.take n, cs.drop (n + 1))
  else none

/-- One item of a pattern. -/
inductive GlobItem where
  | star
  | one (accepts : Char → Bool)

def globItems : ℕ → List Char → List GlobItem
  | 0, _ => []
  | _, [] => []
  | fuel + 1, '*' :: cs => .star :: globItems fuel cs
  | fuel + 1, '?' :: cs => .one (fun _ ↦ true) :: globItems fuel cs
  | fuel + 1, '[' :: cs =>
    match splitBracket cs with
    | none => .one (· = '[') :: globItems fuel cs
    | some (stuff, rest) => .one (inBracket stuff) :: globItems fuel rest
  | fuel + 1, c :: cs => .one (· = c) :: globItems fuel cs

def globMatches : List GlobItem → List Char → Bool
  | [], cs => cs.isEmpty
  | .star :: items, cs => cs.tails.any (globMatches items)
  | .one _ :: _, [] => false
  | .one accepts :: items, c :: cs => accepts c && globMatches items cs

/-- `fnmatch.fnmatchcase`. -/
def fnmatchcase (name pattern : List Char) : Bool :=
  globMatches (globItems pattern.length pattern) name

/-! ## Paths -/

/-- `text.strip()`. -/
def strip (cs : List Char) : List Char := (cs.dropWhile isSpace).rdropWhile isSpace

/-- `scope.replace("\\", "/").strip().rstrip("/")`. -/
def normalizeScope (scope : List Char) : List Char :=
  (strip (scope.map fun c ↦ if c = '\\' then '/' else c)).rdropWhile (· = '/')

def isDrive : List Char → Bool
  | letter :: ':' :: '/' :: _ => letter.isAlpha
  | _ => false

def normalizePath (value : List Char) : Except String (List Char) := do
  if strip value = [] then
    throw "path must be non-empty text"
  let raw := strip (value.map fun c ↦ if c = '\\' then '/' else c)
  if raw.head? = some '/' ∨ isDrive raw then
    throw "absolute paths are prohibited"
  let parts := (raw.splitOn '/').filter fun part ↦ part ≠ [] ∧ part ≠ ['.']
  if ['.', '.'] ∈ parts then
    throw "path traversal is prohibited"
  if parts = [] then
    throw "path cannot normalize to repository root"
  return (parts.intersperse ['/']).flatten

def isWildcard (c : Char) : Bool := c = '*' || c = '?' || c = '['

/-- `_scope_static_prefix`. -/
def scopeStaticPrefix (scope : List Char) : Except String (List Char) := do
  let front := ((normalizeScope scope).takeWhile fun c ↦ !isWildcard c).rdropWhile (· = '/')
  if front = [] then
    throw "scope wildcard must retain a repository-relative prefix"
  normalizePath front

/-- `first == second or first.startswith(second + "/")`. -/
def within (first second : List Char) : Bool :=
  first = second || (second ++ ['/']).isPrefixOf first

def pathMatchesScope (path scope : List Char) : Except String Bool := do
  let normalizedPath ← normalizePath path
  let normalizedScope := normalizeScope scope
  if normalizedScope.any isWildcard then
    if ['/', '*', '*'].isSuffixOf normalizedScope then
      let root ← normalizePath (normalizedScope.dropLast.dropLast.dropLast)
      if normalizedPath = root then
        return true
    return fnmatchcase normalizedPath normalizedScope
  let root ← normalizePath normalizedScope
  return within normalizedPath root

def scopesOverlap (first second : List Char) : Except String Bool := do
  let firstRoot ← scopeStaticPrefix first
  let secondRoot ← scopeStaticPrefix second
  if within firstRoot secondRoot || within secondRoot firstRoot then
    return true
  if ← pathMatchesScope firstRoot second then
    return true
  pathMatchesScope secondRoot first

/-- Scopes that were found not to overlap do not overlap the other way round either. -/
theorem scopesOverlap_comm {first second : List Char} (h : scopesOverlap first second = .ok false) :
    scopesOverlap second first = .ok false := by
  simp only [scopesOverlap, bind_eq_ok] at h ⊢
  obtain ⟨firstRoot, hfirst, secondRoot, hsecond, h⟩ := h
  refine ⟨secondRoot, hsecond, firstRoot, hfirst, ?_⟩
  rw [Bool.or_comm]
  split at h
  · exact nomatch h
  · next hapart =>
    rw [if_neg hapart]
    obtain ⟨matched, hmatched, h⟩ := bind_eq_ok.mp h
    refine bind_eq_ok.mpr ⟨false, ?_, ?_⟩
    · split at h
      · exact nomatch h
      · exact h
    · split at h
      · exact nomatch h
      · next hnot =>
        rw [Bool.not_eq_true] at hnot
        rw [hnot] at hmatched
        exact hmatched

example : scopesOverlap "src/a.py".toList "src/*.py".toList = .ok true := by decide +kernel

example : scopesOverlap "src/a/**".toList "src/b".toList = .ok false := by decide +kernel

end HiveMind.Autopilot
