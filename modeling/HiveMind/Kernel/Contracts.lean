import HiveMind.Kernel.Canonical

/-!
# Kernel contracts

The states, the identifier, digest, time and path checks, and the contracts that the reducer and
the effect boundary construct. A contract is a structure whose last fields are the checks of its
`__post_init__`, so a value that fails them does not exist.

Text is checked character by character on the list of its characters. The patterns of the source
are all anchored at the end with `\Z`, so none of them lets a trailing newline through.
-/

namespace HiveMind

/-! ## States -/

inductive MissionState where
  | created
  | planning
  | ready
  | running
  | verifying
  | integrating
  | completed
  | waitingHuman
  | paused
  | failed
  | cancelled
  | rollingBack
  deriving DecidableEq, Repr

def MissionState.value : MissionState → String
  | created => "CREATED"
  | planning => "PLANNING"
  | ready => "READY"
  | running => "RUNNING"
  | verifying => "VERIFYING"
  | integrating => "INTEGRATING"
  | completed => "COMPLETED"
  | waitingHuman => "WAITING_HUMAN"
  | paused => "PAUSED"
  | failed => "FAILED"
  | cancelled => "CANCELLED"
  | rollingBack => "ROLLING_BACK"

def MissionState.all : List MissionState :=
  [created, planning, ready, running, verifying, integrating, completed, waitingHuman, paused,
    failed, cancelled, rollingBack]

inductive WorkState where
  | proposed
  | ready
  | leased
  | running
  | awaitingVerification
  | accepted
  | integrated
  | blockedDependency
  | waitingHuman
  | retryableFailed
  | terminalFailed
  | cancelled
  | superseded
  deriving DecidableEq, Repr

def WorkState.value : WorkState → String
  | proposed => "PROPOSED"
  | ready => "READY"
  | leased => "LEASED"
  | running => "RUNNING"
  | awaitingVerification => "AWAITING_VERIFICATION"
  | accepted => "ACCEPTED"
  | integrated => "INTEGRATED"
  | blockedDependency => "BLOCKED_DEPENDENCY"
  | waitingHuman => "WAITING_HUMAN"
  | retryableFailed => "RETRYABLE_FAILED"
  | terminalFailed => "TERMINAL_FAILED"
  | cancelled => "CANCELLED"
  | superseded => "SUPERSEDED"

def WorkState.all : List WorkState :=
  [proposed, ready, leased, running, awaitingVerification, accepted, integrated,
    blockedDependency, waitingHuman, retryableFailed, terminalFailed, cancelled, superseded]

inductive EvaluationState where
  | sealed
  | passed
  | failed
  | abstained
  deriving DecidableEq, Repr

def EvaluationState.value : EvaluationState → String
  | sealed => "SEALED"
  | passed => "PASSED"
  | failed => "FAILED"
  | abstained => "ABSTAINED"

def EvaluationState.all : List EvaluationState := [sealed, passed, failed, abstained]

/-- The member of an enum with the given value: `Enum(value)`, which raises on any other. -/
def enumOf {α : Type} (all : List α) (value : α → String) (name : String) (j : Json) :
    Except Exc α :=
  match all.find? fun a ↦ j = .str (value a) with
  | some a => .ok a
  | none => .error (valueError (j.dumps ++ " is not a valid " ++ name))

def MissionState.ofJson (j : Json) : Except Exc MissionState :=
  enumOf MissionState.all MissionState.value "MissionState" j

def WorkState.ofJson (j : Json) : Except Exc WorkState :=
  enumOf WorkState.all WorkState.value "WorkState" j

def EvaluationState.ofJson (j : Json) : Except Exc EvaluationState :=
  enumOf EvaluationState.all EvaluationState.value "EvaluationState" j

theorem enumOf_ok {α : Type} {all : List α} {value : α → String} {name : String} {j : Json}
    {a : α} (h : enumOf all value name j = .ok a) : j = .str (value a) := by
  rw [enumOf] at h
  split at h
  · next b hb =>
    obtain rfl := Except.ok.inj h
    simpa using List.find?_some hb
  · exact absurd h (by simp)

/-! ## Text -/

/-- The characters that `str.strip` removes and `str.isspace` accepts. -/
def isSpace (c : Char) : Bool :=
  let n := c.toNat
  (9 ≤ n && n ≤ 13) || (28 ≤ n && n ≤ 32) || n == 0x85 || n == 0xA0 || n == 0x1680 ||
    (0x2000 ≤ n && n ≤ 0x200A) || n == 0x2028 || n == 0x2029 || n == 0x202F || n == 0x205F ||
    n == 0x3000

/-- `_require`: a string that is more than blanks. -/
def isRequired (s : String) : Bool := s.toList.any fun c ↦ !isSpace c

def isHexOfLength (n : Nat) (cs : List Char) : Bool :=
  cs.length == n && cs.all Hash256.isLowerHex

/-- `_digest`: `sha256:` and 64 lowercase hexadecimal digits. -/
def isDigest (s : String) : Bool :=
  s.toList.take 7 == "sha256:".toList && isHexOfLength 64 (s.toList.drop 7)

theorem isDigest_digestOfHex {hex : List Char} (hlength : hex.length = 64)
    (hall : ∀ c ∈ hex, Hash256.isLowerHex c = true) : isDigest (digestOfHex hex) = true := by
  have hhex : (String.ofList hex).toList = hex := String.toList_ofList
  have hlist : (digestOfHex hex).toList = "sha256:".toList ++ hex := by
    rw [digestOfHex, String.toList_append, hhex]
  rw [isDigest, hlist, List.take_left' (by rfl), List.drop_left' (by rfl), isHexOfLength, hlength]
  simpa using hall

theorem isDigest_hexdigest [Hash256] (text : List Char) :
    isDigest ("sha256:" ++ Hash256.hexdigest text) = true := by
  have hhex : (Hash256.hexdigest text).toList = Hash256.hexChars text := String.toList_ofList
  have hlength := Hash256.length_hexdigest text
  have hall := Hash256.all_isLowerHex_hexdigest text
  rw [hhex] at hlength hall
  exact isDigest_digestOfHex hlength hall

/-- Every digest the kernel computes passes the kernel's digest check. -/
theorem isDigest_jsonDigest [Hash256] (j : Json) : isDigest (jsonDigest j) = true :=
  isDigest_hexdigest j.chars

/-- `_sha`: 40 lowercase hexadecimal digits. -/
def isSha (s : String) : Bool := isHexOfLength 40 s.toList

def isAsciiAlnum (c : Char) : Bool :=
  ('A' ≤ c && c ≤ 'Z') || ('a' ≤ c && c ≤ 'z') || ('0' ≤ c && c ≤ '9')

/-- What follows the prefix of an identifier: a letter or digit, and then also dots, underscores
and hyphens. -/
def isIdTail : List Char → Bool
  | [] => false
  | c :: cs => isAsciiAlnum c &&
      cs.all fun c ↦ isAsciiAlnum c || c == '.' || c == '_' || c == '-'

/-- The kinds of identifier that the contracts of this development use. -/
inductive IdKind where
  | mission
  | work
  | authority
  | attempt
  deriving DecidableEq, Repr

def IdKind.head : IdKind → String
  | mission => "MISSION-"
  | work => "WORK-"
  | authority => "AUTH-"
  | attempt => "ATTEMPT-"

/-- `_identifier`. -/
def isIdentifier (kind : IdKind) (s : String) : Bool :=
  let head := kind.head.toList
  s.toList.take head.length == head && isIdTail (s.toList.drop head.length)

def roleNames : List String :=
  ["orchestrator", "explorer", "architect", "builder", "curator", "integrator", "steward",
    "optimizer"]

/-- `_role`. -/
def isRole (s : String) : Bool := roleNames.contains s

/-! ## Time -/

def isLeapYear (y : Nat) : Bool := y % 4 == 0 && (y % 100 != 0 || y % 400 == 0)

def daysInMonth (y m : Nat) : Nat :=
  if m == 2 then (if isLeapYear y then 29 else 28)
  else if m == 4 || m == 6 || m == 9 || m == 11 then 30
  else 31

/-- The number of days before a date, counted from 1 January of year 1. -/
def ordinal (y m d : Nat) : Nat :=
  (y - 1) * 365 + (y - 1) / 4 - (y - 1) / 100 + (y - 1) / 400 +
    ((List.range (m - 1)).map fun i ↦ daysInMonth y (i + 1)).sum + d

def readDigits (n : Nat) (cs : List Char) : Option (Nat × List Char) :=
  if (cs.take n).length == n && (cs.take n).all Char.isDigit then
    some (Nat.ofDigitChars 10 (cs.take n) 0, cs.drop n)
  else none

def readChar (c : Char) : List Char → Option (List Char)
  | [] => none
  | d :: cs => if d = c then some cs else none

/-- The fraction of a second in microseconds, of which further digits are cut off. -/
def readFraction (cs : List Char) : Option (Nat × List Char) :=
  match cs with
  | '.' :: cs =>
    let ds := cs.takeWhile Char.isDigit
    if ds.isEmpty then none
    else some (Nat.ofDigitChars 10 ((ds ++ List.replicate 6 '0').take 6) 0,
      cs.dropWhile Char.isDigit)
  | cs => some (0, cs)

/-- The offset from UTC in minutes, which has to stay within a day. -/
def readOffset (cs : List Char) : Option Int :=
  match cs with
  | ['Z'] => some 0
  | sign :: cs => do
    let (h, cs) ← readDigits 2 cs
    let cs ← readChar ':' cs
    let (m, cs) ← readDigits 2 cs
    if cs.isEmpty && (sign == '+' || sign == '-') && h * 60 + m < 1440 then
      some (if sign == '-' then -((h * 60 + m : Nat) : Int) else ((h * 60 + m : Nat) : Int))
    else none
  | [] => none

/-- An instant, in microseconds. Of the forms `datetime.fromisoformat` accepts these are the RFC
3339 ones, which is what the contracts ask for and what the clocks write. -/
def instantOf (s : String) : Option Int := do
  let (y, cs) ← readDigits 4 s.toList
  let cs ← readChar '-' cs
  let (m, cs) ← readDigits 2 cs
  let cs ← readChar '-' cs
  let (d, cs) ← readDigits 2 cs
  let cs ← readChar 'T' cs
  let (hh, cs) ← readDigits 2 cs
  let cs ← readChar ':' cs
  let (mm, cs) ← readDigits 2 cs
  let cs ← readChar ':' cs
  let (ss, cs) ← readDigits 2 cs
  let (us, cs) ← readFraction cs
  let offset ← readOffset cs
  if 1 ≤ y && 1 ≤ m && m ≤ 12 && 1 ≤ d && d ≤ daysInMonth y m && hh ≤ 23 && mm ≤ 59 && ss ≤ 59
  then some (((ordinal y m d * 86400 + hh * 3600 + mm * 60 + ss : Nat) - offset * 60) * 1000000
    + us)
  else none

/-- `_time`. -/
def isTime (s : String) : Bool := (instantOf s).isSome

/-! ## Paths -/

/-- The pieces of a text between the occurrences of a character: `str.split`. -/
def splitOn (sep : Char) : List Char → List (List Char)
  | [] => [[]]
  | c :: cs =>
    if c = sep then [] :: splitOn sep cs
    else match splitOn sep cs with
      | [] => [[c]]
      | part :: parts => (c :: part) :: parts

/-- An absolute Windows path or a drive-relative one. -/
def startsWithDrive : List Char → Bool
  | c :: ':' :: _ => ('A' ≤ c && c ≤ 'Z') || ('a' ≤ c && c ≤ 'z')
  | _ => false

def isUnsafeSegment (part : List Char) : Bool :=
  part == [] || part == ['.'] || part == ['.', '.']

/-- `normalize_portable_path`. Since no segment is empty or a dot, joining the segments again gives
the text back. -/
def normalizePortablePath (value : String) : Except Exc String :=
  let path := value.toList.map fun c ↦ if c = '\\' then '/' else c
  if value = "" then .error (valueError "path is required")
  else if path.head? = some '/' || startsWithDrive path then
    .error (valueError "path must be relative")
  else if (splitOn '/' path).any isUnsafeSegment then
    .error (valueError "path has unsafe segments")
  else .ok (String.ofList path)

def windowsReservedNames : List String :=
  ["CON", "PRN", "AUX", "NUL"] ++ (List.range 9).map (fun i ↦ "COM" ++ toString (i + 1)) ++
    (List.range 9).map fun i ↦ "LPT" ++ toString (i + 1)

def isPortableSegment (part : List Char) : Bool :=
  part.all (fun c ↦ isAsciiAlnum c || c == '.' || c == '_' || c == ' ' || c == '-') &&
    part.getLast? != some ' ' && part.getLast? != some '.' &&
    !windowsReservedNames.contains (String.ofList ((part.takeWhile (· != '.')).map Char.toUpper))

/-- `portable_path_parts` accepts the value. -/
def isPortablePath (value : String) : Bool :=
  let cs := value.toList
  value != "" && cs.head? != some '/' && !cs.contains '\\' && !startsWithDrive cs &&
    (splitOn '/' cs).all fun part ↦ !isUnsafeSegment part && isPortableSegment part

end HiveMind
