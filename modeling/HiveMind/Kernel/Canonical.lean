import HiveMind.Lib.JsonText
import HiveMind.Lib.Sha256

/-!
# Canonical encoding of kernel values

The kernel identifies values by the SHA-256 digest of one JSON text. A Python value is first made
plain, which turns tuples into lists and sorts the members of every dict, and then written without
blanks. Both steps can fail on values JSON has no spelling for, and then nothing is encoded.

Two values have the same text exactly when they have the same plain form
(`canonicalBytes_eq_iff`). Where the kernel compares texts it therefore compares documents, and a
tuple is no different from a list with the same items.
-/

namespace HiveMind

/-! ## Exceptions -/

/-- The exception classes that reach a caller of the modelled code. -/
inductive ExcKind where
  | valueError
  | typeError
  | keyError
  | overflowError
  | attributeError
  | sqliteIntegrityError
  | kernelIntegrityError
  | authorityDenied
  | effectReconciliationRequired
  deriving DecidableEq, Repr

structure Exc where
  kind : ExcKind
  message : String
  deriving DecidableEq, Repr

def valueError (message : String) : Exc := ⟨.valueError, message⟩

def typeError (message : String) : Exc := ⟨.typeError, message⟩

def keyError (key : String) : Exc := ⟨.keyError, key⟩

def kernelIntegrityError (message : String) : Exc := ⟨.kernelIntegrityError, message⟩

def authorityDenied (message : String) : Exc := ⟨.authorityDenied, message⟩

/-! ## Python values -/

/-- A value a caller can put into a payload. Enum members and dataclass instances are represented
by the value or the dict that `_plain` turns them into. A dict is the list of its items, of which
the last one of a key counts. `unserializable` is any value that `json.dumps` refuses with the arguments
the kernel gives it: bytes, sets, arbitrary objects, and the non-finite floats. -/
inductive PyValue where
  | none
  | bool (b : Bool)
  | int (n : Int)
  | float (x : Decimal)
  | str (s : String)
  | list (xs : List PyValue)
  | tuple (xs : List PyValue)
  | dict (items : List (String × PyValue))
  | unserializable

namespace PyValue

/-- The largest number of decimal digits the interpreter converts to text. -/
def maxStrDigits : Nat := 4300

mutual

/-- `_plain`, and the refusals of `json.dumps` on what is left. -/
def plain : PyValue → Except Exc Json
  | .none => .ok .null
  | .bool b => .ok (.bool b)
  | .int n =>
    if (Nat.toDigits 10 n.natAbs).length ≤ maxStrDigits then .ok (.int n)
    else .error (valueError "Exceeds the limit (4300 digits) for integer string conversion")
  | .float x => .ok (.float x)
  | .str s => .ok (.str s)
  | .list xs | .tuple xs => (plainList xs).map .arr
  | .dict items => (plainItems items).map Json.mkObj
  | .unserializable => .error (typeError "Object is not JSON serializable")

def plainList : List PyValue → Except Exc (List Json)
  | [] => .ok []
  | x :: xs =>
    match plain x with
    | .error e => .error e
    | .ok j => (plainList xs).map (j :: ·)

def plainItems : List (String × PyValue) → Except Exc (List (String × Json))
  | [] => .ok []
  | (k, x) :: items =>
    match plain x with
    | .error e => .error e
    | .ok j => (plainItems items).map ((k, j) :: ·)

end

theorem map_eq_ok {α β : Type} {x : Except Exc α} {f : α → β} {b : β} (h : x.map f = .ok b) :
    ∃ a, x = .ok a ∧ f a = b := by
  cases x with
  | error e => exact absurd h (by simp [Except.map])
  | ok a => exact ⟨a, rfl, by simpa [Except.map] using h⟩

mutual

/-- What comes out plain has its members in order. -/
theorem sorted_of_plain : ∀ {v : PyValue} {j : Json}, plain v = .ok j → j.Sorted
  | .none, j, h | .bool _, j, h | .float _, j, h | .str _, j, h => by
    rw [plain] at h
    obtain rfl := Except.ok.inj h
    trivial
  | .int n, j, h => by
    rw [plain] at h
    split at h
    · obtain rfl := Except.ok.inj h
      trivial
    · exact absurd h (by simp)
  | .list xs, j, h => by
    rw [plain] at h
    obtain ⟨ys, hys, rfl⟩ := map_eq_ok h
    exact sortedList_of_plainList hys
  | .tuple xs, j, h => by
    rw [plain] at h
    obtain ⟨ys, hys, rfl⟩ := map_eq_ok h
    exact sortedList_of_plainList hys
  | .dict items, j, h => by
    rw [plain] at h
    obtain ⟨ms, hms, rfl⟩ := map_eq_ok h
    exact Json.sorted_mkObj (Json.sortedMembers_iff.mp (sortedMembers_of_plainItems hms))
  | .unserializable, j, h => by
    rw [plain] at h
    exact absurd h (by simp)

theorem sortedList_of_plainList : ∀ {xs : List PyValue} {ys : List Json},
    plainList xs = .ok ys → Json.SortedList ys
  | [], ys, h => by
    rw [plainList] at h
    obtain rfl := Except.ok.inj h
    trivial
  | x :: xs, ys, h => by
    rw [plainList] at h
    split at h
    · exact absurd h (by simp)
    · next j hj =>
      obtain ⟨zs, hzs, rfl⟩ := map_eq_ok h
      exact ⟨sorted_of_plain hj, sortedList_of_plainList hzs⟩

theorem sortedMembers_of_plainItems : ∀ {items : List (String × PyValue)}
    {ms : List (String × Json)}, plainItems items = .ok ms → Json.SortedMembers ms
  | [], ms, h => by
    rw [plainItems] at h
    obtain rfl := Except.ok.inj h
    trivial
  | (k, x) :: items, ms, h => by
    rw [plainItems] at h
    split at h
    · exact absurd h (by simp)
    · next j hj =>
      obtain ⟨ns, hns, rfl⟩ := map_eq_ok h
      exact ⟨sorted_of_plain hj, sortedMembers_of_plainItems hns⟩

end

end PyValue

theorem plainList_str (xs : List String) :
    PyValue.plainList (xs.map .str) = .ok (xs.map .str) := by
  induction xs with
  | nil => rfl
  | cons x xs ih =>
    rw [List.map_cons, PyValue.plainList, PyValue.plain, ih]
    rfl

/-! ## Text and digest -/

/-- `canonical_bytes`. The bytes are kept as the text they are the UTF-8 encoding of. -/
def canonicalBytes (v : PyValue) : Except Exc String := v.plain.map Json.dumps

/-- `canonicalBytes` of a value that is plain already, such as one that was read from a text. -/
def jsonBytes (j : Json) : String := j.dumps

/-- Values have the same canonical text exactly when they have the same plain form. -/
theorem canonicalBytes_eq_iff {v w : PyValue} {j k : Json} (hv : v.plain = .ok j)
    (hw : w.plain = .ok k) : canonicalBytes v = canonicalBytes w ↔ j = k := by
  rw [canonicalBytes, canonicalBytes, hv, hw, Except.map, Except.map, Except.ok.injEq]
  exact Json.dumps_inj (PyValue.sorted_of_plain hv) (PyValue.sorted_of_plain hw)

/-- The text of an object from the texts of its members. -/
def objectText : List (String × List Char) → List Char
  | [] => ['\x7b', '\x7d']
  | (k, x) :: ms => '\x7b' :: (Json.strChars k ++ ':' :: (x ++ rest ms))
where
  rest : List (String × List Char) → List Char
    | [] => ['\x7d']
    | (k, x) :: ms => ',' :: (Json.strChars k ++ ':' :: (x ++ rest ms))

theorem chars_obj (ms : List (String × Json)) :
    (Json.obj ms).chars = objectText (ms.map fun m ↦ (m.1, m.2.chars)) := by
  have hrest : ∀ ms : List (String × Json),
      Json.membersChars ms = objectText.rest (ms.map fun m ↦ (m.1, m.2.chars)) := by
    intro ms
    induction ms with
    | nil =>
      rw [Json.membersChars]
      rfl
    | cons m ms ih =>
      rw [Json.membersChars, ih]
      rfl
  cases ms with
  | nil =>
    rw [Json.chars]
    rfl
  | cons m ms =>
    rw [Json.chars, hrest]
    rfl

theorem chars_str (s : String) : (Json.str s).chars = Json.strChars s := by rw [Json.chars]

theorem chars_int (n : Int) : (Json.int n).chars = Json.intChars n := by rw [Json.chars]

def digestOfHex (hex : List Char) : String := "sha256:" ++ String.ofList hex

/-- The text of a digest from its hexadecimal digits. -/
def digestText (hex : List Char) : List Char :=
  '"' :: ("sha256:".toList ++ hex).flatMap Json.escapeChar ++ ['"']

theorem strChars_digestOfHex (hex : List Char) :
    Json.strChars (digestOfHex hex) = digestText hex := by
  have hlist : (String.ofList hex).toList = hex := String.toList_ofList
  rw [Json.strChars, digestOfHex, String.toList_append, hlist, digestText]

theorem digestOfHex_injective : Function.Injective digestOfHex := by
  intro hex hex' h
  have hlist := congrArg String.toList h
  simpa [digestOfHex] using hlist

variable [Hash256]

/-- `canonical_digest` of a plain value. -/
def jsonDigest (j : Json) : String := "sha256:" ++ Hash256.hexdigest j.chars

def canonicalDigest (v : PyValue) : Except Exc String := v.plain.map jsonDigest

end HiveMind
