import HiveMind.Lib.JsonScan

/-!
# Text files

A text is written as its UTF-8 bytes and read by decoding them and by taking every kind of line end
for a newline. A file that a writer did not finish holds some first part of the bytes.

* **`loads_readText_dumps_of_prefix`**: the canonical text of an object is not read from a file that
  holds only part of its bytes.
-/

/-! ## Bytes -/

/-- `text.encode("utf-8")`. -/
def encodeText (text : String) : List UInt8 := text.toList.flatMap String.utf8EncodeChar

/-- `bytes.decode("utf-8")`, which refuses bytes that no text has. -/
def decodeText (bytes : List UInt8) : Option String := String.fromUTF8? bytes.toByteArray

theorem toByteArray_encodeText (text : String) :
    (encodeText text).toByteArray = text.toByteArray :=
  String.utf8Encode_toList

theorem decodeText_eq_some {bytes : List UInt8} {text : String} :
    decodeText bytes = some text ↔ bytes = encodeText text := by
  constructor
  · intro h
    rw [decodeText, String.fromUTF8?] at h
    split at h
    · have htext := Option.some.inj h
      have hbytes : bytes.toByteArray = (encodeText text).toByteArray := by
        rw [toByteArray_encodeText, ← htext]
        rfl
      exact List.toByteArray_inj.mp hbytes
    · exact nomatch h
  · rintro rfl
    rw [decodeText, String.fromUTF8?, toByteArray_encodeText, dif_pos text.isValidUTF8]
    rfl

/-- What part of the bytes decode to is part of the text. -/
theorem prefix_of_decodeText {bytes : List UInt8} {text part : String}
    (hbytes : bytes <+: encodeText text) (h : decodeText bytes = some part) :
    part.toList <+: text.toList := by
  rw [decodeText_eq_some.mp h] at hbytes
  obtain ⟨rest, hrest⟩ := hbytes
  refine List.isPrefix_of_utf8Encode_append_eq_utf8Encode rest.toByteArray ?_
  have := congrArg List.toByteArray hrest
  rw [List.toByteArray_append] at this
  exact this

/-! ## Newlines -/

/-- What text mode makes of the ends of lines. -/
def universalNewlines : List Char → List Char
  | [] => []
  | '\r' :: '\n' :: cs => '\n' :: universalNewlines cs
  | '\r' :: cs => '\n' :: universalNewlines cs
  | c :: cs => c :: universalNewlines cs

theorem universalNewlines_eq_self {cs : List Char} (h : '\r' ∉ cs) : universalNewlines cs = cs := by
  induction cs with
  | nil => rfl
  | cons c cs ih =>
    rw [List.mem_cons, not_or] at h
    rw [universalNewlines, ih h.2]
    · exact fun _ heq _ ↦ h.1 heq.symm
    · exact fun heq ↦ h.1 heq.symm

/-- `path.read_text(encoding="utf-8")`, from the bytes of the file. -/
def readText (bytes : List UInt8) : Option String :=
  (decodeText bytes).map fun text ↦ String.ofList (universalNewlines text.toList)

theorem readText_encodeText {text : String} (h : '\r' ∉ text.toList) :
    readText (encodeText text) = some text := by
  rw [readText, decodeText_eq_some.mpr rfl, Option.map_some, universalNewlines_eq_self h,
    String.ofList_toList]

/-- The text of an object is not read from part of its bytes. -/
theorem loads_readText_of_prefix {text : String} {cs : List Char} {c : Char} {j : Json}
    {bytes : List UInt8} (htext : text.toList = '{' :: (cs ++ [c])) (hc : Json.isBlank c = false)
    (hr : '\r' ∉ text.toList) (h : Json.loads text = some j) (hbytes : bytes <+: encodeText text)
    (hne : bytes ≠ encodeText text) : (readText bytes).bind Json.loads = none := by
  cases hpart : decodeText bytes with
  | none => rw [readText, hpart]; rfl
  | some part =>
    have hcut := prefix_of_decodeText hbytes hpart
    have hself : universalNewlines part.toList = part.toList :=
      universalNewlines_eq_self fun hmem ↦ hr (hcut.subset hmem)
    rw [readText, hpart, Option.map_some, hself, Option.bind_some]
    rw [← String.ofList_toList (s := text), htext] at h
    refine Json.loads_of_prefix hc h (htext ▸ hcut) fun heq ↦ hne ?_
    rw [decodeText_eq_some.mp hpart, String.toList_inj.mp (heq.trans htext.symm)]

/-! ### Canonical texts -/

section Canonical

variable {j : Json} {ms : List (String × Json)}

private theorem notMem_dumps (j : Json) : '\r' ∉ j.dumps.toList :=
  fun h ↦ absurd (Json.le_of_mem_dumps h) (by decide)

theorem readText_dumps (j : Json) : readText (encodeText j.dumps) = some j.dumps :=
  readText_encodeText (notMem_dumps j)

theorem loads_readText_dumps (h : j.Sorted) :
    (readText (encodeText j.dumps)).bind Json.loads = some j := by
  rw [readText_dumps, Option.bind_some, Json.loads_dumps h]

/-- **The canonical text of an object is not read from part of its bytes.** -/
theorem loads_readText_dumps_of_prefix (h : (Json.obj ms).Sorted) {bytes : List UInt8}
    (hbytes : bytes <+: encodeText (Json.obj ms).dumps)
    (hne : bytes ≠ encodeText (Json.obj ms).dumps) : (readText bytes).bind Json.loads = none := by
  obtain ⟨cs, hcs⟩ := Json.exists_chars_obj ms
  have htext : (Json.obj ms).dumps.toList = '{' :: (cs ++ ['}']) := by
    rw [Json.dumps, String.toList_ofList, hcs]
  exact loads_readText_of_prefix htext rfl (notMem_dumps _) (Json.loads_dumps h) hbytes hne

end Canonical
