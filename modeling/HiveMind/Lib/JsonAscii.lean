import HiveMind.Lib.JsonText

/-!
# Texts in ASCII

The default of the standard encoder writes every character outside the printable ASCII range by
number, the characters beyond the basic plane as a surrogate pair. The reader takes such a text back
like the canonical one: **`Json.loads_dumpsAscii`**.
-/

namespace Json

/-- A number in four hexadecimal digits. -/
def unicodeChars (n : Nat) : List Char :=
  ['\\', 'u', hexDigit (n / 4096), hexDigit (n / 256 % 16), hexDigit (n / 16 % 16),
    hexDigit (n % 16)]

/-- One character of a string literal in ASCII. -/
def asciiChar (c : Char) : List Char :=
  if c.toNat < 0x7F then escapeChar c
  else if c.toNat < 0x10000 then unicodeChars c.toNat
  else unicodeChars (0xD800 + (c.toNat - 0x10000) / 0x400) ++
    unicodeChars (0xDC00 + (c.toNat - 0x10000) % 0x400)

/-- `json.dumps` with sorted keys and the tight separators. -/
def dumpsAscii (j : Json) : String := String.ofList (charsWith asciiChar j)

/-! ## Reading back -/

private theorem hexValue_hexDigit' : ∀ n : Fin 16, hexValue (hexDigit n) = some n.val := by decide

private theorem readHex_unicodeChars {n : Nat} (h : n < 0x10000) (cs : List Char) :
    readHex (hexDigit (n / 4096) :: hexDigit (n / 256 % 16) :: hexDigit (n / 16 % 16) ::
      hexDigit (n % 16) :: cs) = some (n, cs) := by
  have hhex : ∀ m, m < 16 → hexValue (hexDigit m) = some m := fun m hm ↦ hexValue_hexDigit' ⟨m, hm⟩
  have hvalue : ((n / 4096 * 16 + n / 256 % 16) * 16 + n / 16 % 16) * 16 + n % 16 = n := by omega
  simp only [readHex, hhex _ (show n / 4096 < 16 by omega), hhex _ (show n / 256 % 16 < 16 by omega),
    hhex _ (show n / 16 % 16 < 16 by omega), hhex _ (show n % 16 < 16 by omega),
    Option.bind_eq_bind, Option.bind_some, hvalue]

/-- The number of a character is not that of half a surrogate pair. -/
private theorem toNat_valid (c : Char) :
    c.toNat < 0xD800 ∨ (0xE000 ≤ c.toNat ∧ c.toNat < 0x110000) := by
  rcases c.valid with h | ⟨h, h'⟩
  · exact .inl h
  · exact .inr ⟨h, h'⟩

private theorem readEscape_u (cs : List Char) :
    readEscape ('u' :: cs) = readUnicodeEscape cs := by
  rw [readEscape, if_neg (by decide), if_neg (by decide), if_neg (by decide), if_neg (by decide),
    if_neg (by decide), if_neg (by decide), if_neg (by decide), if_neg (by decide), if_pos rfl]

private theorem readEscape_plane (c : Char) (h : c.toNat < 0x10000) (cs : List Char) :
    readEscape ((unicodeChars c.toNat).tail ++ cs) = some (c, cs) := by
  have hvalid := toNat_valid c
  rw [unicodeChars, List.tail_cons, List.cons_append, readEscape_u, readUnicodeEscape]
  simp only [List.cons_append, List.nil_append, readHex_unicodeChars h]
  rw [if_neg (by omega), if_neg (by omega), Char.ofNat_toNat]

private theorem readEscape_pair (high low : Nat) (hhigh : 0xD800 ≤ high ∧ high < 0xDC00)
    (hlow : 0xDC00 ≤ low ∧ low < 0xE000) (cs : List Char) :
    readEscape ((unicodeChars high).tail ++ (unicodeChars low ++ cs)) =
      some (Char.ofNat (0x10000 + (high - 0xD800) * 0x400 + (low - 0xDC00)), cs) := by
  rw [unicodeChars, List.tail_cons, List.cons_append, readEscape_u, readUnicodeEscape]
  simp only [List.cons_append, List.nil_append, readHex_unicodeChars (show high < 0x10000 by omega)]
  rw [if_pos hhigh, unicodeChars]
  simp only [List.cons_append, List.nil_append, readHex_unicodeChars (show low < 0x10000 by omega)]
  rw [if_pos hlow]

/-- The two halves of a pair give the character. -/
private theorem ofNat_pair (c : Char) (h : 0x10000 ≤ c.toNat) :
    Char.ofNat (0x10000 + (0xD800 + (c.toNat - 0x10000) / 0x400 - 0xD800) * 0x400 +
      (0xDC00 + (c.toNat - 0x10000) % 0x400 - 0xDC00)) = c := by
  have hvalue : ∀ n, 0x10000 ≤ n → 0x10000 + (0xD800 + (n - 0x10000) / 0x400 - 0xD800) * 0x400 +
      (0xDC00 + (n - 0x10000) % 0x400 - 0xDC00) = n := by
    intro n hn
    omega
  rw [hvalue c.toNat h, Char.ofNat_toNat]

private theorem readString_backslash {c : Char} {cs rest : List Char} (fuel : Nat)
    (h : readEscape cs = some (c, rest)) :
    readString (fuel + 1) ('\\' :: cs) =
      (readString fuel rest).map fun r ↦ (c :: r.1, r.2) := by
  rw [readString, if_neg (by decide), if_pos rfl, h]
  simp only [Option.bind_eq_bind, Option.bind_some]
  cases readString fuel rest <;> rfl

theorem escapes_asciiChar : Escapes asciiChar where
  length_pos c := by
    rw [asciiChar]
    split_ifs
    · exact escapes_escapeChar.length_pos c
    · exact Nat.succ_pos _
    · exact Nat.succ_pos _
  readString c fuel cs := by
    rw [asciiChar]
    split_ifs with hascii hplane
    · exact escapes_escapeChar.readString c fuel cs
    · exact readString_backslash fuel (readEscape_plane c hplane cs)
    · have hvalid := toNat_valid c
      have hread := readEscape_pair (0xD800 + (c.toNat - 0x10000) / 0x400)
        (0xDC00 + (c.toNat - 0x10000) % 0x400) (by omega) (by omega) cs
      rw [ofNat_pair c (not_lt.mp hplane)] at hread
      rw [List.append_assoc]
      exact readString_backslash fuel hread

/-- **Round trip.** -/
theorem loads_dumpsAscii {j : Json} (h : j.Sorted) : loads (dumpsAscii j) = some j :=
  loads_charsWith escapes_asciiChar h

end Json
