import HiveMind.Lib.JsonText

/-!
# Texts that are cut short

A scan of a text keeps count of the brackets that are open and of whether it stands inside a string
literal, and knows nothing else of the grammar. What a reader consumes for a value leaves the scan
where it was, and on the way the count is never below where it started (`Reaches`). So the text of
an object has an open bracket at every place before its end, and no text that is read has one at
its end.

* **`loads_of_prefix`**: a text that is read, opens with a brace and ends with no blank is not read
  when it is cut short.
-/

namespace Json

/-! ## Scanning -/

inductive Quote where
  | outside
  | inside
  | escaped
  deriving DecidableEq

/-- The brackets that are open, and where the scan stands with a string literal. -/
structure Place where
  depth : Int
  quote : Quote

namespace Place

def step (p : Place) (c : Char) : Place :=
  match p.quote with
  | .escaped => ⟨p.depth, .inside⟩
  | .inside =>
    if c = '"' then ⟨p.depth, .outside⟩
    else if c = '\\' then ⟨p.depth, .escaped⟩
    else p
  | .outside =>
    if c = '"' then ⟨p.depth, .inside⟩
    else if c = '[' ∨ c = '{' then ⟨p.depth + 1, .outside⟩
    else if c = ']' ∨ c = '}' then ⟨p.depth - 1, .outside⟩
    else p

def scan (p : Place) (cs : List Char) : Place := cs.foldl step p

theorem scan_append (p : Place) (cs ds : List Char) : p.scan (cs ++ ds) = (p.scan cs).scan ds :=
  List.foldl_append

theorem step_escaped (d : Int) (c : Char) : step ⟨d, .escaped⟩ c = ⟨d, .inside⟩ := rfl

theorem step_inside {d : Int} {c : Char} (hquote : c ≠ '"') (hescape : c ≠ '\\') :
    step ⟨d, .inside⟩ c = ⟨d, .inside⟩ := by
  simp only [step, if_neg hquote, if_neg hescape]

/-- A character that is no quote and no bracket. -/
def isPlain (c : Char) : Bool := c ≠ '"' && c ≠ '[' && c ≠ '{' && c ≠ ']' && c ≠ '}'

theorem step_outside {d : Int} {c : Char} (h : isPlain c = true) :
    step ⟨d, .outside⟩ c = ⟨d, .outside⟩ := by
  simp only [isPlain, Bool.and_eq_true, decide_eq_true_eq, ne_eq] at h
  obtain ⟨⟨⟨⟨hquote, hbracket⟩, hbrace⟩, hbracket'⟩, hbrace'⟩ := h
  simp only [step, if_neg hquote, hbracket, hbrace, hbracket', hbrace', or_self, if_false]

end Place

open Place

/-- Part of a text leads the scan from one place to another, and on the way the count of open
brackets is not below the floor. The count at the end is not meant. -/
structure Passes (floor : Int) (p q : Place) (used : List Char) : Prop where
  ends : p.scan used = q
  stays : ∀ before, before <+: used → before ≠ used → floor ≤ (p.scan before).depth

/-- A text without the rest of it leads the scan from one place to another. -/
def Reaches (floor : Int) (p q : Place) (cs rest : List Char) : Prop :=
  ∃ used, cs = used ++ rest ∧ Passes floor p q used

namespace Reaches

variable {floor : Int} {p q r : Place} {c : Char} {cs rest rest' : List Char}

theorem refl (floor : Int) (p : Place) (cs : List Char) : Reaches floor p p cs cs :=
  ⟨[], rfl, rfl, fun _ h hne ↦ absurd (List.prefix_nil.mp h) hne⟩

theorem trans (h : Reaches floor p q cs rest) (h' : Reaches floor q r rest rest') :
    Reaches floor p r cs rest' := by
  obtain ⟨used, rfl, hends, hstays⟩ := h
  obtain ⟨used', rfl, hends', hstays'⟩ := h'
  refine ⟨used ++ used', (List.append_assoc ..).symm, ?_, ?_⟩
  · rw [scan_append, hends, hends']
  · intro before hbefore hne
    -- the cut falls into the first part, or somewhere in the second
    rcases List.prefix_or_prefix_of_prefix hbefore (List.prefix_append used used') with
      hfirst | ⟨tail, rfl⟩
    · by_cases hwhole : before = used
      · subst hwhole
        have hrest : [] ≠ used' := by
          rintro rfl
          exact hne (List.append_nil _).symm
        have := hstays' [] List.nil_prefix hrest
        rwa [hends]
      · exact hstays before hfirst hwhole
    · rw [scan_append, hends]
      have htail : tail <+: used' := (List.prefix_append_right_inj used).mp hbefore
      exact hstays' tail htail fun h ↦ hne (h ▸ rfl)

theorem cons (hfloor : floor ≤ p.depth) (h : Reaches floor (p.step c) q cs rest) :
    Reaches floor p q (c :: cs) rest := by
  obtain ⟨used, rfl, hends, hstays⟩ := h
  refine ⟨c :: used, rfl, hends, fun before hbefore hne ↦ ?_⟩
  rcases List.prefix_cons_iff.mp hbefore with rfl | ⟨tail, rfl, htail⟩
  · exact hfloor
  · exact hstays tail htail fun h ↦ hne (h ▸ rfl)

theorem mono {floor' : Int} (hfloor : floor' ≤ floor) (h : Reaches floor p q cs rest) :
    Reaches floor' p q cs rest := by
  obtain ⟨used, hcs, hends, hstays⟩ := h
  exact ⟨used, hcs, hends, fun before hbefore hne ↦ hfloor.trans (hstays before hbefore hne)⟩

/-- Characters that do not move the scan. -/
theorem append (hfloor : floor ≤ p.depth) {used : List Char} (hused : ∀ c ∈ used, p.step c = p)
    (rest : List Char) : Reaches floor p p (used ++ rest) rest := by
  induction used with
  | nil => exact refl ..
  | cons c used ih =>
    refine cons hfloor ?_
    rw [hused c List.mem_cons_self]
    exact ih fun d hd ↦ hused d (List.mem_cons_of_mem c hd)

theorem dropWhile (hfloor : floor ≤ p.depth) {keep : Char → Bool}
    (hkeep : ∀ c, keep c = true → p.step c = p) (cs : List Char) :
    Reaches floor p p cs (cs.dropWhile keep) := by
  have hused : ∀ c ∈ cs.takeWhile keep, p.step c = p :=
    fun c hc ↦ hkeep c (List.mem_takeWhile_imp hc)
  have := append hfloor hused (cs.dropWhile keep)
  rwa [List.takeWhile_append_dropWhile] at this

end Reaches

/-! ## What a reader consumes -/

section Lexemes

variable (d : Int) {cs rest : List Char}

theorem reaches_skipBlanks (cs : List Char) :
    Reaches d ⟨d, .outside⟩ ⟨d, .outside⟩ cs (skipBlanks cs) := by
  refine Reaches.dropWhile le_rfl (fun c hc ↦ step_outside ?_) cs
  simp only [isBlank, Bool.or_eq_true, decide_eq_true_eq] at hc
  obtain ((rfl | rfl) | rfl) | rfl := hc <;> rfl

private theorem step_of_hexValue {c : Char} {n : Nat} (h : hexValue c = some n) :
    step ⟨d, .inside⟩ c = ⟨d, .inside⟩ := by
  apply step_inside
  · rintro rfl
    exact nomatch h
  · rintro rfl
    exact nomatch h

theorem reaches_readHex {n : Nat} (h : readHex cs = some (n, rest)) :
    Reaches d ⟨d, .inside⟩ ⟨d, .inside⟩ cs rest := by
  unfold readHex at h
  split at h
  · next a b c e tail =>
    obtain ⟨_, ha, h⟩ := Option.bind_eq_some_iff.mp h
    obtain ⟨_, hb, h⟩ := Option.bind_eq_some_iff.mp h
    obtain ⟨_, hc, h⟩ := Option.bind_eq_some_iff.mp h
    obtain ⟨_, he, h⟩ := Option.bind_eq_some_iff.mp h
    simp only [Option.some.injEq, Prod.mk.injEq] at h
    obtain ⟨-, rfl⟩ := h
    have hsteps : ∀ x ∈ [a, b, c, e], Place.step ⟨d, .inside⟩ x = ⟨d, .inside⟩ := by
      simp only [List.forall_mem_cons, List.not_mem_nil, false_implies, implies_true, and_true]
      exact ⟨step_of_hexValue d ha, step_of_hexValue d hb, step_of_hexValue d hc,
        step_of_hexValue d he⟩
    exact Reaches.append le_rfl hsteps tail
  · exact nomatch h

theorem reaches_readUnicodeEscape {c : Char} (h : readUnicodeEscape cs = some (c, rest)) :
    Reaches d ⟨d, .inside⟩ ⟨d, .inside⟩ cs rest := by
  unfold readUnicodeEscape at h
  split at h
  · exact nomatch h
  · next hi tail hhi =>
    refine (reaches_readHex d hhi).trans ?_
    split at h
    · split at h
      · split at h
        · next lo tail' hlo =>
          split at h
          · simp only [Option.some.injEq, Prod.mk.injEq] at h
            obtain ⟨-, rfl⟩ := h
            exact .cons le_rfl (.cons le_rfl (reaches_readHex d hlo))
          · exact nomatch h
        · exact nomatch h
      · exact nomatch h
    · split at h
      · exact nomatch h
      · simp only [Option.some.injEq, Prod.mk.injEq] at h
        obtain ⟨-, rfl⟩ := h
        exact .refl ..

theorem reaches_readEscape {c : Char} (h : readEscape cs = some (c, rest)) :
    Reaches d ⟨d, .escaped⟩ ⟨d, .inside⟩ cs rest := by
  cases cs with
  | nil => exact nomatch h
  | cons e tail =>
    refine .cons le_rfl ?_
    rw [step_escaped]
    rw [readEscape] at h
    by_cases hu : e = 'u'
    · subst hu
      exact reaches_readUnicodeEscape d h
    · have hrest : rest = tail := by
        rw [if_neg hu] at h
        repeat' split at h
        all_goals first | exact (Prod.mk.inj (Option.some.inj h)).2.symm | cases h
      rw [hrest]
      exact .refl ..

theorem reaches_readString {fuel : Nat} {text : List Char}
    (h : readString fuel cs = some (text, rest)) :
    Reaches d ⟨d, .inside⟩ ⟨d, .outside⟩ cs rest := by
  induction fuel generalizing cs text with
  | zero => rw [readString] at h; cases h
  | succ fuel ih =>
    cases cs with
    | nil => rw [readString] at h; cases h
    | cons c cs =>
      refine .cons le_rfl ?_
      rw [readString] at h
      by_cases hquote : c = '"'
      · subst hquote
        rw [if_pos rfl] at h
        simp only [Option.some.injEq, Prod.mk.injEq] at h
        obtain ⟨-, rfl⟩ := h
        exact .refl ..
      rw [if_neg hquote] at h
      by_cases hescape : c = '\\'
      · subst hescape
        rw [if_pos rfl] at h
        obtain ⟨e, he, h⟩ := Option.bind_eq_some_iff.mp h
        obtain ⟨es, hes, h⟩ := Option.bind_eq_some_iff.mp h
        simp only [Option.some.injEq, Prod.mk.injEq] at h
        obtain ⟨-, rfl⟩ := h
        exact (reaches_readEscape d he).trans (ih hes)
      · rw [if_neg hescape] at h
        rw [step_inside hquote hescape]
        split at h
        · cases h
        · obtain ⟨es, hes, h⟩ := Option.bind_eq_some_iff.mp h
          simp only [Option.some.injEq, Prod.mk.injEq] at h
          obtain ⟨-, rfl⟩ := h
          exact ih hes

private theorem isPlain_of_isDigit {c : Char} (h : c.isDigit = true) : isPlain c = true := by
  simp only [isPlain, Bool.and_eq_true, decide_eq_true_eq]
  refine ⟨⟨⟨⟨?_, ?_⟩, ?_⟩, ?_⟩, ?_⟩ <;> rintro rfl <;> exact nomatch h

private theorem reaches_digits (cs : List Char) :
    Reaches d ⟨d, .outside⟩ ⟨d, .outside⟩ cs (cs.dropWhile Char.isDigit) :=
  Reaches.dropWhile le_rfl (fun _ hc ↦ step_outside (isPlain_of_isDigit hc)) cs

private theorem Reaches.plain {d : Int} {c : Char} {q : Place} (hc : isPlain c = true)
    (h : Reaches d ⟨d, .outside⟩ q cs rest) : Reaches d ⟨d, .outside⟩ q (c :: cs) rest := by
  refine .cons le_rfl ?_
  rwa [step_outside hc]

private theorem reaches_splitSign (cs : List Char) :
    Reaches d ⟨d, .outside⟩ ⟨d, .outside⟩ cs (splitSign cs).2 := by
  cases cs with
  | nil => exact .refl ..
  | cons c cs =>
    rw [splitSign]
    split
    · next hc => exact .plain (by rw [hc]; rfl) (.refl ..)
    · exact .refl ..

private theorem reaches_readWhole {n : Nat} (h : readWhole cs = some (n, rest)) :
    Reaches d ⟨d, .outside⟩ ⟨d, .outside⟩ cs rest := by
  cases cs with
  | nil => cases h
  | cons c cs =>
    rw [readWhole] at h
    split at h
    · next hc =>
      simp only [Option.some.injEq, Prod.mk.injEq] at h
      obtain ⟨-, rfl⟩ := h
      exact .plain (by rw [hc]; rfl) (.refl ..)
    split at h
    · next hc =>
      simp only [Option.some.injEq, Prod.mk.injEq] at h
      obtain ⟨-, rfl⟩ := h
      exact .plain (isPlain_of_isDigit hc) (reaches_digits d cs)
    · cases h

private theorem reaches_readFrac (cs : List Char) :
    Reaches d ⟨d, .outside⟩ ⟨d, .outside⟩ cs (readFrac cs).2 := by
  unfold readFrac
  split
  · next tail =>
    split
    · exact .refl ..
    · exact .plain rfl (reaches_digits d tail)
  · exact .refl ..

private theorem reaches_readExp (cs : List Char) :
    Reaches d ⟨d, .outside⟩ ⟨d, .outside⟩ cs (readExp cs).2 := by
  cases cs with
  | nil => exact .refl ..
  | cons c cs =>
    rw [readExp]
    split
    · next hc =>
      have hplain : isPlain c = true := by obtain rfl | rfl := hc <;> rfl
      have hsign : Reaches d ⟨d, .outside⟩ ⟨d, .outside⟩ cs (splitExpSign cs).2 := by
        cases cs with
        | nil => exact .refl ..
        | cons e cs =>
          rw [splitExpSign]
          split
          · next he => exact .plain (by rw [he]; rfl) (.refl ..)
          split
          · next he => exact .plain (by rw [he]; rfl) (.refl ..)
          · exact .refl ..
      rw [readExpDigits]
      split
      · exact .refl ..
      · exact .plain hplain (hsign.trans (reaches_digits d _))
    · exact .refl ..

theorem reaches_readNumber {j : Json} (h : readNumber cs = some (j, rest)) :
    Reaches d ⟨d, .outside⟩ ⟨d, .outside⟩ cs rest := by
  rw [readNumber] at h
  obtain ⟨⟨whole, tail⟩, hwhole, h⟩ := Option.bind_eq_some_iff.mp h
  simp only [Option.some.injEq, Prod.mk.injEq] at h
  obtain ⟨-, rfl⟩ := h
  have hsign := reaches_splitSign d cs
  exact ((hsign.trans (reaches_readWhole d hwhole)).trans (reaches_readFrac d tail)).trans
    (reaches_readExp d _)

theorem reaches_readName {name : List Char} {j j' : Json} (hname : name.all isPlain = true)
    (h : readName name j cs = some (j', rest)) :
    Reaches d ⟨d, .outside⟩ ⟨d, .outside⟩ cs rest := by
  rw [readName] at h
  split at h
  · next hstarts =>
    obtain ⟨tail, rfl⟩ := List.isPrefixOf_iff_prefix.mp hstarts
    simp only [List.drop_left, Option.some.injEq, Prod.mk.injEq] at h
    obtain ⟨-, rfl⟩ := h
    exact .append le_rfl (fun c hc ↦ step_outside (List.all_eq_true.mp hname c hc)) _
  · cases h

end Lexemes

/-! ### Values -/

/-- What one call of a reader consumes, with the fuel it was given. The closing bracket of an array
or an object belongs to what is consumed after its first value. -/
private structure ReachesReads (fuel : Nat) : Prop where
  value : ∀ d cs j rest, readValue fuel cs = some (j, rest) →
    Reaches d ⟨d, .outside⟩ ⟨d, .outside⟩ cs rest
  tail : ∀ d cs xs rest, readTail fuel cs = some (xs, rest) →
    Reaches d ⟨d, .outside⟩ ⟨d - 1, .outside⟩ cs rest
  member : ∀ d cs m rest, readMember fuel cs = some (m, rest) →
    Reaches d ⟨d, .outside⟩ ⟨d, .outside⟩ cs rest
  members : ∀ d cs ms rest, readMembers fuel cs = some (ms, rest) →
    Reaches d ⟨d, .outside⟩ ⟨d - 1, .outside⟩ cs rest

private theorem reachesReads_zero : ReachesReads 0 where
  value d cs j rest h := by rw [readValue] at h; cases h
  tail d cs xs rest h := by rw [readTail] at h; cases h
  member d cs m rest h := by rw [readMember] at h; cases h
  members d cs ms rest h := by rw [readMembers] at h; cases h

/-- What follows the brace that opens an object. -/
private theorem ReachesReads.object {fuel : Nat} (ih : ReachesReads fuel) (d : Int)
    {cs rest : List Char} {j : Json} (h : readValue (fuel + 1) ('{' :: cs) = some (j, rest)) :
    Reaches (d + 1) ⟨d + 1, .outside⟩ ⟨d, .outside⟩ cs rest := by
  have hclose : ∀ tail, Reaches (d + 1) ⟨d + 1, .outside⟩ ⟨d, .outside⟩ ('}' :: tail) tail := by
    intro tail
    refine .cons le_rfl ?_
    rw [show Place.step ⟨d + 1, .outside⟩ '}' = ⟨d + 1 - 1, .outside⟩ from rfl,
      Int.add_sub_cancel]
    exact .refl ..
  refine (reaches_skipBlanks (d + 1) cs).trans ?_
  rw [readValue, if_neg (by decide), if_neg (by decide), if_pos rfl] at h
  split at h
  · next tail htail =>
    simp only [Option.some.injEq, Prod.mk.injEq] at h
    obtain ⟨-, rfl⟩ := h
    rw [htail]
    exact hclose _
  · obtain ⟨⟨m, tail⟩, hm, h⟩ := Option.bind_eq_some_iff.mp h
    obtain ⟨⟨ms, tail'⟩, hms, h⟩ := Option.bind_eq_some_iff.mp h
    simp only [Option.some.injEq, Prod.mk.injEq] at h
    obtain ⟨-, rfl⟩ := h
    have hmembers := ih.members (d + 1) _ _ _ hms
    rw [Int.add_sub_cancel] at hmembers
    exact ((ih.member (d + 1) _ _ _ hm).trans (reaches_skipBlanks (d + 1) tail)).trans hmembers

private theorem ReachesReads.array {fuel : Nat} (ih : ReachesReads fuel) (d : Int)
    {cs rest : List Char} {j : Json} (h : readValue (fuel + 1) ('[' :: cs) = some (j, rest)) :
    Reaches (d + 1) ⟨d + 1, .outside⟩ ⟨d, .outside⟩ cs rest := by
  refine (reaches_skipBlanks (d + 1) cs).trans ?_
  rw [readValue, if_neg (by decide), if_pos rfl] at h
  split at h
  · next tail htail =>
    simp only [Option.some.injEq, Prod.mk.injEq] at h
    obtain ⟨-, rfl⟩ := h
    rw [htail]
    refine .cons le_rfl ?_
    rw [show Place.step ⟨d + 1, .outside⟩ ']' = ⟨d + 1 - 1, .outside⟩ from rfl,
      Int.add_sub_cancel]
    exact .refl ..
  · obtain ⟨⟨x, tail⟩, hx, h⟩ := Option.bind_eq_some_iff.mp h
    obtain ⟨⟨xs, tail'⟩, hxs, h⟩ := Option.bind_eq_some_iff.mp h
    simp only [Option.some.injEq, Prod.mk.injEq] at h
    obtain ⟨-, rfl⟩ := h
    have hitems := ih.tail (d + 1) _ _ _ hxs
    rw [Int.add_sub_cancel] at hitems
    exact ((ih.value (d + 1) _ _ _ hx).trans (reaches_skipBlanks (d + 1) tail)).trans hitems

private theorem ReachesReads.value_succ {fuel : Nat} (ih : ReachesReads fuel) (d : Int)
    {cs rest : List Char} {j : Json} (h : readValue (fuel + 1) cs = some (j, rest)) :
    Reaches d ⟨d, .outside⟩ ⟨d, .outside⟩ cs rest := by
  cases cs with
  | nil => rw [readValue] at h; cases h
  | cons c cs =>
    by_cases harray : c = '['
    · subst harray
      exact .cons le_rfl ((ih.array d h).mono (by omega))
    by_cases hobject : c = '{'
    · subst hobject
      exact .cons le_rfl ((ih.object d h).mono (by omega))
    rw [readValue] at h
    split at h
    · next hquote =>
      subst hquote
      obtain ⟨⟨text, tail⟩, htext, h⟩ := Option.bind_eq_some_iff.mp h
      simp only [Option.some.injEq, Prod.mk.injEq] at h
      obtain ⟨-, rfl⟩ := h
      exact .cons le_rfl (reaches_readString d htext)
    split at h
    · exact reaches_readName d (by decide) h
    split at h
    · exact reaches_readName d (by decide) h
    split at h
    · exact reaches_readName d (by decide) h
    · exact reaches_readNumber d h

private theorem ReachesReads.tail_succ {fuel : Nat} (ih : ReachesReads fuel) (d : Int)
    {cs rest : List Char} {xs : List Json} (h : readTail (fuel + 1) cs = some (xs, rest)) :
    Reaches d ⟨d, .outside⟩ ⟨d - 1, .outside⟩ cs rest := by
  cases cs with
  | nil => rw [readTail] at h; cases h
  | cons c cs =>
    rw [readTail] at h
    split at h
    · next hc =>
      subst hc
      simp only [Option.some.injEq, Prod.mk.injEq] at h
      obtain ⟨-, rfl⟩ := h
      exact .cons le_rfl (.refl ..)
    split at h
    · next hc =>
      subst hc
      obtain ⟨⟨x, tail⟩, hx, h⟩ := Option.bind_eq_some_iff.mp h
      obtain ⟨⟨xs, tail'⟩, hxs, h⟩ := Option.bind_eq_some_iff.mp h
      simp only [Option.some.injEq, Prod.mk.injEq] at h
      obtain ⟨-, rfl⟩ := h
      refine .plain rfl ((reaches_skipBlanks d cs).trans ?_)
      exact ((ih.value d _ _ _ hx).trans (reaches_skipBlanks d tail)).trans (ih.tail d _ _ _ hxs)
    · cases h

private theorem ReachesReads.member_succ {fuel : Nat} (ih : ReachesReads fuel) (d : Int)
    {cs rest : List Char} {m : String × Json} (h : readMember (fuel + 1) cs = some (m, rest)) :
    Reaches d ⟨d, .outside⟩ ⟨d, .outside⟩ cs rest := by
  cases cs with
  | nil => rw [readMember] at h; cases h
  | cons c cs =>
    rw [readMember] at h
    split at h
    · next hc =>
      subst hc
      obtain ⟨⟨k, tail⟩, hk, h⟩ := Option.bind_eq_some_iff.mp h
      dsimp only at h
      split at h
      · next tail' htail =>
        obtain ⟨⟨x, tail''⟩, hx, h⟩ := Option.bind_eq_some_iff.mp h
        simp only [Option.some.injEq, Prod.mk.injEq] at h
        obtain ⟨-, rfl⟩ := h
        refine .cons le_rfl ((reaches_readString d hk).trans ?_)
        refine (reaches_skipBlanks d tail).trans ?_
        rw [htail]
        exact .plain rfl ((reaches_skipBlanks d tail').trans (ih.value d _ _ _ hx))
      · cases h
    · cases h

private theorem ReachesReads.members_succ {fuel : Nat} (ih : ReachesReads fuel) (d : Int)
    {cs rest : List Char} {ms : List (String × Json)}
    (h : readMembers (fuel + 1) cs = some (ms, rest)) :
    Reaches d ⟨d, .outside⟩ ⟨d - 1, .outside⟩ cs rest := by
  cases cs with
  | nil => rw [readMembers] at h; cases h
  | cons c cs =>
    rw [readMembers] at h
    split at h
    · next hc =>
      subst hc
      simp only [Option.some.injEq, Prod.mk.injEq] at h
      obtain ⟨-, rfl⟩ := h
      exact .cons le_rfl (.refl ..)
    split at h
    · next hc =>
      subst hc
      obtain ⟨⟨m, tail⟩, hm, h⟩ := Option.bind_eq_some_iff.mp h
      obtain ⟨⟨ms, tail'⟩, hms, h⟩ := Option.bind_eq_some_iff.mp h
      simp only [Option.some.injEq, Prod.mk.injEq] at h
      obtain ⟨-, rfl⟩ := h
      refine .plain rfl ((reaches_skipBlanks d cs).trans ?_)
      exact ((ih.member d _ _ _ hm).trans (reaches_skipBlanks d tail)).trans
        (ih.members d _ _ _ hms)
    · cases h

private theorem reachesReads (fuel : Nat) : ReachesReads fuel := by
  induction fuel with
  | zero => exact reachesReads_zero
  | succ fuel ih =>
    exact ⟨fun d _ _ _ ↦ ih.value_succ d, fun d _ _ _ ↦ ih.tail_succ d,
      fun d _ _ _ ↦ ih.member_succ d, fun d _ _ _ ↦ ih.members_succ d⟩

/-! ## The characters of a text -/

section Characters

variable {esc : Char → List Char} (hesc : ∀ c, ∀ x ∈ esc c, 32 ≤ x.toNat)

private theorem le_digitChar (d : Fin 10) : 32 ≤ (Nat.digitChar d.val).toNat := by
  revert d
  decide

private theorem le_of_mem_digitChars {ds : List (Fin 10)} {x : Char} (h : x ∈ digitChars ds) :
    32 ≤ x.toNat := by
  obtain ⟨d, -, rfl⟩ := List.mem_map.mp h
  exact le_digitChar d

private theorem le_of_mem_toDigits {n : Nat} {x : Char} (h : x ∈ Nat.toDigits 10 n) : 32 ≤ x.toNat := by
  have hdigit := Nat.isDigit_of_mem_toDigits (b := 10) (by decide) (by decide) h
  rw [Char.isDigit, Bool.and_eq_true, decide_eq_true_eq] at hdigit
  have hzero : 48 ≤ x.toNat := UInt32.le_iff_toNat_le.mp hdigit.1
  omega

/-- The characters of a fixed text are looked at one by one. -/
private theorem le_of_all {cs : List Char} (hall : (cs.all fun c ↦ 32 ≤ c.toNat) = true) {x : Char}
    (h : x ∈ cs) : 32 ≤ x.toNat := of_decide_eq_true (List.all_eq_true.mp hall x h)

private theorem le_of_mem_intChars {n : Int} {x : Char} (h : x ∈ intChars n) : 32 ≤ x.toNat := by
  cases n with
  | ofNat n => exact le_of_mem_toDigits h
  | negSucc n =>
    rcases List.mem_cons.mp h with rfl | h
    · decide
    · exact le_of_mem_toDigits h

private theorem le_of_mem_floatChars {f : Decimal} {x : Char} (h : x ∈ floatChars f) : 32 ≤ x.toNat := by
  simp only [floatChars, List.mem_append] at h
  obtain ((hsign | hwhole) | hfrac) | hexp := h
  · split at hsign
    · rw [List.mem_singleton.mp hsign]
      decide
    · cases hsign
  · exact le_of_mem_toDigits hwhole
  · rw [fracChars] at hfrac
    split at hfrac
    · cases hfrac
    · rcases List.mem_cons.mp hfrac with rfl | hfrac
      · decide
      · exact le_of_mem_digitChars hfrac
  · unfold expChars at hexp
    split at hexp
    · cases hexp
    · rcases List.mem_cons.mp hexp with rfl | hexp
      · decide
      rcases List.mem_cons.mp hexp with rfl | hexp
      · split <;> decide
      · exact le_of_mem_digitChars hexp

include hesc

private theorem le_of_mem_strCharsWith {s : String} {x : Char} (h : x ∈ strCharsWith esc s) :
    32 ≤ x.toNat := by
  rw [strCharsWith, List.cons_append, List.mem_cons, List.mem_append, List.mem_flatMap,
    List.mem_singleton] at h
  obtain rfl | ⟨c, -, h⟩ | rfl := h
  · decide
  · exact hesc c x h
  · decide

mutual

theorem le_of_mem_charsWith : ∀ (j : Json) {x : Char}, x ∈ charsWith esc j → 32 ≤ x.toNat
  | .null, x, h => by
    rw [charsWith] at h
    exact le_of_all rfl h
  | .bool true, x, h => by
    rw [charsWith] at h
    exact le_of_all rfl h
  | .bool false, x, h => by
    rw [charsWith] at h
    exact le_of_all rfl h
  | .int n, x, h => by
    rw [charsWith] at h
    exact le_of_mem_intChars h
  | .float f, x, h => by
    rw [charsWith] at h
    exact le_of_mem_floatChars h
  | .str s, x, h => by
    rw [charsWith] at h
    exact le_of_mem_strCharsWith hesc h
  | .arr [], x, h => by
    rw [charsWith] at h
    exact le_of_all rfl h
  | .arr (y :: ys), x, h => by
    rw [charsWith, List.mem_cons, List.mem_append] at h
    obtain rfl | h | h := h
    · decide
    · exact le_of_mem_charsWith y h
    · exact le_of_mem_tailCharsWith ys h
  | .obj [], x, h => by
    rw [charsWith] at h
    exact le_of_all rfl h
  | .obj ((k, y) :: ms), x, h => by
    rw [charsWith, List.mem_cons, List.mem_append, List.mem_cons, List.mem_append] at h
    obtain rfl | h | rfl | h | h := h
    · decide
    · exact le_of_mem_strCharsWith hesc h
    · decide
    · exact le_of_mem_charsWith y h
    · exact le_of_mem_membersCharsWith ms h

private theorem le_of_mem_tailCharsWith :
    ∀ (ys : List Json) {x : Char}, x ∈ tailCharsWith esc ys → 32 ≤ x.toNat
  | [], x, h => by
    rw [tailCharsWith] at h
    exact le_of_all rfl h
  | y :: ys, x, h => by
    rw [tailCharsWith, List.mem_cons, List.mem_append] at h
    obtain rfl | h | h := h
    · decide
    · exact le_of_mem_charsWith y h
    · exact le_of_mem_tailCharsWith ys h

private theorem le_of_mem_membersCharsWith :
    ∀ (ms : List (String × Json)) {x : Char}, x ∈ membersCharsWith esc ms → 32 ≤ x.toNat
  | [], x, h => by
    rw [membersCharsWith] at h
    exact le_of_all rfl h
  | (k, y) :: ms, x, h => by
    rw [membersCharsWith, List.mem_cons, List.mem_append, List.mem_cons, List.mem_append] at h
    obtain rfl | h | rfl | h | h := h
    · decide
    · exact le_of_mem_strCharsWith hesc h
    · decide
    · exact le_of_mem_charsWith y h
    · exact le_of_mem_membersCharsWith ms h

end

end Characters

private theorem le_of_mem_escapeChar (c : Char) {x : Char} (h : x ∈ escapeChar c) : 32 ≤ x.toNat := by
  have hhex : ∀ n, n < 16 → 32 ≤ (hexDigit n).toNat := by decide
  rw [escapeChar] at h
  repeat' split at h
  all_goals
    try exact le_of_all rfl h
  · next hlt =>
    simp only [List.mem_cons, List.not_mem_nil, or_false] at h
    obtain rfl | rfl | rfl | rfl | rfl | rfl := h
    · decide
    · decide
    · decide
    · decide
    · exact hhex _ (by omega)
    · exact hhex _ (Nat.mod_lt _ (by decide))
  · next hle =>
    rw [List.mem_singleton.mp h]
    exact Nat.not_lt.mp hle

/-- **The canonical text has no control characters.** -/
theorem le_of_mem_dumps {j : Json} {x : Char} (h : x ∈ j.dumps.toList) : 32 ≤ x.toNat := by
  rw [dumps, String.toList_ofList, ← charsWith_escapeChar] at h
  exact le_of_mem_charsWith le_of_mem_escapeChar j h

private theorem exists_membersChars (ms : List (String × Json)) :
    ∃ cs, membersChars ms = cs ++ ['}'] := by
  induction ms with
  | nil => exact ⟨[], by rw [membersChars]; rfl⟩
  | cons m ms ih =>
    obtain ⟨cs, hcs⟩ := ih
    refine ⟨',' :: (strChars m.1 ++ ':' :: (chars m.2 ++ cs)), ?_⟩
    rw [membersChars, hcs]
    simp only [List.cons_append, List.append_assoc]

/-- The text of an object stands between braces. -/
theorem exists_chars_obj (ms : List (String × Json)) :
    ∃ cs, chars (.obj ms) = '{' :: (cs ++ ['}']) := by
  cases ms with
  | nil => exact ⟨[], by rw [chars]; rfl⟩
  | cons m ms =>
    obtain ⟨cs, hcs⟩ := exists_membersChars ms
    refine ⟨strChars m.1 ++ ':' :: (chars m.2 ++ cs), ?_⟩
    rw [chars, hcs]
    simp only [List.cons_append, List.append_assoc]

/-! ## Texts cut short -/

private theorem Reaches.scan_eq {floor : Int} {p q : Place} {cs : List Char}
    (h : Reaches floor p q cs []) : p.scan cs = q := by
  obtain ⟨used, rfl, hends, -⟩ := h
  rwa [List.append_nil]

/-- **A text that is read closes what it opens.** -/
theorem scan_of_loads {text : String} {j : Json} (h : loads text = some j) :
    Place.scan ⟨0, .outside⟩ text.toList = ⟨0, .outside⟩ := by
  unfold loads at h
  split at h
  · next j' rest hread =>
    split at h
    · next hrest =>
      have hvalue := (reachesReads _).value 0 _ _ _ hread
      have hend := reaches_skipBlanks 0 rest
      rw [hrest] at hend
      exact (((reaches_skipBlanks 0 text.toList).trans hvalue).trans hend).scan_eq
    · exact nomatch h
  · exact nomatch h

/-- **The text of an object is not read when it is cut short.** -/
theorem loads_of_prefix {cs before : List Char} {c : Char} {j : Json} (hc : isBlank c = false)
    (h : loads (String.ofList ('{' :: (cs ++ [c]))) = some j)
    (hbefore : before <+: '{' :: (cs ++ [c])) (hne : before ≠ '{' :: (cs ++ [c])) :
    loads (String.ofList before) = none := by
  -- a text that is read has no bracket open at its end, and this one has the first one open
  refine Option.eq_none_iff_forall_ne_some.mpr fun j' h' ↦ ?_
  have hscan := scan_of_loads h'
  rw [String.toList_ofList] at hscan
  rcases List.prefix_cons_iff.mp hbefore with rfl | ⟨tail, rfl, htail⟩
  · exact nomatch h'
  unfold loads at h
  split at h
  · next j'' rest hread =>
    split at h
    · next hrest =>
      rw [String.toList_ofList, show skipBlanks ('{' :: (cs ++ [c])) = '{' :: (cs ++ [c]) from rfl]
        at hread
      obtain ⟨used, hused, hends, hstays⟩ := (reachesReads _).object 0 hread
      have hnil : rest = [] := by
        by_contra hcons
        have hlast : c = rest.getLast hcons := by
          have := congrArg List.getLast? hused
          rw [List.getLast?_append_of_ne_nil _ hcons, List.getLast?_concat,
            List.getLast?_eq_some_getLast hcons] at this
          exact Option.some.inj this
        have hblank := List.dropWhile_eq_nil_iff.mp hrest _ (List.getLast_mem hcons)
        rw [← hlast, hc] at hblank
        exact nomatch hblank
      rw [hnil, List.append_nil] at hused
      have hdepth := hstays tail (hused ▸ htail) fun heq ↦ hne (by rw [heq, hused])
      have hzero : (Place.scan ⟨0 + 1, .outside⟩ tail).depth = 0 := by
        rw [show Place.scan ⟨0 + 1, .outside⟩ tail = Place.scan ⟨0, .outside⟩ ('{' :: tail)
          from rfl, hscan]
      omega
    · exact nomatch h
  · exact nomatch h

end Json
