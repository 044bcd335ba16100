import Mathlib

/-!
# Texts in fields

A listing is a text in which each record ends with a separator, and its fields are parted by
another one. It is read by splitting at the first separator and then each piece at the second, at
most so many times that the last field keeps what is left.

A field that may hold the first separator falls apart in the listing. Its first part ends the record
it belongs to, and each other part is read as if it were a record (`filterMap_splitOn_flatMap`).
-/

namespace Fields

variable {α β : Type} [DecidableEq α]

/-! ## Splitting at most so many times -/

/-- `text.split(sep, count)`. -/
def splitMax (sep : α) : ℕ → List α → List (List α)
  | 0, cs => [cs]
  | count + 1, cs =>
    match cs.dropWhile (· ≠ sep) with
    | [] => [cs]
    | _ :: rest => cs.takeWhile (· ≠ sep) :: splitMax sep count rest

theorem splitMax_append_cons {sep : α} {field : List α} (h : sep ∉ field) (count : ℕ)
    (rest : List α) :
    splitMax sep (count + 1) (field ++ sep :: rest) = field :: splitMax sep count rest := by
  have hfield : ∀ c ∈ field, decide (c ≠ sep) = true := by
    intro c hc
    rw [decide_eq_true_eq]
    rintro rfl
    exact h hc
  have hdrop : (field ++ sep :: rest).dropWhile (· ≠ sep) = sep :: rest := by
    rw [List.dropWhile_append_of_pos hfield, List.dropWhile_cons_of_neg (by simp)]
  have htake : (field ++ sep :: rest).takeWhile (· ≠ sep) = field := by
    rw [List.takeWhile_append_of_pos hfield, List.takeWhile_cons_of_neg (by simp), List.append_nil]
  rw [splitMax, hdrop, htake]

/-- Splitting a text whose start has no separator. -/
theorem splitOn_append {sep : α} {front : List α} (h : sep ∉ front) (cs : List α) :
    (front ++ cs).splitOn sep = (cs.splitOn sep).modifyHead (front ++ ·) := by
  induction front with
  | nil =>
    rw [List.nil_append]
    rcases cs.splitOn sep with _ | ⟨piece, pieces⟩
    · rfl
    · rfl
  | cons c front ih =>
    rw [List.mem_cons, not_or] at h
    obtain ⟨hc, hfront⟩ := h
    rw [List.cons_append, List.splitOn_cons_eq_if_modifyHead, if_neg (by simpa using Ne.symm hc),
      ih hfront]
    rcases cs.splitOn sep with _ | ⟨piece, pieces⟩
    · rfl
    · rfl

/-! ## Pieces between separators -/

omit [DecidableEq α] in
theorem intercalate_append {sep : α} {parts parts' : List (List α)} (hparts : parts ≠ [])
    (hparts' : parts' ≠ []) : [sep].intercalate (parts ++ parts') =
      [sep].intercalate parts ++ sep :: [sep].intercalate parts' := by
  induction parts with
  | nil => exact absurd rfl hparts
  | cons first parts ih =>
    rcases parts with _ | ⟨second, parts⟩
    · rw [List.singleton_append, List.intercalate_cons_of_ne_nil hparts',
        List.intercalate_singleton, List.append_assoc, List.singleton_append]
    · have hne : second :: parts ≠ [] := List.cons_ne_nil _ _
      rw [List.cons_append,
        List.intercalate_cons_of_ne_nil (List.append_ne_nil_of_left_ne_nil hne _), ih hne,
        List.intercalate_cons_cons]
      simp only [List.append_assoc]

/-! ## Words -/

/-- `text.split()`, where the separators are those of `p`. -/
def words (p : α → Bool) (cs : List α) : List (List α) := (cs.splitOnP p).filter (· ≠ [])

omit [DecidableEq α] in
/-- Words that are parted by one separator each. -/
theorem words_intercalate {p : α → Bool} {sep : α} (hsep : p sep = true) {ws : List (List α)}
    (h : ∀ w ∈ ws, w ≠ [] ∧ ∀ c ∈ w, p c = false) : words p ([sep].intercalate ws) = ws := by
  induction ws with
  | nil => rfl
  | cons w ws ih =>
    obtain ⟨⟨hne, hw⟩, hws⟩ := List.forall_mem_cons.mp h
    cases ws with
    | nil =>
      rw [List.intercalate_singleton, words, List.splitOnP_eq_singleton hw]
      exact List.filter_cons_of_pos (decide_eq_true hne)
    | cons w' ws =>
      rw [List.intercalate_cons_cons, List.append_assoc, List.singleton_append, words,
        List.splitOnP_append_cons_of_forall_mem hw sep hsep, List.filter_cons, if_pos (by simpa)]
      exact congrArg (w :: ·) (ih hws)

/-! ## Stripping -/

/-- `text.strip(c)`. -/
def stripOf (c : α) (cs : List α) : List α := (cs.dropWhile (· = c)).rdropWhile (· = c)

theorem stripOf_cons (c : α) (cs : List α) : stripOf c (c :: cs) = stripOf c cs := by
  rw [stripOf, List.dropWhile_cons_of_pos (by simp), stripOf]

omit [DecidableEq α] in
theorem rdropWhile_append_cons {p : α → Bool} {sep : α} (hsep : p sep = false)
    (before after : List α) :
    (before ++ sep :: after).rdropWhile p = before ++ sep :: after.rdropWhile p := by
  induction after using List.reverseRecOn with
  | nil => rw [List.rdropWhile_concat_neg (h := by simp [hsep]), List.rdropWhile_nil]
  | append_singleton after c ih =>
    have happend : before ++ sep :: (after ++ [c]) = (before ++ sep :: after) ++ [c] := by
      rw [List.append_assoc, List.cons_append]
    rw [happend, List.rdropWhile_concat, List.rdropWhile_concat, ih]
    split
    · rfl
    · exact happend.symm

/-- A separator stops the stripping on both sides. -/
theorem stripOf_append_cons {c sep : α} {before : List α} (hsep : sep ≠ c) (hbefore : c ∉ before)
    (after : List α) :
    stripOf c (before ++ sep :: after) = before ++ sep :: after.rdropWhile (· = c) := by
  have hdrop : (before ++ sep :: after).dropWhile (· = c) = before ++ sep :: after := by
    cases before with
    | nil => exact List.dropWhile_cons_of_neg (by simpa using hsep)
    | cons d before =>
      have hd : d ≠ c := fun heq ↦ hbefore (heq ▸ List.mem_cons_self)
      exact List.dropWhile_cons_of_neg (by simpa using hd)
  rw [stripOf, hdrop, rdropWhile_append_cons (by simpa using hsep)]

omit [DecidableEq α] in
/-- What is stripped at the end anyway may be there or not. -/
theorem strip_append {p : α → Bool} {spaces : List α} (h : ∀ c ∈ spaces, p c = true)
    (cs : List α) :
    ((cs ++ spaces).dropWhile p).rdropWhile p = (cs.dropWhile p).rdropWhile p := by
  have hright : ∀ cs : List α, (cs ++ spaces).rdropWhile p = cs.rdropWhile p := by
    intro cs
    induction spaces using List.reverseRecOn with
    | nil => rw [List.append_nil]
    | append_singleton spaces c ih =>
      rw [← List.append_assoc, List.rdropWhile_concat_pos _ _ _ (h c (by simp))]
      exact ih fun d hd ↦ h d (List.mem_append_left _ hd)
  induction cs with
  | nil => rw [List.nil_append, List.dropWhile_eq_nil_iff.mpr h, List.dropWhile_nil]
  | cons c cs ih =>
    rw [List.cons_append]
    by_cases hc : p c = true
    · rw [List.dropWhile_cons_of_pos hc, List.dropWhile_cons_of_pos hc, ih]
    · rw [List.dropWhile_cons_of_neg hc, List.dropWhile_cons_of_neg hc, ← List.cons_append, hright]

/-! ## Listings -/

/-- Each part of a record but the first is read as if it were a record. The reader skips the end of
the record before. -/
theorem filterMap_splitOn_flatMap {sep eol : α} (hne : eol ≠ sep) {read : List α → Option β}
    (hread : ∀ piece, read (eol :: piece) = read piece) (hnil : read [] = none) {γ : Type}
    (body : γ → List α) (records : List γ) :
    ((records.flatMap fun r ↦ body r ++ [sep, eol]).splitOn sep).filterMap read =
      records.flatMap fun r ↦ ((body r).splitOn sep).filterMap read := by
  have hskip : ∀ cs : List α, ((eol :: cs).splitOn sep).filterMap read =
      (cs.splitOn sep).filterMap read := by
    intro cs
    rw [List.splitOn_cons_eq_if_modifyHead, if_neg (by simpa using hne)]
    rcases cs.splitOn sep with _ | ⟨piece, pieces⟩
    · rfl
    · rw [List.modifyHead_cons, List.filterMap_cons, List.filterMap_cons, hread]
  induction records with
  | nil => simp [hnil]
  | cons r records ih =>
    have hsplit : (body r ++ [sep, eol]) ++ records.flatMap (fun r ↦ body r ++ [sep, eol]) =
        body r ++ sep :: eol :: records.flatMap (fun r ↦ body r ++ [sep, eol]) := by
      simp
    rw [List.flatMap_cons, List.flatMap_cons, hsplit, List.splitOn_append_cons_self,
      List.filterMap_append, hskip, ih]

end Fields
