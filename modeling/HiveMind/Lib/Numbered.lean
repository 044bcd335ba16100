import Mathlib

/-!
# Numbered files

Files that have a number in their names, with zeros in front of it up to a given width, are in the
order of their numbers when they are sorted by name, as long as the numbers fit the width. One
number later that is no longer so: a longer name goes before shorter ones.

* **`sort_eq_self`**: files with the numbers from one on are sorted already.
-/

namespace Numbered

/-- `f"{n:0<width>d}"`, of a natural number. -/
def padded (width n : ℕ) : List Char := (Nat.toDigits 10 n).leftpad width '0'

/-- A file name with a number in it. -/
def name (front back : String) (width n : ℕ) : String :=
  front ++ String.ofList (padded width n) ++ back

theorem length_padded {width n : ℕ} (hwidth : 0 < width) (h : n < 10 ^ width) :
    (padded width n).length = width := by
  have hlength := (Nat.length_toDigits_le_iff (by decide) hwidth).mpr h
  rw [padded, List.length_leftpad]
  omega

/-- The last digit stands by itself. -/
theorem padded_succ {width : ℕ} (hwidth : 0 < width) (n : ℕ) :
    padded (width + 1) n = padded width (n / 10) ++ [Nat.digitChar (n % 10)] := by
  have hconcat : ∀ (cs : List Char) (c : Char),
      (cs ++ [c]).leftpad (width + 1) '0' = cs.leftpad width '0' ++ [c] := by
    intro cs c
    rw [List.leftpad, List.leftpad, List.length_append, List.length_singleton,
      Nat.add_sub_add_right, List.append_assoc]
  by_cases hn : n < 10
  · -- all the other digits are zeros
    have hzeros : padded width 0 = List.replicate width '0' := by
      obtain ⟨k, rfl⟩ := Nat.exists_eq_succ_of_ne_zero hwidth.ne'
      rw [padded, Nat.toDigits_zero, List.leftpad, List.length_singleton, Nat.succ_sub_one,
        ← List.replicate_succ']
    rw [Nat.div_eq_of_lt hn, Nat.mod_eq_of_lt hn, hzeros, padded, Nat.toDigits_of_lt_base hn,
      List.leftpad, List.length_singleton, Nat.add_sub_cancel]
  · rw [padded, Nat.toDigits_of_base_le (by decide) (not_lt.mp hn), hconcat, padded]

/-- Texts of one length that differ stay in order whatever is put behind them. -/
theorem append_lt_append {cs ds : List Char} (h : cs < ds) (hlength : cs.length = ds.length)
    (us vs : List Char) : cs ++ us < ds ++ vs := by
  induction cs generalizing ds with
  | nil =>
    obtain rfl := List.eq_nil_of_length_eq_zero hlength.symm
    exact absurd h (lt_irrefl _)
  | cons c cs ih =>
    obtain _ | ⟨d, ds⟩ := ds
    · exact absurd h (by simp)
    rw [List.cons_append, List.cons_append, List.cons_lt_cons_iff]
    rcases List.cons_lt_cons_iff.mp h with hcd | ⟨rfl, hlt⟩
    · exact .inl hcd
    · exact .inr ⟨rfl, ih hlt (Nat.succ.inj hlength)⟩

theorem append_lt_append_left (us : List Char) {cs ds : List Char} (h : cs < ds) :
    us ++ cs < us ++ ds := by
  induction us with
  | nil => exact h
  | cons u us ih =>
    rw [List.cons_append, List.cons_append, List.cons_lt_cons_iff]
    exact .inr ⟨rfl, ih⟩

theorem digitChar_lt {m n : ℕ} (hmn : m < n) (hn : n < 10) :
    Nat.digitChar m < Nat.digitChar n := by
  have hall : ∀ n < 10, ∀ m < n, Nat.digitChar m < Nat.digitChar n := by decide
  exact hall n hn m hmn

theorem padded_lt {width m n : ℕ} (hmn : m < n) (hn : n < 10 ^ (width + 1)) :
    padded (width + 1) m < padded (width + 1) n := by
  induction width generalizing m n with
  | zero =>
    have hone : ∀ k < 10, padded 1 k = [Nat.digitChar k] := fun k hk ↦ by
      rw [padded, Nat.toDigits_of_lt_base hk]
      rfl
    rw [hone m (by omega), hone n (by omega), List.cons_lt_cons_iff]
    exact .inl (digitChar_lt hmn (by omega))
  | succ width ih =>
    rw [padded_succ width.succ_pos, padded_succ width.succ_pos]
    have hwidth : n / 10 < 10 ^ (width + 1) := by
      rw [pow_succ] at hn
      omega
    by_cases hhead : m / 10 < n / 10
    · refine append_lt_append (ih hhead hwidth) ?_ _ _
      rw [length_padded width.succ_pos (by omega), length_padded width.succ_pos hwidth]
    · -- the numbers agree up to the last digit
      have heq : m / 10 = n / 10 := by omega
      rw [heq]
      refine append_lt_append_left _ (List.cons_lt_cons_iff.mpr (.inl (digitChar_lt ?_ ?_)))
      · omega
      · omega

theorem name_lt {front back : String} {width m n : ℕ} (hmn : m < n) (hn : n < 10 ^ (width + 1)) :
    name front back (width + 1) m < name front back (width + 1) n := by
  rw [String.lt_iff_toList_lt, name, name]
  simp only [String.toList_append, String.toList_ofList, List.append_assoc]
  apply append_lt_append_left
  refine append_lt_append (padded_lt hmn hn) ?_ _ _
  rw [length_padded width.succ_pos (by omega), length_padded width.succ_pos hn]

/-! ## Directories -/

variable {α : Type}

/-- The files of a directory, sorted by name. -/
def sort (files : List (String × α)) : List (String × α) :=
  files.insertionSort fun file file' ↦ file.1 ≤ file'.1

/-- The files have the numbers from one on. -/
def Consecutive (front back : String) (width : ℕ) (files : List (String × α)) : Prop :=
  files.map Prod.fst = (List.range files.length).map fun n ↦ name front back width (n + 1)

variable {front back : String} {width : ℕ} {files : List (String × α)}

theorem Consecutive.nil : Consecutive front back width ([] : List (String × α)) := rfl

theorem Consecutive.concat (h : Consecutive front back width files) (content : α) :
    Consecutive front back width
      (files ++ [(name front back width (files.length + 1), content)]) := by
  rw [Consecutive, List.map_append, List.length_append, List.length_singleton, List.range_succ,
    List.map_append, ← h]
  rfl

/-- The names come before the one with the next number. -/
theorem Consecutive.lt (h : Consecutive front back (width + 1) files)
    (hlength : files.length + 1 < 10 ^ (width + 1)) {file : String × α} (hfile : file ∈ files) :
    file.1 < name front back (width + 1) (files.length + 1) := by
  have hmem := List.mem_map_of_mem (f := Prod.fst) hfile
  rw [h] at hmem
  obtain ⟨n, hn, hname⟩ := List.mem_map.mp hmem
  rw [← hname]
  exact name_lt (Nat.succ_lt_succ (List.mem_range.mp hn)) hlength

theorem Consecutive.take (h : Consecutive front back width files) (n : ℕ) :
    Consecutive front back width (files.take n) := by
  rw [Consecutive, List.map_take, h, List.length_take, ← List.map_take, List.take_range]

/-- Files with the numbers from one on are sorted already. -/
theorem sort_eq_self (h : Consecutive front back (width + 1) files)
    (hlength : files.length < 10 ^ (width + 1)) : sort files = files := by
  apply List.Pairwise.insertionSort_eq
  have hnames : (files.map Prod.fst).Pairwise (· ≤ ·) := by
    rw [h, List.pairwise_map]
    refine List.pairwise_lt_range.imp_of_mem fun hm hn hlt ↦ (name_lt (by omega) ?_).le
    have := List.mem_range.mp hn
    omega
  exact List.pairwise_map.mp hnames

/-- A file with a name after all the others goes to the end. -/
theorem sort_concat {file : String × α} (h : ∀ file' ∈ files, file'.1 ≤ file.1) :
    sort (files ++ [file]) = sort files ++ [file] := by
  have hinsert : ∀ (file' : String × α) (sorted : List (String × α)), file'.1 ≤ file.1 →
      (sorted ++ [file]).orderedInsert (fun f f' ↦ f.1 ≤ f'.1) file' =
        sorted.orderedInsert (fun f f' ↦ f.1 ≤ f'.1) file' ++ [file] := by
    intro file' sorted hle
    induction sorted with
    | nil => simp [hle]
    | cons head tail ih =>
      rw [List.cons_append, List.orderedInsert_cons, List.orderedInsert_cons, ih]
      split <;> rfl
  induction files with
  | nil => rfl
  | cons head tail ih =>
    obtain ⟨hhead, htail⟩ := List.forall_mem_cons.mp h
    have hcons : ∀ files : List (String × α), sort (head :: files) =
        (sort files).orderedInsert (fun f f' ↦ f.1 ≤ f'.1) head := fun _ ↦ rfl
    rw [List.cons_append, hcons, ih htail, hinsert head _ hhead, hcons]

theorem mem_sort {file : String × α} : file ∈ sort files ↔ file ∈ files := List.mem_insertionSort _

theorem length_sort : (sort files).length = files.length := List.length_insertionSort _ _

end Numbered
