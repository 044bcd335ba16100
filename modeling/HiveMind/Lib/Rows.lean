import Mathlib

/-!
# Rows of a table

A table is the list of its rows. An `UPDATE … WHERE` rewrites the rows that meet a condition, a
`RETURNING` clause reads the first of them back, and the other rows stay as they are. Rows have a
key, and a statement that keeps the keys of the rows keeps their uniqueness. An `ORDER BY` of rows
with different keys is the only list of the rows in which the keys increase
(`orderBy_eq_of_perm`).
-/

namespace Rows

variable {ρ κ : Type}

/-- `UPDATE … WHERE`. -/
def update (p : ρ → Bool) (f : ρ → ρ) (rows : List ρ) : List ρ :=
  rows.map fun row ↦ if p row then f row else row

/-- The first row of `UPDATE … WHERE … RETURNING *`. -/
def returning (p : ρ → Bool) (f : ρ → ρ) (rows : List ρ) : Option ρ :=
  (rows.find? p).map f

/-- No two rows have the same key. -/
def Unique (key : ρ → κ) (rows : List ρ) : Prop := (rows.map key).Nodup

variable {p : ρ → Bool} {f : ρ → ρ} {key : ρ → κ} {rows : List ρ} {row row' : ρ}

theorem mem_update :
    row ∈ update p f rows ↔
      ∃ old ∈ rows, (if p old then f old else old) = row := List.mem_map

theorem mem_update_of_not (h : row ∈ rows) (hnot : p row = false) :
    row ∈ update p f rows := by
  refine mem_update.mpr ⟨row, h, ?_⟩
  rw [hnot]
  rfl

/-- A row that the change does not go for is there afterwards exactly if it was there before, where
the change leaves the keys as they are. -/
theorem mem_update_iff {k : κ} (hp : ∀ row, p row = true → key row = k)
    (hf : ∀ row, key (f row) = key row) (hne : key row ≠ k) : row ∈ update p f rows ↔ row ∈ rows := by
  constructor
  · intro h
    obtain ⟨old, hold, rfl⟩ := mem_update.mp h
    split at hne
    · next hpold => exact absurd ((hf old).trans (hp old hpold)) hne
    · next hpold =>
      rw [if_neg hpold]
      exact hold
  · exact fun h ↦ mem_update_of_not h (Bool.eq_false_iff.mpr fun hrow ↦ hne (hp row hrow))

/-- What holds of every row and is kept by the change holds of every row afterwards. -/
theorem forall_mem_update {P : ρ → Prop} (h : ∀ row ∈ rows, p row = false → P row)
    (hf : ∀ row ∈ rows, p row = true → P (f row)) : ∀ row ∈ update p f rows, P row := by
  intro row hrow
  obtain ⟨old, hold, rfl⟩ := mem_update.mp hrow
  by_cases hp : p old = true
  · rw [if_pos hp]
    exact hf old hold hp
  · rw [if_neg hp]
    exact h old hold (Bool.eq_false_iff.mpr hp)

theorem update_eq_self (h : ∀ row ∈ rows, p row = false) : update p f rows = rows := by
  rw [update]
  refine (List.map_congr_left fun row hrow ↦ ?_).trans (List.map_id rows)
  rw [h row hrow]
  rfl

theorem returning_eq_none :
    returning p f rows = none ↔ ∀ row ∈ rows, p row = false := by
  simp only [returning, Option.map_eq_none_iff, List.find?_eq_none, Bool.not_eq_true]

theorem exists_of_returning (h : returning p f rows = some row') :
    ∃ row ∈ rows, p row = true ∧ f row = row' := by
  obtain ⟨row, hrow, rfl⟩ := Option.map_eq_some_iff.mp h
  exact ⟨row, List.mem_of_find?_eq_some hrow, List.find?_some hrow, rfl⟩

theorem map_key_update (hkey : ∀ row, key (f row) = key row) :
    (update p f rows).map key = rows.map key := by
  rw [update, List.map_map]
  refine List.map_congr_left fun row _ ↦ ?_
  rw [Function.comp_apply]
  split
  · exact hkey row
  · rfl

theorem mem_map_key_update (hkey : ∀ row, key (f row) = key row) {k : κ} :
    k ∈ (update p f rows).map key ↔ k ∈ rows.map key := by
  rw [map_key_update hkey]

/-- A row is found by its key where it was, changed if it is the one with the key. -/
theorem find?_update [DecidableEq κ] {k l : κ} (hkey : ∀ row, key row = k → key (f row) = k) :
    (update (key · == k) f rows).find? (key · == l) =
      if k = l then (rows.find? (key · == l)).map f else rows.find? (key · == l) := by
  induction rows with
  | nil => simp [update]
  | cons row rows ih =>
    rw [update, List.map_cons, ← update, List.find?_cons, List.find?_cons, ih]
    by_cases hk : key row = k
    · rw [if_pos (beq_iff_eq.mpr hk), hkey row hk, hk]
      by_cases hkl : k = l
      · simp [hkl]
      · simp [beq_eq_false_iff_ne.mpr hkl, hkl]
    · rw [if_neg (by simpa using hk)]
      by_cases hl : key row = l
      · have hkl : k ≠ l := fun h ↦ hk (hl.trans h.symm)
        rw [if_neg hkl, if_neg hkl]
      · simp [beq_eq_false_iff_ne.mpr hl]

theorem Unique.update (h : Unique key rows) (hkey : ∀ row, key (f row) = key row) :
    Unique key (update p f rows) := by
  rw [Unique, map_key_update hkey]
  exact h

theorem Unique.concat (h : Unique key rows) (hnew : ∀ old ∈ rows, key old ≠ key row) :
    Unique key (rows ++ [row]) := by
  rw [Unique, List.map_append, List.map_singleton, List.nodup_append]
  refine ⟨h, List.nodup_singleton _, fun k hk l hl ↦ ?_⟩
  obtain ⟨old, hold, rfl⟩ := List.mem_map.mp hk
  rw [List.mem_singleton.mp hl]
  exact hnew old hold

theorem Unique.eq (h : Unique key rows) (hrow : row ∈ rows) (hrow' : row' ∈ rows)
    (hkey : key row = key row') : row = row' := List.inj_on_of_nodup_map h hrow hrow' hkey

/-- A row is found by its key. -/
theorem Unique.find?_eq [BEq κ] [LawfulBEq κ] (h : Unique key rows) (hrow : row ∈ rows) :
    rows.find? (key · == key row) = some row := by
  cases hfind : rows.find? (key · == key row) with
  | none =>
    have hne := List.find?_eq_none.mp hfind row hrow
    exact absurd (beq_self_eq_true (key row)) hne
  | some found =>
    have hfound := List.find?_some hfind
    rw [h.eq (List.mem_of_find?_eq_some hfind) hrow (eq_of_beq hfound)]

theorem Unique.find?_eq_some_iff [BEq κ] [LawfulBEq κ] (h : Unique key rows) {k : κ} :
    rows.find? (key · == k) = some row ↔ row ∈ rows ∧ key row = k := by
  constructor
  · intro hfind
    have hkey := List.find?_some hfind
    exact ⟨List.mem_of_find?_eq_some hfind, eq_of_beq hkey⟩
  · rintro ⟨hrow, rfl⟩
    exact h.find?_eq hrow

/-- What is found by a key does not depend on the order of the rows. -/
theorem Unique.find?_eq_of_perm [BEq κ] [LawfulBEq κ] {rows' : List ρ} (h : Unique key rows)
    (hperm : rows.Perm rows') (k : κ) :
    rows'.find? (key · == k) = rows.find? (key · == k) := by
  have h' : Unique key rows' := (hperm.map key).nodup_iff.mp h
  refine Option.ext fun row ↦ ?_
  rw [h'.find?_eq_some_iff, h.find?_eq_some_iff, hperm.mem_iff]

/-- The rows with the key of a row are the row alone. -/
theorem Unique.filter_eq [DecidableEq κ] (h : Unique key rows) (hrow : row ∈ rows) :
    rows.filter (key · = key row) = [row] := by
  induction rows with
  | nil => exact nomatch hrow
  | cons first rows ih =>
    rw [Unique, List.map_cons, List.nodup_cons] at h
    rcases List.mem_cons.mp hrow with rfl | hrow
    · have hnone : rows.filter (key · = key row) = [] := by
        refine List.filter_eq_nil_iff.mpr fun other hother ↦ ?_
        have hne : key other ≠ key row := fun heq ↦ h.1 (heq ▸ List.mem_map_of_mem hother)
        simpa using hne
      rw [List.filter_cons_of_pos (by simp), hnone]
    · have hne : key first ≠ key row := fun heq ↦ h.1 (heq ▸ List.mem_map_of_mem hrow)
      rw [List.filter_cons_of_neg (by simpa using hne), ih h.2 hrow]

/-! ## Order -/

section Order

variable [LinearOrder κ]

/-- `ORDER BY`. -/
def orderBy (key : ρ → κ) (rows : List ρ) : List ρ :=
  rows.insertionSort fun row row' ↦ key row ≤ key row'

theorem orderBy_perm : (orderBy key rows).Perm rows := List.perm_insertionSort _ rows

theorem pairwise_orderBy : (orderBy key rows).Pairwise fun row row' ↦ key row ≤ key row' := by
  have : Std.Total fun row row' : ρ ↦ key row ≤ key row' := ⟨fun row row' ↦ le_total _ _⟩
  have : IsTrans ρ fun row row' ↦ key row ≤ key row' := ⟨fun _ _ _ ↦ le_trans⟩
  exact List.pairwise_insertionSort _ rows

theorem Unique.pairwise_orderBy (h : Unique key rows) :
    (orderBy key rows).Pairwise fun row row' ↦ key row < key row' := by
  have hunique : ((orderBy key rows).map key).Nodup := (orderBy_perm.map key).nodup_iff.mpr h
  exact (Rows.pairwise_orderBy.and (List.pairwise_map.mp hunique)).imp fun ⟨hle, hne⟩ ↦
    lt_of_le_of_ne hle hne

/-- Rows with increasing keys are what the order gives. -/
theorem orderBy_eq_of_perm {rows' : List ρ} (hperm : rows'.Perm rows)
    (h : rows'.Pairwise fun row row' ↦ key row < key row') : orderBy key rows = rows' := by
  have hunique : Unique key rows' := List.pairwise_map.mpr (h.imp ne_of_lt)
  refine (orderBy_perm.trans hperm.symm).eq_of_pairwise ?_ Rows.pairwise_orderBy (h.imp le_of_lt)
  intro row row' hrow hrow' hle hle'
  exact hunique.eq (hperm.mem_iff.mpr (orderBy_perm.mem_iff.mp hrow)) hrow' (le_antisymm hle hle')

theorem Unique.orderBy_eq_of_perm {rows' : List ρ} (h : Unique key rows) (hperm : rows.Perm rows') :
    orderBy key rows' = orderBy key rows :=
  Rows.orderBy_eq_of_perm (orderBy_perm.trans hperm) h.pairwise_orderBy

end Order

end Rows
