import Mathlib

/-!
# Finite maps

`Std.ExtTreeMap` is extensional: two maps are equal when they have the same entries. The lemmas here
restate lookups after an update with equality of keys in place of comparison.
-/

open Std (ExtTreeMap TransOrd LawfulEqOrd)

namespace Maps

variable {κ β : Type} [Ord κ] [TransOrd κ] [LawfulEqOrd κ] [DecidableEq κ]

theorem getElem?_insert (m : ExtTreeMap κ β) (k k' : κ) (v : β) :
    (m.insert k v)[k']? = if k = k' then some v else m[k']? := by
  rw [ExtTreeMap.getElem?_insert]
  simp only [Std.compare_eq_iff_eq]

/-! ## Inserting many entries -/

section InsertAll

variable {α : Type} {f : κ × α → β} {k : κ}

private theorem getElem?_foldl_insert_of_forall_ne {ps : List (κ × α)} (t : ExtTreeMap κ β)
    (h : ∀ p ∈ ps, p.1 ≠ k) : (ps.foldl (fun t p ↦ t.insert p.1 (f p)) t)[k]? = t[k]? := by
  induction ps generalizing t with
  | nil => rfl
  | cons p ps ih =>
    rw [List.foldl_cons, ih _ fun q hq ↦ h q (List.mem_cons_of_mem p hq), getElem?_insert,
      if_neg (h p List.mem_cons_self)]

private theorem getElem?_foldl_insert_of_mem {ps : List (κ × α)} (t : ExtTreeMap κ β)
    (hnodup : ps.Pairwise fun p q ↦ p.1 ≠ q.1) {v : α} (h : (k, v) ∈ ps) :
    (ps.foldl (fun t p ↦ t.insert p.1 (f p)) t)[k]? = some (f (k, v)) := by
  induction ps generalizing t with
  | nil => exact absurd h List.not_mem_nil
  | cons p ps ih =>
    rw [List.pairwise_cons] at hnodup
    rcases List.mem_cons.mp h with rfl | h
    · rw [List.foldl_cons, getElem?_foldl_insert_of_forall_ne _ fun q hq ↦ (hnodup.1 q hq).symm,
        getElem?_insert, if_pos rfl]
    · exact ih _ hnodup.2 h

/-- Inserting every entry of one map into another overrides the keys of the first. -/
theorem getElem?_foldl_toList (m : ExtTreeMap κ α) (t : ExtTreeMap κ β) (k : κ) :
    (m.toList.foldl (fun t p ↦ t.insert p.1 (f p)) t)[k]? =
      (m[k]?.map fun v ↦ f (k, v)).or t[k]? := by
  have hnodup : m.toList.Pairwise fun p q ↦ p.1 ≠ q.1 := by
    refine ExtTreeMap.distinct_keys_toList.imp fun h heq ↦ h ?_
    rw [Std.compare_eq_iff_eq]
    exact heq
  cases hk : m[k]? with
  | some v =>
    rw [getElem?_foldl_insert_of_mem t hnodup (ExtTreeMap.mem_toList_iff_getElem?_eq_some.mpr hk)]
    rfl
  | none =>
    refine getElem?_foldl_insert_of_forall_ne t fun p hp heq ↦ ?_
    have hsome := ExtTreeMap.mem_toList_iff_getElem?_eq_some.mp hp
    rw [heq, hk] at hsome
    exact nomatch hsome

end InsertAll

end Maps
