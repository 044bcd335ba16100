import Mathlib

/-!
# Dicts in the order of insertion

A dict is the list of its items, of which no two have the same key. An assignment to a key that is
there leaves the key where it is, and a new key comes last.

A sum over the values goes up by a value that is added, and down by one that is taken out
(`sum_setItem`, `sum_popItem`).

When the values of a list are assigned one after the other to their keys, each key ends with the
last of its values (`mem_assignAll`). The items are then the same, up to their order, for any list
that has the same values for each key (`assignAll_perm`).
-/

namespace Dicts

variable {κ β : Type} [DecidableEq κ]

/-- `items[key] = value`. -/
def setItem (key : κ) (value : β) : List (κ × β) → List (κ × β)
  | [] => [(key, value)]
  | item :: items =>
    if item.1 = key then (key, value) :: items else item :: setItem key value items

variable {key k : κ} {value v : β} {items : List (κ × β)}

theorem mem_map_fst_setItem :
    k ∈ (setItem key value items).map Prod.fst ↔ k = key ∨ k ∈ items.map Prod.fst := by
  induction items with
  | nil => simp [setItem]
  | cons item items ih =>
    rw [setItem]
    by_cases hkey : item.1 = key
    · rw [if_pos hkey, List.map_cons, List.map_cons, List.mem_cons, List.mem_cons, hkey, ← or_assoc,
        or_self]
    · rw [if_neg hkey, List.map_cons, List.map_cons, List.mem_cons, List.mem_cons, ih]
      exact or_left_comm

theorem nodup_setItem (h : (items.map Prod.fst).Nodup) :
    ((setItem key value items).map Prod.fst).Nodup := by
  induction items with
  | nil => exact List.nodup_singleton key
  | cons item items ih =>
    rw [List.map_cons, List.nodup_cons] at h
    rw [setItem]
    by_cases hkey : item.1 = key
    · rw [if_pos hkey, List.map_cons, List.nodup_cons, ← hkey]
      exact h
    · rw [if_neg hkey, List.map_cons, List.nodup_cons, mem_map_fst_setItem, not_or]
      exact ⟨⟨hkey, h.1⟩, ih h.2⟩

theorem mem_setItem (h : (items.map Prod.fst).Nodup) :
    (k, v) ∈ setItem key value items ↔ if k = key then v = value else (k, v) ∈ items := by
  induction items with
  | nil =>
    rw [setItem, List.mem_singleton, Prod.mk.injEq]
    split
    · next hk => simp [hk]
    · next hk => simp [hk]
  | cons item items ih =>
    rw [List.map_cons, List.nodup_cons] at h
    rw [setItem]
    by_cases hkey : item.1 = key
    · rw [if_pos hkey, List.mem_cons, Prod.mk.injEq]
      by_cases hk : k = key
      · -- no other item has the key
        have hnot : (k, v) ∉ items := fun hmem ↦
          h.1 (hkey.trans hk.symm ▸ List.mem_map_of_mem (f := Prod.fst) hmem)
        simp [hk, hk ▸ hnot]
      · have hne : (k, v) ≠ item := fun heq ↦ hk ((congrArg Prod.fst heq).trans hkey)
        simp [hk, hne]
    · rw [if_neg hkey, List.mem_cons, ih h.2]
      by_cases hk : k = key
      · have hne : (k, v) ≠ item := fun heq ↦ hkey ((congrArg Prod.fst heq).symm.trans hk)
        simp [hk, hk ▸ hne]
      · simp [hk]

theorem lookup_setItem (key k : κ) (value : β) (items : List (κ × β)) :
    (setItem key value items).lookup k = if k = key then some value else items.lookup k := by
  have hcons : ∀ (item : κ × β) (items : List (κ × β)),
      (item :: items).lookup k = if k = item.1 then some item.2 else items.lookup k := by
    intro item items
    by_cases hk : k = item.1
    · rw [List.lookup_cons, beq_iff_eq.mpr hk, if_pos hk]
    · rw [List.lookup_cons, beq_eq_false_iff_ne.mpr hk, if_neg hk]
  induction items with
  | nil => rw [setItem, hcons]
  | cons item items ih =>
    rw [setItem]
    by_cases hkey : item.1 = key
    · rw [if_pos hkey, hcons, hcons, hkey]
      split
      · rfl
      · rfl
    · rw [if_neg hkey, hcons, hcons, ih]
      by_cases hk : k = item.1
      · rw [if_pos hk, if_pos hk, if_neg (hk ▸ hkey)]
      · rw [if_neg hk, if_neg hk]

/-- Without the items of a key. -/
def without (key : κ) (items : List (κ × β)) : List (κ × β) := items.filter (·.1 ≠ key)

theorem lookup_without (key k : κ) (items : List (κ × β)) :
    (without key items).lookup k = if k = key then none else items.lookup k := by
  rw [without]
  induction items with
  | nil => simp
  | cons item items ih =>
    by_cases hkey : item.1 = key
    · rw [List.filter_cons_of_neg (by simpa using hkey), ih]
      by_cases hk : k = key
      · rw [if_pos hk, if_pos hk]
      · have hne : (k == item.1) = false := beq_eq_false_iff_ne.mpr (hkey ▸ hk)
        rw [if_neg hk, if_neg hk, List.lookup_cons, hne]
    · rw [List.filter_cons_of_pos (by simpa using hkey), List.lookup_cons, List.lookup_cons]
      by_cases hk : k = item.1
      · rw [beq_iff_eq.mpr hk, if_neg (hk ▸ hkey)]
      · rw [beq_eq_false_iff_ne.mpr hk]
        exact ih

/-- `items.pop(key, None)`, of which this is what is left. -/
def popItem (key : κ) (items : List (κ × β)) : List (κ × β) := items.eraseP (·.1 = key)

theorem setItem_of_notMem (h : key ∉ items.map Prod.fst) :
    setItem key value items = items ++ [(key, value)] := by
  induction items with
  | nil => rfl
  | cons item items ih =>
    rw [List.map_cons, List.mem_cons, not_or] at h
    rw [setItem, if_neg (Ne.symm h.1), ih h.2, List.cons_append]

/-- An item of a dict is one that was set, or was there before. -/
theorem eq_or_mem_of_mem_setItem {item : κ × β} (h : item ∈ setItem key value items) :
    item = (key, value) ∨ item ∈ items := by
  induction items with
  | nil => exact .inl (List.mem_singleton.mp h)
  | cons head items ih =>
    rw [setItem] at h
    by_cases hkey : head.1 = key
    · rw [if_pos hkey] at h
      exact (List.mem_cons.mp h).imp_right (List.mem_cons_of_mem head)
    · rw [if_neg hkey] at h
      rcases List.mem_cons.mp h with rfl | h
      · exact .inr List.mem_cons_self
      · exact (ih h).imp_right (List.mem_cons_of_mem head)

/-- Items with different keys are set one after the other. -/
theorem foldl_setItem {α : Type} (f : α → κ × β) (values : List α) (acc : List (κ × β))
    (h : ((acc ++ values.map f).map Prod.fst).Nodup) :
    values.foldl (fun acc a ↦ setItem (f a).1 (f a).2 acc) acc = acc ++ values.map f := by
  induction values generalizing acc with
  | nil => rw [List.foldl_nil, List.map_nil, List.append_nil]
  | cons a values ih =>
    have hnew : (f a).1 ∉ acc.map Prod.fst := by
      rw [List.map_append, List.nodup_append] at h
      intro hmem
      exact h.2.2 _ hmem _ (by simp) rfl
    rw [List.foldl_cons, setItem_of_notMem hnew, ih]
    · rw [List.map_cons, List.append_assoc, List.singleton_append]
    · simpa using h

/-- Where no key is there twice, an item is found under its key. -/
theorem lookup_of_mem (hnodup : (items.map Prod.fst).Nodup) (h : (key, v) ∈ items) :
    items.lookup key = some v := by
  induction items with
  | nil => exact nomatch h
  | cons item items ih =>
    rw [List.map_cons, List.nodup_cons] at hnodup
    rcases List.mem_cons.mp h with rfl | h
    · exact List.lookup_cons_self
    · have hne : key ≠ item.1 := by
        rintro rfl
        exact hnodup.1 (List.mem_map.mpr ⟨_, h, rfl⟩)
      rw [List.lookup_cons, beq_eq_false_iff_ne.mpr hne]
      exact ih hnodup.2 h

theorem map_fst_setItem_of_mem (value : β) (h : key ∈ items.map Prod.fst) :
    (setItem key value items).map Prod.fst = items.map Prod.fst := by
  induction items with
  | nil => exact absurd h List.not_mem_nil
  | cons item items ih =>
    rw [setItem]
    by_cases hkey : item.1 = key
    · rw [if_pos hkey, List.map_cons, List.map_cons, hkey]
    · rw [List.map_cons, List.mem_cons] at h
      rw [if_neg hkey, List.map_cons, List.map_cons, ih (h.resolve_left (Ne.symm hkey))]

theorem popItem_sublist (key : κ) (items : List (κ × β)) : (popItem key items).Sublist items :=
  List.eraseP_sublist

theorem popItem_of_notMem (h : key ∉ items.map Prod.fst) : popItem key items = items := by
  refine List.eraseP_of_forall_not fun item hitem hkey ↦ h ?_
  rw [← of_decide_eq_true hkey]
  exact List.mem_map_of_mem hitem

section Sums

variable {γ : Type} [AddCommGroup γ] (amount : β → γ)

/-- The sum over the values. -/
def total (items : List (κ × β)) : γ := (items.map fun item ↦ amount item.2).sum

omit [DecidableEq κ] in
theorem total_cons (item : κ × β) (items : List (κ × β)) :
    total amount (item :: items) = amount item.2 + total amount items := by
  rw [total, List.map_cons, List.sum_cons, total]

omit [DecidableEq κ] in
theorem total_concat (items : List (κ × β)) (item : κ × β) :
    total amount (items ++ [item]) = total amount items + amount item.2 := by
  rw [total, List.map_append, List.sum_append, List.map_singleton, List.sum_singleton, total]

/-- An item with the key, where one is found. -/
theorem mem_of_lookup (h : items.lookup key = some v) : (key, v) ∈ items := by
  induction items with
  | nil => exact nomatch h
  | cons item items ih =>
    rw [List.lookup_cons] at h
    by_cases hkey : key = item.1
    · rw [beq_iff_eq.mpr hkey] at h
      obtain rfl := Option.some.inj h
      rw [hkey]
      exact List.mem_cons_self
    · rw [beq_eq_false_iff_ne.mpr hkey] at h
      exact List.mem_cons_of_mem item (ih h)

theorem sum_setItem (h : items.lookup key = some v) :
    total amount (setItem key value items) = total amount items - amount v + amount value := by
  induction items with
  | nil => exact nomatch h
  | cons item items ih =>
    rw [List.lookup_cons] at h
    rw [setItem]
    by_cases hkey : item.1 = key
    · rw [beq_iff_eq.mpr hkey.symm] at h
      obtain rfl := Option.some.inj h
      rw [if_pos hkey, total_cons, total_cons, add_sub_cancel_left, add_comm]
    · rw [beq_eq_false_iff_ne.mpr (Ne.symm hkey)] at h
      rw [if_neg hkey, total_cons, total_cons, ih h, add_sub_assoc, add_assoc]

theorem sum_popItem (h : items.lookup key = some v) :
    total amount (popItem key items) = total amount items - amount v := by
  induction items with
  | nil => exact nomatch h
  | cons item items ih =>
    rw [List.lookup_cons] at h
    by_cases hkey : item.1 = key
    · rw [beq_iff_eq.mpr hkey.symm] at h
      obtain rfl := Option.some.inj h
      rw [popItem, List.eraseP_cons_of_pos (by simpa using hkey), total_cons, add_sub_cancel_left]
    · rw [beq_eq_false_iff_ne.mpr (Ne.symm hkey)] at h
      rw [popItem, List.eraseP_cons_of_neg (by simpa using hkey), total_cons, total_cons,
        add_sub_assoc, ← ih h, popItem]

end Sums

theorem length_popItem (h : key ∈ items.map Prod.fst) :
    (popItem key items).length + 1 = items.length := by
  obtain ⟨item, hitem, hkey⟩ := List.mem_map.mp h
  have hlength : (popItem key items).length = items.length - 1 :=
    List.length_eraseP_of_mem hitem (by simpa using hkey)
  have hpos := List.length_pos_of_mem hitem
  omega

variable {f : β → κ} {values values' : List β}

/-- Every value assigned to its key. -/
def assignAll (f : β → κ) (values : List β) : List (κ × β) :=
  values.foldl (fun items value ↦ setItem (f value) value items) []

theorem assignAll_concat (f : β → κ) (values : List β) (value : β) :
    assignAll f (values ++ [value]) = setItem (f value) value (assignAll f values) := by
  rw [assignAll, List.foldl_append]
  rfl

theorem nodup_assignAll (f : β → κ) (values : List β) :
    ((assignAll f values).map Prod.fst).Nodup := by
  induction values using List.reverseRecOn with
  | nil => exact List.nodup_nil
  | append_singleton values value ih =>
    rw [assignAll_concat]
    exact nodup_setItem ih

/-- A key has the last one of its values. -/
theorem mem_assignAll :
    (k, v) ∈ assignAll f values ↔ (values.filter (f · = k)).getLast? = some v := by
  induction values using List.reverseRecOn with
  | nil => simp [assignAll]
  | append_singleton values value ih =>
    rw [assignAll_concat, mem_setItem (nodup_assignAll f values), List.filter_append]
    by_cases hk : f value = k
    · rw [if_pos hk.symm, List.filter_cons_of_pos (by simpa using hk), List.filter_nil,
        List.getLast?_append_cons, List.getLast?_singleton, Option.some.injEq]
      exact eq_comm
    · rw [if_neg (Ne.symm hk), List.filter_cons_of_neg (by simpa using hk), List.filter_nil,
        List.append_nil, ih]

omit [DecidableEq κ] in
theorem exists_append_of_getLast?_filter {p : β → Bool} (h : (values.filter p).getLast? = some v) :
    p v = true ∧ ∃ before after, values = before ++ v :: after ∧ ∀ a ∈ after, p a = false := by
  induction values using List.reverseRecOn with
  | nil => exact nomatch h
  | append_singleton values value ih =>
    rw [List.filter_append] at h
    by_cases hp : p value = true
    · rw [List.filter_cons_of_pos hp, List.filter_nil, List.getLast?_append_cons,
        List.getLast?_singleton] at h
      obtain rfl := Option.some.inj h
      exact ⟨hp, values, [], rfl, nofun⟩
    · rw [List.filter_cons_of_neg hp, List.filter_nil, List.append_nil] at h
      obtain ⟨hv, before, after, rfl, hafter⟩ := ih h
      refine ⟨hv, before, after ++ [value], by simp, fun a ha ↦ ?_⟩
      rcases List.mem_append.mp ha with ha | ha
      · exact hafter a ha
      · obtain rfl := List.mem_singleton.mp ha
        exact Bool.eq_false_iff.mpr hp

/-- A key has what the last one of its values gives it, whatever the equality of the lookup is. -/
theorem lookup_foldl_setItem {α γ : Type} [b : BEq κ] [LawfulBEq κ] (key : α → κ) (value : α → γ)
    (values : List α) (k : κ) :
    (values.foldl (fun items a ↦ setItem (key a) (value a) items) []).lookup k =
      ((values.filter (key · = k)).getLast?).map value := by
  obtain rfl : b = instBEqOfDecidableEq := lawful_beq_subsingleton _ _
  induction values using List.reverseRecOn with
  | nil => rfl
  | append_singleton values a ih =>
    rw [List.foldl_append, List.foldl_cons, List.foldl_nil, lookup_setItem, List.filter_append, ih]
    by_cases hk : key a = k
    · rw [if_pos hk.symm, List.filter_cons_of_pos (by simpa using hk), List.filter_nil,
        List.getLast?_append_cons, List.getLast?_singleton, Option.map_some]
    · rw [if_neg (Ne.symm hk), List.filter_cons_of_neg (by simpa using hk), List.filter_nil,
        List.append_nil]

/-- Only the order of the values of each key matters, except for the order of the items. -/
theorem assignAll_perm (h : ∀ k, values.filter (f · = k) = values'.filter (f · = k)) :
    (assignAll f values).Perm (assignAll f values') := by
  refine (List.perm_ext_iff_of_nodup (nodup_assignAll f values).of_map
    (nodup_assignAll f values').of_map).mpr ?_
  rintro ⟨k, v⟩
  rw [mem_assignAll, mem_assignAll, h k]

end Dicts
