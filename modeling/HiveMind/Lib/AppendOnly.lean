import Mathlib

/-!
# Logs that are only appended to

A log grows at its end, and an entry is appended after it was checked against the entries before
it. So each entry of the log stands in the relation that was checked to the part of the log in
front of it, whatever came later.

* **`Admitted.nodup_map`**: a key that is checked to be new is a key without duplicates.
* **`Admitted.acyclic`**: links that are checked to lead to entries of the log never lead back to
  the entry they start from.
-/

namespace AppendOnly

variable {α κ : Type}

/-- Each entry stands in the relation to the log in front of it. -/
def Admitted (P : List α → α → Prop) (log : List α) : Prop :=
  ∀ before a after, log = before ++ a :: after → P before a

section Admitted

variable {P : List α → α → Prop} {log : List α}

theorem Admitted.nil : Admitted P [] := by
  intro before a after h
  exact absurd h (by simp)

/-- The part of a decomposition that is in front: either the entry is the last one, or it was there
before. -/
theorem concat_eq_append_cons {log before after : List α} {a b : α}
    (h : log ++ [a] = before ++ b :: after) :
    (before = log ∧ b = a) ∨ ∃ rest, log = before ++ b :: rest := by
  induction after using List.reverseRecOn with
  | nil =>
    obtain ⟨hlog, hlast⟩ := List.append_inj' h rfl
    exact .inl ⟨hlog.symm, (List.singleton_inj.mp hlast).symm⟩
  | append_singleton rest c _ =>
    have h' : log ++ [a] = (before ++ b :: rest) ++ [c] := by
      rw [h, List.append_assoc, List.cons_append]
    exact .inr ⟨rest, (List.append_inj' h' rfl).1⟩

theorem Admitted.concat {a : α} (h : Admitted P log) (ha : P log a) : Admitted P (log ++ [a]) := by
  intro before b after heq
  rcases concat_eq_append_cons heq with ⟨rfl, rfl⟩ | ⟨rest, hrest⟩
  · exact ha
  · exact h before b rest hrest

theorem Admitted.of_concat {a : α} (h : Admitted P (log ++ [a])) : Admitted P log := by
  intro before b after heq
  refine h before b (after ++ [a]) ?_
  rw [heq, List.append_assoc, List.cons_append]

theorem Admitted.imp {Q : List α → α → Prop} (h : Admitted P log)
    (himp : ∀ before a, P before a → Q before a) : Admitted Q log :=
  fun before a after heq ↦ himp before a (h before a after heq)

/-- Every entry was admitted to some part of the log. -/
theorem Admitted.exists_of_mem {a : α} (h : Admitted P log) (ha : a ∈ log) :
    ∃ before after, log = before ++ a :: after ∧ P before a := by
  obtain ⟨before, after, heq⟩ := List.append_of_mem ha
  exact ⟨before, after, heq, h before a after heq⟩

/-- A key that each entry has to bring anew. -/
theorem Admitted.nodup_map {key : α → κ} (h : Admitted P log)
    (hnew : ∀ before a, P before a → key a ∉ before.map key) : (log.map key).Nodup := by
  induction log using List.reverseRecOn with
  | nil => exact List.nodup_nil
  | append_singleton log a ih =>
    rw [List.map_append, List.map_singleton]
    refine List.nodup_append.mpr ⟨ih h.of_concat, List.nodup_singleton _, ?_⟩
    intro k hk k' hk' heq
    obtain rfl := List.mem_singleton.mp hk'
    subst heq
    exact hnew log a (h log a [] rfl) hk

/-- What the entries of a log have in common with all the entries before them. -/
theorem Admitted.pairwise {R : α → α → Prop} (h : Admitted P log)
    (hR : ∀ before a, P before a → ∀ b ∈ before, R b a) : log.Pairwise R := by
  induction log using List.reverseRecOn with
  | nil => exact .nil
  | append_singleton log a ih =>
    refine List.pairwise_append.mpr ⟨ih h.of_concat, List.pairwise_singleton R a, ?_⟩
    intro b hb a' ha'
    obtain rfl := List.mem_singleton.mp ha'
    exact hR log a' (h log a' [] rfl) b hb

/-- The entries of one kind are a log of their own. -/
theorem Admitted.filter {Q : List α → α → Prop} {p : α → Bool} (h : Admitted P log)
    (hQ : ∀ before a, Admitted P before → P before a → p a = true → Q (before.filter p) a) :
    Admitted Q (log.filter p) := by
  induction log using List.reverseRecOn with
  | nil => exact .nil
  | append_singleton log a ih =>
    rw [List.filter_append]
    by_cases ha : p a = true
    · rw [List.filter_cons_of_pos ha, List.filter_nil]
      exact (ih h.of_concat).concat (hQ log a h.of_concat (h log a [] rfl) ha)
    · rw [List.filter_cons_of_neg ha, List.filter_nil, List.append_nil]
      exact ih h.of_concat

theorem Admitted.of_append {before after : List α} (h : Admitted P (before ++ after)) :
    Admitted P before := by
  intro front a rest heq
  refine h front a (rest ++ after) ?_
  rw [heq, List.append_assoc, List.cons_append]

end Admitted

/-- Entries with the same key are one entry. -/
theorem eq_of_key {key : α → κ} {log : List α} (h : (log.map key).Nodup) {a b : α} (ha : a ∈ log)
    (hb : b ∈ log) (hkey : key a = key b) : a = b :=
  List.inj_on_of_nodup_map h ha hb hkey

/-! ## Links to earlier entries -/

/-- The entry links to the other by its key. -/
def Links (key : α → κ) (links : α → List κ) (log : List α) (a b : α) : Prop :=
  a ∈ log ∧ b ∈ log ∧ key b ∈ links a

section Links

variable {key : α → κ} {links : α → List κ} {log : List α}

/-- The keys are new, and the links lead to entries that are there. -/
def Checked (key : α → κ) (links : α → List κ) (before : List α) (a : α) : Prop :=
  key a ∉ before.map key ∧ ∀ k ∈ links a, k ∈ before.map key

/-- What an entry leads to is in front of it. -/
theorem transGen_mem_of_eq (h : Admitted (Checked key links) log) {a b : α}
    (hab : Relation.TransGen (Links key links log) a b) {before after : List α}
    (heq : log = before ++ a :: after) : b ∈ before := by
  have hnodup : (log.map key).Nodup := h.nodup_map fun _ _ h ↦ h.1
  have step : ∀ {c d : α}, Links key links log c d → ∀ {front rest : List α},
      log = front ++ c :: rest → d ∈ front := by
    rintro c d ⟨-, hd, hlink⟩ front rest hfront
    obtain ⟨d', hd', hkey⟩ := List.mem_map.mp ((h front c rest hfront).2 _ hlink)
    have hd'log : d' ∈ log := by
      rw [hfront]
      exact List.mem_append_left _ hd'
    rwa [eq_of_key hnodup hd hd'log hkey.symm]
  induction hab with
  | single hlink => exact step hlink heq
  | @tail c d _ hlink ih =>
    obtain ⟨front, rest, hfront⟩ := List.append_of_mem ih
    have hlog : log = front ++ c :: (rest ++ a :: after) := by
      rw [heq, hfront, List.append_assoc, List.cons_append]
    rw [hfront]
    exact List.mem_append_left _ (step hlink hlog)

/-- No entry leads back to itself. -/
theorem Admitted.acyclic (h : Admitted (Checked key links) log) (a : α) :
    ¬Relation.TransGen (Links key links log) a a := by
  intro haa
  obtain ⟨b, ⟨ha, -, -⟩, -⟩ := Relation.TransGen.head'_iff.mp haa
  obtain ⟨before, after, heq⟩ := List.append_of_mem ha
  have hmem : a ∈ before := transGen_mem_of_eq h haa heq
  exact (h before a after heq).1 (List.mem_map_of_mem hmem)

/-- A key that leads to another one by an entry of the log. -/
def KeyLinks (key : α → κ) (links : α → List κ) (log : List α) (k l : κ) : Prop :=
  ∃ a ∈ log, key a = k ∧ l ∈ links a

private theorem exists_transGen_of_keyLinks (h : Admitted (Checked key links) log) {k l : κ}
    (hkl : Relation.TransGen (KeyLinks key links log) k l) :
    ∃ a b, key a = k ∧ key b = l ∧ Relation.TransGen (Links key links log) a b := by
  have hnodup : (log.map key).Nodup := h.nodup_map fun _ _ h ↦ h.1
  -- the entry at the other end of a link
  have hend : ∀ {a : α} {m : κ}, a ∈ log → m ∈ links a → ∃ b ∈ log, key b = m := by
    intro a m ha hm
    obtain ⟨before, after, heq, -, hthere⟩ := h.exists_of_mem ha
    obtain ⟨b, hb, hkey⟩ := List.mem_map.mp (hthere m hm)
    refine ⟨b, ?_, hkey⟩
    rw [heq]
    exact List.mem_append_left _ hb
  induction hkl with
  | single hlink =>
    obtain ⟨a, ha, hkey, hl⟩ := hlink
    obtain ⟨b, hb, hbkey⟩ := hend ha hl
    exact ⟨a, b, hkey, hbkey, .single ⟨ha, hb, hbkey ▸ hl⟩⟩
  | tail _ hlink ih =>
    obtain ⟨a, b, hakey, hbkey, hab⟩ := ih
    obtain ⟨b', hb', hkey, hl⟩ := hlink
    obtain ⟨c, hc, hckey⟩ := hend hb' hl
    obtain ⟨_, -, hb⟩ := Relation.TransGen.tail'_iff.mp hab
    obtain rfl := eq_of_key hnodup hb.2.1 hb' (hbkey.trans hkey.symm)
    exact ⟨a, c, hakey, hckey, hab.tail ⟨hb', hc, hckey ▸ hl⟩⟩

/-- No key leads back to itself. -/
theorem Admitted.acyclic_keys (h : Admitted (Checked key links) log) (k : κ) :
    ¬Relation.TransGen (KeyLinks key links log) k k := by
  intro hkk
  obtain ⟨a, b, hakey, hbkey, hab⟩ := exists_transGen_of_keyLinks h hkk
  have hnodup : (log.map key).Nodup := h.nodup_map fun _ _ h ↦ h.1
  obtain ⟨_, ha, -⟩ := Relation.TransGen.head'_iff.mp hab
  obtain ⟨_, -, hb⟩ := Relation.TransGen.tail'_iff.mp hab
  obtain rfl := eq_of_key hnodup ha.1 hb.2.1 (hakey.trans hbkey.symm)
  exact h.acyclic a hab

end Links

end AppendOnly
