import HiveMind.Lib.Raise

/-!
# Passes over what is left

Items that arrive in any order can need one another. A loader goes over them, takes those that are
ready, and goes over the others again, until nothing is left or nothing more is ready.

A loader ends because every pass that goes on has taken an item. What it takes keeps an invariant
(`load_spec`), and it takes everything if some item is always ready and none that is ready is
refused (`exists_load`).
-/

open Raise

namespace Passes

variable {σ α ε : Type}

/-- A pass: what has been built, whether an item was taken, and what is left. -/
structure Pass (σ α : Type) where
  state : σ
  progress : Bool
  remainder : List α

variable (ready : σ → α → Prop) [∀ s, DecidablePred (ready s)] (add : σ → α → Except ε σ)

/-- One item of a pass. -/
def visit (pass : Pass σ α) (item : α) : Except ε (Pass σ α) :=
  if ready pass.state item then do
    let state ← add pass.state item
    return { pass with state, progress := true }
  else .ok { pass with remainder := pass.remainder ++ [item] }

variable {ready add} {pass pass' : Pass σ α} {item : α} {items : List α}

theorem visit_eq_ok : visit ready add pass item = .ok pass' ↔
    (ready pass.state item ∧ ∃ state, add pass.state item = .ok state ∧
      pass' = { pass with state, progress := true }) ∨
    (¬ready pass.state item ∧ pass' = { pass with remainder := pass.remainder ++ [item] }) := by
  rw [visit]
  split
  · next hready => simp only [bind_eq_ok, pure_eq_ok, hready, true_and, not_true, false_and, or_false]
  · next hready =>
    simp only [Except.ok.injEq, hready, false_and, not_false_iff, true_and, false_or, eq_comm]

/-- A pass that takes an item leaves fewer than there were. -/
theorem length_remainder (h : items.foldlM (visit ready add) pass = .ok pass') :
    pass'.remainder.length + pass'.progress.toNat ≤
      pass.remainder.length + pass.progress.toNat + items.length := by
  induction items generalizing pass with
  | nil =>
    obtain rfl := Except.ok.inj h
    exact Nat.le_refl _
  | cons item items ih =>
    rw [List.foldlM_cons, bind_eq_ok] at h
    obtain ⟨mid, hvisit, hrest⟩ := h
    have hlength := ih hrest
    rcases visit_eq_ok.mp hvisit with ⟨-, state, -, rfl⟩ | ⟨-, rfl⟩
    · have hprogress := pass.progress.toNat_le
      simp only [Bool.toNat_true, List.length_cons] at hlength ⊢
      omega
    · simp only [List.length_append, List.length_nil, List.length_cons] at hlength ⊢
      omega

/-- A pass that takes nothing has met nothing that was ready. -/
theorem not_ready_of_idle (h : items.foldlM (visit ready add) pass = .ok pass')
    (hidle : pass'.progress = false) :
    pass.progress = false ∧ ∀ item ∈ items, ¬ready pass.state item := by
  induction items generalizing pass with
  | nil =>
    obtain rfl := Except.ok.inj h
    exact ⟨hidle, nofun⟩
  | cons item items ih =>
    rw [List.foldlM_cons, bind_eq_ok] at h
    obtain ⟨mid, hvisit, hrest⟩ := h
    obtain ⟨hprogress, hitems⟩ := ih hrest
    rcases visit_eq_ok.mp hvisit with ⟨-, state, -, rfl⟩ | ⟨hitem, rfl⟩
    · exact nomatch hprogress
    · exact ⟨hprogress, List.forall_mem_cons.mpr ⟨hitem, hitems⟩⟩

/-! ## The loader -/

variable (ready add) in
/-- Passes until nothing is left. A pass that takes nothing is `stuck`. -/
def load (stuck : ε) (state : σ) (pending : List α) : Except ε σ :=
  if pending = [] then .ok state
  else
    match _ : pending.foldlM (visit ready add) ⟨state, false, []⟩ with
    | .error e => .error e
    | .ok pass =>
      if _ : pass.progress then load stuck pass.state pass.remainder else .error stuck
termination_by pending.length
decreasing_by
  rename_i hpass hprogress
  have hlength := length_remainder hpass
  simp only [hprogress, Bool.toNat_true, List.length_nil, Bool.toNat_false] at hlength
  omega

variable {stuck : ε} {state state' : σ} {pending : List α}

/-- What taking items keeps: `P` of what has been built, and `Q` of every item that was taken. -/
structure Grows (ready : σ → α → Prop) (add : σ → α → Except ε σ) (items : List α)
    (P : σ → Prop) (Q : σ → α → Prop) : Prop where
  next : ∀ {state state' item}, P state → item ∈ items → ready state item →
    add state item = .ok state' → P state' ∧ Q state' item ∧ ∀ other, Q state other → Q state' other

section Grows

variable {P : σ → Prop} {Q : σ → α → Prop} {all : List α}

/-- A pass takes an item or leaves it for the next one. -/
theorem pass_spec (hgrows : Grows ready add all P Q) (hall : items ⊆ all) (hP : P pass.state)
    (h : items.foldlM (visit ready add) pass = .ok pass') :
    P pass'.state ∧ pass'.remainder ⊆ pass.remainder ++ items ∧
      (∀ item, Q pass.state item → Q pass'.state item) ∧
      ∀ item ∈ pass.remainder ++ items, item ∈ pass'.remainder ∨ Q pass'.state item := by
  induction items generalizing pass with
  | nil =>
    obtain rfl := Except.ok.inj h
    rw [List.append_nil]
    exact ⟨hP, List.Subset.refl _, fun _ ↦ id, fun _ ↦ .inl⟩
  | cons item items ih =>
    rw [List.foldlM_cons, bind_eq_ok] at h
    obtain ⟨mid, hvisit, hrest⟩ := h
    obtain ⟨hitem, hitems⟩ := List.cons_subset.mp hall
    rcases visit_eq_ok.mp hvisit with ⟨hready, state, hadd, rfl⟩ | ⟨-, rfl⟩
    · obtain ⟨hP', hQ, hkeep⟩ := hgrows.next hP hitem hready hadd
      obtain ⟨hlast, hsubset, hkept, htaken⟩ := ih hitems hP' hrest
      refine ⟨hlast, fun other hother ↦ ?_, fun other hother ↦ hkept other (hkeep other hother),
        fun other hother ↦ ?_⟩
      · exact (List.append_subset.mpr ⟨List.subset_append_left _ _,
          List.Subset.trans (List.subset_cons_self _ _) (List.subset_append_right _ _)⟩)
          (hsubset hother)
      · rcases List.mem_append.mp hother with hleft | hright
        · exact htaken other (List.mem_append_left _ hleft)
        · rcases List.mem_cons.mp hright with rfl | htail
          · exact .inr (hkept _ hQ)
          · exact htaken other (List.mem_append_right _ htail)
    · have hspec := @ih { pass with remainder := pass.remainder ++ [item] } hitems hP hrest
      rwa [← List.append_cons] at hspec

/-- **Everything is taken, and the invariant holds.** -/
theorem load_spec (hgrows : Grows ready add all P Q) (hpending : pending ⊆ all) (hP : P state)
    (h : load ready add stuck state pending = .ok state') :
    P state' ∧ (∀ item ∈ pending, Q state' item) ∧ ∀ item, Q state item → Q state' item := by
  induction hlength : pending.length using Nat.strongRecOn generalizing state pending with
  | ind length ih =>
    rw [load] at h
    split at h
    · next hnil =>
      obtain rfl := Except.ok.inj h
      exact ⟨hP, by rw [hnil]; exact nofun, fun _ ↦ id⟩
    · split at h
      · exact nomatch h
      · next pass hpass =>
        split at h
        · next hprogress =>
          obtain ⟨hP', hsubset, hkept, htaken⟩ := pass_spec hgrows hpending hP hpass
          have hless := length_remainder hpass
          simp only [hprogress, Bool.toNat_true, List.length_nil, Bool.toNat_false] at hless
          obtain ⟨hlast, hleft, hkept'⟩ := ih pass.remainder.length (by omega)
            (List.Subset.trans hsubset hpending) hP' h rfl
          refine ⟨hlast, fun item hitem ↦ ?_, fun item hitem ↦ hkept' item (hkept item hitem)⟩
          rcases htaken item hitem with hremains | hQ
          · exact hleft item hremains
          · exact hkept' item hQ
        · exact nomatch h

/-- Nothing that is ready is refused in a pass. -/
theorem exists_pass (hgrows : Grows ready add all P Q) (hall : items ⊆ all) (hP : P pass.state)
    (hadds : ∀ state item, P state → item ∈ all → ready state item →
      ∃ state', add state item = .ok state') :
    ∃ pass', items.foldlM (visit ready add) pass = .ok pass' := by
  induction items generalizing pass with
  | nil => exact ⟨pass, rfl⟩
  | cons item items ih =>
    obtain ⟨hitem, hitems⟩ := List.cons_subset.mp hall
    by_cases hready : ready pass.state item
    · obtain ⟨state, hadd⟩ := hadds _ item hP hitem hready
      obtain ⟨pass', hrest⟩ := @ih { pass with state, progress := true } hitems
        (hgrows.next hP hitem hready hadd).1
      exact ⟨pass', by
        rw [List.foldlM_cons, visit_eq_ok.mpr (.inl ⟨hready, state, hadd, rfl⟩), ok_bind, hrest]⟩
    · obtain ⟨pass', hrest⟩ := @ih { pass with remainder := pass.remainder ++ [item] } hitems hP
      exact ⟨pass', by rw [List.foldlM_cons, visit_eq_ok.mpr (.inr ⟨hready, rfl⟩), ok_bind, hrest]⟩

/-- **A loader takes everything** if something that is left is always ready. -/
theorem exists_load (hgrows : Grows ready add all P Q) (hP : P state)
    (hadds : ∀ state item, P state → item ∈ all → ready state item →
      ∃ state', add state item = .ok state')
    (hready : ∀ state pending, P state → pending ≠ [] → pending ⊆ all →
      (∀ item ∈ all, item ∈ pending ∨ Q state item) → ∃ item ∈ pending, ready state item)
    (hpending : pending ⊆ all) (htaken : ∀ item ∈ all, item ∈ pending ∨ Q state item) :
    ∃ state', load ready add stuck state pending = .ok state' := by
  induction hlength : pending.length using Nat.strongRecOn generalizing state pending with
  | ind length ih =>
    rw [load]
    split
    · exact ⟨state, rfl⟩
    · next hne =>
      have hstart : P (⟨state, false, []⟩ : Pass σ α).state := hP
      obtain ⟨pass', hpass'⟩ := exists_pass hgrows hpending hstart hadds
      split
      · next e herror => exact nomatch hpass'.symm.trans herror
      · next pass hpass =>
        split
        · next hprogress =>
          obtain ⟨hP', hsubset, hkept, hvisited⟩ := pass_spec hgrows hpending hP hpass
          have hless := length_remainder hpass
          simp only [hprogress, Bool.toNat_true, List.length_nil, Bool.toNat_false] at hless
          refine ih pass.remainder.length (by omega) hP' (List.Subset.trans hsubset hpending) ?_ rfl
          intro item hitem
          rcases htaken item hitem with hremains | hQ
          · exact hvisited item hremains
          · exact .inr (hkept item hQ)
        · next hprogress =>
          obtain ⟨item, hitem, hitemReady⟩ := hready state pending hP hne hpending htaken
          exact absurd hitemReady
            ((not_ready_of_idle hpass (Bool.eq_false_iff.mpr hprogress)).2 item hitem)

end Grows

end Passes
