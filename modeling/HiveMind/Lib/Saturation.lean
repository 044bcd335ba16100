import HiveMind.Lib.Raise

/-!
# Saturation

Links lead from points to points. A set of points is closed under them by passes: each pass goes over
all links once and adds the target of every link whose source is in the set already, and a pass that
adds nothing is the last one.

* **`mem_saturate_iff`**: there are no more passes than links, but for the last one, and the set that
  is left holds exactly what can be reached from the points it started with.
-/

namespace Saturation

variable {α ι : Type} [DecidableEq α] (source target : ι → α)

/-- What a link does in a pass: the set so far, and whether the pass has added something. -/
def visit (pass : List α × Bool) (link : ι) : List α × Bool :=
  if source link ∈ pass.1 ∧ target link ∉ pass.1 then (target link :: pass.1, true) else pass

/-- The passes, with a bound on their number. -/
def saturate (links : List ι) : ℕ → List α → List α
  | 0, seen => seen
  | fuel + 1, seen =>
    let pass := links.foldl (visit source target) (seen, false)
    if pass.2 then saturate links fuel pass.1 else pass.1

/-- A link leads from one point to the other. -/
def Linked (links : List ι) (a b : α) : Prop := ∃ link ∈ links, source link = a ∧ target link = b

/-- What can be reached. -/
def Reach (links : List ι) : α → α → Prop := Relation.ReflTransGen (Linked source target links)

variable {source target} {links links' : List ι} {seen : List α} {a b : α}

/-- What a pass keeps: the old points, no point twice, and only points that some points lead to. -/
structure Grows (source target : ι → α) (links : List ι) (seen seen' : List α) : Prop where
  kept : seen ⊆ seen'
  new : ∀ b ∈ seen', ∃ a ∈ seen, Reach source target links a b
  nodup : seen.Nodup → seen'.Nodup
  targets : ∀ b ∈ seen', b ∈ seen ∨ b ∈ links.map target

omit [DecidableEq α] in
theorem Grows.refl (links : List ι) (seen : List α) : Grows source target links seen seen :=
  ⟨List.Subset.refl _, fun b hb ↦ ⟨b, hb, .refl⟩, id, fun _ hb ↦ .inl hb⟩

omit [DecidableEq α] in
theorem Grows.trans {seen' seen'' : List α} (h : Grows source target links seen seen')
    (h' : Grows source target links seen' seen'') : Grows source target links seen seen'' := by
  refine ⟨List.Subset.trans h.kept h'.kept, fun c hc ↦ ?_, h'.nodup ∘ h.nodup, fun c hc ↦ ?_⟩
  · obtain ⟨b, hb, hreach'⟩ := h'.new c hc
    obtain ⟨a, ha, hreach⟩ := h.new b hb
    exact ⟨a, ha, hreach.trans hreach'⟩
  · rcases h'.targets c hc with hc | hc
    · exact h.targets c hc
    · exact .inr hc

theorem grows_visit {link : ι} (hlink : link ∈ links) (pass : List α × Bool) :
    Grows source target links pass.1 (visit source target pass link).1 := by
  rw [visit]
  split
  · next h =>
    obtain ⟨hsource, htarget⟩ := h
    refine ⟨List.subset_cons_self _ _, ?_, fun hnodup ↦ List.nodup_cons.mpr ⟨htarget, hnodup⟩, ?_⟩
    · refine List.forall_mem_cons.mpr ⟨?_, fun b hb ↦ ⟨b, hb, .refl⟩⟩
      exact ⟨_, hsource, .single ⟨link, hlink, rfl, rfl⟩⟩
    · exact List.forall_mem_cons.mpr ⟨.inr (List.mem_map_of_mem hlink), fun b hb ↦ .inl hb⟩
  · exact .refl links pass.1

theorem grows_foldl (hsub : links' ⊆ links) (pass : List α × Bool) :
    Grows source target links pass.1 (links'.foldl (visit source target) pass).1 := by
  induction links' generalizing pass with
  | nil => exact .refl links pass.1
  | cons link links' ih =>
    obtain ⟨hlink, hsub⟩ := List.cons_subset.mp hsub
    exact (grows_visit hlink pass).trans (ih hsub _)

theorem length_le_foldl (links : List ι) (pass : List α × Bool) :
    pass.1.length ≤ (links.foldl (visit source target) pass).1.length := by
  induction links generalizing pass with
  | nil => exact Nat.le_refl _
  | cons link links ih =>
    refine Nat.le_trans ?_ (ih (visit source target pass link))
    rw [visit]
    split
    · exact Nat.le_succ _
    · exact Nat.le_refl _

/-- A pass that says so has added something. -/
theorem lt_of_changed {pass : List α × Bool} (h : (links.foldl (visit source target) pass).2 = true) :
    pass.2 = true ∨ pass.1.length < (links.foldl (visit source target) pass).1.length := by
  induction links generalizing pass with
  | nil => exact .inl h
  | cons link links ih =>
    have hlength : (visit source target pass link).1.length ≤
        (links.foldl (visit source target) (visit source target pass link)).1.length :=
      length_le_foldl links _
    rw [List.foldl_cons] at h ⊢
    rw [visit] at h hlength ⊢
    split at h
    · next hlink =>
      rw [if_pos hlink] at hlength ⊢
      exact .inr (Nat.lt_of_succ_le hlength)
    · next hlink =>
      rw [if_neg hlink]
      exact ih h

/-- The links do not lead out of a set to which a pass has added nothing. -/
theorem closed_of_idle {pass : List α × Bool}
    (h : (links.foldl (visit source target) pass).2 = false) :
    links.foldl (visit source target) pass = pass ∧
      ∀ link ∈ links, source link ∈ pass.1 → target link ∈ pass.1 := by
  induction links generalizing pass with
  | nil => exact ⟨rfl, nofun⟩
  | cons link links ih =>
    rw [List.foldl_cons] at h ⊢
    obtain ⟨hsame, hclosed⟩ := ih h
    rw [hsame] at h ⊢
    rw [visit] at h hclosed ⊢
    split at h
    · exact nomatch h
    · next hlink =>
      rw [if_neg hlink] at hclosed ⊢
      refine ⟨rfl, List.forall_mem_cons.mpr ⟨fun hsource ↦ ?_, hclosed⟩⟩
      by_contra htarget
      exact hlink ⟨hsource, htarget⟩

variable (source) in
/-- With fuel for all points, the passes come to an end. -/
theorem saturate_spec {points : List α} (htargets : links.map target ⊆ points) {fuel : ℕ}
    (hsub : seen ⊆ points) (hnodup : seen.Nodup) (hfuel : points.length < fuel + seen.length) :
    Grows source target links seen (saturate source target links fuel seen) ∧
      ∀ link ∈ links, source link ∈ saturate source target links fuel seen →
        target link ∈ saturate source target links fuel seen := by
  induction fuel generalizing seen with
  | zero =>
    -- there are not more different points than points
    have hle := (List.subperm_of_subset hnodup hsub).length_le
    omega
  | succ fuel ih =>
    have hgrows : Grows source target links seen (links.foldl (visit source target) (seen, false)).1 :=
      grows_foldl (List.Subset.refl links) (seen, false)
    rw [saturate]
    by_cases hchanged : (links.foldl (visit source target) (seen, false)).2 = true
    · rw [if_pos hchanged]
      have hlt : seen.length < (links.foldl (visit source target) (seen, false)).1.length :=
        (lt_of_changed hchanged).resolve_left Bool.false_ne_true
      have hsub' : (links.foldl (visit source target) (seen, false)).1 ⊆ points := by
        intro b hb
        rcases hgrows.targets b hb with hb | hb
        · exact hsub hb
        · exact htargets hb
      obtain ⟨hgrows', hclosed⟩ := ih hsub' (hgrows.nodup hnodup) (by omega)
      exact ⟨hgrows.trans hgrows', hclosed⟩
    · rw [if_neg hchanged]
      obtain ⟨hsame, hclosed⟩ := closed_of_idle (Bool.eq_false_iff.mpr hchanged)
      rw [hsame] at hgrows ⊢
      exact ⟨hgrows, hclosed⟩

/-- **The set that is left holds exactly what can be reached.** -/
theorem mem_saturate_iff {fuel : ℕ} (hfuel : links.length < fuel) :
    b ∈ saturate source target links fuel [a] ↔ Reach source target links a b := by
  have hsub : [a] ⊆ a :: links.map target :=
    List.cons_subset.mpr ⟨List.mem_cons_self, List.nil_subset _⟩
  have hfuel' : (a :: links.map target).length < fuel + [a].length := by
    simpa using hfuel
  obtain ⟨hgrows, hclosed⟩ :=
    saturate_spec source (List.subset_cons_self a _) hsub (List.nodup_singleton a) hfuel'
  constructor
  · intro hb
    obtain ⟨a', ha', hreach⟩ := hgrows.new b hb
    obtain rfl := List.mem_singleton.mp ha'
    exact hreach
  · intro hreach
    induction hreach with
    | refl => exact hgrows.kept (List.mem_singleton_self a)
    | tail _ hlink ih =>
      obtain ⟨link, hmem, hsource, rfl⟩ := hlink
      exact hclosed link hmem (hsource ▸ ih)

end Saturation
