import Mathlib

/-!
# A walk with a cycle guard

A partial function leads from a point to the next one. The walk follows it, stops with `true` at the
first bad point, and stops with `false` where there is no next point or where it meets a point again.
Points are told apart by a key. **`guarded_eq_true_iff`**: if there are only so many keys, the walk
finds a bad point exactly when one can be reached, whether or not the links run in a circle.
-/

namespace Walk

variable {α κ : Type} [DecidableEq κ]

/-- The walk, with the keys it has seen and a bound on its length. -/
def guarded (next : α → Option α) (bad : α → Bool) (key : α → κ) : ℕ → List κ → α → Bool
  | 0, _, _ => false
  | fuel + 1, seen, a =>
    if key a ∈ seen then false
    else if bad a then true
    else match next a with
      | none => false
      | some b => guarded next bad key fuel (key a :: seen) b

variable {next : α → Option α} {bad : α → Bool} {key : α → κ}

/-- One point leads to another. -/
def Leads (next : α → Option α) (a b : α) : Prop := next a = some b

/-- The points that can be reached. -/
def Reach (next : α → Option α) : α → α → Prop := Relation.ReflTransGen (Leads next)

theorem exists_bad_of_guarded {fuel : ℕ} {seen : List κ} {a : α}
    (h : guarded next bad key fuel seen a = true) : ∃ b, Reach next a b ∧ bad b = true := by
  induction fuel generalizing seen a with
  | zero => exact nomatch h
  | succ fuel ih =>
    rw [guarded] at h
    split at h
    · exact nomatch h
    split at h
    · next hbad => exact ⟨a, .refl, hbad⟩
    split at h
    · exact nomatch h
    · next b hnext =>
      obtain ⟨c, hreach, hbad⟩ := ih h
      exact ⟨c, .head hnext hreach, hbad⟩

/-- Where the walk finds nothing, there is a set of points that holds what was visited and what
comes next, has no bad point in it, and is not left by any link. -/
private theorem exists_closed {S : α → Prop} {keys : List κ}
    (hclosed : ∀ a b, S a → next a = some b → S b)
    (hinj : ∀ a b, S a → S b → key a = key b → a = b) (hkeys : ∀ a, S a → key a ∈ keys)
    {fuel : ℕ} (visited : List α) {a : α} (ha : S a) (hvisited : ∀ v ∈ visited, S v)
    (hgood : ∀ v ∈ visited, bad v = false) (hnodup : (visited.map key).Nodup)
    (hlinks : ∀ v ∈ visited, ∀ w, next v = some w → w ∈ visited ∨ w = a)
    (hfuel : keys.length < fuel + visited.length)
    (h : guarded next bad key fuel (visited.map key) a = false) :
    ∃ T : α → Prop, T a ∧ (∀ v, T v → bad v = false) ∧ ∀ v w, T v → next v = some w → T w := by
  induction fuel generalizing visited a with
  | zero =>
    have hsub : visited.map key ⊆ keys := by
      intro k hk
      obtain ⟨v, hv, rfl⟩ := List.mem_map.mp hk
      exact hkeys v (hvisited v hv)
    have hlength := (hnodup.subperm hsub).length_le
    rw [List.length_map] at hlength
    omega
  | succ fuel ih =>
    rw [guarded] at h
    split at h
    · -- the point was met before, and so nothing leads out of what was visited
      next hseen =>
      obtain ⟨v, hv, hkey⟩ := List.mem_map.mp hseen
      obtain rfl := hinj v a (hvisited v hv) ha hkey
      refine ⟨(· ∈ visited), hv, hgood, fun u w hu hw ↦ ?_⟩
      rcases hlinks u hu w hw with hw | rfl
      · exact hw
      · exact hv
    · next hseen =>
      split at h
      · exact nomatch h
      next hbad =>
      have hgood' : ∀ v ∈ a :: visited, bad v = false :=
        List.forall_mem_cons.mpr ⟨Bool.eq_false_iff.mpr hbad, hgood⟩
      split at h
      · next hnext =>
        refine ⟨(· ∈ a :: visited), List.mem_cons_self, hgood', fun u w hu hw ↦ ?_⟩
        rcases List.mem_cons.mp hu with rfl | hu
        · exact nomatch hnext.symm.trans hw
        rcases hlinks u hu w hw with hw | rfl
        · exact List.mem_cons_of_mem a hw
        · exact List.mem_cons_self
      · next b hnext =>
        have hlinks' : ∀ u ∈ a :: visited, ∀ w, next u = some w → w ∈ a :: visited ∨ w = b := by
          intro u hu w hw
          rcases List.mem_cons.mp hu with rfl | hu
          · exact .inr (Option.some.inj (hw.symm.trans hnext))
          rcases hlinks u hu w hw with hw | rfl
          · exact .inl (List.mem_cons_of_mem a hw)
          · exact .inl List.mem_cons_self
        have hnodup' : ((a :: visited).map key).Nodup := by
          rw [List.map_cons]
          exact List.nodup_cons.mpr ⟨hseen, hnodup⟩
        have hfuel' : keys.length < fuel + (a :: visited).length := by
          rw [List.length_cons]
          omega
        obtain ⟨T, hb, hgoodT, hclosedT⟩ := ih (a :: visited) (hclosed a b ha hnext)
          (List.forall_mem_cons.mpr ⟨ha, hvisited⟩) hgood' hnodup' hlinks' hfuel' h
        refine ⟨fun v ↦ v = a ∨ T v, .inl rfl, ?_, ?_⟩
        · rintro v (rfl | hv)
          · exact Bool.eq_false_iff.mpr hbad
          · exact hgoodT v hv
        · rintro v w (rfl | hv) hw
          · exact .inr (Option.some.inj (hnext.symm.trans hw) ▸ hb)
          · exact .inr (hclosedT v w hv hw)

/-- **With fuel for all keys, the walk finds a bad point exactly when one can be reached.** -/
theorem guarded_eq_true_iff (S : α → Prop) (keys : List κ)
    (hclosed : ∀ a b, S a → next a = some b → S b)
    (hinj : ∀ a b, S a → S b → key a = key b → a = b) (hkeys : ∀ a, S a → key a ∈ keys)
    {fuel : ℕ} (hfuel : keys.length < fuel) {a : α} (ha : S a) :
    guarded next bad key fuel [] a = true ↔ ∃ b, Reach next a b ∧ bad b = true := by
  refine ⟨exists_bad_of_guarded, fun ⟨b, hreach, hbad⟩ ↦ ?_⟩
  by_contra hnot
  obtain ⟨T, hT, hgood, hclosedT⟩ := exists_closed hclosed hinj hkeys [] ha nofun nofun
    List.nodup_nil nofun hfuel (Bool.eq_false_iff.mpr hnot)
  have hall : ∀ c, Reach next a c → T c := by
    intro c hc
    induction hc with
    | refl => exact hT
    | tail _ hlead ih => exact hclosedT _ _ ih hlead
  exact nomatch hbad.symm.trans (hgood b (hall b hreach))

end Walk
