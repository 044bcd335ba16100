import Mathlib

/-!
# First fit

Items are placed one after the other, each in the first bin that takes it, and in a new bin if none
does. Nothing is lost or placed twice (`flatMap_placeAll`), and what a placement keeps of a single
bin holds of all bins in the end (`forall_mem_placeAll`).
-/

namespace FirstFit

variable {α β γ : Type} {fits : α → β → Bool} {add : α → β → β} {new : α → β}

/-- Place an item in the first bin that takes it. -/
def place (fits : α → β → Bool) (add : α → β → β) (new : α → β) (a : α) : List β → List β
  | [] => [new a]
  | bin :: bins => if fits a bin then add a bin :: bins else bin :: place fits add new a bins

/-- Place the items in their order. -/
def placeAll (fits : α → β → Bool) (add : α → β → β) (new : α → β) (items : List α) : List β :=
  items.foldl (fun bins a ↦ place fits add new a bins) []

theorem forall_mem_place {P : β → Prop} {a : α} (hnew : P (new a))
    (hadd : ∀ bin, P bin → fits a bin = true → P (add a bin)) {bins : List β}
    (h : ∀ bin ∈ bins, P bin) : ∀ bin ∈ place fits add new a bins, P bin := by
  induction bins with
  | nil => exact List.forall_mem_singleton.mpr hnew
  | cons bin bins ih =>
    obtain ⟨hbin, hbins⟩ := List.forall_mem_cons.mp h
    rw [place]
    split
    · next hfits => exact List.forall_mem_cons.mpr ⟨hadd bin hbin hfits, hbins⟩
    · exact List.forall_mem_cons.mpr ⟨hbin, ih hbins⟩

/-- The contents of the bins are what was there and the item. -/
theorem flatMap_place {contents : β → List γ} {key : α → γ} {a : α}
    (hnew : contents (new a) = [key a])
    (hadd : ∀ bin, contents (add a bin) = contents bin ++ [key a]) (bins : List β) :
    ((place fits add new a bins).flatMap contents).Perm (bins.flatMap contents ++ [key a]) := by
  induction bins with
  | nil => rw [place, List.flatMap_singleton, List.flatMap_nil, hnew, List.nil_append]
  | cons bin bins ih =>
    rw [place]
    split
    · rw [List.flatMap_cons, List.flatMap_cons, hadd, List.append_assoc, List.append_assoc]
      exact List.perm_append_comm.append_left _
    · rw [List.flatMap_cons, List.flatMap_cons, List.append_assoc]
      exact ih.append_left _

theorem forall_mem_placeAll {P : β → Prop} {items : List α} (hnew : ∀ a ∈ items, P (new a))
    (hadd : ∀ a ∈ items, ∀ bin, P bin → fits a bin = true → P (add a bin)) :
    ∀ bin ∈ placeAll fits add new items, P bin := by
  induction items using List.reverseRecOn with
  | nil => nofun
  | append_singleton init a ih =>
    rw [placeAll, List.foldl_append]
    have ha : a ∈ init ++ [a] := List.mem_append_right _ List.mem_cons_self
    exact forall_mem_place (hnew a ha) (hadd a ha) (ih
      (fun b hb ↦ hnew b (List.mem_append_left _ hb)) fun b hb ↦ hadd b (List.mem_append_left _ hb))

/-- **Every item is in one place.** -/
theorem flatMap_placeAll {contents : β → List γ} {key : α → γ}
    (hnew : ∀ a, contents (new a) = [key a])
    (hadd : ∀ a bin, contents (add a bin) = contents bin ++ [key a]) (items : List α) :
    ((placeAll fits add new items).flatMap contents).Perm (items.map key) := by
  induction items using List.reverseRecOn with
  | nil => exact .nil
  | append_singleton init a ih =>
    rw [placeAll, List.foldl_append, List.map_append]
    exact (flatMap_place (hnew a) (hadd a) _).trans (ih.append_right _)

end FirstFit
