import HiveMind.Lib.Raise

/-!
# Histories of a step that can raise

A step `σ → α → Except ε σ` is run over a list of labels by `List.foldlM`. The list is the history
of the run. Three rules are used about such runs.

* **`history_invariant`**: a relation between the history so far and the state reached holds of
  every run if it holds at the start and each step carries it over to the history that is one label
  longer.
* **`foldlM_atKey_eq_ok`**: a run of steps that each concern one key is one run for each key, over
  the labels with that key.
* **`foldlM_eq_ok_of_filter_eq`**: if steps whose labels have different keys commute, then a run is
  determined by the subsequences of its history that have one key each. No order between labels of
  different keys matters.
-/

open Raise

namespace Trace

variable {ε σ α κ : Type} {step : σ → α → Except ε σ}

theorem foldlM_cons_eq_ok {a : α} {as : List α} {s t : σ} :
    (a :: as).foldlM step s = .ok t ↔ ∃ u, step s a = .ok u ∧ as.foldlM step u = .ok t := by
  rw [List.foldlM_cons, bind_eq_ok]

theorem foldlM_nil_eq_ok {s t : σ} : ([] : List α).foldlM step s = .ok t ↔ t = s := by
  rw [List.foldlM_nil, pure_eq_ok]

theorem foldlM_append_eq_ok {as bs : List α} {s t : σ} :
    (as ++ bs).foldlM step s = .ok t ↔
      ∃ u, as.foldlM step s = .ok u ∧ bs.foldlM step u = .ok t := by
  rw [List.foldlM_append, bind_eq_ok]

theorem foldlM_concat_eq_ok {as : List α} {a : α} {s t : σ} :
    (as ++ [a]).foldlM step s = .ok t ↔ ∃ u, as.foldlM step s = .ok u ∧ step u a = .ok t := by
  simp only [foldlM_append_eq_ok, foldlM_cons_eq_ok, foldlM_nil_eq_ok, exists_eq_right']

/-- A relation between history and state that every step extends holds of every run. -/
theorem history_invariant (Inv : List α → σ → Prop) {s : σ} (init : Inv [] s)
    (extend : ∀ as u a t, Inv as u → step u a = .ok t → Inv (as ++ [a]) t) {as : List α} {t : σ}
    (run : as.foldlM step s = .ok t) : Inv as t := by
  induction as using List.reverseRec generalizing t with
  | nil =>
    obtain rfl := foldlM_nil_eq_ok.mp run
    exact init
  | append_singleton as a ih =>
    obtain ⟨u, hu, ha⟩ := foldlM_concat_eq_ok.mp run
    exact extend as u a t (ih hu) ha

/-! ## Steps at a key -/

section AtKey

variable {τ : Type} [DecidableEq κ]

/-- A step that reads and changes one entry of a family of states, the one with the key of the
label. -/
def atKey (key : α → κ) (step : τ → α → Except ε τ) (m : κ → τ) (a : α) : Except ε (κ → τ) :=
  (step (m (key a)) a).map (Function.update m (key a))

theorem atKey_eq_ok {key : α → κ} {step : τ → α → Except ε τ} {m m' : κ → τ} {a : α} :
    atKey key step m a = .ok m' ↔
      ∃ u, step (m (key a)) a = .ok u ∧ Function.update m (key a) u = m' := by
  rw [atKey]
  cases step (m (key a)) a with
  | error e => simp [Except.map]
  | ok u => simp [Except.map]

/-- Each entry of the family goes through the labels with its key. -/
theorem foldlM_atKey_eq_ok {key : α → κ} {step : τ → α → Except ε τ} {as : List α}
    {m m' : κ → τ} :
    as.foldlM (atKey key step) m = .ok m' ↔
      ∀ k, (as.filter (key · = k)).foldlM step (m k) = .ok (m' k) := by
  induction as generalizing m with
  | nil =>
    simp only [foldlM_nil_eq_ok, List.filter_nil]
    exact funext_iff
  | cons a as ih =>
    simp only [foldlM_cons_eq_ok, atKey_eq_ok, ih]
    constructor
    · rintro ⟨_, ⟨u, hu, rfl⟩, h⟩ k
      have hk := h k
      by_cases hkey : key a = k
      · subst hkey
        rw [Function.update_self] at hk
        rw [List.filter_cons_of_pos (by simp)]
        exact foldlM_cons_eq_ok.mpr ⟨u, hu, hk⟩
      · rw [Function.update_of_ne (Ne.symm hkey)] at hk
        rw [List.filter_cons_of_neg (by simpa using hkey)]
        exact hk
    · intro h
      have ha := h (key a)
      rw [List.filter_cons_of_pos (by simp)] at ha
      obtain ⟨u, hu, hrest⟩ := foldlM_cons_eq_ok.mp ha
      refine ⟨_, ⟨u, hu, rfl⟩, fun k ↦ ?_⟩
      by_cases hkey : key a = k
      · subst hkey
        rw [Function.update_self]
        exact hrest
      · rw [Function.update_of_ne (Ne.symm hkey)]
        have hk := h k
        rw [List.filter_cons_of_neg (by simpa using hkey)] at hk
        exact hk

end AtKey

/-! ## Commuting steps -/

/-- Two labels in either order, where the first order succeeds. -/
def Commutes (step : σ → α → Except ε σ) (a b : α) : Prop :=
  ∀ s t, [a, b].foldlM step s = .ok t → [b, a].foldlM step s = .ok t

/-- A label moves to the front past labels it commutes with. -/
private theorem foldlM_to_front {a : α} {as bs : List α} {s t : σ}
    (comm : ∀ b ∈ as, Commutes step b a) (run : (as ++ a :: bs).foldlM step s = .ok t) :
    (a :: (as ++ bs)).foldlM step s = .ok t := by
  induction as generalizing s with
  | nil => exact run
  | cons b as ih =>
    obtain ⟨u, hb, hu⟩ := foldlM_cons_eq_ok.mp run
    have hfront := ih (fun c hc ↦ comm c (List.mem_cons_of_mem b hc)) hu
    obtain ⟨v, ha, hv⟩ := foldlM_cons_eq_ok.mp hfront
    have hab : [a, b].foldlM step s = .ok v :=
      comm b List.mem_cons_self s v
        (foldlM_cons_eq_ok.mpr ⟨u, hb, foldlM_cons_eq_ok.mpr ⟨v, ha, foldlM_nil_eq_ok.mpr rfl⟩⟩)
    rw [show a :: (b :: as ++ bs) = [a, b] ++ (as ++ bs) from rfl]
    exact foldlM_append_eq_ok.mpr ⟨v, hab, hv⟩

/-- A list whose subsequence of some key begins with `a` splits at the first label of that key. -/
private theorem exists_split_of_filter {p : α → Bool} {a : α} {as bs : List α}
    (h : bs.filter p = a :: as) :
    ∃ pre post, bs = pre ++ a :: post ∧ (∀ b ∈ pre, p b = false) ∧ post.filter p = as := by
  obtain ⟨pre, post, rfl, hpre, -, hpost⟩ := List.filter_eq_cons_iff.mp h
  exact ⟨pre, post, rfl, fun b hb ↦ by simpa using hpre b hb, hpost⟩

/-- Where labels of different keys commute, two histories with the same labels of each key, in the
same order for each key, end in the same state. -/
theorem foldlM_eq_ok_of_filter_eq [DecidableEq κ] {key : α → κ}
    (comm : ∀ a b, key a ≠ key b → Commutes step a b) {as bs : List α} {s t : σ}
    (hkey : ∀ k, as.filter (key · = k) = bs.filter (key · = k))
    (run : bs.foldlM step s = .ok t) : as.foldlM step s = .ok t := by
  induction as generalizing bs s with
  | nil =>
    cases bs with
    | nil => exact run
    | cons b bs =>
      have h := hkey (key b)
      rw [List.filter_nil, List.filter_cons_of_pos (by simp)] at h
      exact absurd h (by simp)
  | cons a as ih =>
    have ha := hkey (key a)
    rw [List.filter_cons_of_pos (by simp)] at ha
    obtain ⟨pre, post, rfl, hpre, hpost⟩ := exists_split_of_filter ha.symm
    have hfront := foldlM_to_front
      (fun b hb ↦ comm b a (of_decide_eq_false (hpre b hb))) run
    obtain ⟨u, hu, hrest⟩ := foldlM_cons_eq_ok.mp hfront
    refine foldlM_cons_eq_ok.mpr ⟨u, hu, ih (fun k ↦ ?_) hrest⟩
    have hk := hkey k
    rw [List.filter_append] at hk ⊢
    by_cases hak : key a = k
    · subst hak
      rw [List.filter_cons_of_pos (by simp), List.filter_cons_of_pos (by simp)] at hk
      have hnone : pre.filter (key · = key a) = [] := by
        rw [List.filter_eq_nil_iff]
        intro b hb
        simpa using hpre b hb
      rw [hnone, List.nil_append] at hk ⊢
      exact (List.cons.inj hk).2
    · rw [List.filter_cons_of_neg (by simpa using hak),
        List.filter_cons_of_neg (by simpa using hak)] at hk
      exact hk

end Trace
