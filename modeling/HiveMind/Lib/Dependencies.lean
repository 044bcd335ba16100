import HiveMind.Lib.Dicts
import HiveMind.Lib.Raise

/-!
# Dependencies

A point needs other points, and through them more. What it needs in the end is the transitive
closure, `Below`, and no point may need itself. Six ways through such a graph are treated here.

`search` keeps a stack of points to look at and a set of those it has looked at. It answers whether
a point is below those on the stack. `explore` goes on until the stack is empty, and finds the point
and all below it (`mem_explore_iff`). `collect` goes down from a point and gathers everything below
it. It remembers the way it came, and fails when it meets a point of that way again. A point that
was gathered before is not entered again, so one call sees only some of the circles; it does see
every circle that runs through the point it started from (`mem_collect`).

`gather` keeps a stack again, and finds the point itself and everything below it
(`mem_gather_iff`).

`settle` goes down in the same way as `collect`, but keeps what is finished apart from the way.
What it finishes stays in the order of what it needs (`settled_of_settle`), so there is no circle in
it at all.

`level` gives each point a number above those of the points it needs, and remembers the numbers.

The fuel of a search is a bound on its length. `search_eq_true_iff`, `exists_explore`,
`exists_collect`, `exists_settle` and `levelled_level` give the fuel that is always enough.
-/

open Raise Dicts

namespace Dependencies

variable {α ε : Type}

/-- One point needs the other directly. -/
def Needs (deps : α → List α) (a b : α) : Prop := b ∈ deps a

/-- One point needs the other, directly or through others. -/
def Below (deps : α → List α) : α → α → Prop := Relation.TransGen (Needs deps)

def Acyclic (deps : α → List α) : Prop := ∀ a, ¬Below deps a a

variable {deps : α → List α} {a b c : α}

theorem below_of_mem (h : b ∈ deps a) : Below deps a b := .single h

theorem Below.of_mem (h : b ∈ deps a) (hbelow : Below deps b c) : Below deps a c := .head h hbelow

/-- A set that holds what the point needs directly, and what its members need, holds everything
below the point. -/
theorem Below.mem {S : α → Prop} (h : Below deps a b) (hfirst : ∀ c ∈ deps a, S c)
    (hclosed : ∀ c, S c → ∀ d ∈ deps c, S d) : S b := by
  induction h with
  | single hneeds => exact hfirst _ hneeds
  | tail _ hneeds ih => exact hclosed _ ih _ hneeds

theorem Acyclic.of_lt {rank : α → ℕ} (h : ∀ a, ∀ b ∈ deps a, rank b < rank a) :
    Acyclic deps := by
  intro a hbelow
  have hrank : ∀ b, Below deps a b → rank b < rank a := by
    intro b hb
    induction hb with
    | single hneeds => exact h _ _ hneeds
    | tail _ hneeds ih => exact (h _ _ hneeds).trans ih
  exact lt_irrefl _ (hrank a hbelow)

variable [DecidableEq α]

/-! ## A search with a stack -/

/-- The stack has its top first. -/
def search (deps : α → List α) (target : α) : ℕ → List α → List α → Bool
  | 0, _, _ => false
  | _ + 1, _, [] => false
  | fuel + 1, visited, a :: pending =>
    if a = target then true
    else if a ∈ visited then search deps target fuel visited pending
    else search deps target fuel (a :: visited) ((deps a).reverse ++ pending)

section Search

variable {target : α}

theorem exists_of_search {fuel : ℕ} {visited pending : List α}
    (h : search deps target fuel visited pending = true) :
    ∃ a ∈ pending, a = target ∨ Below deps a target := by
  induction fuel generalizing visited pending with
  | zero => exact nomatch h
  | succ fuel ih =>
    match pending with
    | [] => exact nomatch h
    | a :: pending =>
      rw [search] at h
      split at h
      · next htarget => exact ⟨a, List.mem_cons_self, .inl htarget⟩
      split at h
      · obtain ⟨b, hb, hreach⟩ := ih h
        exact ⟨b, List.mem_cons_of_mem a hb, hreach⟩
      · obtain ⟨b, hb, hreach⟩ := ih h
        rcases List.mem_append.mp hb with hb | hb
        · -- what is below a dependency is below the point that has it
          have hneeds : b ∈ deps a := List.mem_reverse.mp hb
          refine ⟨a, List.mem_cons_self, .inr ?_⟩
          rcases hreach with rfl | hbelow
          · exact below_of_mem hneeds
          · exact hbelow.of_mem hneeds
        · exact ⟨b, List.mem_cons_of_mem a hb, hreach⟩

/-- The dependencies that the search may still put on the stack. -/
def remaining (deps : α → List α) (points visited : List α) : ℕ :=
  ∑ a ∈ points.toFinset \ visited.toFinset, (deps a).length

theorem remaining_cons {points visited : List α} (ha : a ∈ points) (hnew : a ∉ visited) :
    (deps a).length + remaining deps points (a :: visited) = remaining deps points visited := by
  have hmem : a ∈ points.toFinset \ visited.toFinset := by
    simp only [Finset.mem_sdiff, List.mem_toFinset]
    exact ⟨ha, hnew⟩
  have hset : points.toFinset \ (a :: visited).toFinset =
      (points.toFinset \ visited.toFinset).erase a := by
    rw [List.toFinset_cons, Finset.sdiff_insert]
  rw [remaining, remaining, hset]
  exact Finset.add_sum_erase _ (fun b ↦ (deps b).length) hmem

/-- A search that finds nothing has looked at a set that is closed and does not hold the target. -/
theorem exists_closed_of_search {points : List α} (hpoints : ∀ a ∈ points, deps a ⊆ points)
    {fuel : ℕ} {visited pending : List α} (hpending : pending ⊆ points)
    (hvisited : ∀ a ∈ visited, ∀ b ∈ deps a, b ∈ visited ∨ b ∈ pending) (htarget : target ∉ visited)
    (hfuel : pending.length + remaining deps points visited < fuel)
    (h : search deps target fuel visited pending = false) :
    ∃ T : α → Prop, ¬T target ∧ (∀ a ∈ pending, T a) ∧ ∀ a, T a → ∀ b ∈ deps a, T b := by
  induction fuel generalizing visited pending with
  | zero => exact absurd hfuel (Nat.not_lt_zero _)
  | succ fuel ih =>
    match pending with
    | [] => exact ⟨(· ∈ visited), htarget, nofun, fun a ha b hb ↦ by simpa using hvisited a ha b hb⟩
    | a :: pending =>
      obtain ⟨ha, hsub⟩ := List.cons_subset.mp hpending
      rw [search] at h
      split at h
      · exact nomatch h
      next hne =>
      split at h
      · next hseen =>
        have hvisited' : ∀ c ∈ visited, ∀ b ∈ deps c, b ∈ visited ∨ b ∈ pending := by
          intro c hc b hb
          rcases hvisited c hc b hb with hb | hb
          · exact .inl hb
          rcases List.mem_cons.mp hb with rfl | hb
          · exact .inl hseen
          · exact .inr hb
        rw [List.length_cons] at hfuel
        obtain ⟨T, hT, hall, hclosed⟩ := ih hsub hvisited' htarget (by omega) h
        by_cases hTa : T a
        · exact ⟨T, hT, List.forall_mem_cons.mpr ⟨hTa, hall⟩, hclosed⟩
        · -- the set that was found is enlarged by what was looked at before
          refine ⟨fun x ↦ T x ∨ x ∈ visited, not_or.mpr ⟨hT, htarget⟩,
            List.forall_mem_cons.mpr ⟨.inr hseen, fun x hx ↦ .inl (hall x hx)⟩, ?_⟩
          rintro x (hx | hx) b hb
          · exact .inl (hclosed x hx b hb)
          · rcases hvisited' x hx b hb with hb | hb
            · exact .inr hb
            · exact .inl (hall b hb)
      · next hnew =>
        have hvisited' : ∀ c ∈ a :: visited, ∀ b ∈ deps c,
            b ∈ a :: visited ∨ b ∈ (deps a).reverse ++ pending := by
          intro c hc b hb
          rcases List.mem_cons.mp hc with rfl | hc
          · exact .inr (List.mem_append_left _ (List.mem_reverse.mpr hb))
          rcases hvisited c hc b hb with hb | hb
          · exact .inl (List.mem_cons_of_mem a hb)
          rcases List.mem_cons.mp hb with rfl | hb
          · exact .inl List.mem_cons_self
          · exact .inr (List.mem_append_right _ hb)
        have hsub' : (deps a).reverse ++ pending ⊆ points := by
          intro b hb
          rcases List.mem_append.mp hb with hb | hb
          · exact hpoints a ha (List.mem_reverse.mp hb)
          · exact hsub hb
        have hremaining : (deps a).length + remaining deps points (a :: visited) =
            remaining deps points visited := remaining_cons ha hnew
        have hfuel' : ((deps a).reverse ++ pending).length +
            remaining deps points (a :: visited) < fuel := by
          rw [List.length_append, List.length_reverse]
          rw [List.length_cons] at hfuel
          omega
        have htarget' : target ∉ a :: visited := by
          rw [List.mem_cons, not_or]
          exact ⟨Ne.symm hne, htarget⟩
        obtain ⟨T, hT, hall, hclosed⟩ := ih hsub' hvisited' htarget' hfuel' h
        have hdeps : ∀ b ∈ deps a, T b := fun b hb ↦
          hall b (List.mem_append_left _ (List.mem_reverse.mpr hb))
        refine ⟨fun x ↦ T x ∨ x = a, not_or.mpr ⟨hT, Ne.symm hne⟩, ?_, ?_⟩
        · exact List.forall_mem_cons.mpr ⟨.inr rfl, fun x hx ↦
            .inl (hall x (List.mem_append_right _ hx))⟩
        · rintro x (hx | rfl) b hb
          · exact .inl (hclosed x hx b hb)
          · exact .inl (hdeps b hb)

/-- **A search from the dependencies of a point finds exactly what is below the point.** -/
theorem search_eq_true_iff {points : List α} (hpoints : ∀ a ∈ points, deps a ⊆ points)
    (ha : a ∈ points) {fuel : ℕ} (hfuel : (deps a).length + remaining deps points [] < fuel) :
    search deps target fuel [] (deps a).reverse = true ↔ Below deps a target := by
  constructor
  · intro h
    obtain ⟨b, hb, hreach⟩ := exists_of_search h
    have hneeds : b ∈ deps a := List.mem_reverse.mp hb
    rcases hreach with rfl | hbelow
    · exact below_of_mem hneeds
    · exact hbelow.of_mem hneeds
  · intro h
    by_contra hnot
    have hsub : (deps a).reverse ⊆ points := fun b hb ↦ hpoints a ha (List.mem_reverse.mp hb)
    rw [← List.length_reverse] at hfuel
    obtain ⟨T, hT, hall, hclosed⟩ := exists_closed_of_search hpoints hsub
      (fun _ hmem ↦ absurd hmem List.not_mem_nil) List.not_mem_nil hfuel (Bool.eq_false_iff.mpr hnot)
    exact hT (h.mem (fun b hb ↦ hall b (List.mem_reverse.mpr hb)) hclosed)

end Search

/-! ## A search to the end -/

/-- The points that are looked at until the stack is empty. -/
def explore (deps : α → List α) : ℕ → List α → List α → Option (List α)
  | 0, _, _ => none
  | _ + 1, observed, [] => some observed
  | fuel + 1, observed, a :: pending =>
    if a ∈ observed then explore deps fuel observed pending
    else explore deps fuel (a :: observed) ((deps a).reverse ++ pending)

section Explore

variable {observed pending found : List α}

/-- What a search adds is on the stack or below it. What was observed and is on the stack is kept,
and so is all that the points need. -/
theorem explored {fuel : ℕ} (h : explore deps fuel observed pending = some found)
    (hneeds : ∀ a ∈ observed, ∀ b ∈ deps a, b ∈ observed ∨ b ∈ pending) :
    (∀ b ∈ found, b ∈ observed ∨ ∃ a ∈ pending, b = a ∨ Below deps a b) ∧
      (∀ b, b ∈ observed ∨ b ∈ pending → b ∈ found) ∧ ∀ a ∈ found, ∀ b ∈ deps a, b ∈ found := by
  induction fuel generalizing observed pending with
  | zero => exact nomatch h
  | succ fuel ih =>
    match pending with
    | [] =>
      obtain rfl := Option.some.inj h
      refine ⟨fun b hb ↦ .inl hb, fun b hb ↦ hb.resolve_right List.not_mem_nil, fun a ha b hb ↦ ?_⟩
      exact (hneeds a ha b hb).resolve_right List.not_mem_nil
    | a :: pending =>
      rw [explore] at h
      split at h
      · next hseen =>
        have hneeds' : ∀ c ∈ observed, ∀ b ∈ deps c, b ∈ observed ∨ b ∈ pending := by
          intro c hc b hb
          rcases hneeds c hc b hb with hb | hb
          · exact .inl hb
          rcases List.mem_cons.mp hb with rfl | hb
          · exact .inl hseen
          · exact .inr hb
        obtain ⟨honly, hall, hclosed⟩ := ih h hneeds'
        refine ⟨fun b hb ↦ ?_, fun b hb ↦ ?_, hclosed⟩
        · exact (honly b hb).imp_right fun ⟨c, hc, hreach⟩ ↦ ⟨c, List.mem_cons_of_mem a hc, hreach⟩
        · rcases hb with hb | hb
          · exact hall b (.inl hb)
          rcases List.mem_cons.mp hb with rfl | hb
          · exact hall b (.inl hseen)
          · exact hall b (.inr hb)
      · have hneeds' : ∀ c ∈ a :: observed, ∀ b ∈ deps c,
            b ∈ a :: observed ∨ b ∈ (deps a).reverse ++ pending := by
          intro c hc b hb
          rcases List.mem_cons.mp hc with rfl | hc
          · exact .inr (List.mem_append_left _ (List.mem_reverse.mpr hb))
          rcases hneeds c hc b hb with hb | hb
          · exact .inl (List.mem_cons_of_mem a hb)
          rcases List.mem_cons.mp hb with rfl | hb
          · exact .inl List.mem_cons_self
          · exact .inr (List.mem_append_right _ hb)
        obtain ⟨honly, hall, hclosed⟩ := ih h hneeds'
        refine ⟨fun b hb ↦ ?_, fun b hb ↦ ?_, hclosed⟩
        · rcases honly b hb with hb | ⟨c, hc, hreach⟩
          · rcases List.mem_cons.mp hb with rfl | hb
            · exact .inr ⟨b, List.mem_cons_self, .inl rfl⟩
            · exact .inl hb
          rcases List.mem_append.mp hc with hc | hc
          · -- what is reached through a dependency is below the point that has it
            have hca : c ∈ deps a := List.mem_reverse.mp hc
            refine .inr ⟨a, List.mem_cons_self, .inr ?_⟩
            rcases hreach with rfl | hbelow
            · exact below_of_mem hca
            · exact hbelow.of_mem hca
          · exact .inr ⟨c, List.mem_cons_of_mem a hc, hreach⟩
        · rcases hb with hb | hb
          · exact hall b (.inl (List.mem_cons_of_mem a hb))
          rcases List.mem_cons.mp hb with rfl | hb
          · exact hall b (.inl List.mem_cons_self)
          · exact hall b (.inr (List.mem_append_right _ hb))

/-- **A search to the end finds the point and what is below it.** -/
theorem mem_explore_iff {fuel : ℕ} (h : explore deps fuel [] [a] = some found) :
    b ∈ found ↔ b = a ∨ Below deps a b := by
  obtain ⟨honly, hall, hclosed⟩ := explored h nofun
  have ha : a ∈ found := hall a (.inr (List.mem_singleton_self a))
  constructor
  · intro hb
    obtain ⟨c, hc, hreach⟩ := (honly b hb).resolve_left List.not_mem_nil
    obtain rfl := List.mem_singleton.mp hc
    exact hreach
  · rintro (rfl | hbelow)
    · exact ha
    · exact hbelow.mem (hclosed a ha) hclosed

/-- Where only some points need others, there is fuel that is enough. -/
theorem exists_explore {points : List α} (hpoints : ∀ a, a ∉ points → deps a = []) {fuel : ℕ}
    (hfuel : pending.length + remaining deps points observed < fuel) :
    ∃ found, explore deps fuel observed pending = some found := by
  induction fuel generalizing observed pending with
  | zero => exact absurd hfuel (Nat.not_lt_zero _)
  | succ fuel ih =>
    match pending with
    | [] => exact ⟨observed, rfl⟩
    | a :: pending =>
      rw [List.length_cons] at hfuel
      rw [explore]
      split
      · exact ih (by omega)
      next hnew =>
      refine ih ?_
      rw [List.length_append, List.length_reverse]
      by_cases ha : a ∈ points
      · have hremaining : (deps a).length + remaining deps points (a :: observed) =
            remaining deps points observed := remaining_cons ha hnew
        omega
      · have hsame : points.toFinset \ (a :: observed).toFinset =
            points.toFinset \ observed.toFinset := by
          rw [List.toFinset_cons, Finset.sdiff_insert]
          refine Finset.erase_eq_of_notMem fun hmem ↦ ha ?_
          exact List.mem_toFinset.mp (Finset.mem_sdiff.mp hmem).1
        rw [hpoints a ha, List.length_nil, remaining, hsame]
        rw [remaining] at hfuel
        omega

end Explore

/-! ## Everything below a point -/

/-- The points below a point that were not found yet, on the way that `visiting` gives. -/
def collect (deps : α → List α) (known : α → Bool) (cycle : ε) (unknown : α → α → ε) :
    ℕ → List α → List α → α → Except ε (List α)
  | 0, _, _, _ => .error cycle
  | fuel + 1, visiting, found, a => do
    if a ∈ visiting then
      throw cycle
    (deps a).foldlM (fun found b ↦ do
      if known b = false then
        throw (unknown a b)
      if b ∈ found then
        return found
      collect deps known cycle unknown fuel (a :: visiting) (b :: found) b) found

section Collect

variable {known : α → Bool} {cycle : ε} {unknown : α → α → ε}

/-- What was found on the way to a point and below it. What is new is below the point, is known, is
not on the way, and has been entered, so what it needs is found too. -/
structure Gathers (deps : α → List α) (known : α → Bool) (way : List α) (a : α)
    (found found' : List α) : Prop where
  kept : found ⊆ found'
  new : ∀ b ∈ found', b ∈ found ∨
    (Below deps a b ∧ known b = true ∧ b ∉ way ∧ deps b ⊆ found')

omit [DecidableEq α] in
theorem Gathers.refl (way : List α) (a : α) (found : List α) :
    Gathers deps known way a found found :=
  ⟨List.Subset.refl _, fun _ hb ↦ .inl hb⟩

omit [DecidableEq α] in
theorem Gathers.trans {way found found' found'' : List α}
    (h : Gathers deps known way a found found') (h' : Gathers deps known way a found' found'') :
    Gathers deps known way a found found'' := by
  refine ⟨List.Subset.trans h.kept h'.kept, fun b hb ↦ ?_⟩
  rcases h'.new b hb with hb | hb
  · rcases h.new b hb with hb | ⟨hbelow, hknown, hway, hdeps⟩
    · exact .inl hb
    · exact .inr ⟨hbelow, hknown, hway, List.Subset.trans hdeps h'.kept⟩
  · exact .inr hb

omit [DecidableEq α] in
/-- Going down from a dependency that was not found yet. -/
theorem Gathers.of_dependency {way found found' : List α} (hneeds : b ∈ deps a)
    (hknown : known b = true) (hway : b ∉ way) (hdeps : deps b ⊆ found')
    (h : Gathers deps known (b :: way) b (b :: found) found') :
    Gathers deps known way a found found' := by
  refine ⟨(List.cons_subset.mp h.kept).2, fun c hc ↦ ?_⟩
  rcases h.new c hc with hc | ⟨hbelow, hknown', hway', hdeps'⟩
  · rcases List.mem_cons.mp hc with rfl | hc
    · exact .inr ⟨below_of_mem hneeds, hknown, hway, hdeps⟩
    · exact .inl hc
  · exact .inr ⟨hbelow.of_mem hneeds, hknown', fun hmem ↦ hway' (List.mem_cons_of_mem b hmem),
      hdeps'⟩

theorem gathers_of_collect {fuel : ℕ} {visiting found found' : List α}
    (h : collect deps known cycle unknown fuel visiting found a = .ok found') :
    a ∉ visiting ∧ deps a ⊆ found' ∧ (∀ b ∈ deps a, known b = true) ∧
      Gathers deps known (a :: visiting) a found found' := by
  induction fuel generalizing visiting found found' a with
  | zero => exact nomatch h
  | succ fuel ih =>
    rw [collect, guard_eq_ok] at h
    obtain ⟨hvisiting, h⟩ := h
    -- one dependency after the other, of which each is found, before the loop or in it
    have hloop : ∀ ds found, ds ⊆ deps a → (∀ found', ds.foldlM (fun found b ↦ do
        if known b = false then
          throw (unknown a b)
        if b ∈ found then
          return found
        collect deps known cycle unknown fuel (a :: visiting) (b :: found) b) found = .ok found' →
        ds ⊆ found' ∧ (∀ b ∈ ds, known b = true) ∧
          Gathers deps known (a :: visiting) a found found') := by
      intro ds
      induction ds with
      | nil =>
        intro found _ found' hfold
        obtain rfl := Except.ok.inj hfold
        exact ⟨List.nil_subset _, nofun, .refl _ _ _⟩
      | cons b ds ihds =>
        intro found hsub found' hfold
        obtain ⟨hneeds, hsub⟩ := List.cons_subset.mp hsub
        rw [List.foldlM_cons, bind_eq_ok] at hfold
        obtain ⟨next, hb, hfold⟩ := hfold
        rw [guard_eq_ok, Bool.not_eq_false] at hb
        obtain ⟨hknown, hb⟩ := hb
        obtain ⟨hds, hdsKnown, hgathers⟩ := ihds next hsub found' hfold
        have hfirst : b ∈ next ∧ Gathers deps known (a :: visiting) a found next := by
          by_cases hmem : b ∈ found
          · rw [if_pos hmem] at hb
            obtain rfl := pure_eq_ok.mp hb
            exact ⟨hmem, .refl _ _ _⟩
          · rw [if_neg hmem] at hb
            obtain ⟨hway, hdeps, -, hbelow⟩ := ih hb
            exact ⟨hbelow.kept List.mem_cons_self, .of_dependency hneeds hknown hway hdeps hbelow⟩
        exact ⟨List.cons_subset.mpr ⟨hgathers.kept hfirst.1, hds⟩,
          List.forall_mem_cons.mpr ⟨hknown, hdsKnown⟩, hfirst.2.trans hgathers⟩
    obtain ⟨hdeps, hknown, hgathers⟩ := hloop _ _ (List.Subset.refl _) found' h
    exact ⟨hvisiting, hdeps, hknown, hgathers⟩

/-- **What is collected from a point is what is below it, and the point itself is not.** -/
theorem mem_collect {fuel : ℕ} {found : List α}
    (h : collect deps known cycle unknown fuel [] [] a = .ok found) :
    (∀ b, b ∈ found ↔ Below deps a b) ∧ ¬Below deps a a ∧
      ∀ b, Below deps a b → known b = true := by
  obtain ⟨-, hdeps, hknown, hgathers⟩ := gathers_of_collect h
  have hnew : ∀ b ∈ found, Below deps a b ∧ known b = true ∧ b ∉ [a] ∧ deps b ⊆ found :=
    fun b hb ↦ (hgathers.new b hb).resolve_left List.not_mem_nil
  have hmem : ∀ b, b ∈ found ↔ Below deps a b := by
    refine fun b ↦ ⟨fun hb ↦ (hnew b hb).1, fun hbelow ↦ ?_⟩
    exact hbelow.mem (S := (· ∈ found)) (fun c hc ↦ hdeps hc) fun c hc d hd ↦ (hnew c hc).2.2.2 hd
  refine ⟨hmem, fun hbelow ↦ ?_, fun b hbelow ↦ (hnew b ((hmem b).mpr hbelow)).2.1⟩
  exact (hnew a ((hmem a).mpr hbelow)).2.2.1 (List.mem_singleton_self a)

/-- Where no point needs itself, everything below a point is collected. -/
theorem exists_collect (hacyclic : Acyclic deps) {points : List α}
    (hpoints : ∀ a ∈ points, deps a ⊆ points) (hknown : ∀ a ∈ points, known a = true) {fuel : ℕ}
    {visiting : List α} (found : List α) (ha : a ∈ points) (hsub : visiting ⊆ points)
    (hway : ∀ b ∈ visiting, Below deps b a) (hnodup : visiting.Nodup)
    (hfuel : points.length < fuel + visiting.length) :
    ∃ found', collect deps known cycle unknown fuel visiting found a = .ok found' := by
  induction fuel generalizing visiting found a with
  | zero =>
    -- the way would hold more points than there are
    have hle := (List.subperm_of_subset hnodup hsub).length_le
    omega
  | succ fuel ih =>
    have hnew : a ∉ visiting := fun hmem ↦ hacyclic a (hway a hmem)
    have hnodup' : (a :: visiting).Nodup := List.nodup_cons.mpr ⟨hnew, hnodup⟩
    have hfuel' : points.length < fuel + (a :: visiting).length := by
      rw [List.length_cons]
      omega
    simp only [collect, guard_eq_ok]
    refine exists_and_left.mpr ⟨hnew, exists_foldlM ?_ found⟩
    intro found b hb
    have hbknown : ¬known b = false := by
      rw [hknown b (hpoints a ha hb)]
      decide
    have hway' : ∀ c ∈ a :: visiting, Below deps c b :=
      List.forall_mem_cons.mpr ⟨below_of_mem hb, fun c hc ↦ (hway c hc).tail hb⟩
    by_cases hmem : b ∈ found
    · refine ⟨found, ?_⟩
      rw [if_neg hbknown, if_pos hmem]
      rfl
    · obtain ⟨found', hfound'⟩ := ih (b :: found) (hpoints a ha hb)
        (List.cons_subset.mpr ⟨ha, hsub⟩) hway' hnodup' hfuel'
      refine ⟨found', ?_⟩
      rw [if_neg hbknown, if_neg hmem]
      exact hfound'

end Collect

/-! ## Everything that is needed, with a stack -/

/-- A point that was not found yet is put on the stack. -/
def push (s : List α × List α) (b : α) : List α × List α :=
  if b ∈ s.1 then s else (b :: s.1, b :: s.2)

/-- What was found, with a stack of the points that were not looked at yet. -/
def gather (deps : α → List α) : ℕ → List α → List α → List α
  | 0, found, _ => found
  | _ + 1, found, [] => found
  | fuel + 1, found, a :: pending =>
    let s := (deps a).foldl push (found, pending)
    gather deps fuel s.1 s.2

section Gather

theorem exists_push (ds : List α) {found : List α} (pending : List α) (h : found.Nodup) :
    ∃ new, ds.foldl push (found, pending) = (new ++ found, new ++ pending) ∧
      (new ++ found).Nodup ∧ new ⊆ ds ∧ ds ⊆ new ++ found := by
  induction ds generalizing found pending with
  | nil => exact ⟨[], rfl, h, List.Subset.refl _, List.nil_subset _⟩
  | cons d ds ih =>
    rw [List.foldl_cons, push]
    by_cases hd : d ∈ found
    · rw [if_pos hd]
      obtain ⟨new, hfold, hnodup, hnew, hds⟩ := ih pending h
      exact ⟨new, hfold, hnodup, List.subset_cons_of_subset _ hnew,
        List.cons_subset.mpr ⟨List.mem_append_right _ hd, hds⟩⟩
    · rw [if_neg hd]
      obtain ⟨new, hfold, hnodup, hnew, hds⟩ := ih (d :: pending) (List.nodup_cons.mpr ⟨hd, h⟩)
      refine ⟨new ++ [d], ?_, ?_, ?_, ?_⟩
      · rw [hfold, List.append_assoc, List.append_assoc]
        rfl
      · rw [List.append_assoc]
        exact hnodup
      · refine List.append_subset.mpr ⟨List.subset_cons_of_subset _ hnew, ?_⟩
        exact List.cons_subset.mpr ⟨List.mem_cons_self, List.nil_subset _⟩
      · rw [List.append_assoc]
        exact List.cons_subset.mpr ⟨List.mem_append_right _ List.mem_cons_self, hds⟩

/-- What was found is needed by the point that the search started from, and what is not on the stack
any more has been looked at. -/
structure Gathering (deps : α → List α) (points : List α) (a : α) (found pending : List α) :
    Prop where
  nodup : found.Nodup
  inside : found ⊆ points
  start : a ∈ found
  reached : ∀ b ∈ found, b = a ∨ Below deps a b
  closed : ∀ b ∈ found, b ∉ pending → deps b ⊆ found

/-- With fuel for all points, the stack becomes empty. -/
theorem gathering_gather {points : List α} (hpoints : ∀ b ∈ points, deps b ⊆ points) {fuel : ℕ}
    {found pending : List α} (h : Gathering deps points a found pending)
    (hpending : pending ⊆ found)
    (hfuel : points.length + pending.length < fuel + found.length) :
    Gathering deps points a (gather deps fuel found pending) [] := by
  induction fuel generalizing found pending with
  | zero =>
    have hle := (List.subperm_of_subset h.nodup h.inside).length_le
    omega
  | succ fuel ih =>
    match pending with
    | [] => exact h
    | c :: pending =>
      obtain ⟨hc, hpending⟩ := List.cons_subset.mp hpending
      obtain ⟨new, hfold, hnodup, hnew, hdeps⟩ := exists_push (deps c) pending h.nodup
      rw [gather, hfold]
      refine ih ⟨hnodup, ?_, List.mem_append_right _ h.start, ?_, ?_⟩ ?_ ?_
      · exact List.append_subset.mpr ⟨List.Subset.trans hnew (hpoints c (h.inside hc)), h.inside⟩
      · intro b hb
        rcases List.mem_append.mp hb with hb | hb
        · rcases h.reached c hc with rfl | hbelow
          · exact .inr (below_of_mem (hnew hb))
          · exact .inr (hbelow.tail (hnew hb))
        · exact h.reached b hb
      · intro b hb hlooked
        rw [List.mem_append, not_or] at hlooked
        by_cases hsame : b = c
        · rw [hsame]
          exact hdeps
        · have hold : b ∈ found := (List.mem_append.mp hb).resolve_left hlooked.1
          refine List.subset_append_of_subset_right _ (h.closed b hold fun hmem ↦ ?_)
          exact (List.mem_cons.mp hmem).elim hsame hlooked.2
      · exact List.append_subset.mpr ⟨List.subset_append_left _ _,
          List.subset_append_of_subset_right _ hpending⟩
      · simp only [List.length_cons, List.length_append] at hfuel ⊢
        omega

/-- **What is found is the point itself and everything below it.** -/
theorem mem_gather_iff {points : List α} (hpoints : ∀ b ∈ points, deps b ⊆ points)
    (ha : a ∈ points) {fuel : ℕ} (hfuel : points.length < fuel) :
    b ∈ gather deps fuel [a] [a] ↔ b = a ∨ Below deps a b := by
  have hstart : Gathering deps points a [a] [a] := by
    refine ⟨List.nodup_singleton a, ?_, List.mem_singleton_self a, ?_, ?_⟩
    · exact List.cons_subset.mpr ⟨ha, List.nil_subset _⟩
    · exact fun c hc ↦ .inl (List.mem_singleton.mp hc)
    · exact fun c hc hnot ↦ absurd hc hnot
  have h := gathering_gather hpoints hstart (List.Subset.refl _) (Nat.add_lt_add_right hfuel 1)
  refine ⟨h.reached b, ?_⟩
  rintro (rfl | hbelow)
  · exact h.start
  · exact hbelow.mem (fun c hc ↦ h.closed a h.start List.not_mem_nil hc)
      fun c hc d hd ↦ h.closed c hc List.not_mem_nil hd

end Gather

/-! ## Points in the order of what they need -/

/-- Every point of the list needs only points that come after it. -/
inductive Settled (deps : α → List α) : List α → Prop
  | nil : Settled deps []
  | cons {a : α} {points : List α} : deps a ⊆ points → a ∉ points → Settled deps points →
      Settled deps (a :: points)

/-- The number of points that come after a point. -/
def rank : List α → α → ℕ
  | [], _ => 0
  | b :: points, a => if a = b then points.length else rank points a

theorem rank_lt_length {points : List α} (h : a ∈ points) : rank points a < points.length := by
  induction points with
  | nil => exact absurd h List.not_mem_nil
  | cons b points ih =>
    rw [rank, List.length_cons]
    split
    · exact Nat.lt_succ_self _
    · next hne => exact (ih ((List.mem_cons.mp h).resolve_left hne)).trans (Nat.lt_succ_self _)

omit [DecidableEq α] in
theorem Settled.subset {points : List α} (h : Settled deps points) (ha : a ∈ points) :
    deps a ⊆ points := by
  induction h with
  | nil => exact absurd ha List.not_mem_nil
  | @cons b points hdeps _ _ ih =>
    rcases List.mem_cons.mp ha with rfl | ha
    · exact List.subset_cons_of_subset _ hdeps
    · exact List.subset_cons_of_subset _ (ih ha)

omit [DecidableEq α] in
/-- What a point needs comes after it. -/
theorem Settled.subset_of_append {before after : List α}
    (h : Settled deps (before ++ a :: after)) : deps a ⊆ after := by
  induction before with
  | nil =>
    cases h with
    | cons hdeps _ _ => exact hdeps
  | cons b before ih =>
    cases h with
    | cons _ _ hrest => exact ih hrest

omit [DecidableEq α] in
theorem Settled.nodup {points : List α} (h : Settled deps points) : points.Nodup := by
  induction h with
  | nil => exact List.nodup_nil
  | cons _ hnew _ ih => exact List.nodup_cons.mpr ⟨hnew, ih⟩

theorem Settled.rank_lt {points : List α} (h : Settled deps points) (ha : a ∈ points)
    (hneeds : b ∈ deps a) : rank points b < rank points a := by
  induction h with
  | nil => exact absurd ha List.not_mem_nil
  | @cons c points hdeps hnew hrest ih =>
    by_cases hsame : a = c
    · subst hsame
      have hne : b ≠ a := fun heq ↦ hnew (heq ▸ hdeps hneeds)
      rw [rank, if_neg hne, rank, if_pos rfl]
      exact rank_lt_length (hdeps hneeds)
    · have ha := (List.mem_cons.mp ha).resolve_left hsame
      have hne : b ≠ c := fun heq ↦ hnew (heq ▸ hrest.subset ha hneeds)
      rw [rank, if_neg hne, rank, if_neg hsame]
      exact ih ha

/-- No point needs itself when all points that need something are in such a list. -/
theorem Settled.acyclic {points : List α} (h : Settled deps points)
    (hall : ∀ a, a ∉ points → deps a = []) : Acyclic deps := by
  have hmem : ∀ a, ∀ b ∈ deps a, a ∈ points := by
    intro a b hb
    by_contra hnot
    rw [hall a hnot] at hb
    exact absurd hb List.not_mem_nil
  exact .of_lt fun a b hb ↦ h.rank_lt (hmem a b hb) hb

/-- Going down from a point, and keeping what is finished apart from the way. -/
def settle (deps : α → List α) (cycle : ε) : ℕ → List α → List α → α → Except ε (List α)
  | 0, _, _, _ => .error cycle
  | fuel + 1, temporary, permanent, a =>
    if a ∈ permanent then .ok permanent
    else if a ∈ temporary then .error cycle
    else do
      let permanent ← (deps a).foldlM (settle deps cycle fuel (a :: temporary)) permanent
      return a :: permanent

section Settle

variable {cycle : ε}

theorem subset_of_settle {fuel : ℕ} {temporary permanent permanent' : List α}
    (h : settle deps cycle fuel temporary permanent a = .ok permanent') :
    permanent ⊆ permanent' ∧ a ∈ permanent' ∧
      ∀ b ∈ permanent', b ∈ permanent ∨ b ∉ temporary := by
  induction fuel generalizing temporary permanent permanent' a with
  | zero => exact nomatch h
  | succ fuel ih =>
    rw [settle] at h
    split at h
    · next hdone =>
      obtain rfl := Except.ok.inj h
      exact ⟨List.Subset.refl _, hdone, fun b hb ↦ .inl hb⟩
    split at h
    · exact nomatch h
    next hway =>
    simp only [bind_eq_ok, pure_eq_ok] at h
    obtain ⟨found, hfold, rfl⟩ := h
    have hfound : permanent ⊆ found ∧ ∀ b ∈ found, b ∈ permanent ∨ b ∉ a :: temporary := by
      refine foldlM_induction (P := fun found ↦ permanent ⊆ found ∧
        ∀ b ∈ found, b ∈ permanent ∨ b ∉ a :: temporary) ?_ hfold
        ⟨List.Subset.refl _, fun b hb ↦ .inl hb⟩
      intro found b _ found' hstep hfound
      obtain ⟨hkept, -, hnew⟩ := ih hstep
      exact ⟨List.Subset.trans hfound.1 hkept, fun c hc ↦
        (hnew c hc).elim (hfound.2 c) .inr⟩
    refine ⟨List.subset_cons_of_subset _ hfound.1, List.mem_cons_self, fun b hb ↦ ?_⟩
    rcases List.mem_cons.mp hb with rfl | hb
    · exact .inr hway
    · exact (hfound.2 b hb).imp_right fun hnot hmem ↦ hnot (List.mem_cons_of_mem _ hmem)

/-- What is finished stays among points that need only each other. -/
theorem forall_mem_of_settle {S : α → Prop} (hclosed : ∀ b, S b → ∀ c ∈ deps b, S c) {fuel : ℕ}
    {temporary permanent permanent' : List α}
    (h : settle deps cycle fuel temporary permanent a = .ok permanent') (ha : S a)
    (hall : ∀ b ∈ permanent, S b) : ∀ b ∈ permanent', S b := by
  induction fuel generalizing temporary permanent permanent' a with
  | zero => exact nomatch h
  | succ fuel ih =>
    rw [settle] at h
    split at h
    · obtain rfl := Except.ok.inj h
      exact hall
    split at h
    · exact nomatch h
    simp only [bind_eq_ok, pure_eq_ok] at h
    obtain ⟨found, hfold, rfl⟩ := h
    refine List.forall_mem_cons.mpr ⟨ha, foldlM_induction (P := fun found ↦ ∀ b ∈ found, S b)
      (fun found b hb found' hstep hfound ↦ ih hstep (hclosed a ha b hb) hfound) hfold hall⟩

/-- **What is finished stays in the order of what it needs.** -/
theorem settled_of_settle {fuel : ℕ} {temporary permanent permanent' : List α}
    (h : settle deps cycle fuel temporary permanent a = .ok permanent')
    (hsettled : Settled deps permanent) : Settled deps permanent' := by
  induction fuel generalizing temporary permanent permanent' a with
  | zero => exact nomatch h
  | succ fuel ih =>
    rw [settle] at h
    split at h
    · obtain rfl := Except.ok.inj h
      exact hsettled
    split at h
    · exact nomatch h
    next hnew _ =>
    simp only [bind_eq_ok, pure_eq_ok] at h
    obtain ⟨found, hfold, rfl⟩ := h
    have hdeps : deps a ⊆ found := fun b hb ↦
      foldlM_of_mem (f := settle deps cycle fuel (a :: temporary)) (P := (b ∈ ·)) hb
        (fun _ _ _ hstep hmem ↦ (subset_of_settle hstep).1 hmem)
        (fun _ _ hstep ↦ (subset_of_settle hstep).2.1) hfold
    have hfound : Settled deps found ∧ a ∉ found := by
      refine foldlM_induction (P := fun found ↦ Settled deps found ∧ a ∉ found) ?_ hfold
        ⟨hsettled, hnew⟩
      intro found b _ found' hstep hfound
      refine ⟨ih hstep hfound.1, fun hmem ↦ ?_⟩
      -- the point is on the way, and nothing on the way is finished below it
      exact ((subset_of_settle hstep).2.2 a hmem).elim hfound.2 fun hnot ↦ hnot List.mem_cons_self
    exact .cons hdeps hfound.2 hfound.1

/-- The points are finished one after the other. -/
theorem settled_of_foldlM {fuel : ℕ} {points permanent : List α}
    (h : points.foldlM (settle deps cycle fuel []) [] = .ok permanent) :
    Settled deps permanent ∧ points ⊆ permanent ∧
      ((∀ a ∈ points, deps a ⊆ points) → permanent ⊆ points) := by
  refine ⟨?_, ?_, fun hclosed ↦ ?_⟩
  · exact foldlM_induction (fun _ _ _ _ hstep hsettled ↦ settled_of_settle hstep hsettled) h .nil
  · intro a ha
    exact foldlM_of_mem (f := settle deps cycle fuel []) (P := (a ∈ ·)) ha
      (fun _ _ _ hstep hmem ↦ (subset_of_settle hstep).1 hmem)
      (fun _ _ hstep ↦ (subset_of_settle hstep).2.1) h
  · exact foldlM_induction (P := (· ⊆ points))
      (fun _ a ha _ hstep hsub ↦ forall_mem_of_settle hclosed hstep ha hsub) h (List.nil_subset _)

/-- Where no point needs itself, every point can be finished. -/
theorem exists_settle (hacyclic : Acyclic deps) {points : List α}
    (hpoints : ∀ a ∈ points, deps a ⊆ points) {fuel : ℕ} {temporary : List α} (permanent : List α)
    (ha : a ∈ points) (hsub : temporary ⊆ points) (hway : ∀ b ∈ temporary, Below deps b a)
    (hnodup : temporary.Nodup) (hfuel : points.length < fuel + temporary.length) :
    ∃ permanent', settle deps cycle fuel temporary permanent a = .ok permanent' := by
  induction fuel generalizing temporary permanent a with
  | zero =>
    have hle := (List.subperm_of_subset hnodup hsub).length_le
    omega
  | succ fuel ih =>
    rw [settle]
    by_cases hdone : a ∈ permanent
    · exact ⟨permanent, if_pos hdone⟩
    have hnew : a ∉ temporary := fun hmem ↦ hacyclic a (hway a hmem)
    have hfuel' : points.length < fuel + (a :: temporary).length := by
      rw [List.length_cons]
      omega
    have hway' : ∀ b ∈ deps a, ∀ c ∈ a :: temporary, Below deps c b := fun b hb ↦
      List.forall_mem_cons.mpr ⟨below_of_mem hb, fun c hc ↦ (hway c hc).tail hb⟩
    have hloop : ∃ found, (deps a).foldlM (settle deps cycle fuel (a :: temporary)) permanent =
        .ok found :=
      exists_foldlM (fun permanent b hb ↦ ih permanent (hpoints a ha hb)
        (List.cons_subset.mpr ⟨ha, hsub⟩) (hway' b hb) (List.nodup_cons.mpr ⟨hnew, hnodup⟩) hfuel')
        permanent
    obtain ⟨found, hfound⟩ := hloop
    refine ⟨a :: found, ?_⟩
    rw [if_neg hdone, if_neg hnew, hfound]
    rfl

end Settle

/-! ## Levels -/

/-- A point that needs nothing is at the bottom, and any other is above all that it needs. The
levels that were found are kept. -/
def level (deps : α → List α) : ℕ → List (α × ℕ) → α → List (α × ℕ)
  | 0, levels, _ => levels
  | fuel + 1, levels, a =>
    if (levels.lookup a).isSome then levels
    else
      let levels := (deps a).foldl (level deps fuel) levels
      setItem a (if deps a = [] then 0
        else 1 + ((deps a).map fun b ↦ (levels.lookup b).getD 0).foldr max 0) levels

/-- The points that have a level are above what they need. -/
structure Levelled (deps : α → List α) (levels : List (α × ℕ)) : Prop where
  nodup : (levels.map Prod.fst).Nodup
  above : ∀ a n, levels.lookup a = some n → ∀ b ∈ deps a, ∃ m, levels.lookup b = some m ∧ m < n

/-- Every level is still there, and new ones are of points that the rank bounds. -/
structure Extends (points : List α) (bound : ℕ) (levels levels' : List (α × ℕ)) : Prop where
  kept : ∀ a n, levels.lookup a = some n → levels'.lookup a = some n
  new : ∀ a, (levels'.lookup a).isSome → (levels.lookup a).isSome ∨ a ∈ points ∧ rank points a < bound

theorem Extends.refl (points : List α) (bound : ℕ) (levels : List (α × ℕ)) :
    Extends points bound levels levels :=
  ⟨fun _ _ h ↦ h, fun _ h ↦ .inl h⟩

theorem Extends.trans {points : List α} {bound bound' : ℕ} {levels levels' levels'' : List (α × ℕ)}
    (h : Extends points bound levels levels') (h' : Extends points bound' levels' levels'')
    (hle : bound ≤ bound') : Extends points bound' levels levels'' :=
  ⟨fun a n ha ↦ h'.kept a n (h.kept a n ha), fun a ha ↦ (h'.new a ha).elim
    (fun ha ↦ (h.new a ha).imp_right fun hlt ↦
      ⟨hlt.1, hlt.2.trans_le hle⟩) .inr⟩

/-- A point gets its level once everything it needs has one. -/
theorem Levelled.setItem {levels : List (α × ℕ)} (h : Levelled deps levels)
    (hdeps : ∀ b ∈ deps a, (levels.lookup b).isSome) (hself : a ∉ deps a)
    (hnew : levels.lookup a = none) :
    Levelled deps (setItem a (if deps a = [] then 0
      else 1 + ((deps a).map fun b ↦ (levels.lookup b).getD 0).foldr max 0) levels) := by
  refine ⟨nodup_setItem h.nodup, fun c n hc b hb ↦ ?_⟩
  rw [lookup_setItem] at hc ⊢
  by_cases hsame : c = a
  · subst hsame
    rw [if_pos rfl, if_neg (List.ne_nil_of_mem hb), Option.some.injEq] at hc
    obtain ⟨m, hm⟩ := Option.isSome_iff_exists.mp (hdeps b hb)
    have hne : b ≠ c := by
      rintro rfl
      exact hself hb
    refine ⟨m, by rw [if_neg hne, hm], ?_⟩
    have hle : m ≤ ((deps c).map fun b ↦ (levels.lookup b).getD 0).foldr max 0 :=
      List.le_max_of_le' 0 (List.mem_map.mpr ⟨b, hb, by rw [hm]; rfl⟩) le_rfl
    omega
  · rw [if_neg hsame] at hc
    obtain ⟨m, hm, hlt⟩ := h.above c n hc b hb
    refine ⟨m, ?_, hlt⟩
    rw [if_neg, hm]
    rintro rfl
    exact nomatch hnew.symm.trans hm

/-- **Fuel above the rank of a point is enough to find its level.** -/
theorem levelled_level {points : List α} (hpoints : Settled deps points) {fuel : ℕ}
    {levels : List (α × ℕ)} (ha : a ∈ points) (hfuel : rank points a < fuel)
    (h : Levelled deps levels) : Levelled deps (level deps fuel levels a) ∧
      Extends points (rank points a + 1) levels (level deps fuel levels a) ∧
      ((level deps fuel levels a).lookup a).isSome := by
  induction fuel generalizing levels a with
  | zero => exact absurd hfuel (Nat.not_lt_zero _)
  | succ fuel ih =>
    rw [level]
    split
    · next hdone => exact ⟨h, .refl _ _ _, hdone⟩
    next hnew =>
    -- one dependency after the other gets its level, and keeps it
    have hloop : ∀ ds ⊆ deps a, ∀ levels, Levelled deps levels →
        Levelled deps (ds.foldl (level deps fuel) levels) ∧
          Extends points (rank points a) levels (ds.foldl (level deps fuel) levels) ∧
          ∀ b ∈ ds, ((ds.foldl (level deps fuel) levels).lookup b).isSome := by
      intro ds
      induction ds with
      | nil => exact fun _ levels hlevels ↦ ⟨hlevels, .refl _ _ _, nofun⟩
      | cons b ds ihds =>
        intro hsub levels hlevels
        obtain ⟨hneeds, hsub⟩ := List.cons_subset.mp hsub
        have hrank := hpoints.rank_lt ha hneeds
        obtain ⟨hfirst, hextends, hb⟩ := ih (hpoints.subset ha hneeds) (by omega) hlevels
        obtain ⟨hrest, hextends', hds⟩ := ihds hsub _ hfirst
        refine ⟨hrest, hextends.trans hextends' hrank, List.forall_mem_cons.mpr ⟨?_, hds⟩⟩
        obtain ⟨n, hn⟩ := Option.isSome_iff_exists.mp hb
        exact Option.isSome_iff_exists.mpr ⟨n, hextends'.kept b n hn⟩
    obtain ⟨hlevelled, hextends, hdeps⟩ := hloop _ (List.Subset.refl _) levels h
    have hself : a ∉ deps a := fun hmem ↦ lt_irrefl _ (hpoints.rank_lt ha hmem)
    have hstill : ((deps a).foldl (level deps fuel) levels).lookup a = none := by
      by_contra hsome
      rcases hextends.new a (Option.isSome_iff_ne_none.mpr hsome) with hbefore | ⟨-, hlt⟩
      · exact hnew hbefore
      · exact lt_irrefl _ hlt
    refine ⟨hlevelled.setItem hdeps hself hstill, ⟨fun b n hb ↦ ?_, fun b hb ↦ ?_⟩, ?_⟩
    · rw [lookup_setItem, if_neg, hextends.kept b n hb]
      rintro rfl
      exact nomatch hstill.symm.trans (hextends.kept b n hb)
    · rw [lookup_setItem] at hb
      by_cases hsame : b = a
      · exact .inr ⟨hsame ▸ ha, hsame ▸ Nat.lt_succ_self _⟩
      · rw [if_neg hsame] at hb
        exact (hextends.new b hb).imp_right fun hlt ↦ ⟨hlt.1, hlt.2.trans (Nat.lt_succ_self _)⟩
    · rw [lookup_setItem, if_pos rfl]
      rfl

/-- The levels of points, found one after the other. -/
theorem levelled_foldl {points : List α} (hpoints : Settled deps points) {fuel : ℕ}
    (hfuel : points.length ≤ fuel) {order : List α} (hsub : order ⊆ points) :
    Levelled deps (order.foldl (level deps fuel) []) ∧
      (∀ a, ((order.foldl (level deps fuel) []).lookup a).isSome → a ∈ points) ∧
      ∀ a ∈ order, ((order.foldl (level deps fuel) []).lookup a).isSome := by
  induction order using List.reverseRecOn with
  | nil => exact ⟨⟨List.nodup_nil, fun _ _ h ↦ nomatch h⟩, nofun, nofun⟩
  | append_singleton init a ih =>
    obtain ⟨hlevelled, honly, hall⟩ := ih (List.append_subset.mp hsub).1
    have ha : a ∈ points := hsub (List.mem_append_right _ List.mem_cons_self)
    obtain ⟨hlast, hextends, hfound⟩ :=
      levelled_level hpoints ha ((rank_lt_length ha).trans_le hfuel) hlevelled
    rw [List.foldl_append]
    refine ⟨hlast, fun b hb ↦ (hextends.new b hb).elim (honly b) And.left, fun b hb ↦ ?_⟩
    rcases List.mem_append.mp hb with hb | hb
    · obtain ⟨n, hn⟩ := Option.isSome_iff_exists.mp (hall b hb)
      exact Option.isSome_iff_exists.mpr ⟨n, hextends.kept b n hn⟩
    · exact List.mem_singleton.mp hb ▸ hfound

end Dependencies
