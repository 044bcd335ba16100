import HiveMind.Lib.Rows
import HiveMind.Lib.Trace

/-!
# Numbered histories in rows

A table keeps the history of a thing as rows, one snapshot a row. The snapshots are numbered from
one, the first of them is of a kind that may start a history, and each other one may follow the one
before it. Whoever checks the rows one by one keeps the digest of the last row, the next number and
the last snapshot.

* **`seenOf_foldlM`**: rows that were checked one by one are a legal history, and what the check has
  kept is about its last row.
* **`SeenOf.orderBy_eq`**: the rows of such a history are in the order of their numbers.
-/

namespace Histories

variable {ρ α ε : Type}

/-- How rows are read, and which snapshots may start a history and follow one another. -/
structure Kind (ρ α : Type) where
  read : ρ → Option α
  position : ρ → Int
  digest : ρ → String
  sequence : α → Int
  starts : α → Prop
  follows : α → α → Prop

/-- What is kept about a history: the digest of its last row, the next number, and its last
snapshot. -/
structure Seen (α : Type) where
  digest : String
  sequence : Int
  snapshot : α

namespace Kind

variable {k : Kind ρ α}

/-- A history that may have come about. -/
structure Legal (k : Kind ρ α) (history : List α) : Prop where
  contiguous : history.map k.sequence = (List.range history.length).map fun i : ℕ ↦ (i : Int) + 1
  starts : ∀ s ∈ history.head?, k.starts s
  follows : history.IsChain k.follows

theorem Legal.nil : k.Legal [] := ⟨rfl, fun _ h ↦ (nomatch h), .nil⟩

theorem Legal.concat {history : List α} {s : α} (h : k.Legal history)
    (hsequence : k.sequence s = history.length + 1) (hstarts : history = [] → k.starts s)
    (hfollows : ∀ last ∈ history.getLast?, k.follows last s) : k.Legal (history ++ [s]) where
  contiguous := by
    rw [List.map_append, h.contiguous, List.length_append, List.length_singleton, List.range_succ,
      List.map_append, List.map_singleton, List.map_singleton, hsequence]
  starts := by
    cases history with
    | nil =>
      rintro _ ⟨⟩
      exact hstarts rfl
    | cons first rest => exact h.starts
  follows := by
    apply List.isChain_append.mpr
    refine ⟨h.follows, .singleton s, fun last hlast next hnext ↦ ?_⟩
    rw [List.head?_cons, Option.mem_some_iff] at hnext
    rw [← hnext]
    exact hfollows last hlast

/-- The number of the last snapshot is the length of the history. -/
theorem Legal.sequence_getLast {history : List α} {last : α} (h : k.Legal (history ++ [last])) :
    k.sequence last = history.length + 1 := by
  have hcontiguous := h.contiguous
  rw [List.map_append, List.length_append, List.length_singleton, List.range_succ, List.map_append]
    at hcontiguous
  have hlast := (List.append_inj' hcontiguous rfl).2
  rw [List.map_singleton, List.map_singleton] at hlast
  exact (List.cons.inj hlast).1

/-- The numbers of a history increase. -/
theorem Legal.increasing {history : List α} (h : k.Legal history) :
    history.Pairwise fun s s' ↦ k.sequence s < k.sequence s' := by
  apply List.pairwise_map.mp
  rw [h.contiguous]
  apply List.pairwise_map.mpr
  exact List.pairwise_lt_range.imp fun hlt ↦ by omega

/-- A relation that chains of snapshots keep holds between any two snapshots of a history. -/
theorem Legal.pairwise {history : List α} (h : k.Legal history) {R : α → α → Prop}
    (himp : ∀ s s', k.follows s s' → R s s') (htrans : ∀ s s' s'', R s s' → R s' s'' → R s s'') :
    history.Pairwise R := by
  have : IsTrans α R := ⟨htrans⟩
  exact List.isChain_iff_pairwise.mp (h.follows.imp himp)

/-- What is kept after a row with a snapshot. -/
def seen (k : Kind ρ α) (row : ρ) (s : α) : Seen α := ⟨k.digest row, k.sequence s + 1, s⟩

/-- The row may come after what has been seen. -/
structure Accepts (k : Kind ρ α) (seen : Option (Seen α)) (row : ρ) (s : α) : Prop where
  read : k.read row = some s
  position : k.position row = k.sequence s
  sequence : k.sequence s = (seen.map (·.sequence)).getD 1
  starts : seen = none → k.starts s
  follows : ∀ prior ∈ seen, k.follows prior.snapshot s

/-- What has been seen of a history, given as its rows with their snapshots. -/
structure SeenOf (k : Kind ρ α) (entries : List (ρ × α)) (seen : Option (Seen α)) : Prop where
  reads : ∀ e ∈ entries, k.read e.1 = some e.2 ∧ k.position e.1 = k.sequence e.2
  legal : k.Legal (entries.map Prod.snd)
  last : seen = entries.getLast?.map fun e ↦ k.seen e.1 e.2

theorem SeenOf.nil : k.SeenOf [] none := ⟨fun _ h ↦ absurd h List.not_mem_nil, .nil, rfl⟩

theorem SeenOf.concat {entries : List (ρ × α)} {seen : Option (Seen α)} {row : ρ} {s : α}
    (h : k.SeenOf entries seen) (haccepts : k.Accepts seen row s) :
    k.SeenOf (entries ++ [(row, s)]) (some (k.seen row s)) where
  reads := by
    intro e he
    rcases List.mem_append.mp he with he | he
    · exact h.reads e he
    · rw [List.mem_singleton.mp he]
      exact ⟨haccepts.read, haccepts.position⟩
  legal := by
    have hlast := h.last
    rw [List.map_append, List.map_singleton]
    apply h.legal.concat
    · rw [haccepts.sequence]
      induction entries using List.reverseRecOn with
      | nil => rw [hlast]; rfl
      | append_singleton entries e _ =>
        rw [List.getLast?_concat] at hlast
        have hlegal := h.legal
        rw [List.map_append, List.map_singleton] at hlegal
        rw [hlast, List.length_map, List.length_append, List.length_singleton]
        show k.sequence e.2 + 1 = _
        rw [hlegal.sequence_getLast, List.length_map]
        rfl
    · intro hnil
      apply haccepts.starts
      rw [hlast, List.map_eq_nil_iff.mp hnil]
      rfl
    · intro last hmem
      rw [List.getLast?_map] at hmem
      obtain ⟨e, he, rfl⟩ := Option.map_eq_some_iff.mp hmem
      exact haccepts.follows (k.seen e.1 e.2) (by rw [hlast, he]; rfl)
  last := by rw [List.getLast?_concat]; rfl

/-- Rows that are checked one by one are a history. -/
theorem exists_seenOf {check : Option (Seen α) → ρ → Except ε (Option (Seen α))}
    (hcheck : ∀ seen row seen', check seen row = .ok seen' →
      ∃ s, k.Accepts seen row s ∧ seen' = some (k.seen row s)) {rows : List ρ}
    {seen : Option (Seen α)} (h : rows.foldlM check none = .ok seen) :
    ∃ entries, entries.map Prod.fst = rows ∧ k.SeenOf entries seen := by
  refine Trace.history_invariant
    (fun rows seen ↦ ∃ entries, entries.map Prod.fst = rows ∧ k.SeenOf entries seen) ?_ ?_ h
  · exact ⟨[], rfl, .nil⟩
  · rintro _ seen row seen' ⟨entries, rfl, hseen⟩ hrow
    obtain ⟨s, haccepts, rfl⟩ := hcheck seen row seen' hrow
    exact ⟨entries ++ [(row, s)], by rw [List.map_append]; rfl, hseen.concat haccepts⟩

/-- The rows of a history are in the order of their positions. -/
theorem SeenOf.orderBy_eq {entries : List (ρ × α)} {seen : Option (Seen α)}
    (h : k.SeenOf entries seen) :
    Rows.orderBy k.position (entries.map Prod.fst) = entries.map Prod.fst := by
  refine Rows.orderBy_eq_of_perm (List.Perm.refl _) (List.pairwise_map.mpr ?_)
  have hincreasing := List.pairwise_map.mp h.legal.increasing
  refine hincreasing.imp_of_mem fun {e e'} he he' hlt ↦ ?_
  rw [(h.reads e he).2, (h.reads e' he').2]
  exact hlt

/-- A row before the last one has a smaller number. -/
theorem SeenOf.eq_or_lt {entries : List (ρ × α)} {seen : Option (Seen α)} {e last : ρ × α}
    (h : k.SeenOf entries seen) (he : e ∈ entries) (hlast : last ∈ entries.getLast?) :
    e = last ∨ k.sequence e.2 < k.sequence last.2 := by
  obtain ⟨init, rfl⟩ : ∃ init, entries = init ++ [last] := by
    obtain ⟨hne, rfl⟩ := List.mem_getLast?_eq_getLast hlast
    exact ⟨entries.dropLast, (List.dropLast_append_getLast hne).symm⟩
  rcases List.mem_append.mp he with he | he
  · have hincreasing := List.pairwise_map.mp h.legal.increasing
    rw [List.pairwise_append] at hincreasing
    exact .inr (hincreasing.2.2 e he last (List.mem_singleton_self _))
  · exact .inl (List.mem_singleton.mp he)

/-- The row with the last number is the last row. -/
theorem SeenOf.getLast?_eq {entries : List (ρ × α)} {seen : Option (Seen α)} {e last : ρ × α}
    (h : k.SeenOf entries seen) (he : e ∈ entries) (hlast : last ∈ entries.getLast?)
    (hsame : k.sequence e.2 = k.sequence last.2) : e = last :=
  (h.eq_or_lt he hlast).resolve_right (ne_of_lt · hsame)

end Kind

end Histories
