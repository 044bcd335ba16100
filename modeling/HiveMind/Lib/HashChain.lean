import Mathlib

/-!
# Hash chains

A log is a hash chain when every row is linked to the digest of the row before it. What being linked
means is a parameter: `link previous row` says that the row may follow a row with that digest, or
may come first if there is none. A link usually says that the row names the digest and that its own
digest covers both.

A chain can be cut and joined at any place (`linked_append`), so a log that only grows by linked
rows stays a chain, and each of its rows is linked to its neighbour (`linked_getElem`).
-/

namespace HashChain

variable {ρ δ : Type} {link : Option δ → ρ → Prop} {digest : ρ → δ}

/-- The digest that the next row has to be linked to. -/
def tip (digest : ρ → δ) (previous : Option δ) (rows : List ρ) : Option δ :=
  (rows.getLast?.map digest).or previous

/-- Each row is linked to the one before it, and the first to `previous`. -/
def Linked (link : Option δ → ρ → Prop) (digest : ρ → δ) : Option δ → List ρ → Prop
  | _, [] => True
  | previous, row :: rows => link previous row ∧ Linked link digest (some (digest row)) rows

theorem tip_nil (previous : Option δ) : tip digest previous [] = previous := rfl

theorem tip_cons (previous : Option δ) (row : ρ) (rows : List ρ) :
    tip digest previous (row :: rows) = tip digest (some (digest row)) rows := by
  rw [tip, tip, List.getLast?_cons]
  cases rows.getLast? <;> rfl

theorem linked_append {previous : Option δ} {rows rows' : List ρ} :
    Linked link digest previous (rows ++ rows') ↔
      Linked link digest previous rows ∧ Linked link digest (tip digest previous rows) rows' := by
  induction rows generalizing previous with
  | nil => simp [Linked, tip_nil]
  | cons row rows ih => rw [List.cons_append, Linked, Linked, ih, tip_cons, and_assoc]

/-- Every row of a chain is linked to its neighbour. -/
theorem linked_getElem {previous : Option δ} {rows : List ρ}
    (h : Linked link digest previous rows) (i : ℕ) (hi : i < rows.length) :
    link (tip digest previous (rows.take i)) rows[i] := by
  have hsplit : rows = rows.take i ++ rows[i] :: rows.drop (i + 1) := by
    rw [← List.drop_eq_getElem_cons hi, List.take_append_drop]
  rw [hsplit] at h
  exact (linked_append.mp h).2.1

end HashChain
