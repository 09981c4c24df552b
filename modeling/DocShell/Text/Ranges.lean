set_option autoImplicit false

/-! # Ranges of characters

A property of characters given by a table: a list of ranges of code points, both ends
included.
-/

namespace DocShell.Text

/-- A list of ranges of code points, each with its first and its last member. -/
abbrev Ranges := List (Nat × Nat)

/-- Whether some range of the table holds `c`. -/
def Ranges.covers (table : Ranges) (c : Char) : Bool :=
  table.any fun (first, last) => first ≤ c.toNat && c.toNat ≤ last

theorem Ranges.covers_iff {table : Ranges} {c : Char} :
    table.covers c = true ↔ ∃ r ∈ table, r.1 ≤ c.toNat ∧ c.toNat ≤ r.2 := by
  simp [Ranges.covers, List.any_eq_true]

end DocShell.Text
