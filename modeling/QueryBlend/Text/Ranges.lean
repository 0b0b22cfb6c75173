/-!
# Sets of characters as ranges

A Unicode property is kept as the ascending list of the disjoint ranges of code points that have it.
The tables of this library hold only what lies beyond ASCII: below 128 each class is said by its
definition, so no statement about ASCII text has to look into a table.
-/
namespace QueryBlend.Text

/-- Closed ranges of code points. -/
abbrev Ranges := List (Nat × Nat)

def Ranges.has (r : Ranges) (c : Char) : Bool :=
  r.any fun (lo, hi) => lo ≤ c.toNat && c.toNat ≤ hi

end QueryBlend.Text
