/-! Sets of characters, given as ranges of code points with both ends included. -/

namespace LCode.Text

structure Ranges where
  bounds : List (Nat × Nat)

namespace Ranges

def contains (s : Ranges) (c : Char) : Bool :=
  s.bounds.any fun r => decide (r.1 ≤ c.toNat) && decide (c.toNat ≤ r.2)

theorem contains_iff (s : Ranges) (c : Char) :
    s.contains c = true ↔ ∃ r ∈ s.bounds, r.1 ≤ c.toNat ∧ c.toNat ≤ r.2 := by
  simp [contains]

end Ranges

end LCode.Text
