import LCode.Number.Decimal

/-! The decimal with the fewest digits that reads back as a given number: on the coarsest grid of
powers of ten that has one, the nearer neighbour of the number, and the upper one of two. -/

namespace LCode.Number

def onGrid? (pattern : Nat) (exponent : Int) : Option Decimal :=
  let num := units pattern * Nat.pow 10 (-exponent).toNat
  let den := Nat.pow 2 unitExponent * Nat.pow 10 exponent.toNat
  let below : Decimal := ⟨num / den, exponent⟩
  let above : Decimal := ⟨num / den + 1, exponent⟩
  let belowReads := decide (below.pattern = pattern)
  let aboveReads := decide (above.pattern = pattern)
  if belowReads && (!aboveReads || decide (2 * (num % den) < den)) then some below
  else if aboveReads then some above
  else none

/-- Searches the grids of `10^(n - 1074)` and finer ones. On the finest one every number lies. -/
def coarsest (pattern : Nat) : Nat → Decimal
  | 0 => ⟨units pattern * Nat.pow 5 unitExponent, -unitExponent⟩
  | n + 1 =>
    match onGrid? pattern ((n + 1 : Nat) - unitExponent : Int) with
    | some d => d
    | none => coarsest pattern n

/-- A grid above the number: `2^b < 10^(b * 30103 / 100000 + 1)`, and one power of ten more. -/
def coarsestGrid (pattern : Nat) : Nat :=
  (((Nat.log2 (units pattern) : Int) - unitExponent + 1) * 30103 / 100000 + 2 + unitExponent).toNat

def shortest (pattern : Nat) : Decimal :=
  coarsest pattern (coarsestGrid pattern)

theorem pattern_of_onGrid? {pattern : Nat} {exponent : Int} {d : Decimal}
    (h : onGrid? pattern exponent = some d) : d.pattern = pattern := by
  simp only [onGrid?] at h
  split at h
  · simp_all
  · split at h <;> simp_all

end LCode.Number
