import LCode.Number.Binary64

/-! Decimal numbers `digits * 10^exponent`, and the binary64 number nearest to one. -/

namespace LCode.Number

structure Decimal where
  digits : Nat
  exponent : Int
deriving DecidableEq, Repr

namespace Decimal

/-- The pattern nearest to a decimal. A power of ten that decides the answer is not computed:
`10^310` is beyond every finite number, and `2^k * 10^-(k + 329)` rounds to zero. -/
def pattern (d : Decimal) : Nat :=
  if d.digits = 0 then 0
  else if 310 ≤ d.exponent then infinityPattern
  else if d.exponent ≤ -(Nat.log2 d.digits + 330 : Nat) then 0
  else if 0 ≤ d.exponent then nearestPattern (d.digits * Nat.pow 10 d.exponent.toNat) 1
  else nearestPattern d.digits (Nat.pow 10 (-d.exponent).toNat)

def toBinary64 (d : Decimal) : Binary64 := .ofPattern d.pattern

end Decimal

end LCode.Number
