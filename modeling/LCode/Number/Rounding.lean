/-! Rounding to binary64 patterns. A finite pattern without sign stands for a whole number of units
of `2^-1074`, and patterns next to each other are next numbers. -/

namespace LCode.Number

/-- The whole number nearest to `num / den`, the even one of two. -/
def roundDiv (num den : Nat) : Nat :=
  let q := num / den
  let r := num % den
  if 2 * r < den then q else if 2 * r = den then q + q % 2 else q + 1

def fractionBits : Nat := 52

def unitExponent : Nat := 1074

def infinityPattern : Nat := 0x7ff * Nat.pow 2 fractionBits

def units (pattern : Nat) : Nat :=
  let step := Nat.pow 2 fractionBits
  let exponent := pattern / step
  let fraction := pattern % step
  if exponent = 0 then fraction else (step + fraction) * Nat.pow 2 (exponent - 1)

/-- The pattern of the number nearest to `num / den`. The quotient counts steps of `2^shift` units,
where `shift` leaves 53 binary digits before the point; a carry moves on to the next exponent. -/
def nearestPattern (num den : Nat) : Nat :=
  let scaled := num * Nat.pow 2 unitExponent
  let shift := Nat.log2 (scaled / den) - fractionBits
  let rounded := roundDiv scaled (den * Nat.pow 2 shift)
  min (shift * Nat.pow 2 fractionBits + rounded) infinityPattern

end LCode.Number
