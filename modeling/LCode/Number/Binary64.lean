import LCode.Number.Rounding

/-! Numbers in the binary64 format. The format's own comparison holds both zeros for equal and an
undefined number for unequal to itself. -/

namespace LCode.Number

structure Binary64 where
  bits : UInt64
deriving DecidableEq, Repr

namespace Binary64

def ofPattern (pattern : Nat) : Binary64 := ⟨UInt64.ofNat pattern⟩

def signBit : Nat := 0x8000000000000000

def magnitude (x : Binary64) : Nat := x.bits.toNat % signBit

def isNegative (x : Binary64) : Bool := decide (signBit ≤ x.bits.toNat)

def isUndefined (x : Binary64) : Bool := decide (infinityPattern < x.magnitude)

def isFinite (x : Binary64) : Bool := decide (x.magnitude < infinityPattern)

def equals (x y : Binary64) : Bool :=
  !x.isUndefined && !y.isUndefined &&
    (decide (x = y) || (decide (x.magnitude = 0) && decide (y.magnitude = 0)))

end Binary64

end LCode.Number
