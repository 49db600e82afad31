/-! Lines and columns count from zero, and columns count characters. -/

namespace LCode

structure Position where
  line : Nat
  column : Nat
deriving DecidableEq, Repr

/-- The columns of one line from `start` up to but without `stop`. -/
structure Span where
  line : Nat
  start : Nat
  stop : Nat
deriving DecidableEq, Repr

namespace Span

def ofBounds? (line start stop : Nat) : Option Span :=
  if start ≤ stop then some ⟨line, start, stop⟩ else none

def length? (s : Span) : Option Nat :=
  if s.start ≤ s.stop then some (s.stop - s.start) else none

def isEmpty (s : Span) : Bool := s.start = s.stop

def shiftLines (n : Nat) (s : Span) : Span := { s with line := s.line + n }

end Span

end LCode
