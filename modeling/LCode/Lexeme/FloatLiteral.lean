import LCode.Lexeme.Characters
import LCode.Number.Decimal

/-! A float literal is taken apart from left to right, and each part takes as much as it can. -/

namespace LCode.Lexeme

open Number

structure Exponent where
  mark : Char
  sign : Option Char
  digits : List Char
deriving DecidableEq, Repr

structure FloatLiteral where
  whole : List Char
  fraction : Option (List Char)
  exponent : Option Exponent
  suffix : Option Char
deriving DecidableEq, Repr

def digitsValue (digits : List Char) : Nat := Nat.ofDigitChars 10 digits 0

def splitChar (p : Char → Bool) : List Char → Option Char × List Char
  | [] => (none, [])
  | c :: cs => if p c then (some c, cs) else (none, c :: cs)

def splitFraction (cs : List Char) : Option (List Char) × List Char :=
  match splitChar (· = '.') cs with
  | (none, rest) => (none, rest)
  | (some _, rest) => (some (rest.takeWhile Char.isDigit), rest.dropWhile Char.isDigit)

def splitExponent (cs : List Char) : Option Exponent × List Char :=
  match splitChar isExponentMark cs with
  | (none, rest) => (none, rest)
  | (some mark, rest) =>
    let (sign, rest) := splitChar isSign rest
    (some ⟨mark, sign, rest.takeWhile Char.isDigit⟩, rest.dropWhile Char.isDigit)

namespace Exponent

def chars (e : Exponent) : List Char := e.mark :: (e.sign.toList ++ e.digits)

def value (e : Exponent) : Int :=
  if e.sign = some '-' then -(digitsValue e.digits : Int) else digitsValue e.digits

end Exponent

namespace FloatLiteral

def chars (l : FloatLiteral) : List Char :=
  l.whole ++ (l.fraction.map ('.' :: ·)).getD [] ++ (l.exponent.map Exponent.chars).getD [] ++
    l.suffix.toList

def fractionDigits (l : FloatLiteral) : List Char := l.fraction.getD []

def split (cs : List Char) : FloatLiteral × List Char :=
  let whole := cs.takeWhile Char.isDigit
  let (fraction, rest) := splitFraction (cs.dropWhile Char.isDigit)
  let (exponent, rest) := splitExponent rest
  let (suffix, rest) := splitChar isFloatSuffix rest
  (⟨whole, fraction, exponent, suffix⟩, rest)

/-- There are digits before or after the point, there are digits in the exponent, and the literal
is no integer. -/
def isComplete (l : FloatLiteral) : Bool :=
  (l.whole ++ l.fractionDigits ≠ []) &&
    l.exponent.all (fun e => e.digits ≠ []) &&
    (l.fraction.isSome || l.exponent.isSome || l.suffix.isSome)

def ofChars? (cs : List Char) : Option FloatLiteral :=
  let (l, rest) := split cs
  if rest = [] ∧ l.isComplete then some l else none

def value (l : FloatLiteral) : Decimal where
  digits := digitsValue (l.whole ++ l.fractionDigits)
  exponent := (l.exponent.map Exponent.value).getD 0 - l.fractionDigits.length

end FloatLiteral

theorem splitChar_append (p : Char → Bool) (cs : List Char) :
    (splitChar p cs).1.toList ++ (splitChar p cs).2 = cs := by
  cases cs with
  | nil => rfl
  | cons c cs => by_cases h : p c <;> simp [splitChar, h]

theorem splitFraction_append (cs : List Char) :
    ((splitFraction cs).1.map ('.' :: ·)).getD [] ++ (splitFraction cs).2 = cs := by
  cases cs with
  | nil => rfl
  | cons c cs => by_cases h : c = '.' <;> simp [splitFraction, splitChar, h]

theorem splitExponent_append (cs : List Char) :
    ((splitExponent cs).1.map Exponent.chars).getD [] ++ (splitExponent cs).2 = cs := by
  cases cs with
  | nil => rfl
  | cons c cs =>
    by_cases h : isExponentMark c
    · have hs := splitChar_append isSign cs
      simpa [splitExponent, splitChar, h, Exponent.chars] using hs
    · simp [splitExponent, splitChar, h]

theorem FloatLiteral.split_append (cs : List Char) :
    (split cs).1.chars ++ (split cs).2 = cs := by
  simp only [split, chars, List.append_assoc]
  rw [splitChar_append, splitExponent_append, splitFraction_append]
  exact List.takeWhile_append_dropWhile

theorem FloatLiteral.chars_of_ofChars? {cs : List Char} {l : FloatLiteral}
    (h : ofChars? cs = some l) : l.chars = cs := by
  simp only [ofChars?] at h
  split at h
  next hc =>
    cases h
    simpa [hc.1] using split_append cs
  next => cases h

end LCode.Lexeme
