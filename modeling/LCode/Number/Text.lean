import LCode.Number.Shortest

namespace LCode.Number

structure PlainRange where
  least : Int
  greatest : Int

/-- Numbers from `10^-4` up to but without `10^16` are written plainly. -/
def plainRange : PlainRange := ⟨-3, 16⟩

def zeros (n : Nat) : List Char := List.replicate n '0'

def plainText (digits : List Char) (point : Int) : List Char :=
  if point ≤ 0 then '0' :: '.' :: (zeros (-point).toNat ++ digits)
  else if digits.length ≤ point.toNat then
    digits ++ zeros (point.toNat - digits.length) ++ ['.', '0']
  else digits.take point.toNat ++ '.' :: digits.drop point.toNat

def exponentText (exponent : Int) : List Char :=
  if exponent < 0 then '-' :: Nat.toDigits 10 (-exponent).toNat else Nat.toDigits 10 exponent.toNat

def scientificText (digits : List Char) (point : Int) : List Char :=
  let fraction := if digits.length ≤ 1 then [] else '.' :: digits.drop 1
  digits.take 1 ++ fraction ++ 'e' :: exponentText (point - 1)

def Decimal.text (d : Decimal) : List Char :=
  let digits := Nat.toDigits 10 d.digits
  let point := d.exponent + digits.length
  if plainRange.least ≤ point ∧ point ≤ plainRange.greatest then plainText digits point
  else scientificText digits point

def magnitudeText (pattern : Nat) : List Char :=
  if pattern = 0 then ['0', '.', '0']
  else if pattern = infinityPattern then ['i', 'n', 'f']
  else (shortest pattern).text

namespace Binary64

def text (x : Binary64) : List Char :=
  if x.isUndefined then ['N', 'a', 'N']
  else if x.isNegative then '-' :: magnitudeText x.magnitude
  else magnitudeText x.magnitude

def render (x : Binary64) : String := String.ofList x.text

end Binary64

end LCode.Number
