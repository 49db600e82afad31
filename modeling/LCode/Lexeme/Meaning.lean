import LCode.Lexeme.Basic
import LCode.Lexeme.FloatLiteral
import LCode.LexicalError
import LCode.Token.Basic

namespace LCode.Lexeme

def wordKind (word : List Char) : TokenKind :=
  match Keyword.ofChars? word with
  | some k => .keyword k
  | none =>
    if word = ['t', 'r', 'u', 'e'] then .boolean true
    else if word = ['f', 'a', 'l', 's', 'e'] then .boolean false
    else .identifier (String.ofList word)

def numeralKind? (numeral : List Char) : Option TokenKind :=
  if numeral ≠ [] ∧ numeral.all Char.isDigit then some (.integer (digitsValue numeral))
  else (FloatLiteral.ofChars? numeral).map fun l => .float l.value.toBinary64

def meaning (x : Lexeme) : Except Cause (Option TokenKind) :=
  match x.cls with
  | .blank => .ok none
  | .comment => .ok (some (.comment (String.ofList x.text)))
  | .word => .ok (some (wordKind x.text))
  | .numeral =>
    match numeralKind? x.text with
    | some k => .ok (some k)
    | none => .error (.malformedNumber (String.ofList x.text))
  | .operator k => .ok (some (.operator k))

end LCode.Lexeme
