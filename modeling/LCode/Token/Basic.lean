import LCode.Number.Text
import LCode.Position
import LCode.Token.Keyword
import LCode.Token.Operator

namespace LCode

open Number

inductive TokenKind
  | integer (value : Int)
  | float (value : Binary64)
  | boolean (value : Bool)
  | identifier (name : String)
  | keyword (word : Keyword)
  | operator (symbol : Operator)
  | comment (text : String)
deriving DecidableEq, Repr

structure Token where
  kind : TokenKind
  span : Span
deriving DecidableEq, Repr

namespace TokenKind

/-- Equality of kinds, with the number format's own comparison on floats. -/
def equals : TokenKind → TokenKind → Bool
  | .float x, .float y => x.equals y
  | a, b => a = b

def label : TokenKind → String
  | .integer _ => "INT"
  | .float _ => "FLOAT"
  | .boolean _ => "BOOL"
  | .identifier _ => "IDENTIFIER"
  | .keyword k => "KW_" ++ k.name
  | .operator k => "OP_" ++ k.name
  | .comment _ => "COMMENT"

def payload : TokenKind → String
  | .integer v => "value:" ++ toString v ++ ", "
  | .float x => "value:" ++ x.render ++ ", "
  | .boolean b => "value:" ++ (if b then "true" else "false") ++ ", "
  | .identifier n => "name:" ++ n ++ ", "
  | .keyword _ => ""
  | .operator _ => ""
  | .comment t => "text:" ++ t ++ ", "

end TokenKind

def Span.render (s : Span) : String :=
  "line:" ++ toString s.line ++ ", begin:" ++ toString s.start ++ ", end:" ++ toString s.stop

namespace Token

def equals (a b : Token) : Bool := a.kind.equals b.kind && decide (a.span = b.span)

def isKeyword (t : Token) (k : Keyword) : Bool := t.kind = .keyword k

def isOperator (t : Token) (k : Operator) : Bool := t.kind = .operator k

def isComment (t : Token) : Bool :=
  match t.kind with
  | .comment _ => true
  | _ => false

def render (t : Token) : String :=
  t.kind.label ++ "(" ++ t.kind.payload ++ t.span.render ++ ")"

def shiftLines (n : Nat) (t : Token) : Token := { t with span := t.span.shiftLines n }

end Token

end LCode
