import LCode.Cursor.Basic
import LCode.Token.Basic

namespace LCode

namespace Cursor

inductive Move
  | startLine (line : Nat) (text : List Char)
  | advance (lexeme : List Char)
  | measure (lexeme : List Char)
  | record (token : Token)
deriving DecidableEq, Repr

def move (c : Cursor) : Move → Cursor
  | .startLine line text => startLine line text
  | .advance lexeme => c.advance lexeme
  | .measure _ => c
  | .record _ => c

def measured? (c : Cursor) : Move → Option Span
  | .measure lexeme => some (c.spanOf lexeme)
  | _ => none

def moves (c : Cursor) (ms : List Move) : Cursor := ms.foldl move c

theorem moves_append (c : Cursor) (ms ns : List Move) :
    c.moves (ms ++ ns) = (c.moves ms).moves ns :=
  List.foldl_append

end Cursor

end LCode
