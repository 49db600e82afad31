import LCode.LexicalError
import LCode.Text.Lines
import LCode.Text.Whitespace

/-! Five lines that show an error. They are cut short where a line number does not fit into 64 bits,
and where the caret is beyond the width of a field. -/

namespace LCode

open Text

/-- The lines that are printed, and whether all of them are. -/
structure Diagnostic where
  lines : List String
  isComplete : Bool
deriving DecidableEq, Repr

namespace Diagnostic

def lineLimit : Nat := 0x10000000000000000

def caretLimit : Nat := 65535

def isIndent (c : Char) : Bool := c = ' ' || c = '\t'

def indent (text : List Char) : Nat := (text.takeWhile isIndent).length

def shown (text : List Char) : List Char := trimEnd (text.dropWhile isIndent)

def fill (n : Nat) (c : Char) : String := String.ofList (List.replicate n c)

def heading (cause : Cause) : String :=
  match cause.tip? with
  | none => "Error: " ++ cause.name
  | some tip => "Error: " ++ cause.name ++ " (" ++ tip ++ ")"

def bar (number : String) : String := fill (number.length + 1) ' ' ++ "|"

def dashes (column : Nat) (text : List Char) : Nat := column - indent text

def caretLine (number : String) (column : Nat) (text : List Char) : String :=
  bar number ++ " " ++ fill (dashes column text) '-' ++ "^"

def opening (cause : Cause) (fileName number : String) (text : List Char) : List String :=
  [heading cause, "-> " ++ fileName, bar number, number ++ " | " ++ String.ofList (shown text)]

/-- The diagnostic of an error in a text. A line that the text does not have shows as empty. -/
def ofError (e : LexicalError) (fileName source : String) : Diagnostic :=
  let text := ((lineAt? source e.position.line).getD "").toList
  let number := toString (e.position.line + 1)
  let first := opening e.cause fileName number text
  if lineLimit ≤ e.position.line + 1 then ⟨[], false⟩
  else if caretLimit < dashes e.position.column text + 1 then ⟨first, false⟩
  else ⟨first ++ [caretLine number e.position.column text], true⟩

def print (d : Diagnostic) : String := printLines d.lines

theorem isComplete_ofError_iff (e : LexicalError) (fileName source : String) :
    (ofError e fileName source).isComplete = true ↔
      e.position.line + 1 < lineLimit ∧ dashes e.position.column
        ((lineAt? source e.position.line).getD "").toList < caretLimit := by
  simp only [ofError]
  split
  next h =>
    simp only [Bool.false_eq_true, false_iff]
    omega
  next h =>
    split
    next hd =>
      simp only [Bool.false_eq_true, false_iff]
      omega
    next hd =>
      simp only [true_iff]
      omega

end Diagnostic

end LCode
