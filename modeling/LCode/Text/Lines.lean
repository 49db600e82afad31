/-! A line feed ends a line, and one carriage return before it, or at the end of the text, is
dropped. -/

namespace LCode.Text

def dropReturn (line : List Char) : List Char :=
  if line.getLast? = some '\r' then line.dropLast else line

def lines (source : List Char) : List (List Char) :=
  (source.splitOn '\n').map dropReturn

def printLines (lines : List String) : String := String.join (lines.map (· ++ "\n"))

def lineAt? (source : String) (index : Nat) : Option String :=
  (lines source.toList)[index]?.map String.ofList

theorem dropReturn_append_return (line : List Char) : dropReturn (line ++ ['\r']) = line := by
  simp [dropReturn]

theorem dropReturn_eq_self {line : List Char} (h : line.getLast? ≠ some '\r') :
    dropReturn line = line := by
  simp [dropReturn, h]

theorem lines_append_newline (a b : List Char) :
    lines (a ++ '\n' :: b) = lines a ++ lines b := by
  simp [lines, List.splitOn, List.splitOnP_append_cons]

end LCode.Text
