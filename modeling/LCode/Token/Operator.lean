namespace LCode

inductive Operator
  | plus
  | minus
  | multiply
  | divide
  | mod
  | set
  | equal
  | notEqual
  | greater
  | greaterOrEqual
  | lower
  | lowerOrEqual
  | and
  | or
  | leftBracket
  | rightBracket
  | semicolon
deriving DecidableEq, Repr

namespace Operator

def all : List Operator :=
  [plus, minus, multiply, divide, mod, set, equal, notEqual, greater, greaterOrEqual, lower,
    lowerOrEqual, and, or, leftBracket, rightBracket, semicolon]

def spelling : Operator → String
  | plus => "+"
  | minus => "-"
  | multiply => "*"
  | divide => "/"
  | mod => "%"
  | set => ":="
  | equal => "=="
  | notEqual => "!="
  | greater => ">"
  | greaterOrEqual => ">="
  | lower => "<"
  | lowerOrEqual => "<="
  | and => "&&"
  | or => "||"
  | leftBracket => "("
  | rightBracket => ")"
  | semicolon => ";"

def name : Operator → String
  | plus => "PLUS"
  | minus => "MINUS"
  | multiply => "MULTIPLY"
  | divide => "DIVIDE"
  | mod => "MOD"
  | set => "SET"
  | equal => "EQUAL"
  | notEqual => "NOT_EQUAL"
  | greater => "GREATER"
  | greaterOrEqual => "GREATER_OR_EQUAL"
  | lower => "LOWER"
  | lowerOrEqual => "LOWER_OR_EQUAL"
  | and => "AND"
  | or => "OR"
  | leftBracket => "LEFT_BRACKET"
  | rightBracket => "RIGHT_BRACKET"
  | semicolon => "SEMICOLON"

def ofSpelling? (text : String) : Option Operator :=
  all.find? fun k => k.spelling = text

def longestFirst : List Operator :=
  [set, equal, notEqual, greaterOrEqual, lowerOrEqual, and, or, greater, lower, plus, minus,
    multiply, divide, mod, leftBracket, rightBracket, semicolon]

theorem mem_all (k : Operator) : k ∈ all := by
  cases k <;> decide

theorem longestFirst_perm : longestFirst.Perm all := by
  decide

theorem spelling_injective {k l : Operator} (h : k.spelling = l.spelling) : k = l := by
  revert h
  cases k <;> cases l <;> decide

theorem ofSpelling?_eq_some_iff {text : String} {k : Operator} :
    ofSpelling? text = some k ↔ k.spelling = text := by
  constructor
  · intro h
    simpa using List.find?_some h
  · rintro rfl
    cases hf : ofSpelling? k.spelling with
    | none => simpa using List.find?_eq_none.mp hf k (mem_all k)
    | some l =>
      have hl := List.find?_some hf
      simp only [decide_eq_true_eq] at hl
      rw [spelling_injective hl]

end Operator

end LCode
