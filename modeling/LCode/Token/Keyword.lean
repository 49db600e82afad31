/-! Reserved words, which are read in any mixture of upper and lower case. -/

namespace LCode

inductive Keyword
  | begin_
  | do_
  | else_
  | end_
  | if_
  | read
  | then_
  | while_
  | write
deriving DecidableEq, Repr

namespace Keyword

def all : List Keyword := [begin_, do_, else_, end_, if_, read, then_, while_, write]

def spelling : Keyword → String
  | begin_ => "begin"
  | do_ => "do"
  | else_ => "else"
  | end_ => "end"
  | if_ => "if"
  | read => "read"
  | then_ => "then"
  | while_ => "while"
  | write => "write"

def name : Keyword → String
  | begin_ => "BEGIN"
  | do_ => "DO"
  | else_ => "ELSE"
  | end_ => "END"
  | if_ => "IF"
  | read => "READ"
  | then_ => "THEN"
  | while_ => "WHILE"
  | write => "WRITE"

def ofChars? (word : List Char) : Option Keyword :=
  all.find? fun k => k.spelling.toList = word.map Char.toLower

def ofSpelling? (word : String) : Option Keyword := ofChars? word.toList

theorem mem_all (k : Keyword) : k ∈ all := by
  cases k <;> decide

theorem spelling_injective {k l : Keyword} (h : k.spelling = l.spelling) : k = l := by
  revert h
  cases k <;> cases l <;> decide

theorem ofChars?_eq_some_iff {word : List Char} {k : Keyword} :
    ofChars? word = some k ↔ word.map Char.toLower = k.spelling.toList := by
  constructor
  · intro h
    have hk := List.find?_some h
    simp only [decide_eq_true_eq] at hk
    exact hk.symm
  · intro h
    cases hf : ofChars? word with
    | none => simpa [h] using List.find?_eq_none.mp hf k (mem_all k)
    | some l =>
      have hl := List.find?_some hf
      simp only [decide_eq_true_eq, h] at hl
      rw [spelling_injective (String.toList_inj.mp hl)]

end Keyword

end LCode
