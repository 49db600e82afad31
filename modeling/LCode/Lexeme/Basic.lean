import LCode.Lexeme.Characters
import LCode.Token.Operator

/-! The 21 classes of lexemes. The first class that has a lexeme at the head of a text gives it. -/

namespace LCode

inductive LexemeClass
  | blank
  | comment
  | word
  | numeral
  | operator (symbol : Operator)
deriving DecidableEq, Repr

structure Lexeme where
  cls : LexemeClass
  text : List Char
deriving DecidableEq, Repr

namespace Lexeme

def startsNumeral : List Char → Bool
  | c :: d :: _ => c.isDigit || (c = '.' && d.isDigit)
  | [c] => c.isDigit
  | [] => false

/-- The longest head of a text that can follow `previous` in a numeral. A sign stands only straight
after an exponent mark. -/
def numeralRun (previous : Char) : List Char → List Char
  | [] => []
  | c :: cs =>
    if isNumeralPart c || (isSign c && isExponentMark previous) then c :: numeralRun c cs else []

theorem numeralRun_prefix (previous : Char) (cs : List Char) : numeralRun previous cs <+: cs := by
  induction cs generalizing previous with
  | nil => exact List.prefix_rfl
  | cons c cs ih =>
    simp only [numeralRun]
    split
    · exact List.cons_prefix_cons.mpr ⟨rfl, ih c⟩
    · exact List.nil_prefix

end Lexeme

namespace LexemeClass

open Lexeme

def all : List LexemeClass :=
  [blank, comment, word, numeral] ++ Operator.longestFirst.map operator

/-- The lexeme of a class at the head of a text. It is empty if there is none. -/
def take : LexemeClass → List Char → List Char
  | blank, cs => cs.takeWhile isBlank
  | comment, cs => if ['/', '/'].isPrefixOf cs then cs.takeWhile (· ≠ '\n') else []
  | word, cs => if cs.head?.any isWordStart then cs.takeWhile isWordPart else []
  | numeral, cs => if startsNumeral cs then numeralRun ' ' cs else []
  | operator k, cs => if k.spelling.toList.isPrefixOf cs then k.spelling.toList else []

theorem take_prefix (k : LexemeClass) (cs : List Char) : k.take cs <+: cs := by
  cases k with
  | blank => exact List.takeWhile_prefix _
  | comment =>
    simp only [take]
    split
    · exact List.takeWhile_prefix _
    · exact List.nil_prefix
  | word =>
    simp only [take]
    split
    · exact List.takeWhile_prefix _
    · exact List.nil_prefix
  | numeral =>
    simp only [take]
    split
    · exact numeralRun_prefix ' ' cs
    · exact List.nil_prefix
  | operator k =>
    simp only [take]
    split
    next h => exact List.isPrefixOf_iff_prefix.mp h
    next => exact List.nil_prefix

end LexemeClass

namespace Lexeme

def first? (cs : List Char) : Option Lexeme :=
  (LexemeClass.all.find? fun k => k.take cs ≠ []).map fun k => ⟨k, k.take cs⟩

theorem first?_eq_some {cs : List Char} {x : Lexeme} (h : first? cs = some x) :
    x.text = x.cls.take cs ∧ x.text ≠ [] := by
  obtain ⟨k, hk, rfl⟩ := Option.map_eq_some_iff.mp h
  exact ⟨rfl, by simpa using List.find?_some hk⟩

theorem first?_append {cs : List Char} {x : Lexeme} (h : first? cs = some x) :
    x.text ++ cs.drop x.text.length = cs := by
  obtain ⟨rest, hr⟩ := (first?_eq_some h).1 ▸ x.cls.take_prefix cs
  rw [← hr, List.drop_left]

theorem length_drop_first? {cs : List Char} {x : Lexeme} (h : first? cs = some x) :
    (cs.drop x.text.length).length < cs.length := by
  have hx := List.length_pos_iff.mpr (first?_eq_some h).2
  have hcs := congrArg List.length (first?_append h)
  simp only [List.length_append] at hcs
  omega

end Lexeme

end LCode
