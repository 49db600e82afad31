import LCode.Proofs.LiteralGrammar
import LCode.Proofs.NumeralRun
import LCode.Proofs.ScanRun

namespace LCode

open Lexeme Pattern Text

/-- No lexeme begins with `c` where the character after it is `next`. -/
structure Unrecognised (c : Char) (next : Option Char) : Prop where
  blank : c ∉ [' ', '\t', '\x0c']
  word : c.isAlphanum = false ∧ c ≠ '_'
  operator : c ∉ ['>', '<', '+', '-', '*', '/', '%', '(', ')', ';']
  equals : c ∈ [':', '=', '!'] → next ≠ some '='
  ampersand : c = '&' → next ≠ some '&'
  bar : c = '|' → next ≠ some '|'
  point : c = '.' → ∀ d ∈ next, d.isDigit = false

def Cause.StandsBefore (cs : List Char) : Cause → Prop
  | .malformedNumber token => StartsNumber token.toList ∧ LongestRun cs token.toList ∧
      token.toList ∉ digits.language ∧ token.toList ∉ floatGrammar.language
  | .unrecognisedToken token => ∃ c rest, cs = c :: rest ∧ token.toList = [c] ∧
      Unrecognised c rest.head?

def LexicalError.StandsIn (source : String) (e : LexicalError) : Prop :=
  ∃ text, lineAt? source e.position.line = some text ∧ e.position.column < text.length ∧
    e.cause.token.toList <+: text.toList.drop e.position.column ∧
    e.cause.StandsBefore (text.toList.drop e.position.column)

namespace Lexeme

lemma unrecognised_of_first? {c : Char} {rest : List Char} (h : first? (c :: rest) = none) :
    Unrecognised c rest.head? := by
  have hnone := first?_eq_none_iff.mp h
  have hchar (k : LexemeClass) : [c] ∉ k.pattern.language := fun hk =>
    hnone k [c] hk (List.cons_prefix_cons.mpr ⟨rfl, List.nil_prefix⟩)
  have hword : ¬isWordStart c = true := fun hc =>
    hchar .word (LexemeClass.mem_word hc (by simp))
  have hdigit : ¬c.isDigit = true := fun hc =>
    hchar .numeral (LexemeClass.mem_numeral_of_isDigit hc (Language.nil_mem_kstar _))
  have hoperator (k : Operator) : ¬k.spelling.toList <+: c :: rest := by
    apply hnone (.operator k)
    rw [LexemeClass.pattern, Operator.pattern_eq, mem_language_text]
  have hpair {d : Char} {k : Operator} (hk : k.spelling.toList = [c, d]) :
      rest.head? ≠ some d := by
    intro hd
    obtain ⟨later, rfl⟩ := List.head?_eq_some_iff.mp hd
    exact hoperator k ⟨later, by rw [hk]; rfl⟩
  simp only [isWordStart, Bool.or_eq_true, decide_eq_true_eq, not_or, Bool.not_eq_true] at hword
  refine ⟨?_, ⟨?_, hword.2⟩, ?_, ?_, ?_, ?_, ?_⟩
  · intro hc
    have hc : isBlank c = true := by simpa [isBlank, or_assoc] using hc
    exact hchar .blank (cons_mem_char_star hc (by simp))
  · simpa [Char.isAlphanum, hword.1] using hdigit
  · intro hc
    obtain ⟨k, hk⟩ : ∃ k : Operator, k.spelling.toList = [c] := by
      simp only [List.mem_cons, List.not_mem_nil, or_false] at hc
      rcases hc with rfl | rfl | rfl | rfl | rfl | rfl | rfl | rfl | rfl | rfl
      exacts [⟨.greater, rfl⟩, ⟨.lower, rfl⟩, ⟨.plus, rfl⟩, ⟨.minus, rfl⟩, ⟨.multiply, rfl⟩,
        ⟨.divide, rfl⟩, ⟨.mod, rfl⟩, ⟨.leftBracket, rfl⟩, ⟨.rightBracket, rfl⟩, ⟨.semicolon, rfl⟩]
    exact hoperator k (hk ▸ List.cons_prefix_cons.mpr ⟨rfl, List.nil_prefix⟩)
  · intro hc
    simp only [List.mem_cons, List.not_mem_nil, or_false] at hc
    rcases hc with rfl | rfl | rfl
    exacts [hpair (k := .set) rfl, hpair (k := .equal) rfl, hpair (k := .notEqual) rfl]
  · rintro rfl
    exact hpair (k := .and) rfl
  · rintro rfl
    exact hpair (k := .or) rfl
  · rintro rfl d hd
    obtain ⟨later, rfl⟩ := List.head?_eq_some_iff.mp hd
    by_contra hdigit
    rw [Bool.not_eq_false] at hdigit
    refine hnone .numeral ['.', d] ?_ ⟨later, rfl⟩
    exact LexemeClass.mem_numeral_of_point hdigit (Language.nil_mem_kstar _)

lemma meaning_error_cases {x : Lexeme} {cause : Cause} (h : x.meaning = .error cause) :
    x.cls = .numeral ∧ numeralKind? x.text = none ∧
      cause = .malformedNumber (String.ofList x.text) := by
  obtain ⟨cls, text⟩ := x
  cases cls with
  | numeral =>
    simp only [meaning] at h
    split at h
    next => cases h
    next hk =>
      cases h
      exact ⟨rfl, hk, rfl⟩
  | _ => cases h

lemma standsBefore_of_meaning {cs : List Char} {x : Lexeme} {cause : Cause} (hx : Munch cs x)
    (h : x.meaning = .error cause) : cause.token.toList <+: cs ∧ cause.StandsBefore cs := by
  obtain ⟨hc, hk, rfl⟩ := meaning_error_cases h
  obtain ⟨hd, hf⟩ := numeralKind?_eq_none_iff.mp hk
  simp only [Cause.StandsBefore, Cause.token, String.toList_ofList]
  exact ⟨hx.head, startsNumber_of_mem (hc ▸ hx.mem), (hx.longestRun hc).2, hd, hf⟩

end Lexeme

lemma Scan.standsBefore_of_step {s : Scan} {e : LexicalError} (hr : s.rest ≠ [])
    (h : s.step = .error e) : e.position = s.cursor.position ∧
      e.cause.token.toList <+: s.rest ∧ e.cause.StandsBefore s.rest := by
  rcases step_error_cases h with ⟨hnone, rfl⟩ | ⟨x, cause, hx, hm, rfl⟩
  · obtain ⟨c, rest, hs⟩ := List.exists_cons_of_ne_nil hr
    rw [hs] at hnone ⊢
    refine ⟨rfl, ?_, c, rest, rfl, ?_, unrecognised_of_first? hnone⟩
    · simp [errorAt, Cause.token]
    · simp
  · exact ⟨rfl, standsBefore_of_meaning hx hm⟩

theorem tokenize_error_standsIn {source : String} {e : LexicalError}
    (h : tokenize source = .error e) : e.StandsIn source := by
  obtain ⟨tokens, s, hs, hr, hstep⟩ := Scan.exists_reaches_of_error h
  obtain ⟨text, passed, htext, hpassed, hcolumn⟩ := ComesTo.exists_line hs
  obtain ⟨hposition, hstands⟩ := Scan.standsBefore_of_step hr hstep
  have hdrop : text.toList.drop e.position.column = s.rest := by
    rw [hposition, Cursor.position, hcolumn, hpassed, List.drop_left]
  refine ⟨text, ?_, ?_, hdrop ▸ hstands⟩
  · rw [hposition]
    exact htext
  · have hpos := List.length_pos_iff.mpr hr
    rw [hposition, ← String.length_toList, hpassed, List.length_append]
    exact hcolumn.trans_lt (Nat.lt_add_of_pos_right hpos)

theorem standsIn_of_point_and_numeral :
    (∃ e, tokenize "// é\r\n\tx.y" = .error e ∧ e.position = ⟨1, 2⟩ ∧
      e.StandsIn "// é\r\n\tx.y") ∧
    ∃ e, tokenize "x:=0xe+1-;" = .error e ∧ e.cause.token = "0xe+1" ∧
      e.StandsIn "x:=0xe+1-;" := by
  have hpoint : tokenize "// é\r\n\tx.y" = .error ⟨.unrecognisedToken ".", ⟨1, 2⟩⟩ := by
    decide +kernel
  have hnumeral : tokenize "x:=0xe+1-;" = .error ⟨.malformedNumber "0xe+1", ⟨0, 3⟩⟩ := by
    decide +kernel
  exact ⟨⟨_, hpoint, rfl, tokenize_error_standsIn hpoint⟩,
    ⟨_, hnumeral, rfl, tokenize_error_standsIn hnumeral⟩⟩

end LCode
