import LCode.Proofs.LiteralGrammar
import LCode.Proofs.NumeralRun
import LCode.Proofs.ScanRun

namespace LCode

open Lexeme Number Pattern Text

/-- A scan that stands before the run `x` of a number takes it as one lexeme. -/
structure NumberStep (s : Scan) (x : List Char) : Prop where
  longest : LongestRun s.rest x
  taken : first? s.rest = some ⟨.numeral, x⟩
  integer : ∀ v, s.step = .ok (some ⟨.integer v, s.cursor.spanOf x⟩, s.skip ⟨.numeral, x⟩) ↔
    (∀ c ∈ x, c.isDigit = true) ∧ v = Nat.ofDigitChars 10 x 0
  float : ∀ f, s.step = .ok (some ⟨.float f, s.cursor.spanOf x⟩, s.skip ⟨.numeral, x⟩) ↔
    x ∈ floatGrammar.language ∧ ParsesTo x f
  malformed : s.step = .error ⟨.malformedNumber (String.ofList x), s.cursor.position⟩ ↔
    ¬(∀ c ∈ x, c.isDigit = true) ∧ x ∉ floatGrammar.language

/-- What is left of a literal when its suffix is trimmed can be read. -/
structure Readable (x : List Char) : Prop where
  integer : (∀ c ∈ x, c.isDigit = true) →
    Decimal.readDigits? x = some (Nat.ofDigitChars 10 x 0)
  float : x ∈ floatGrammar.language → ∃ suffix : Option Char,
    x = x.rdropWhile isFloatSuffix ++ suffix.toList ∧ (∀ c ∈ suffix, c ∈ ['f', 'F', 'd', 'D']) ∧
      x.rdropWhile isFloatSuffix ∈ decimalGrammar.language ∧
      ∃ d, Decimal.read? (x.rdropWhile isFloatSuffix) = some d

/-- The scan of a text comes to the run `x` of a number after the tokens `before`. -/
structure NumberIn (source : String) (before : List Token) (s : Scan) (x : List Char) : Prop where
  place : ∃ text passed, lineAt? source s.cursor.line = some text ∧
    text.toList = passed ++ s.rest ∧ s.cursor.column = passed.length
  kept : ∀ kind, s.step = .ok (some ⟨kind, s.cursor.spanOf x⟩, s.skip ⟨.numeral, x⟩) →
    ∀ tokens, tokenize source = .ok tokens → before ++ [⟨kind, s.cursor.spanOf x⟩] <+: tokens
  refused : ¬(∀ c ∈ x, c.isDigit = true) → x ∉ floatGrammar.language →
    tokenize source = .error ⟨.malformedNumber (String.ofList x), s.cursor.position⟩

variable {s : Scan} {x : List Char}

lemma Scan.step_of_numeral (h : first? s.rest = some ⟨.numeral, x⟩) :
    s.step = match numeralKind? x with
      | some kind => .ok (some ⟨kind, s.cursor.spanOf x⟩, s.skip ⟨.numeral, x⟩)
      | none => .error (s.errorAt (.malformedNumber (String.ofList x))) := by
  cases hk : numeralKind? x with
  | some kind =>
    have hm : meaning ⟨.numeral, x⟩ = .ok (some kind) := by simp only [meaning, hk]
    exact step_of_meaning h hm
  | none =>
    have hm : meaning ⟨.numeral, x⟩ = .error (.malformedNumber (String.ofList x)) := by
      simp only [meaning, hk]
    exact step_of_meaningless h hm

lemma Scan.step_of_numeral_ok_iff (h : first? s.rest = some ⟨.numeral, x⟩) {kind : TokenKind} :
    s.step = .ok (some ⟨kind, s.cursor.spanOf x⟩, s.skip ⟨.numeral, x⟩) ↔
      numeralKind? x = some kind := by
  rw [step_of_numeral h]
  cases numeralKind? x <;> simp

lemma Scan.step_of_numeral_error_iff (h : first? s.rest = some ⟨.numeral, x⟩) :
    s.step = .error ⟨.malformedNumber (String.ofList x), s.cursor.position⟩ ↔
      numeralKind? x = none := by
  rw [step_of_numeral h]
  cases numeralKind? x <;> simp [errorAt]

lemma numberStep_of_first? (hl : LongestRun s.rest x) (hx : first? s.rest = some ⟨.numeral, x⟩) :
    NumberStep s x := by
  have hne : x ≠ [] := (first?_eq_some hx).2
  have hd : x ∈ digits.language ↔ ∀ c ∈ x, c.isDigit = true := by
    rw [mem_digits_iff, and_iff_right hne]
  refine ⟨hl, hx, fun v => ?_, fun f => ?_, ?_⟩
  · rw [Scan.step_of_numeral_ok_iff hx, numeralKind?_eq_integer_iff, hd]
  · rw [Scan.step_of_numeral_ok_iff hx, numeralKind?_eq_float_iff]
  · rw [Scan.step_of_numeral_error_iff hx, numeralKind?_eq_none_iff, hd]

lemma readable_of_ne_nil (hne : x ≠ []) : Readable x where
  integer hd := FloatLiteral.readDigits?_of_isDigit hne hd
  float hx := by
    obtain ⟨l, rfl, hw, hc⟩ := FloatLiteral.exists_chars_of_mem hx
    rw [FloatLiteral.rdropWhile_chars hw hc]
    refine ⟨l.suffix, l.chars_eq_body_append, fun c hs => ?_,
      FloatLiteral.body_mem_decimalGrammar hw hc, l.value, FloatLiteral.read?_body hw hc⟩
    simpa [isFloatSuffix, or_assoc] using hw.suffix c hs

lemma NumberStep.numberIn (h : NumberStep s x) {source : String} {before : List Token}
    (hs : ComesTo source before s) : NumberIn source before s x where
  place := hs.exists_line
  kept kind hk tokens ht := by
    have hnext : ComesTo source (before ++ [⟨kind, s.cursor.spanOf x⟩]) (s.skip ⟨.numeral, x⟩) :=
      Scan.Reaches.snoc hs hk
    exact hnext.isPrefix ht
  refused hd hf := by
    have hne : s.rest ≠ [] := by
      intro hr
      have hx := h.taken
      rw [hr] at hx
      cases hx
    exact hs.error hne (h.malformed.mpr ⟨hd, hf⟩)

theorem step_of_startsNumber (h : StartsNumber s.rest) : ∃ x, NumberStep s x ∧ Readable x ∧
    ∀ source before, ComesTo source before s → NumberIn source before s x := by
  have hl : LongestRun s.rest (numeralRun ' ' s.rest) := longestRun_iff.mpr rfl
  have hx := munch_numeral h hl
  have hstep := numberStep_of_first? hl (first?_eq_some_iff.mpr hx)
  exact ⟨_, hstep, readable_of_ne_nil hx.nonempty, fun _ _ hs => hstep.numberIn hs⟩

lemma comesTo_start {source : String} {text : List Char} (h : lines source.toList = [text]) :
    ComesTo source [] (.ofLine 0 text) := by
  rw [ComesTo, h]
  exact .here .here

theorem step_of_three_numbers :
    (∃ s : Scan, s.rest = ['0', '4', '2', ';'] ∧ ∃ x, NumberStep s x ∧ Readable x ∧
      NumberIn "042;" [] s x ∧ x = ['0', '4', '2'] ∧
      s.step = .ok (some ⟨.integer 42, ⟨0, 0, 3⟩⟩, s.skip ⟨.numeral, x⟩)) ∧
    (∃ s : Scan, s.rest = ['2', '.', 'e', '5', 'd', '*'] ∧ ∃ x, NumberStep s x ∧ Readable x ∧
      NumberIn "2.e5d*" [] s x ∧ x = ['2', '.', 'e', '5', 'd'] ∧
      s.step = .ok (some ⟨.float ⟨0x41086a0000000000⟩, ⟨0, 0, 5⟩⟩, s.skip ⟨.numeral, x⟩)) ∧
    ∃ s : Scan, s.rest = ['.', '1', 'e', '+', '-'] ∧ ∃ x, NumberStep s x ∧ Readable x ∧
      NumberIn ".1e+-" [] s x ∧ x = ['.', '1', 'e', '+'] ∧
      s.step = .error ⟨.malformedNumber ".1e+", ⟨0, 0⟩⟩ := by
  obtain ⟨x, hx, hxr, hxn⟩ := step_of_startsNumber (s := .ofLine 0 ['0', '4', '2', ';'])
    ⟨'0', _, rfl, Or.inl rfl⟩
  obtain ⟨y, hy, hyr, hyn⟩ := step_of_startsNumber (s := .ofLine 0 ['2', '.', 'e', '5', 'd', '*'])
    ⟨'2', _, rfl, Or.inl rfl⟩
  obtain ⟨z, hz, hzr, hzn⟩ := step_of_startsNumber (s := .ofLine 0 ['.', '1', 'e', '+', '-'])
    ⟨'1', _, rfl, Or.inr rfl⟩
  obtain rfl := longestRun_iff.mp hx.longest
  obtain rfl := longestRun_iff.mp hy.longest
  obtain rfl := longestRun_iff.mp hz.longest
  exact ⟨⟨_, rfl, _, hx, hxr, hxn _ _ (comesTo_start (by decide +kernel)), rfl, by decide +kernel⟩,
    ⟨_, rfl, _, hy, hyr, hyn _ _ (comesTo_start (by decide +kernel)), rfl, by decide +kernel⟩,
    _, rfl, _, hz, hzr, hzn _ _ (comesTo_start (by decide +kernel)), rfl, by decide +kernel⟩

end LCode
