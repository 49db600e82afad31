import LCode.Proofs.LoneLexeme
import LCode.Proofs.NearestNumber

namespace LCode

open Lexeme Number Text

namespace Lexeme

lemma digitsValue_append (xs ys : List Char) :
    digitsValue (xs ++ ys) = digitsValue xs * 10 ^ ys.length + digitsValue ys := by
  induction ys using List.reverseRecOn with
  | nil => simp [digitsValue]
  | append_singleton ys c ih =>
    rw [← List.append_assoc, digitsValue_concat, digitsValue_concat, ih, List.length_append,
      List.length_singleton, pow_succ]
    ring

def Exponent.scale (e : Exponent) : ℚ :=
  if e.sign = some '-' then (10 ^ Nat.ofDigitChars 10 e.digits 0)⁻¹
  else 10 ^ Nat.ofDigitChars 10 e.digits 0

def FloatLiteral.number (l : FloatLiteral) : ℚ :=
  let fraction := l.fraction.getD []
  (Nat.ofDigitChars 10 l.whole 0 + Nat.ofDigitChars 10 fraction 0 / 10 ^ fraction.length) *
    (l.exponent.map Exponent.scale).getD 1

lemma Exponent.zpow_value (e : Exponent) : (10 : ℚ) ^ e.value = e.scale := by
  rw [value, scale]
  split_ifs
  · rw [zpow_neg, zpow_natCast, digitsValue]
  · rw [zpow_natCast, digitsValue]

lemma FloatLiteral.zpow_exponent (l : FloatLiteral) :
    (10 : ℚ) ^ (l.exponent.map Exponent.value).getD 0 = (l.exponent.map Exponent.scale).getD 1 := by
  cases l.exponent with
  | none => exact zpow_zero 10
  | some e => exact e.zpow_value

lemma FloatLiteral.toRat_value (l : FloatLiteral) : l.value.toRat = l.number := by
  have hten : (10 : ℚ) ≠ 0 := by norm_num
  simp only [Decimal.toRat, value, number, fractionDigits, digitsValue_append, zpow_sub₀ hten,
    zpow_natCast, l.zpow_exponent]
  simp only [digitsValue]
  push_cast
  field_simp

def Denotes (x : List Char) (q : ℚ) : Prop :=
  ∃ l : FloatLiteral, l.chars = x ∧ l.WellFormed ∧ l.isComplete = true ∧ l.number = q

lemma denotes_of_ofChars? {x : List Char} {l : FloatLiteral}
    (h : FloatLiteral.ofChars? x = some l) : Denotes x l.number := by
  obtain ⟨hx, hw, hc⟩ := FloatLiteral.ofChars?_spec h
  exact ⟨l, hx, hw, hc, rfl⟩

namespace Denotes

variable {x : List Char} {q r : ℚ}

lemma mem_floatGrammar (h : Denotes x q) : x ∈ floatGrammar.language := by
  obtain ⟨l, rfl, hw, hc, -⟩ := h
  exact FloatLiteral.chars_mem_floatGrammar hw hc

lemma unique (hq : Denotes x q) (hr : Denotes x r) : q = r := by
  obtain ⟨l, rfl, hw, hc, rfl⟩ := hq
  obtain ⟨m, hm, hw', hc', rfl⟩ := hr
  have hsplit := FloatLiteral.split_chars hw hc
  rw [← hm, FloatLiteral.split_chars hw' hc'] at hsplit
  rw [(Prod.mk.inj hsplit).1]

lemma nonneg (h : Denotes x q) : 0 ≤ q := by
  obtain ⟨l, -, -, -, rfl⟩ := h
  rw [← l.toRat_value]
  exact Decimal.toRat_nonneg _

lemma exists_decimal (h : Denotes x q) :
    ∃ d : Decimal, d.toRat = q ∧ numeralKind? x = some (.float d.toBinary64) := by
  obtain ⟨l, rfl, hw, hc, rfl⟩ := h
  refine ⟨l.value, l.toRat_value, ?_⟩
  rw [numeralKind?_eq_float_iff, FloatLiteral.parsesTo_chars_iff hw hc]
  exact ⟨FloatLiteral.chars_mem_floatGrammar hw hc, rfl⟩

end Denotes

end Lexeme

namespace Number

lemma plain_of_le_infinityPattern {f : Binary64} (h : f.bits.toNat ≤ infinityPattern) :
    f.isUndefined = false ∧ f.isNegative = false := by
  have hlt : f.bits.toNat < Binary64.signBit := h.trans_lt (by decide)
  refine ⟨decide_eq_false ?_, decide_eq_false (Nat.not_le.mpr hlt)⟩
  rw [Binary64.magnitude, Nat.mod_eq_of_lt hlt]
  exact Nat.not_lt.mpr h

end Number

/-- A float literal is taken as the number `f`: by any scan that comes to it, as a text by itself,
and wherever a token of any text has its characters. -/
structure TakenAs (x : List Char) (f : Binary64) : Prop where
  step : ∀ s : Scan, first? s.rest = some ⟨.numeral, x⟩ →
    s.step = .ok (some ⟨.float f, s.cursor.spanOf x⟩, s.skip ⟨.numeral, x⟩)
  alone : tokenize (String.ofList x) = .ok [⟨.float f, ⟨0, 0, x.length⟩⟩]
  inside : ∀ source tokens, tokenize source = .ok tokens → ∀ t ∈ tokens, ∀ text,
    lineAt? source t.span.line = some text → t.span.slice text.toList = x → t.kind = .float f

structure FloatValue (x : List Char) (q : ℚ) (f : Binary64) : Prop where
  denotes : Denotes x q
  only : ∀ r, Denotes x r → r = q
  nonneg : 0 ≤ q
  rounded : RoundsTo q f.bits.toNat
  zero : f.bits = 0 ↔ q ≤ 2 ^ (-1075 : ℤ)
  infinite : f.bits.toNat = infinityPattern ↔ overflowBound ≤ q
  defined : f.isUndefined = false
  unsigned : f.isNegative = false
  taken : ∀ y, Denotes y q → TakenAs y f

lemma takenAs_of_numeralKind? {x : List Char} {f : Binary64} (hx : x ∈ floatGrammar.language)
    (h : numeralKind? x = some (.float f)) : TakenAs x f where
  step s hs := by
    have hm : meaning ⟨.numeral, x⟩ = .ok (some (.float f)) := by simp only [meaning, h]
    exact Scan.step_of_meaning hs hm
  alone := by
    have hm : meaning ⟨.numeral, x⟩ = .ok (some (.float f)) := by simp only [meaning, h]
    exact tokenize_lexeme (x := ⟨.numeral, x⟩) (mem_numeral_of_mem_floatGrammar hx) (by simp) hm
  inside source tokens ht t hmem text htext hslice := by
    have htiled := tiled_of_tokenize ht htext
    have hfilter : t ∈ tokens.filter fun u => u.span.line = t.span.line :=
      List.mem_filter.mpr ⟨hmem, decide_eq_true rfl⟩
    obtain ⟨y, rest, hy, hm, hyslice, -⟩ := htiled.lexeme_of_mem List.length_nil hfilter
    rw [List.nil_append, hslice] at hyslice
    obtain ⟨cls, ytext⟩ := y
    obtain rfl : x = ytext := hyslice
    have hcls : cls = .numeral := by
      by_contra hne
      exact LexemeClass.language_disjoint hne hy.mem (mem_numeral_of_mem_floatGrammar hx)
    subst hcls
    simp only [meaning, h, Except.ok.injEq, Option.some.injEq] at hm
    exact hm.symm

theorem exists_floatValue {x : List Char} (hx : x ∈ floatGrammar.language) :
    ∃ q f, FloatValue x q f := by
  obtain ⟨l, hl⟩ := FloatLiteral.ofChars?_isSome_iff.mpr hx
  obtain ⟨q, hq⟩ : ∃ q, Denotes x q := ⟨l.number, denotes_of_ofChars? hl⟩
  obtain ⟨d, hd, hk⟩ := hq.exists_decimal
  have hround := d.toBinary64_roundsTo
  rw [hd] at hround
  obtain ⟨hdefined, hunsigned⟩ := plain_of_le_infinityPattern hround.le_infinityPattern
  refine ⟨q, d.toBinary64, hq, fun r hr => hr.unique hq, hq.nonneg, hround, ?_, ?_, hdefined,
    hunsigned, fun y hy => ?_⟩
  · rw [← roundsTo_zero_iff hq.nonneg, ← UInt64.toNat_inj, UInt64.toNat_zero]
    exact ⟨fun h => h ▸ hround, fun h => hround.unique h⟩
  · refine ⟨fun h => ?_, hround.infinite⟩
    by_contra hlt
    exact absurd h (hround.finite (not_le.mp hlt)).ne
  · -- the number of another way to write `q` has the same pattern
    obtain ⟨e, he, hk⟩ := hy.exists_decimal
    have hround' := e.toBinary64_roundsTo
    rw [he] at hround'
    rw [Binary64.eq_of_roundsTo hround' hround] at hk
    exact takenAs_of_numeralKind? hy.mem_floatGrammar hk

namespace FloatValue

variable {x y : List Char} {q : ℚ} {f g : Binary64} {l m : FloatLiteral}

lemma eq_number (h : FloatValue x q f) (hl : FloatLiteral.ofChars? x = some l) : q = l.number :=
  (h.only _ (denotes_of_ofChars? hl)).symm

lemma eq_of_tokenize (h : FloatValue x q f)
    (ht : tokenize (String.ofList x) = .ok [⟨.float g, ⟨0, 0, x.length⟩⟩]) : f = g := by
  have halone := (h.taken _ h.denotes).alone
  rw [ht] at halone
  cases halone
  rfl

lemma taken_of_number (h : FloatValue x q f) (hm : FloatLiteral.ofChars? y = some m)
    (hq : m.number = q) : TakenAs y f := by
  apply h.taken
  rw [← hq]
  exact denotes_of_ofChars? hm

end FloatValue

theorem floatValue_of_two_spellings :
    (∃ q f, FloatValue ['0', '0', '0', '2', '.', '2', '2'] q f ∧ q = 111 / 50 ∧
      f.bits = 0x4001c28f5c28f5c3 ∧ TakenAs ['2', '.', '2', '2', 'd'] f) ∧
    ∃ q f, FloatValue ['1', '5', 'e', '-', '1'] q f ∧ q = 3 / 2 ∧
      f.bits = 0x3ff8000000000000 ∧ TakenAs ['1', '.', '5', '0'] f := by
  have hzeros : FloatLiteral.ofChars? ['0', '0', '0', '2', '.', '2', '2'] =
      some ⟨['0', '0', '0', '2'], some ['2', '2'], none, none⟩ := by decide +kernel
  have hsuffix : FloatLiteral.ofChars? ['2', '.', '2', '2', 'd'] =
      some ⟨['2'], some ['2', '2'], none, some 'd'⟩ := by decide +kernel
  have hexponent : FloatLiteral.ofChars? ['1', '5', 'e', '-', '1'] =
      some ⟨['1', '5'], none, some ⟨'e', some '-', ['1']⟩, none⟩ := by decide +kernel
  have hpoint : FloatLiteral.ofChars? ['1', '.', '5', '0'] =
      some ⟨['1'], some ['5', '0'], none, none⟩ := by decide +kernel
  have hdigits : Nat.ofDigitChars 10 ['0', '0', '0', '2'] 0 = 2 ∧
      Nat.ofDigitChars 10 ['2'] 0 = 2 ∧ Nat.ofDigitChars 10 ['2', '2'] 0 = 22 ∧
      Nat.ofDigitChars 10 ['1', '5'] 0 = 15 ∧ Nat.ofDigitChars 10 ['1'] 0 = 1 ∧
      Nat.ofDigitChars 10 ['5', '0'] 0 = 50 := by decide
  obtain ⟨q, f, hf⟩ := exists_floatValue (FloatLiteral.ofChars?_isSome_iff.mp ⟨_, hzeros⟩)
  obtain ⟨r, g, hg⟩ := exists_floatValue (FloatLiteral.ofChars?_isSome_iff.mp ⟨_, hexponent⟩)
  have hq : q = 111 / 50 := by
    rw [hf.eq_number hzeros]
    norm_num [FloatLiteral.number, hdigits]
  have hr : r = 3 / 2 := by
    rw [hg.eq_number hexponent]
    norm_num [FloatLiteral.number, Exponent.scale, hdigits]
  refine ⟨⟨q, f, hf, hq, ?_, hf.taken_of_number hsuffix ?_⟩,
    ⟨r, g, hg, hr, ?_, hg.taken_of_number hpoint ?_⟩⟩
  · have hbits : f = ⟨0x4001c28f5c28f5c3⟩ := hf.eq_of_tokenize (by decide +kernel)
    rw [hbits]
  · rw [hq]
    norm_num [FloatLiteral.number, hdigits]
  · have hbits : g = ⟨0x3ff8000000000000⟩ := hg.eq_of_tokenize (by decide +kernel)
    rw [hbits]
  · rw [hr]
    norm_num [FloatLiteral.number, hdigits]

end LCode
