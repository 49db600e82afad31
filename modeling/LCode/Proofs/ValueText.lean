import LCode.Proofs.NumberText
import LCode.Token.Basic

namespace LCode

open Lexeme Number Pattern Text
open scoped Computability

namespace Number

def plainGrammar : Pattern := seq digits (seq (char (· = '.')) digits)

def scientificGrammar : Pattern :=
  seq (char Char.isDigit) (seq (optional (seq (char (· = '.')) digits))
    (seq (char (· = 'e')) (seq (optional (char (· = '-'))) digits)))

lemma mem_plainGrammar {whole fraction : List Char} (hw : whole ∈ digits.language)
    (hf : fraction ∈ digits.language) : whole ++ '.' :: fraction ∈ plainGrammar.language :=
  mem_language_seq.mpr ⟨whole, hw, '.' :: fraction, cons_mem_seq_char rfl hf, rfl⟩

lemma exponentText_mem (e : ℤ) :
    exponentText e ∈ (seq (optional (char (· = '-'))) digits).language := by
  have hdigits : ∀ n, Nat.toDigits 10 n ∈ digits.language := fun n =>
    mem_digits Nat.toDigits_ne_nil isDigit_of_mem_toDigits
  rw [exponentText, mem_language_seq]
  split_ifs with he
  · exact ⟨['-'], mem_language_alt.mpr (Or.inl ⟨'-', rfl, rfl⟩), _, hdigits _, rfl⟩
  · exact ⟨[], mem_language_alt.mpr (Or.inr rfl), _, hdigits _, rfl⟩

section

variable {ds : List Char}

lemma plainText_mem (hne : ds ≠ []) (hd : ∀ c ∈ ds, c.isDigit = true) (point : ℤ) :
    plainText ds point ∈ plainGrammar.language := by
  have hzero : ['0'] ∈ digits.language := mem_digits (by simp) (by simp)
  rw [plainText]
  split_ifs with hpoint hlength
  · have hf : zeros (-point).toNat ++ ds ∈ digits.language :=
      mem_digits (by simp [hne]) (List.forall_mem_append.mpr ⟨isDigit_of_mem_zeros, hd⟩)
    exact mem_plainGrammar hzero hf
  · have hw : ds ++ zeros (point.toNat - ds.length) ∈ digits.language :=
      mem_digits (by simp [hne]) (List.forall_mem_append.mpr ⟨hd, isDigit_of_mem_zeros⟩)
    exact mem_plainGrammar hw hzero
  · have hw : ds.take point.toNat ∈ digits.language := by
      refine mem_digits ?_ fun c hc => hd c (List.mem_of_mem_take hc)
      simp [hne]
      omega
    have hf : ds.drop point.toNat ∈ digits.language := by
      refine mem_digits ?_ fun c hc => hd c (List.mem_of_mem_drop hc)
      rw [Ne, List.drop_eq_nil_iff]
      exact hlength
    exact mem_plainGrammar hw hf

lemma scientificText_mem (hne : ds ≠ []) (hd : ∀ c ∈ ds, c.isDigit = true) (point : ℤ) :
    scientificText ds point ∈ scientificGrammar.language := by
  obtain ⟨d, ds, rfl⟩ := List.exists_cons_of_ne_nil hne
  obtain ⟨hhead, htail⟩ := List.forall_mem_cons.mp hd
  have hpower : 'e' :: exponentText (point - 1) ∈
      (seq (char (· = 'e')) (seq (optional (char (· = '-'))) digits)).language :=
    cons_mem_seq_char rfl (exponentText_mem _)
  have hform : ∀ fraction ∈ (optional (seq (char (· = '.')) digits)).language,
      d :: fraction ++ 'e' :: exponentText (point - 1) ∈ scientificGrammar.language := by
    intro fraction hf
    rw [List.cons_append]
    exact cons_mem_seq_char hhead (mem_language_seq.mpr ⟨fraction, hf, _, hpower, rfl⟩)
  cases ds with
  | nil => exact hform [] (mem_language_alt.mpr (Or.inr rfl))
  | cons d' ds =>
    have hdigits : d' :: ds ∈ digits.language := mem_digits (by simp) htail
    exact hform ('.' :: d' :: ds) (mem_language_alt.mpr (Or.inl (cons_mem_seq_char rfl hdigits)))

end

lemma Decimal.pow_le_toRat_iff {d : Decimal} (hd : d.digits ≠ 0) (k : ℤ) :
    10 ^ k ≤ d.toRat ↔ k < d.exponent + (Nat.toDigits 10 d.digits).length := by
  have hten : (10 : ℚ) ≠ 0 := by norm_num
  have hlength : 0 < (Nat.toDigits 10 d.digits).length := Nat.length_toDigits_pos
  have hscale : 10 ^ k ≤ d.toRat ↔ (10 : ℚ) ^ (k - d.exponent) ≤ d.digits := by
    rw [toRat, zpow_sub₀ hten, div_le_iff₀ (by positivity)]
  rw [hscale]
  rcases lt_or_ge 0 (k - d.exponent) with hpos | hneg
  · obtain ⟨j, hj⟩ := Int.eq_ofNat_of_zero_le hpos.le
    have hdigits := Nat.length_toDigits_le_iff (n := d.digits) (show 1 < 10 by norm_num)
      (show 0 < j by omega)
    rw [hj, zpow_natCast]
    have hcast : (10 : ℚ) ^ j ≤ d.digits ↔ 10 ^ j ≤ d.digits := by exact_mod_cast Iff.rfl
    rw [hcast, ← not_lt, ← hdigits]
    omega
  · have hone : (1 : ℚ) ≤ d.digits := by exact_mod_cast Nat.one_le_iff_ne_zero.mpr hd
    have hle : (10 : ℚ) ^ (k - d.exponent) ≤ 1 := zpow_le_one_of_nonpos₀ (by norm_num) hneg
    exact iff_of_true (hle.trans hone) (by omega)

lemma Decimal.text_mem {d : Decimal} (hd : d.digits ≠ 0) :
    (10 ^ (-4 : ℤ) ≤ d.toRat ∧ d.toRat < 10 ^ (16 : ℤ) → d.text ∈ plainGrammar.language) ∧
      (¬(10 ^ (-4 : ℤ) ≤ d.toRat ∧ d.toRat < 10 ^ (16 : ℤ)) →
        d.text ∈ scientificGrammar.language) := by
  have hplain : plainRange.least ≤ d.exponent + (Nat.toDigits 10 d.digits).length ∧
      d.exponent + (Nat.toDigits 10 d.digits).length ≤ plainRange.greatest ↔
        10 ^ (-4 : ℤ) ≤ d.toRat ∧ d.toRat < 10 ^ (16 : ℤ) := by
    rw [← not_le, pow_le_toRat_iff hd, pow_le_toRat_iff hd]
    simp only [plainRange]
    omega
  rw [← hplain, Decimal.text]
  constructor
  · intro h
    rw [if_pos h]
    exact plainText_mem Nat.toDigits_ne_nil isDigit_of_mem_toDigits _
  · intro h
    rw [if_neg h]
    exact scientificText_mem Nat.toDigits_ne_nil isDigit_of_mem_toDigits _

variable {p : ℕ}

lemma shortest_roundsTo (hp : p < infinityPattern) : RoundsTo (shortest p).toRat p :=
  coarsest_roundsTo hp (coarsestGrid p)

lemma digits_shortest_ne_zero (hp : p < infinityPattern) (h0 : p ≠ 0) :
    (shortest p).digits ≠ 0 := by
  intro h
  have hround := shortest_roundsTo hp
  rw [Decimal.toRat, h, Nat.cast_zero, zero_mul] at hround
  exact h0 (hround.unique ((roundsTo_zero_iff le_rfl).mpr (by positivity)))

/-- A number lies below a bound if its shortest decimal does, where the bound is the shortest
decimal of the least number that is not below it. -/
lemma shortest_lt_iff (hp : p < infinityPattern) {bound : Decimal}
    (hshortest : shortest bound.pattern = bound)
    (hle : bound.toRat ≤ patternValue bound.pattern) :
    (shortest p).toRat < bound.toRat ↔ patternValue p < bound.toRat := by
  have hround := shortest_roundsTo hp
  have hbound := bound.pattern_roundsTo
  constructor
  · intro h
    by_contra hnot
    have hpattern : p = bound.pattern :=
      le_antisymm (hround.mono hbound h.le)
        (hbound.mono (roundsTo_patternValue hp) (not_lt.mp hnot))
    rw [hpattern, hshortest] at h
    exact lt_irrefl _ h
  · intro h
    by_contra hnot
    have hpattern := hbound.mono hround (not_lt.mp hnot)
    exact (h.trans_le hle).not_ge (patternValue_strictMono.monotone hpattern)

lemma Decimal.toRat_power (k : ℤ) : toRat ⟨1, k⟩ = 10 ^ k := by
  rw [toRat, Nat.cast_one, one_mul]

lemma shortest_lt_greatest_iff (hp : p < infinityPattern) :
    (shortest p).toRat < 10 ^ (16 : ℤ) ↔ patternValue p < 10 ^ (16 : ℤ) := by
  have hunits : 10 ^ 16 * 2 ^ unitExponent ≤ units (Decimal.pattern ⟨1, 16⟩) := by decide +kernel
  have hle : (10 : ℚ) ^ (16 : ℤ) ≤ patternValue (Decimal.pattern ⟨1, 16⟩) := by
    rw [patternValue_eq, le_div_iff₀ unit_pos, zpow_ofNat]
    exact_mod_cast hunits
  rw [← Decimal.toRat_power] at hle ⊢
  exact shortest_lt_iff hp (by decide +kernel) hle

lemma shortest_lt_least_iff (hp : p < infinityPattern) :
    (shortest p).toRat < 10 ^ (-4 : ℤ) ↔ patternValue p < 10 ^ (-4 : ℤ) := by
  have hunits : 2 ^ unitExponent ≤ 10 ^ 4 * units (Decimal.pattern ⟨1, -4⟩) := by decide +kernel
  have hcast := Nat.cast_le (α := ℚ).mpr hunits
  have hle : (10 : ℚ) ^ (-4 : ℤ) ≤ patternValue (Decimal.pattern ⟨1, -4⟩) := by
    rw [patternValue_eq, le_div_iff₀ unit_pos, zpow_neg, zpow_ofNat,
      inv_mul_le_iff₀ (by positivity)]
    rwa [Nat.cast_mul, Nat.cast_pow, Nat.cast_pow] at hcast
  rw [← Decimal.toRat_power] at hle ⊢
  exact shortest_lt_iff hp (by decide +kernel) hle

def WrittenPlainly (q : ℚ) : Prop := q = 0 ∨ 10 ^ (-4 : ℤ) ≤ q ∧ q < 10 ^ (16 : ℤ)

lemma patternValue_eq_zero_iff : patternValue p = 0 ↔ p = 0 := by
  have hzero : patternValue 0 = 0 := by simp [patternValue]
  rw [← hzero, patternValue_strictMono.injective.eq_iff]

theorem magnitudeText_mem (hp : p < infinityPattern) :
    (WrittenPlainly (patternValue p) → magnitudeText p ∈ plainGrammar.language) ∧
      (¬WrittenPlainly (patternValue p) → magnitudeText p ∈ scientificGrammar.language) := by
  rw [WrittenPlainly, patternValue_eq_zero_iff, magnitudeText]
  by_cases h0 : p = 0
  · rw [if_pos h0]
    have hzero : ['0'] ∈ digits.language := mem_digits (by simp) (by simp)
    exact ⟨fun _ => mem_plainGrammar hzero hzero, fun h => absurd (Or.inl h0) h⟩
  · rw [if_neg h0, if_neg hp.ne, or_iff_right h0, ← not_lt, ← shortest_lt_least_iff hp, not_lt,
      ← shortest_lt_greatest_iff hp]
    exact Decimal.text_mem (digits_shortest_ne_zero hp h0)

end Number

/-- The number `x` is printed as `v` in its tokens, and `v` by itself is read as `x`. -/
structure ValueText (x : Binary64) (v : String) : Prop where
  printed : ∀ s : Span, Token.render ⟨.float x, s⟩ = "FLOAT(value:" ++ v ++ ", " ++ s.render ++ ")"
  plain : WrittenPlainly (patternValue x.bits.toNat) → v.toList ∈ plainGrammar.language
  scientific : ¬WrittenPlainly (patternValue x.bits.toNat) → v.toList ∈ scientificGrammar.language
  reading : tokenize v = .ok [⟨.float x, ⟨0, 0, v.length⟩⟩]

lemma Token.render_float (x : Binary64) (s : Span) :
    Token.render ⟨.float x, s⟩ = "FLOAT(value:" ++ x.render ++ ", " ++ s.render ++ ")" := by
  simp [Token.render, TokenKind.label, TokenKind.payload, ← String.append_assoc]

lemma ValueText.eq_render {x : Binary64} {v : String} (h : ValueText x v) : v = x.render := by
  have hprinted := h.printed ⟨0, 0, 0⟩
  rw [Token.render_float] at hprinted
  simpa using hprinted.symm

theorem exists_valueText {x : Binary64} (hf : x.isFinite = true) (hn : x.isNegative = false) :
    ∃ v, ValueText x v := by
  have hbits : x.bits.toNat = x.magnitude := by
    rw [Binary64.toNat_bits, hn]
    rfl
  have hp : x.magnitude < infinityPattern := of_decide_eq_true hf
  have htext : x.text = magnitudeText x.magnitude := by
    rw [Binary64.text_of_defined (decide_eq_false hp.le.not_gt), hn]
    rfl
  obtain ⟨hplain, hscientific⟩ := magnitudeText_mem hp
  obtain ⟨q, hq, hround⟩ := exists_denotes_magnitudeText hp
  obtain ⟨d, rfl, hkind⟩ := hq.exists_decimal
  have hx : d.toBinary64 = x := by
    have h := UInt64.toNat_inj.mp ((d.toBinary64_roundsTo.unique hround).trans hbits.symm)
    cases x
    exact congrArg Binary64.mk h
  rw [← htext] at hplain hscientific hq hkind
  rw [hx] at hkind
  refine ⟨x.render, Token.render_float x, ?_, ?_, ?_⟩
  · rwa [Binary64.render, String.toList_ofList, hbits]
  · rwa [Binary64.render, String.toList_ofList, hbits]
  · have h := (takenAs_of_numeralKind? hq.mem_floatGrammar hkind).alone
    rwa [Binary64.render, String.length_ofList]

theorem valueText_of_least_and_of_bound :
    ValueText ⟨1⟩ "5e-324" ∧ ValueText ⟨0x3f1a36e2eb1c432d⟩ "0.0001" := by
  obtain ⟨v, hv⟩ := exists_valueText (x := ⟨1⟩) (by decide) (by decide)
  obtain ⟨w, hw⟩ := exists_valueText (x := ⟨0x3f1a36e2eb1c432d⟩) (by decide) (by decide)
  have hleast : Binary64.render ⟨1⟩ = "5e-324" := by decide +kernel
  have hbound : Binary64.render ⟨0x3f1a36e2eb1c432d⟩ = "0.0001" := by decide +kernel
  rw [hv.eq_render, hleast] at hv
  rw [hw.eq_render, hbound] at hw
  exact ⟨hv, hw⟩

end LCode
