import LCode.Number.Text
import LCode.Proofs.FloatRounding

namespace LCode

open Lexeme Number

namespace Number

lemma isDigit_of_mem_zeros {n : ℕ} : ∀ c ∈ zeros n, c.isDigit = true := by
  intro c h
  rw [List.eq_of_mem_replicate h]
  rfl

lemma digitsValue_zeros (n : ℕ) : digitsValue (zeros n) = 0 := by
  rw [digitsValue, zeros, Nat.ofDigitChars_replicate_zero, Nat.mul_zero]

lemma digitsValue_zeros_append (n : ℕ) (ds : List Char) :
    digitsValue (zeros n ++ ds) = digitsValue ds := by
  rw [digitsValue_append, digitsValue_zeros, Nat.zero_mul, Nat.zero_add]

lemma digitsValue_append_zeros (ds : List Char) (n : ℕ) :
    digitsValue (ds ++ zeros n) = digitsValue ds * 10 ^ n := by
  rw [digitsValue_append, digitsValue_zeros, Nat.add_zero, zeros, List.length_replicate]

lemma Decimal.toRat_mul_pow (n k : ℕ) (e : ℤ) :
    toRat ⟨n * 10 ^ k, e⟩ = toRat ⟨n, k + e⟩ := by
  rw [toRat, toRat, Nat.cast_mul, Nat.cast_pow, mul_assoc, zpow_add₀ (by norm_num), zpow_natCast]
  rfl

end Number

namespace Lexeme

open FloatLiteral

lemma denotes_of_wellFormed {l : FloatLiteral} (hw : l.WellFormed) (hc : l.isComplete = true) :
    Denotes l.chars l.value.toRat :=
  ⟨l, rfl, hw, hc, l.toRat_value.symm⟩

lemma denotes_point {whole fraction : List Char} (hw : ∀ c ∈ whole, c.isDigit = true)
    (hf : ∀ c ∈ fraction, c.isDigit = true) (hne : whole ++ fraction ≠ []) :
    Denotes (whole ++ '.' :: fraction)
      (Decimal.toRat ⟨digitsValue (whole ++ fraction), -fraction.length⟩) := by
  have hparts : (⟨whole, some fraction, none, none⟩ : FloatLiteral).WellFormed :=
    wellFormed_of_parts hw (by simpa using hf) (by simp) (by simp)
  have h := denotes_of_wellFormed hparts (isComplete_iff.mpr ⟨hne, by simp, Or.inl rfl⟩)
  simpa [chars, value, fractionDigits] using h

lemma exists_exponent (mark : Char) (hm : isExponentMark mark = true) (e : ℤ) :
    ∃ x : Exponent, x.chars = mark :: exponentText e ∧ x.WellFormed ∧ x.value = e := by
  rw [exponentText]
  split_ifs with he
  · refine ⟨⟨mark, some '-', Nat.toDigits 10 (-e).toNat⟩, rfl,
      ⟨hm, by simp [isSign], Nat.toDigits_ne_nil, isDigit_of_mem_toDigits⟩, ?_⟩
    simp only [Exponent.value, ↓reduceIte, digitsValue_toDigits]
    omega
  · refine ⟨⟨mark, none, Nat.toDigits 10 e.toNat⟩, rfl,
      ⟨hm, by simp, Nat.toDigits_ne_nil, isDigit_of_mem_toDigits⟩, ?_⟩
    simp only [Exponent.value, reduceCtorEq, ↓reduceIte, digitsValue_toDigits]
    omega

variable {digits : List Char}

lemma denotes_plainText (hne : digits ≠ []) (hd : ∀ c ∈ digits, c.isDigit = true) (point : ℤ) :
    Denotes (plainText digits point)
      (Decimal.toRat ⟨digitsValue digits, point - digits.length⟩) := by
  rw [plainText]
  split_ifs with hpoint hlength
  · have hzero : ∀ c ∈ zeros 1, c.isDigit = true := isDigit_of_mem_zeros
    have hf : ∀ c ∈ zeros (-point).toNat ++ digits, c.isDigit = true :=
      List.forall_mem_append.mpr ⟨isDigit_of_mem_zeros, hd⟩
    have hexponent : -((zeros (-point).toNat ++ digits).length : ℤ) = point - digits.length := by
      rw [List.length_append, zeros, List.length_replicate]
      omega
    have h := denotes_point hzero hf (by simp [zeros])
    rwa [digitsValue_zeros_append, digitsValue_zeros_append, hexponent] at h
  · have hw : ∀ c ∈ digits ++ zeros (point.toNat - digits.length), c.isDigit = true :=
      List.forall_mem_append.mpr ⟨hd, isDigit_of_mem_zeros⟩
    have hzero : ∀ c ∈ zeros 1, c.isDigit = true := isDigit_of_mem_zeros
    have hexponent : ((point.toNat - digits.length : ℕ) + ((1 : ℕ) + -((zeros 1).length : ℤ)) : ℤ) =
        point - digits.length := by
      rw [zeros, List.length_replicate]
      omega
    have h := denotes_point hw hzero (by simp [zeros])
    rwa [digitsValue_append_zeros, digitsValue_append_zeros, Decimal.toRat_mul_pow,
      Decimal.toRat_mul_pow, hexponent] at h
  · have hw : ∀ c ∈ digits.take point.toNat, c.isDigit = true :=
      fun c hc => hd c (List.mem_of_mem_take hc)
    have hf : ∀ c ∈ digits.drop point.toNat, c.isDigit = true :=
      fun c hc => hd c (List.mem_of_mem_drop hc)
    have hexponent : -((digits.drop point.toNat).length : ℤ) = point - digits.length := by
      rw [List.length_drop]
      omega
    have h := denotes_point hw hf (by rwa [List.take_append_drop])
    rwa [List.take_append_drop, hexponent] at h

lemma denotes_scientificText (hne : digits ≠ []) (hd : ∀ c ∈ digits, c.isDigit = true)
    (point : ℤ) : Denotes (scientificText digits point)
      (Decimal.toRat ⟨digitsValue digits, point - digits.length⟩) := by
  obtain ⟨d, ds, rfl⟩ := List.exists_cons_of_ne_nil hne
  obtain ⟨hhead, htail⟩ := List.forall_mem_cons.mp hd
  obtain ⟨e, he, hewell, hevalue⟩ := exists_exponent 'e' rfl (point - 1)
  cases ds with
  | nil =>
    have hparts : (⟨[d], none, some e, none⟩ : FloatLiteral).WellFormed :=
      wellFormed_of_parts hd (by simp) (by simpa using hewell) (by simp)
    have h := denotes_of_wellFormed hparts
      (isComplete_iff.mpr ⟨by simp, by simpa using hewell.nonempty, Or.inr (Or.inl rfl)⟩)
    simpa [chars, value, fractionDigits, scientificText, he, hevalue] using h
  | cons d' ds =>
    have hparts : (⟨[d], some (d' :: ds), some e, none⟩ : FloatLiteral).WellFormed :=
      wellFormed_of_parts (by simpa using hhead) (by simpa using htail) (by simpa using hewell)
        (by simp)
    have h := denotes_of_wellFormed hparts
      (isComplete_iff.mpr ⟨by simp, by simpa using hewell.nonempty, Or.inl rfl⟩)
    have hexponent : point - 1 - ((d' :: ds).length : ℤ) =
        point - ((d :: d' :: ds).length : ℤ) := by
      rw [List.length_cons (a := d)]
      omega
    rw [← hexponent]
    simpa [chars, value, fractionDigits, scientificText, he, hevalue] using h

lemma denotes_text (d : Decimal) : Denotes d.text d.toRat := by
  have hne : Nat.toDigits 10 d.digits ≠ [] := Nat.toDigits_ne_nil
  have hvalue : (⟨digitsValue (Nat.toDigits 10 d.digits), d.exponent +
      (Nat.toDigits 10 d.digits).length - (Nat.toDigits 10 d.digits).length⟩ : Decimal) = d := by
    rw [digitsValue_toDigits, add_sub_cancel_right]
  rw [Decimal.text]
  split_ifs
  · have h := denotes_plainText hne isDigit_of_mem_toDigits
      (d.exponent + (Nat.toDigits 10 d.digits).length)
    rwa [hvalue] at h
  · have h := denotes_scientificText hne isDigit_of_mem_toDigits
      (d.exponent + (Nat.toDigits 10 d.digits).length)
    rwa [hvalue] at h

lemma startsNumeral_of_denotes {x : List Char} {q : ℚ} (h : Denotes x q) : startsNumeral x = true :=
  startsNumeral_iff.mpr (startsNumber_of_mem (mem_numeral_of_mem_floatGrammar h.mem_floatGrammar))

end Lexeme

namespace Number

lemma toRat_finest (p : ℕ) :
    Decimal.toRat ⟨units p * Nat.pow 5 unitExponent, -unitExponent⟩ = patternValue p := by
  have hten : (10 : ℚ) ^ unitExponent = 5 ^ unitExponent * 2 ^ unitExponent := by
    rw [← mul_pow]
    norm_num
  rw [patternValue_eq, Decimal.toRat, Nat.pow_eq, Nat.cast_mul, Nat.cast_pow, zpow_neg,
    zpow_natCast, hten, mul_inv, mul_assoc, ← mul_assoc (_ ^ _ : ℚ), Nat.cast_ofNat,
    mul_inv_cancel₀ (by positivity), one_mul, div_eq_mul_inv]

variable {p r : ℕ}

lemma coarsest_roundsTo (hp : p < infinityPattern) (n : ℕ) : RoundsTo (coarsest p n).toRat p := by
  induction n with
  | zero =>
    rw [coarsest, toRat_finest]
    exact roundsTo_patternValue hp
  | succ n ih =>
    rw [coarsest]
    split
    next d hd =>
      have h := d.pattern_roundsTo
      rwa [pattern_of_onGrid? hd] at h
    next => exact ih

lemma exists_denotes_magnitudeText (hp : p < infinityPattern) :
    ∃ q, Denotes (magnitudeText p) q ∧ RoundsTo q p := by
  rw [magnitudeText]
  split_ifs with hzero hinfinity
  · have hdenotes : Denotes ['0', '.', '0'] 0 := by
      have hzeros : ∀ c ∈ zeros 1, c.isDigit = true := isDigit_of_mem_zeros
      have h := denotes_point hzeros hzeros (by simp [zeros])
      rwa [digitsValue_append_zeros, digitsValue_zeros, Nat.zero_mul, Decimal.toRat, Nat.cast_zero,
        zero_mul] at h
    exact ⟨0, hdenotes, hzero ▸ (roundsTo_zero_iff le_rfl).mpr (by positivity)⟩
  · exact absurd hinfinity hp.ne
  · exact ⟨_, denotes_text _, coarsest_roundsTo hp _⟩

lemma magnitudeText_infinityPattern : magnitudeText infinityPattern = ['i', 'n', 'f'] := by
  rw [magnitudeText, if_neg (by decide), if_pos rfl]

lemma startsNumeral_magnitudeText (hp : p < infinityPattern) :
    startsNumeral (magnitudeText p) = true := by
  obtain ⟨q, hq, -⟩ := exists_denotes_magnitudeText hp
  exact startsNumeral_of_denotes hq

lemma magnitudeText_ne {x : List Char} (hp : p ≤ infinityPattern) (hs : startsNumeral x = false)
    (hx : x ≠ ['i', 'n', 'f']) : magnitudeText p ≠ x := by
  rintro rfl
  rcases Nat.lt_or_eq_of_le hp with hp | rfl
  · rw [startsNumeral_magnitudeText hp] at hs
    cases hs
  · exact hx magnitudeText_infinityPattern

theorem magnitudeText_inj (hp : p ≤ infinityPattern) (hr : r ≤ infinityPattern) :
    magnitudeText p = magnitudeText r ↔ p = r := by
  have hinfinity : ∀ s < infinityPattern, magnitudeText s ≠ magnitudeText infinityPattern := by
    intro s hs h
    have hstart := startsNumeral_magnitudeText hs
    rw [h, magnitudeText_infinityPattern] at hstart
    cases hstart
  refine ⟨fun h => ?_, congrArg magnitudeText⟩
  rcases Nat.lt_or_eq_of_le hp with hp | rfl
  · rcases Nat.lt_or_eq_of_le hr with hr | rfl
    · obtain ⟨q, hq, hqp⟩ := exists_denotes_magnitudeText hp
      obtain ⟨s, hs, hsr⟩ := exists_denotes_magnitudeText hr
      rw [h] at hq
      rw [hq.unique hs] at hqp
      exact hqp.unique hsr
    · exact absurd h (hinfinity p hp)
  · rcases Nat.lt_or_eq_of_le hr with hr | rfl
    · exact absurd h.symm (hinfinity r hr)
    · rfl

lemma newline_not_mem_magnitudeText (hp : p ≤ infinityPattern) : '\n' ∉ magnitudeText p := by
  rcases Nat.lt_or_eq_of_le hp with hp | rfl
  · obtain ⟨q, hq, -⟩ := exists_denotes_magnitudeText hp
    exact LexemeClass.newline_not_mem (mem_numeral_of_mem_floatGrammar hq.mem_floatGrammar)
  · rw [magnitudeText_infinityPattern]
    decide

namespace Binary64

variable {x y : Binary64}

lemma magnitude_le (hx : x.isUndefined = false) : x.magnitude ≤ infinityPattern :=
  Nat.le_of_not_lt (of_decide_eq_false hx)

lemma toNat_bits (x : Binary64) :
    x.bits.toNat = x.magnitude + if x.isNegative then signBit else 0 := by
  have hlt : x.bits.toNat < 2 * signBit := x.bits.toNat_lt
  simp only [isNegative, magnitude, decide_eq_true_eq]
  split
  next h =>
    rw [Nat.mod_eq_sub_mod h, Nat.mod_eq_of_lt (by omega), Nat.sub_add_cancel h]
  next h => rw [Nat.mod_eq_of_lt (Nat.lt_of_not_le h), Nat.add_zero]

lemma eq_of_magnitude (hm : x.magnitude = y.magnitude) (hn : x.isNegative = y.isNegative) :
    x = y := by
  have h : x.bits.toNat = y.bits.toNat := by rw [toNat_bits, toNat_bits, hm, hn]
  cases x
  cases y
  exact congrArg mk (UInt64.toNat_inj.mp h)

lemma text_of_defined (hx : x.isUndefined = false) :
    x.text = if x.isNegative then '-' :: magnitudeText x.magnitude
      else magnitudeText x.magnitude := by
  rw [text, hx, if_neg Bool.false_ne_true]

lemma magnitudeText_ne_minus (hx : x.isUndefined = false) (t : List Char) :
    magnitudeText x.magnitude ≠ '-' :: t :=
  magnitudeText_ne (magnitude_le hx) (by cases t <;> rfl) (by simp)

lemma text_ne_of_defined (hx : x.isUndefined = false) : x.text ≠ ['N', 'a', 'N'] := by
  rw [text_of_defined hx]
  split_ifs
  · simp
  · exact magnitudeText_ne (magnitude_le hx) rfl (by decide)

lemma eq_of_text (hx : x.isUndefined = false) (hy : y.isUndefined = false) (h : x.text = y.text) :
    x = y := by
  rw [text_of_defined hx, text_of_defined hy] at h
  have hinj := magnitudeText_inj (magnitude_le hx) (magnitude_le hy)
  split_ifs at h with hxn hyn hyn
  · exact eq_of_magnitude (hinj.mp (List.cons.inj h).2) (hxn.trans hyn.symm)
  · exact absurd h.symm (magnitudeText_ne_minus hy _)
  · exact absurd h (magnitudeText_ne_minus hx _)
  · rw [Bool.not_eq_true] at hxn hyn
    exact eq_of_magnitude (hinj.mp h) (hxn.trans hyn.symm)

lemma newline_not_mem_text (x : Binary64) : '\n' ∉ x.text := by
  cases hx : x.isUndefined
  · have h := newline_not_mem_magnitudeText (magnitude_le hx)
    rw [text_of_defined hx]
    split_ifs
    · exact List.not_mem_cons_of_ne_of_not_mem (by decide) h
    · exact h
  · rw [text, if_pos hx]
    decide

theorem text_eq_iff : x.text = y.text ↔ x = y ∨ x.isUndefined = true ∧ y.isUndefined = true := by
  have hnan : ∀ z : Binary64, z.isUndefined = true → z.text = ['N', 'a', 'N'] :=
    fun z hz => if_pos hz
  constructor
  · intro h
    cases hx : x.isUndefined <;> cases hy : y.isUndefined
    · exact Or.inl (eq_of_text hx hy h)
    · exact absurd (h.trans (hnan y hy)) (text_ne_of_defined hx)
    · exact absurd (h.symm.trans (hnan x hx)) (text_ne_of_defined hy)
    · exact Or.inr ⟨rfl, rfl⟩
  · rintro (rfl | ⟨hx, hy⟩)
    · rfl
    · rw [hnan x hx, hnan y hy]

end Binary64

end Number

end LCode
