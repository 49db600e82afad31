import LCode.Number.Decimal
import LCode.Proofs.PatternOrder

/-! There is one nearest pattern for each rational number that is not negative. -/

namespace LCode.Number

/-- The number that a finite pattern without sign stands for: its fraction in units of `2^-1074`, or
a one before the fraction, which the exponent then scales. -/
def patternValue (p : ℕ) : ℚ :=
  if p / 2 ^ 52 = 0 then (p % 2 ^ 52 : ℕ) * 2 ^ (-1074 : ℤ)
  else (2 ^ 52 + p % 2 ^ 52 : ℕ) * 2 ^ ((p / 2 ^ 52 : ℕ) - 1075 : ℤ)

/-- The middle between the greatest finite number, `2^1024 - 2^971`, and `2^1024`. -/
def overflowBound : ℚ := 2 ^ 1024 - 2 ^ 970

/-- Rounding to the nearest number, of two to the one with the even pattern. What is not below the
bound of overflow goes to infinity. -/
structure RoundsTo (q : ℚ) (p : ℕ) : Prop where
  finite : q < overflowBound → p < infinityPattern
  nearest : q < overflowBound → ∀ r < infinityPattern, |q - patternValue p| ≤ |q - patternValue r|
  even : q < overflowBound → ∀ r < infinityPattern, r ≠ p →
    |q - patternValue r| = |q - patternValue p| → p % 2 = 0
  infinite : overflowBound ≤ q → p = infinityPattern

lemma unit_pos : (0 : ℚ) < 2 ^ unitExponent := by positivity

lemma patternValue_eq (p : ℕ) : patternValue p = units p / 2 ^ unitExponent := by
  have hunit : (2 : ℚ) ^ (-1074 : ℤ) * 2 ^ unitExponent = 1 := by
    rw [← zpow_natCast, ← zpow_add₀ (by norm_num)]
    rfl
  rw [eq_div_iff unit_pos.ne', patternValue, units_eq]
  split
  next => rw [mul_assoc, hunit, mul_one]
  next h =>
    have he : (2 : ℚ) ^ ((p / 2 ^ 52 : ℕ) - 1075 : ℤ) * 2 ^ unitExponent =
        2 ^ (p / 2 ^ 52 - 1) := by
      rw [← zpow_natCast, ← zpow_natCast, ← zpow_add₀ (by norm_num)]
      congr 1
      simp only [unitExponent]
      omega
    rw [mul_assoc, he, Nat.cast_mul, Nat.cast_pow, Nat.cast_two]

lemma patternValue_strictMono : StrictMono patternValue := by
  intro p r h
  rw [patternValue_eq, patternValue_eq]
  exact (div_lt_div_iff_of_pos_right unit_pos).mpr (units_lt h)

lemma abs_sub_patternValue (q : ℚ) (p : ℕ) :
    |q - patternValue p| = |q * 2 ^ unitExponent - units p| / 2 ^ unitExponent := by
  rw [patternValue_eq, ← abs_of_pos unit_pos, ← abs_div, abs_of_pos unit_pos, sub_div,
    mul_div_cancel_right₀ _ unit_pos.ne']

lemma overflowBound_eq {r : ℕ} (hr : r + 1 = infinityPattern) :
    2 * (overflowBound * 2 ^ unitExponent) = (units r + units infinityPattern : ℚ) := by
  have hpattern : infinityPattern = 2046 * 2 ^ 52 + 2 ^ 52 := by decide
  have hlast : r / 2 ^ 52 - 1 = 2045 := by omega
  have hinfinity : (units infinityPattern : ℚ) = 2 ^ 52 * 2 ^ 2046 := by
    rw [hpattern, units_steps (by norm_num) (Or.inr le_rfl)]
    rw [Nat.cast_mul, Nat.cast_pow, Nat.cast_pow, Nat.cast_two]
  have hsucc := units_succ r
  rw [hr, hlast] at hsucc
  have hstep : (2 : ℚ) ^ 2045 = units infinityPattern - units r := by
    rw [hsucc, Nat.cast_add, Nat.cast_pow, Nat.cast_two, add_sub_cancel_left]
  have h1024 : (2 : ℚ) ^ 1024 * 2 ^ unitExponent = 2 ^ 52 * 2 ^ 2046 := by
    rw [← pow_add, ← pow_add]
    rfl
  have h970 : (2 : ℚ) * (2 ^ 970 * 2 ^ unitExponent) = units infinityPattern - units r := by
    rw [← hstep, ← pow_add, ← pow_succ']
    rfl
  rw [overflowBound, sub_mul, h1024, mul_sub, h970, ← hinfinity]
  ring

lemma lt_overflowBound_iff {q : ℚ} {r : ℕ} (hr : r + 1 = infinityPattern) :
    q < overflowBound ↔ 2 * (q * 2 ^ unitExponent) < (units r + units infinityPattern : ℚ) := by
  rw [← overflowBound_eq hr, mul_lt_mul_iff_of_pos_left two_pos,
    mul_lt_mul_iff_of_pos_right unit_pos]

lemma InCell.roundsTo {q : ℚ} {p : ℕ} (h : InCell (q * 2 ^ unitExponent) p) :
    RoundsTo q (min p infinityPattern) := by
  obtain ⟨r, hr⟩ : ∃ r, r + 1 = infinityPattern := ⟨infinityPattern - 1, by decide⟩
  have hfinite : q < overflowBound → p < infinityPattern := by
    intro hq
    by_contra hp
    have hp := Nat.le_of_not_lt hp
    have hadd := h.add_le_of_lt (show r < p by omega)
    have hle : (units infinityPattern : ℚ) ≤ units p := by
      exact_mod_cast units_strictMono.monotone hp
    have hlt := (lt_overflowBound_iff hr).mp hq
    linarith
  refine ⟨fun hq => ?_, fun hq s hs => ?_, fun hq s hs hne he => ?_, fun hq => ?_⟩
  · exact lt_of_le_of_lt (Nat.min_le_left _ _) (hfinite hq)
  · rw [Nat.min_eq_left (hfinite hq).le, abs_sub_patternValue, abs_sub_patternValue]
    exact (div_le_div_iff_of_pos_right unit_pos).mpr (h.nearest s)
  · rw [Nat.min_eq_left (hfinite hq).le] at hne he ⊢
    rw [abs_sub_patternValue, abs_sub_patternValue, div_left_inj' unit_pos.ne'] at he
    exact h.even hne he
  · rw [Nat.min_eq_right]
    by_contra hp
    have hp := Nat.lt_of_not_le hp
    have hadd := h.le_add_of_lt hp
    have hge := le_of_not_gt (mt (lt_overflowBound_iff hr).mpr (not_lt_of_ge hq))
    rcases Nat.lt_or_eq_of_le (show p ≤ r by omega) with hlt | rfl
    · have := units_lt hlt
      linarith
    · -- the greatest finite pattern is odd, so that a tie goes to infinity
      have heven := h.even_above (by rw [hr]; exact le_antisymm hadd hge)
      have hodd : infinityPattern % 2 = 0 := by decide
      omega

theorem nearestPattern_roundsTo (num : ℕ) {den : ℕ} (hd : 0 < den) :
    RoundsTo (num / den) (nearestPattern num den) := by
  obtain ⟨p, hp, hmin⟩ := exists_inCell num hd
  rw [hmin]
  refine InCell.roundsTo ?_
  rwa [div_mul_eq_mul_div]

lemma RoundsTo.unique {q : ℚ} {p r : ℕ} (hp : RoundsTo q p) (hr : RoundsTo q r) : p = r := by
  rcases lt_or_ge q overflowBound with hq | hq
  · wlog h : p < r generalizing p r
    · rcases Nat.lt_or_eq_of_le (Nat.le_of_not_lt h) with h' | h'
      · exact (this hr hp h').symm
      · exact h'.symm
    exfalso
    have hpr := patternValue_strictMono h
    have he : |q - patternValue p| = |q - patternValue r| :=
      le_antisymm (hp.nearest hq r (hr.finite hq)) (hr.nearest hq p (hp.finite hq))
    have hpe := hp.even hq r (hr.finite hq) h.ne' he.symm
    have hre := hr.even hq p (hp.finite hq) h.ne he
    -- both are even, so there is a pattern between them, and its number is nearer
    have hbetween : p + 1 < r := by omega
    have hlow := patternValue_strictMono p.lt_succ_self
    have hhigh := patternValue_strictMono hbetween
    have hnear := hp.nearest hq (p + 1) (hbetween.trans (hr.finite hq))
    have hmiddle : q - patternValue p = patternValue r - q := by
      rcases abs_cases (q - patternValue p) with ⟨ha, ha'⟩ | ⟨ha, ha'⟩ <;>
        rcases abs_cases (q - patternValue r) with ⟨hb, hb'⟩ | ⟨hb, hb'⟩ <;> linarith
    rw [abs_of_nonneg (by linarith)] at hnear
    rcases abs_cases (q - patternValue (p + 1)) with ⟨ha, ha'⟩ | ⟨ha, ha'⟩ <;> linarith
  · rw [hp.infinite hq, hr.infinite hq]

lemma RoundsTo.le_infinityPattern {q : ℚ} {p : ℕ} (h : RoundsTo q p) : p ≤ infinityPattern := by
  rcases lt_or_ge q overflowBound with hq | hq
  · exact (h.finite hq).le
  · exact (h.infinite hq).le

lemma middle_le {q a b : ℚ} (hab : b < a) (h : |q - a| ≤ |q - b|) : a + b ≤ 2 * q := by
  rcases abs_cases (q - a) with ⟨ha, ha'⟩ | ⟨ha, ha'⟩ <;>
    rcases abs_cases (q - b) with ⟨hb, hb'⟩ | ⟨hb, hb'⟩ <;> linarith

lemma le_middle {q a b : ℚ} (hab : a < b) (h : |q - a| ≤ |q - b|) : 2 * q ≤ a + b := by
  rcases abs_cases (q - a) with ⟨ha, ha'⟩ | ⟨ha, ha'⟩ <;>
    rcases abs_cases (q - b) with ⟨hb, hb'⟩ | ⟨hb, hb'⟩ <;> linarith

lemma RoundsTo.mono {q s : ℚ} {p r : ℕ} (hq : RoundsTo q p) (hs : RoundsTo s r) (h : q ≤ s) :
    p ≤ r := by
  rcases lt_or_ge s overflowBound with hlt | hge
  · by_contra hrp
    have hrp := Nat.lt_of_not_le hrp
    have hvalue := patternValue_strictMono hrp
    have hlow := middle_le hvalue (hq.nearest (h.trans_lt hlt) r (hs.finite hlt))
    have hhigh := le_middle hvalue (hs.nearest hlt p (hq.finite (h.trans_lt hlt)))
    -- both are the middle between the two numbers, and one number rounds to one pattern
    have hqs : q = s := by linarith
    exact hrp.ne (hs.unique (hqs ▸ hq))
  · rw [hs.infinite hge]
    exact hq.le_infinityPattern

lemma roundsTo_patternValue {p : ℕ} (hp : p < infinityPattern) : RoundsTo (patternValue p) p := by
  have hself : InCell (patternValue p * 2 ^ unitExponent) p := by
    rw [patternValue_eq, div_mul_cancel₀ _ unit_pos.ne']
    exact .of_units p
  have h := hself.roundsTo
  rwa [Nat.min_eq_left hp.le] at h

lemma roundsTo_zero_iff {q : ℚ} (h0 : 0 ≤ q) : RoundsTo q 0 ↔ q ≤ 2 ^ (-1075 : ℤ) := by
  have hhalf : (2 : ℚ) ^ (-1075 : ℤ) * 2 ^ unitExponent * 2 = 1 := by
    rw [mul_assoc, ← pow_succ, ← zpow_natCast, ← zpow_add₀ (by norm_num)]
    rfl
  have hzero : units 0 = 0 := by decide
  have hone : units 1 = 1 := by decide
  constructor
  · intro h
    have hq : q < overflowBound := by
      by_contra hq
      exact absurd (h.infinite (not_lt.mp hq)) (by decide)
    have hnear := h.nearest hq 1 (by decide)
    rw [abs_sub_patternValue, abs_sub_patternValue, div_le_div_iff_of_pos_right unit_pos, hzero,
      hone, Nat.cast_zero, sub_zero, Nat.cast_one, abs_of_nonneg (by positivity)] at hnear
    refine le_of_mul_le_mul_right ?_ unit_pos
    rcases abs_cases (q * 2 ^ unitExponent - 1) with ⟨ha, ha'⟩ | ⟨ha, ha'⟩ <;> linarith
  · intro h
    have hle := mul_le_mul_of_nonneg_right h unit_pos.le
    have hcell : InCell (q * 2 ^ unitExponent) 0 :=
      ⟨fun r hr => absurd hr r.succ_ne_zero, by rw [hzero, hone]; push_cast; linarith,
        fun r hr => absurd hr r.succ_ne_zero, fun _ => rfl⟩
    exact hcell.roundsTo

namespace Decimal

def toRat (d : Decimal) : ℚ := d.digits * 10 ^ d.exponent

lemma toRat_nonneg (d : Decimal) : 0 ≤ d.toRat := by
  rw [toRat]
  positivity

lemma overflowBound_le_toRat {d : Decimal} (hd : d.digits ≠ 0) (he : 310 ≤ d.exponent) :
    overflowBound ≤ d.toRat := by
  have hdigits : (1 : ℚ) ≤ d.digits := by exact_mod_cast Nat.one_le_iff_ne_zero.mpr hd
  have hpower : (10 : ℚ) ^ (310 : ℤ) ≤ 10 ^ d.exponent := zpow_le_zpow_right₀ (by norm_num) he
  have hlarge : (2 : ℚ) ^ 1024 ≤ 10 ^ (310 : ℤ) := by
    have hnat : 2 ^ 1024 ≤ 10 ^ 310 := by decide +kernel
    exact_mod_cast hnat
  calc overflowBound ≤ 2 ^ 1024 := by
        rw [overflowBound, sub_le_self_iff]
        positivity
    _ ≤ 10 ^ d.exponent := hlarge.trans hpower
    _ ≤ d.toRat := le_mul_of_one_le_left (by positivity) hdigits

lemma toRat_le_half_unit {d : Decimal} (he : d.exponent ≤ -(Nat.log2 d.digits + 330 : ℕ)) :
    d.toRat ≤ 2 ^ (-1075 : ℤ) := by
  have hdigits : (d.digits : ℚ) ≤ 2 * 10 ^ Nat.log2 d.digits := by
    have hlt := Nat.lt_log2_self (n := d.digits)
    have hle : 2 ^ Nat.log2 d.digits ≤ 10 ^ Nat.log2 d.digits :=
      Nat.pow_le_pow_left (by norm_num) _
    rw [pow_succ'] at hlt
    exact_mod_cast hlt.le.trans (Nat.mul_le_mul_left 2 hle)
  have hpower : (10 : ℚ) ^ d.exponent ≤ 10 ^ (-(Nat.log2 d.digits + 330 : ℕ) : ℤ) :=
    zpow_le_zpow_right₀ (by norm_num) he
  have hsmall : (2 : ℚ) * (10 ^ 330)⁻¹ ≤ 2 ^ (-1075 : ℤ) := by
    have hnat : 2 * 2 ^ 1075 ≤ 10 ^ 330 := by decide +kernel
    have hq : (2 * 2 ^ 1075 : ℚ) ≤ 10 ^ 330 := by exact_mod_cast hnat
    rw [zpow_neg, zpow_ofNat, ← div_eq_mul_inv, div_le_iff₀ (by positivity), ← div_eq_inv_mul,
      le_div_iff₀ (by positivity)]
    exact hq
  calc d.toRat ≤ 2 * 10 ^ Nat.log2 d.digits * 10 ^ (-(Nat.log2 d.digits + 330 : ℕ) : ℤ) :=
        mul_le_mul hdigits hpower (by positivity) (by positivity)
    _ = 2 * (10 ^ 330)⁻¹ := by
        rw [zpow_neg, zpow_natCast, pow_add, mul_inv, mul_assoc, ← mul_assoc (10 ^ _ : ℚ),
          mul_inv_cancel₀ (by positivity), one_mul]
    _ ≤ 2 ^ (-1075 : ℤ) := hsmall

theorem pattern_roundsTo (d : Decimal) : RoundsTo d.toRat d.pattern := by
  rw [pattern]
  split_ifs with hd hlarge hsmall hwhole
  · rw [toRat, hd, Nat.cast_zero, zero_mul]
    exact (roundsTo_zero_iff le_rfl).mpr (by positivity)
  · refine ⟨fun hq => ?_, fun hq => ?_, fun hq => ?_, fun _ => rfl⟩ <;>
      exact absurd hq (not_lt.mpr (overflowBound_le_toRat hd hlarge))
  · exact (roundsTo_zero_iff d.toRat_nonneg).mpr (toRat_le_half_unit hsmall)
  · have h := nearestPattern_roundsTo (d.digits * 10 ^ d.exponent.toNat) one_pos
    have hq : ((d.digits * 10 ^ d.exponent.toNat : ℕ) : ℚ) / (1 : ℕ) = d.toRat := by
      rw [Nat.cast_one, div_one, Nat.cast_mul, Nat.cast_pow, toRat, ← zpow_natCast,
        Int.toNat_of_nonneg hwhole]
      rfl
    rwa [hq] at h
  · have h := nearestPattern_roundsTo d.digits (show 0 < 10 ^ (-d.exponent).toNat by positivity)
    have hq : (d.digits : ℚ) / (10 ^ (-d.exponent).toNat : ℕ) = d.toRat := by
      rw [Nat.cast_pow, toRat, ← zpow_natCast, Int.toNat_of_nonneg (by omega), zpow_neg,
        div_inv_eq_mul]
      rfl
    rwa [hq] at h

end Decimal

lemma toNat_ofPattern {p : ℕ} (hp : p ≤ infinityPattern) :
    (Binary64.ofPattern p).bits.toNat = p := by
  have hlt : p < 2 ^ 64 := hp.trans_lt (by decide)
  exact Nat.mod_eq_of_lt hlt

lemma Decimal.toBinary64_roundsTo (d : Decimal) : RoundsTo d.toRat d.toBinary64.bits.toNat := by
  have h := d.pattern_roundsTo
  rw [toBinary64, toNat_ofPattern h.le_infinityPattern]
  exact h

lemma Binary64.eq_of_roundsTo {q : ℚ} {f g : Binary64} (hf : RoundsTo q f.bits.toNat)
    (hg : RoundsTo q g.bits.toNat) : f = g := by
  have hbits := UInt64.toNat_inj.mp (hf.unique hg)
  cases f
  cases g
  exact congrArg Binary64.mk hbits

end LCode.Number
