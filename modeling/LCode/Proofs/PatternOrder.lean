import LCode.Number.Rounding
import Mathlib

/-! A pattern's cell holds what is nearer to its number than to those of the patterns next to it. -/

namespace LCode.Number

lemma units_eq (p : ℕ) : units p = if p / 2 ^ 52 = 0 then p % 2 ^ 52 else
    (2 ^ 52 + p % 2 ^ 52) * 2 ^ (p / 2 ^ 52 - 1) := rfl

lemma units_succ (p : ℕ) : units (p + 1) = units p + 2 ^ (p / 2 ^ 52 - 1) := by
  rw [units_eq, units_eq]
  by_cases hc : p % 2 ^ 52 = 2 ^ 52 - 1
  · -- the fraction is full, so the exponent grows by one
    have hd : (p + 1) / 2 ^ 52 = p / 2 ^ 52 + 1 := by omega
    have hm : (p + 1) % 2 ^ 52 = 0 := by omega
    rw [hd, hm, hc]
    cases he : p / 2 ^ 52 with
    | zero => norm_num
    | succ e =>
      rw [if_neg (by omega), if_neg (by omega)]
      simp only [Nat.add_sub_cancel, pow_succ (2 : ℕ) e]
      ring_nf
  · have hd : (p + 1) / 2 ^ 52 = p / 2 ^ 52 := by omega
    have hm : (p + 1) % 2 ^ 52 = p % 2 ^ 52 + 1 := by omega
    rw [hd, hm]
    split
    next h => rw [h, Nat.zero_sub, pow_zero]
    next => ring

lemma units_strictMono : StrictMono units := by
  refine strictMono_nat_of_lt_succ fun p => ?_
  rw [units_succ]
  exact Nat.lt_add_of_pos_right (Nat.two_pow_pos _)

/-- `m` steps of `2^s` units have a pattern if `m` has at most 53 binary digits, and not less where
steps are greater than units. -/
lemma units_steps {s m : ℕ} (hm : m ≤ 2 ^ 53) (hs : s = 0 ∨ 2 ^ 52 ≤ m) :
    units (s * 2 ^ 52 + m) = m * 2 ^ s := by
  rw [units_eq, Nat.mul_add_mod_self_right, Nat.add_comm, Nat.add_mul_div_right _ _ (by norm_num)]
  have hcases : m < 2 ^ 52 ∨ 2 ^ 52 ≤ m ∧ m < 2 ^ 53 ∨ m = 2 ^ 53 := by omega
  rcases hcases with h | ⟨h, h'⟩ | rfl
  · have hs : s = 0 := hs.resolve_right (Nat.not_le_of_lt h)
    rw [hs, Nat.div_eq_of_lt h, if_pos rfl, Nat.mod_eq_of_lt h, pow_zero, Nat.mul_one]
  · have hd : m / 2 ^ 52 = 1 := by omega
    have hr : 2 ^ 52 + m % 2 ^ 52 = m := by omega
    rw [hd, if_neg (by omega), hr, Nat.add_sub_cancel_left]
  · have hd : 2 ^ 53 / 2 ^ 52 + s - 1 = s + 1 := by omega
    rw [hd, if_neg (by omega), pow_succ]
    norm_num
    ring

section

variable {p r : ℕ}

lemma units_lt (h : p < r) : (units p : ℚ) < units r :=
  Nat.cast_lt.mpr (units_strictMono h)

lemma units_succ_le (h : p < r) : (units (p + 1) : ℚ) ≤ units r :=
  Nat.cast_le.mpr (units_strictMono.monotone h)

lemma exists_pred (h : r < p) : ∃ k, k + 1 = p ∧ (units r : ℚ) ≤ units k := by
  obtain ⟨k, rfl⟩ := Nat.exists_eq_add_of_lt h
  exact ⟨r + k, rfl, Nat.cast_le.mpr (units_strictMono.monotone (Nat.le_add_right r k))⟩

end

/-- `u` units are nearer to a pattern's number than to those of the patterns next to it, or as near
as to one of them, if the pattern is even. -/
structure InCell (u : ℚ) (p : ℕ) : Prop where
  below : ∀ r, r + 1 = p → (units r + units p : ℚ) ≤ 2 * u
  above : 2 * u ≤ (units p + units (p + 1) : ℚ)
  even_below : ∀ r, r + 1 = p → (units r + units p : ℚ) = 2 * u → p % 2 = 0
  even_above : 2 * u = (units p + units (p + 1) : ℚ) → p % 2 = 0

namespace InCell

variable {u : ℚ} {p r : ℕ}

lemma add_le_of_lt (h : InCell u p) (hr : r < p) : (units r + units p : ℚ) ≤ 2 * u := by
  obtain ⟨k, hk, hle⟩ := exists_pred hr
  linarith [h.below k hk]

lemma le_add_of_lt (h : InCell u p) (hr : p < r) : 2 * u ≤ (units p + units r : ℚ) := by
  linarith [h.above, units_succ_le hr]

lemma nearest (h : InCell u p) (r : ℕ) : |u - units p| ≤ |u - units r| := by
  rcases lt_trichotomy r p with hr | rfl | hr
  · have hlt := units_lt hr
    have hle := h.add_le_of_lt hr
    rw [abs_of_pos (by linarith : 0 < u - units r), abs_le]
    constructor <;> linarith
  · exact le_rfl
  · have hlt := units_lt hr
    have hle := h.le_add_of_lt hr
    rw [abs_of_neg (by linarith : u - units r < 0), abs_le]
    constructor <;> linarith

lemma even (h : InCell u p) (hr : r ≠ p) (he : |u - units r| = |u - units p|) : p % 2 = 0 := by
  rcases lt_or_gt_of_ne hr with hr | hr
  · obtain ⟨k, hk, hle⟩ := exists_pred hr
    have hlt := units_lt hr
    have hb := h.below k hk
    rw [abs_of_pos (by linarith : 0 < u - units r)] at he
    refine h.even_below k hk (le_antisymm hb ?_)
    rcases abs_cases (u - units p : ℚ) with ⟨ha, -⟩ | ⟨ha, -⟩ <;> linarith
  · have hlt := units_lt hr
    have hle := units_succ_le hr
    have hb := h.above
    rw [abs_of_neg (by linarith : u - units r < 0)] at he
    refine h.even_above (le_antisymm hb ?_)
    rcases abs_cases (u - units p : ℚ) with ⟨ha, -⟩ | ⟨ha, -⟩ <;> linarith

lemma of_units (p : ℕ) : InCell (units p) p where
  below r hr := by linarith [units_lt (show r < p by omega)]
  above := by linarith [units_lt p.lt_succ_self]
  even_below r hr he := by linarith [units_lt (show r < p by omega)]
  even_above he := by linarith [units_lt p.lt_succ_self]

end InCell

/-- The error of a rounded quotient is at most half of the denominator, and less if it is odd. -/
structure RoundedDiv (num den m : ℕ) : Prop where
  below : 2 * (m * den) ≤ 2 * num + den
  above : 2 * num ≤ 2 * (m * den) + den
  even_below : 2 * (m * den) = 2 * num + den → m % 2 = 0
  even_above : 2 * num = 2 * (m * den) + den → m % 2 = 0
  floor_le : num / den ≤ m
  le_floor : m ≤ num / den + 1

lemma roundedDiv {num den : ℕ} (hd : 0 < den) : RoundedDiv num den (roundDiv num den) := by
  have hnum : num / den * den + num % den = num := Nat.div_add_mod' num den
  have hlt : num % den < den := Nat.mod_lt num hd
  have hsucc : (num / den + 1) * den = num / den * den + den := Nat.succ_mul _ _
  have hparity : num / den % 2 = 0 ∨ num / den % 2 = 1 := Nat.mod_two_eq_zero_or_one _
  rw [roundDiv]
  split_ifs with h h'
  · constructor <;> omega
  · rcases hparity with hq | hq
    · rw [hq, Nat.add_zero]
      constructor <;> omega
    · rw [hq]
      constructor <;> omega
  · constructor <;> omega

lemma RoundedDiv.error {a b s m : ℕ} (hb : 0 < b) (h : RoundedDiv a (b * 2 ^ s) m) :
    (2 * (m * 2 ^ s) ≤ 2 * (a / b : ℚ) + 2 ^ s ∧ 2 * (a / b : ℚ) ≤ 2 * (m * 2 ^ s) + 2 ^ s) ∧
      (2 * (m * 2 ^ s) = 2 * (a / b : ℚ) + 2 ^ s → m % 2 = 0) ∧
      (2 * (a / b : ℚ) = 2 * (m * 2 ^ s) + 2 ^ s → m % 2 = 0) := by
  have hbq : (0 : ℚ) < b := Nat.cast_pos.mpr hb
  have ha : (a : ℚ) = a / b * b := (div_mul_cancel₀ _ hbq.ne').symm
  have hbelow : (2 * (m * (b * 2 ^ s)) : ℚ) ≤ 2 * a + b * 2 ^ s := by exact_mod_cast h.below
  have habove : (2 * a : ℚ) ≤ 2 * (m * (b * 2 ^ s)) + b * 2 ^ s := by exact_mod_cast h.above
  rw [ha] at hbelow habove
  refine ⟨⟨?_, ?_⟩, fun he => h.even_below ?_, fun he => h.even_above ?_⟩
  · exact le_of_mul_le_mul_right (by linarith) hbq
  · exact le_of_mul_le_mul_right (by linarith) hbq
  · have hq : (2 * (m * (b * 2 ^ s)) : ℚ) = 2 * a + b * 2 ^ s := by
      rw [ha]
      linear_combination (b : ℚ) * he
    exact_mod_cast hq
  · have hq : (2 * a : ℚ) = 2 * (m * (b * 2 ^ s)) + b * 2 ^ s := by
      rw [ha]
      linear_combination (b : ℚ) * he
    exact_mod_cast hq

section

variable {s m p r : ℕ}

lemma add_step_le_units_succ (hp : s * 2 ^ 52 + m = p) (hs : s = 0 ∨ 2 ^ 52 ≤ m)
    (hunits : (units p : ℚ) = m * 2 ^ s) : (m * 2 ^ s + 2 ^ s : ℚ) ≤ units (p + 1) := by
  have hstep : (2 : ℚ) ^ s ≤ 2 ^ (p / 2 ^ 52 - 1) :=
    pow_le_pow_right₀ (by norm_num) (by omega)
  rw [units_succ, Nat.cast_add, hunits]
  push_cast
  linarith

lemma units_pred_add_step (hp : s * 2 ^ 52 + m = p) (hr : r + 1 = p) (hm : m ≤ 2 ^ 53)
    (hs : s = 0 ∨ 2 ^ 52 < m) (hunits : (units p : ℚ) = m * 2 ^ s) :
    (units r + 2 ^ s : ℚ) = m * 2 ^ s := by
  have he : r / 2 ^ 52 - 1 = s := by omega
  rw [← hunits, ← hr, units_succ, he]
  push_cast
  rfl

end

lemma inCell_steps {a b s m p : ℕ} (hb : 0 < b) (h : RoundedDiv a (b * 2 ^ s) m)
    (hm : m ≤ 2 ^ 53) (hs : s = 0 ∨ 2 ^ 52 ≤ m ∧ 2 ^ 52 * 2 ^ s ≤ a / b)
    (hp : s * 2 ^ 52 + m = p) : InCell (a / b) p := by
  have hunits : (units p : ℚ) = m * 2 ^ s := by
    rw [← hp]
    exact_mod_cast units_steps hm (hs.imp_right And.left)
  have hparity : p % 2 = m % 2 := by omega
  obtain ⟨⟨hbelow, habove⟩, hevenBelow, hevenAbove⟩ := h.error hb
  have hpos : (0 : ℚ) < 2 ^ s := by positivity
  have hup := add_step_le_units_succ hp (hs.imp_right And.left) hunits
  -- where the steps below are smaller, nothing has been rounded up
  have hdown : ∀ r, r + 1 = p → (units r : ℚ) < m * 2 ^ s ∧
      ((units r + 2 ^ s : ℚ) = m * 2 ^ s ∨ (m * 2 ^ s : ℚ) ≤ a / b) := by
    intro r hr
    refine ⟨hunits ▸ units_lt (show r < p by omega), ?_⟩
    by_cases hc : s ≠ 0 ∧ m = 2 ^ 52
    · obtain ⟨-, hle⟩ := hs.resolve_left hc.1
      have hfloor : ((a / b : ℕ) : ℚ) ≤ a / b := Nat.cast_div_le
      have hq : (2 ^ 52 * 2 ^ s : ℚ) ≤ (a / b : ℕ) := by exact_mod_cast hle
      rw [hc.2]
      push_cast
      exact Or.inr (hq.trans hfloor)
    · exact Or.inl (units_pred_add_step hp hr hm (by omega) hunits)
  constructor
  · intro r hr
    obtain ⟨hlt, hr | hr⟩ := hdown r hr <;> linarith
  · linarith
  · intro r hr he
    obtain ⟨hlt, hr | hr⟩ := hdown r hr
    · exact hparity.trans (hevenBelow (by linarith))
    · linarith
  · intro he
    exact hparity.trans (hevenAbove (by linarith))

lemma inCell_rounded (a : ℕ) {b : ℕ} (hb : 0 < b) :
    InCell (a / b) ((Nat.log2 (a / b) - 52) * 2 ^ 52 +
      roundDiv a (b * 2 ^ (Nat.log2 (a / b) - 52))) := by
  generalize hs : Nat.log2 (a / b) - 52 = s
  have hround : RoundedDiv a (b * 2 ^ s) (roundDiv a (b * 2 ^ s)) := roundedDiv (by positivity)
  have hlog : a / b < 2 ^ (s + 53) := by
    refine (Nat.lt_log2_self (n := a / b)).trans_le (Nat.pow_le_pow_right (by norm_num) ?_)
    omega
  have hfloor : a / (b * 2 ^ s) < 2 ^ 53 := by
    rw [← Nat.div_div_eq_div_mul, Nat.div_lt_iff_lt_mul (by positivity), ← pow_add, Nat.add_comm]
    exact hlog
  refine inCell_steps hb hround (hround.le_floor.trans hfloor) ?_ rfl
  rcases Nat.eq_zero_or_pos s with h0 | hpos
  · exact Or.inl h0
  · have hle : 2 ^ 52 * 2 ^ s ≤ a / b := by
      have he : 52 + s = Nat.log2 (a / b) := by omega
      rw [← pow_add, he]
      refine Nat.log2_self_le fun h0 => ?_
      rw [h0, Nat.log2_zero] at hs
      omega
    refine Or.inr ⟨le_trans ?_ hround.floor_le, hle⟩
    rw [← Nat.div_div_eq_div_mul, Nat.le_div_iff_mul_le (by positivity)]
    exact hle

theorem exists_inCell (num : ℕ) {den : ℕ} (hd : 0 < den) :
    ∃ p, InCell (num * 2 ^ unitExponent / den) p ∧
      nearestPattern num den = min p infinityPattern := by
  have h := inCell_rounded (num * 2 ^ unitExponent) hd
  rw [Nat.cast_mul, Nat.cast_pow, Nat.cast_two] at h
  exact ⟨_, h, by simp only [nearestPattern, fractionBits, Nat.pow_eq]⟩

end LCode.Number
