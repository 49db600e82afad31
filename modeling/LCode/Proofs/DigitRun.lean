import LCode.Lexeme.FloatLiteral
import Mathlib

/-! A run of digits is zeros and then the decimal text of its value. -/

namespace LCode.Lexeme

lemma digit_lt_ten {c : Char} (h : c.isDigit = true) : c.toNat - '0'.toNat < 10 := by
  obtain ⟨_, hle⟩ := Char.isDigit_iff_toNat.mp h
  have hnine : '9'.toNat = 57 := rfl
  have hzero : '0'.toNat = 48 := rfl
  omega

lemma digitChar_of_isDigit {c : Char} (h : c.isDigit = true) :
    (c.toNat - '0'.toNat).digitChar = c := by
  obtain ⟨hge, hle⟩ := Char.isDigit_iff_toNat.mp h
  rw [← Char.ofNat_toNat c]
  have hnine : '9'.toNat = 57 := rfl
  have hzero : '0'.toNat = 48 := rfl
  rw [hnine] at hle
  rw [hzero] at hge
  generalize c.toNat = n at hge hle
  interval_cases n <;> rfl

lemma digitsValue_concat (ds : List Char) (c : Char) :
    digitsValue (ds ++ [c]) = 10 * digitsValue ds + (c.toNat - '0'.toNat) := by
  rw [digitsValue, Nat.ofDigitChars_append, Nat.ofDigitChars_cons, Nat.ofDigitChars_nil]
  rfl

lemma isDigit_of_mem_toDigits {n : ℕ} : ∀ c ∈ Nat.toDigits 10 n, c.isDigit = true :=
  fun _ h => Nat.isDigit_of_mem_toDigits (by decide) le_rfl h

lemma digitsValue_toDigits (n : ℕ) : digitsValue (Nat.toDigits 10 n) = n :=
  Nat.ofDigitChars_ten_toDigits

lemma toDigits_of_isDigit {c : Char} (h : c.isDigit = true) :
    Nat.toDigits 10 (c.toNat - '0'.toNat) = [c] := by
  rw [Nat.toDigits_of_lt_base (digit_lt_ten h), digitChar_of_isDigit h]

lemma eq_zeros_append_toDigits {ds : List Char} (hne : ds ≠ []) (hd : ∀ c ∈ ds, c.isDigit = true) :
    ∃ zeros, ds = List.replicate zeros '0' ++ Nat.toDigits 10 (digitsValue ds) := by
  induction ds using List.reverseRecOn with
  | nil => exact absurd rfl hne
  | append_singleton ds c ih =>
    have hc : c.isDigit = true := hd c (List.mem_append_right ds List.mem_cons_self)
    rw [digitsValue_concat]
    cases ds with
    | nil =>
      refine ⟨0, ?_⟩
      have hv : 10 * digitsValue [] + (c.toNat - '0'.toNat) = c.toNat - '0'.toNat := Nat.zero_add _
      rw [hv, toDigits_of_isDigit hc]
      rfl
    | cons d ds =>
      obtain ⟨zeros, hz⟩ := ih (List.cons_ne_nil d ds) fun e he => hd e (List.mem_append_left _ he)
      rcases Nat.eq_zero_or_pos (digitsValue (d :: ds)) with hv | hv
      · -- the run before the last digit is all zeros, and one of them stands for its value
        refine ⟨zeros + 1, ?_⟩
        rw [hv, Nat.mul_zero, Nat.zero_add, toDigits_of_isDigit hc]
        rw [hv, Nat.toDigits_zero, ← List.replicate_succ'] at hz
        rw [hz]
      · refine ⟨zeros, ?_⟩
        have hlt := digit_lt_ten hc
        rw [← Nat.toDigits_append_toDigits (by decide) hv hlt, toDigits_of_isDigit hc,
          ← List.append_assoc, ← hz]

end LCode.Lexeme
