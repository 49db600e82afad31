import LCode.Lexeme.Meaning
import LCode.Proofs.FloatReading

namespace LCode

open Lexeme Number Pattern
open scoped Computability

namespace Lexeme

/-- Digits, with a point before, between or after them or without one, and perhaps an exponent. -/
def decimalGrammar : Pattern :=
  seq (alt digits (alt (seq digits (seq (char (· = '.')) (star (char Char.isDigit))))
    (seq (star (char Char.isDigit)) (seq (char (· = '.')) digits)))) (optional exponentPart)

structure Exponent.WellFormed (e : Exponent) : Prop where
  mark : isExponentMark e.mark = true
  sign : ∀ s ∈ e.sign, isSign s = true
  nonempty : e.digits ≠ []
  digits : ∀ c ∈ e.digits, c.isDigit = true

lemma mem_digits_iff {x : List Char} :
    x ∈ digits.language ↔ x ≠ [] ∧ ∀ c ∈ x, c.isDigit = true := by
  constructor
  · intro h
    obtain ⟨c, z, rfl, hc, hz⟩ := LexemeClass.mem_language_char_star h
    exact ⟨List.cons_ne_nil c z, List.forall_mem_cons.mpr ⟨hc, hz⟩⟩
  · rintro ⟨hne, hd⟩
    exact mem_digits hne hd

lemma exists_toList_of_mem_optional {p : Char → Bool} {x : List Char}
    (h : x ∈ (optional (char p)).language) :
    ∃ o : Option Char, x = o.toList ∧ ∀ c ∈ o, p c = true := by
  rcases mem_language_alt.mp h with ⟨c, hc, rfl⟩ | h
  · exact ⟨some c, rfl, by simpa using hc⟩
  · exact ⟨none, mem_language_empty.mp h, by simp⟩

lemma exists_chars_of_mem_exponentPart {x : List Char} (h : x ∈ exponentPart.language) :
    ∃ e : Exponent, x = e.chars ∧ e.WellFormed := by
  obtain ⟨_, ⟨m, hm, rfl⟩, _, ht, rfl⟩ := mem_language_seq.mp h
  obtain ⟨_, hs, ds, hd, rfl⟩ := mem_language_seq.mp ht
  obtain ⟨o, rfl, ho⟩ := exists_toList_of_mem_optional hs
  obtain ⟨hne, hd⟩ := mem_digits_iff.mp hd
  exact ⟨⟨m, o, ds⟩, rfl, hm, ho, hne, hd⟩

lemma exists_chars_of_mem_optional {x : List Char} (h : x ∈ (optional exponentPart).language) :
    ∃ o : Option Exponent, x = (o.map Exponent.chars).getD [] ∧ ∀ e ∈ o, e.WellFormed := by
  rcases mem_language_alt.mp h with h | h
  · obtain ⟨e, rfl, he⟩ := exists_chars_of_mem_exponentPart h
    exact ⟨some e, rfl, by simpa using he⟩
  · exact ⟨none, mem_language_empty.mp h, by simp⟩

lemma exists_of_mem_pointed {x : List Char} (h : x ∈ pointed.language) :
    ∃ whole ds, x = whole ++ '.' :: ds ∧ whole ++ ds ≠ [] ∧ (∀ c ∈ whole, c.isDigit = true) ∧
      ∀ c ∈ ds, c.isDigit = true := by
  rcases mem_language_alt.mp h with h | h
  · obtain ⟨whole, hw, _, ht, rfl⟩ := mem_language_seq.mp h
    obtain ⟨_, ⟨p, hp, rfl⟩, ds, hd, rfl⟩ := mem_language_seq.mp ht
    obtain rfl := of_decide_eq_true hp
    obtain ⟨hne, hw⟩ := mem_digits_iff.mp hw
    exact ⟨whole, ds, rfl, by simp [hne], hw, mem_language_star_char.mp hd⟩
  · obtain ⟨_, ⟨p, hp, rfl⟩, ds, hd, rfl⟩ := mem_language_seq.mp h
    obtain rfl := of_decide_eq_true hp
    obtain ⟨hne, hd⟩ := mem_digits_iff.mp hd
    exact ⟨[], ds, rfl, hne, by simp, hd⟩

namespace FloatLiteral

lemma wellFormed_of_parts {whole : List Char} {fraction : Option (List Char)}
    {exponent : Option Exponent} {suffix : Option Char} (hw : ∀ c ∈ whole, c.isDigit = true)
    (hf : ∀ ds ∈ fraction, ∀ c ∈ ds, c.isDigit = true) (he : ∀ e ∈ exponent, e.WellFormed)
    (hs : ∀ s ∈ suffix, isFloatSuffix s = true) :
    (⟨whole, fraction, exponent, suffix⟩ : FloatLiteral).WellFormed where
  whole := hw
  fraction := hf
  mark e h := (he e h).mark
  sign e h := (he e h).sign
  digits e h := (he e h).digits
  suffix := hs

lemma exists_chars_of_mem {x : List Char} (h : x ∈ floatGrammar.language) :
    ∃ l : FloatLiteral, l.chars = x ∧ l.WellFormed ∧ l.isComplete = true := by
  rw [floatGrammar, mem_language_alt, mem_language_alt] at h
  rcases h with h | h | h
  · obtain ⟨_, hpointed, _, ht, rfl⟩ := mem_language_seq.mp h
    obtain ⟨_, hexponent, _, hsuffix, rfl⟩ := mem_language_seq.mp ht
    obtain ⟨whole, ds, rfl, hne, hw, hd⟩ := exists_of_mem_pointed hpointed
    obtain ⟨e, rfl, he⟩ := exists_chars_of_mem_optional hexponent
    obtain ⟨s, rfl, hs⟩ := exists_toList_of_mem_optional hsuffix
    refine ⟨⟨whole, some ds, e, s⟩, by simp [chars],
      wellFormed_of_parts hw (by simpa using hd) he hs, isComplete_iff.mpr ⟨hne, ?_, Or.inl rfl⟩⟩
    exact fun e h => (he e h).nonempty
  · obtain ⟨whole, hdigits, _, ht, rfl⟩ := mem_language_seq.mp h
    obtain ⟨_, hexponent, _, hsuffix, rfl⟩ := mem_language_seq.mp ht
    obtain ⟨hne, hw⟩ := mem_digits_iff.mp hdigits
    obtain ⟨e, rfl, he⟩ := exists_chars_of_mem_exponentPart hexponent
    obtain ⟨s, rfl, hs⟩ := exists_toList_of_mem_optional hsuffix
    refine ⟨⟨whole, none, some e, s⟩, by simp [chars],
      wellFormed_of_parts hw (by simp) (by simpa using he) hs, isComplete_iff.mpr ⟨?_, ?_, ?_⟩⟩
    · simpa [fractionDigits] using hne
    · simpa using he.nonempty
    · exact Or.inr (Or.inl rfl)
  · obtain ⟨whole, hdigits, _, ⟨s, hs, rfl⟩, rfl⟩ := mem_language_seq.mp h
    obtain ⟨hne, hw⟩ := mem_digits_iff.mp hdigits
    refine ⟨⟨whole, none, none, some s⟩, by simp [chars],
      wellFormed_of_parts hw (by simp) (by simp) (by simpa using hs),
      isComplete_iff.mpr ⟨?_, ?_, ?_⟩⟩
    · simpa [fractionDigits] using hne
    · simp
    · exact Or.inr (Or.inr rfl)

end FloatLiteral

lemma ends_of_isExponentMark {c : Char} (h : isExponentMark c = true) :
    c.isDigit = false ∧ c ≠ '.' := by
  simp only [isExponentMark, Bool.or_eq_true, decide_eq_true_eq] at h
  rcases h with rfl | rfl <;> decide

lemma ends_of_isFloatSuffix {c : Char} (h : isFloatSuffix c = true) :
    c.isDigit = false ∧ isExponentMark c = false ∧ c ≠ '.' := by
  simp only [isFloatSuffix, Bool.or_eq_true, decide_eq_true_eq] at h
  rcases h with ((rfl | rfl) | rfl) | rfl <;> decide

lemma splitChar_toList_append {p : Char → Bool} {o : Option Char} {rest : List Char}
    (ho : ∀ c ∈ o, p c = true) (hr : ∀ c ∈ rest.head?, p c = false) :
    splitChar p (o.toList ++ rest) = (o, rest) := by
  cases o with
  | some c => simp [splitChar, ho c rfl]
  | none =>
    cases rest with
    | nil => rfl
    | cons c rest => simp [splitChar, hr c rfl]

lemma splitFraction_append_of_head {fraction : Option (List Char)} {rest : List Char}
    (hf : ∀ ds ∈ fraction, ∀ c ∈ ds, c.isDigit = true)
    (hr : ∀ c ∈ rest.head?, c.isDigit = false ∧ c ≠ '.') :
    splitFraction ((fraction.map ('.' :: ·)).getD [] ++ rest) = (fraction, rest) := by
  cases fraction with
  | some ds =>
    obtain ⟨htake, hdrop⟩ :=
      FloatLiteral.takeWhile_dropWhile_append (hf ds rfl) fun c hc => (hr c hc).1
    simp [splitFraction, splitChar, htake, hdrop]
  | none =>
    cases rest with
    | nil => rfl
    | cons c rest => simp [splitFraction, splitChar, (hr c rfl).2]

lemma splitExponent_append_of_head {exponent : Option Exponent} {rest : List Char}
    (he : ∀ e ∈ exponent, e.WellFormed)
    (hr : ∀ c ∈ rest.head?, c.isDigit = false ∧ isExponentMark c = false) :
    splitExponent ((exponent.map Exponent.chars).getD [] ++ rest) = (exponent, rest) := by
  cases exponent with
  | some e =>
    obtain ⟨hm, hs, hne, hd⟩ := he e rfl
    obtain ⟨htake, hdrop⟩ :=
      FloatLiteral.takeWhile_dropWhile_append hd fun c hc => (hr c hc).1
    have hsign : splitChar isSign (e.sign.toList ++ (e.digits ++ rest)) =
        (e.sign, e.digits ++ rest) := by
      apply splitChar_toList_append hs
      intro c hc
      rw [List.head?_append_of_ne_nil _ hne] at hc
      exact not_isSign_of_isDigit (hd c (List.mem_of_head? hc))
    have hmark : splitChar isExponentMark (e.mark :: (e.sign.toList ++ (e.digits ++ rest))) =
        (some e.mark, e.sign.toList ++ (e.digits ++ rest)) := by
      rw [splitChar, if_pos hm]
    simp only [Option.map_some, Option.getD_some, Exponent.chars, List.cons_append,
      List.append_assoc, splitExponent, hmark, hsign, htake, hdrop]
  | none =>
    cases rest with
    | nil => rfl
    | cons c rest => simp [splitExponent, splitChar, (hr c rfl).2]

namespace FloatLiteral

variable {l : FloatLiteral}

lemma exponent_wellFormed (hw : l.WellFormed) (hc : l.isComplete = true) :
    ∀ e ∈ l.exponent, e.WellFormed := fun e he =>
  ⟨hw.mark e he, hw.sign e he, (isComplete_iff.mp hc).2.1 e he, hw.digits e he⟩

lemma head_suffix (hw : l.WellFormed) :
    ∀ c ∈ l.suffix.toList.head?, c.isDigit = false ∧ isExponentMark c = false ∧ c ≠ '.' := by
  intro c hc
  rw [Option.head?_toList] at hc
  exact ends_of_isFloatSuffix (hw.suffix c hc)

lemma head_exponent (hw : l.WellFormed) :
    ∀ c ∈ ((l.exponent.map Exponent.chars).getD [] ++ l.suffix.toList).head?,
      c.isDigit = false ∧ c ≠ '.' := by
  intro c hc
  cases he : l.exponent with
  | some e =>
    rw [he] at hc
    obtain rfl : e.mark = c := Option.some.inj hc
    exact ends_of_isExponentMark (hw.mark e he)
  | none =>
    rw [he] at hc
    exact ⟨(head_suffix hw c hc).1, (head_suffix hw c hc).2.2⟩

lemma head_fraction (hw : l.WellFormed) :
    ∀ c ∈ ((l.fraction.map ('.' :: ·)).getD [] ++
      ((l.exponent.map Exponent.chars).getD [] ++ l.suffix.toList)).head?, c.isDigit = false := by
  intro c hc
  cases hf : l.fraction with
  | some ds =>
    rw [hf] at hc
    obtain rfl : '.' = c := Option.some.inj hc
    rfl
  | none =>
    rw [hf] at hc
    exact (head_exponent hw c hc).1

theorem split_chars (hw : l.WellFormed) (hc : l.isComplete = true) : split l.chars = (l, []) := by
  obtain ⟨hwhole, hfraction⟩ := takeWhile_dropWhile_append hw.whole (head_fraction hw)
  have hexponent := splitExponent_append_of_head (exponent_wellFormed hw hc) fun c h =>
    ⟨(head_suffix hw c h).1, (head_suffix hw c h).2.1⟩
  have hsuffix : splitChar isFloatSuffix (l.suffix.toList ++ []) = (l.suffix, []) :=
    splitChar_toList_append hw.suffix (by simp)
  rw [List.append_nil] at hsuffix
  simp only [split, chars, List.append_assoc, hwhole, hfraction,
    splitFraction_append_of_head hw.fraction (head_exponent hw), hexponent, hsuffix]

theorem ofChars?_isSome_iff {x : List Char} :
    (∃ l, ofChars? x = some l) ↔ x ∈ floatGrammar.language := by
  constructor
  · rintro ⟨l, h⟩
    obtain ⟨rfl, hw, hc⟩ := ofChars?_spec h
    exact chars_mem_floatGrammar hw hc
  · intro h
    obtain ⟨l, rfl, hw, hc⟩ := exists_chars_of_mem h
    exact ⟨l, by simp [ofChars?, split_chars hw hc, hc]⟩

theorem body_mem_decimalGrammar (hw : l.WellFormed) (hc : l.isComplete = true) :
    l.body ∈ decimalGrammar.language := by
  obtain ⟨hne, he, -⟩ := isComplete_iff.mp hc
  refine mem_language_seq.mpr ⟨l.significand, ?_, _, exponent_mem_optional hw he, rfl⟩
  rw [mem_language_alt, mem_language_alt]
  cases hf : l.fraction with
  | none =>
    rw [fractionDigits, hf, Option.getD_none, List.append_nil] at hne
    rw [significand, hf, Option.map_none, Option.getD_none, List.append_nil]
    exact Or.inl (mem_digits hne hw.whole)
  | some ds =>
    rcases mem_language_alt.mp (significand_mem_pointed hw hf hne) with h | h
    · exact Or.inr (Or.inl h)
    · refine Or.inr (Or.inr (mem_language_seq.mpr ⟨[], ?_, _, h, rfl⟩))
      exact mem_language_star_char.mpr (by simp)

lemma exists_not_isDigit (hw : l.WellFormed) (hc : l.isComplete = true) :
    ∃ c ∈ l.chars, c.isDigit = false := by
  obtain ⟨-, -, h | h | h⟩ := isComplete_iff.mp hc
  · obtain ⟨ds, hf⟩ := Option.isSome_iff_exists.mp h
    exact ⟨'.', by simp [chars, hf], rfl⟩
  · obtain ⟨e, he⟩ := Option.isSome_iff_exists.mp h
    exact ⟨e.mark, by simp [chars, he, Exponent.chars], (ends_of_isExponentMark (hw.mark e he)).1⟩
  · obtain ⟨s, hs⟩ := Option.isSome_iff_exists.mp h
    exact ⟨s, by simp [chars, hs], (ends_of_isFloatSuffix (hw.suffix s hs)).1⟩

end FloatLiteral

lemma not_mem_floatGrammar_of_digits {x : List Char} (h : x ∈ digits.language) :
    x ∉ floatGrammar.language := by
  intro hx
  obtain ⟨l, rfl, hw, hc⟩ := FloatLiteral.exists_chars_of_mem hx
  obtain ⟨c, hmem, hd⟩ := FloatLiteral.exists_not_isDigit hw hc
  rw [(mem_digits_iff.mp h).2 c hmem] at hd
  cases hd

lemma numeralKind?_of_digits {x : List Char} (h : x ∈ digits.language) :
    numeralKind? x = some (.integer (digitsValue x)) := by
  obtain ⟨hne, hd⟩ := mem_digits_iff.mp h
  exact if_pos ⟨hne, List.all_eq_true.mpr hd⟩

lemma numeralKind?_of_not_digits {x : List Char} (h : x ∉ digits.language) :
    numeralKind? x = (FloatLiteral.ofChars? x).map fun l => .float l.value.toBinary64 :=
  if_neg fun hx => h (mem_digits_iff.mpr ⟨hx.1, List.all_eq_true.mp hx.2⟩)

lemma numeralKind?_of_float {x : List Char} (h : x ∈ floatGrammar.language) :
    ∃ l : FloatLiteral, l.chars = x ∧ l.WellFormed ∧ l.isComplete = true ∧
      numeralKind? x = some (.float l.value.toBinary64) := by
  obtain ⟨l, hl⟩ := FloatLiteral.ofChars?_isSome_iff.mpr h
  obtain ⟨hx, hw, hc⟩ := FloatLiteral.ofChars?_spec hl
  refine ⟨l, hx, hw, hc, ?_⟩
  rw [numeralKind?_of_not_digits fun hd => not_mem_floatGrammar_of_digits hd h, hl, Option.map_some]

lemma numeralKind?_eq_integer_iff {x : List Char} {v : Int} :
    numeralKind? x = some (.integer v) ↔ x ∈ digits.language ∧ v = Nat.ofDigitChars 10 x 0 := by
  by_cases hd : x ∈ digits.language
  · rw [numeralKind?_of_digits hd, digitsValue]
    simp [hd, eq_comm]
  · rw [numeralKind?_of_not_digits hd]
    simp [hd]

lemma numeralKind?_eq_float_iff {x : List Char} {f : Binary64} :
    numeralKind? x = some (.float f) ↔ x ∈ floatGrammar.language ∧ ParsesTo x f := by
  by_cases hx : x ∈ floatGrammar.language
  · obtain ⟨l, rfl, hw, hc, hk⟩ := numeralKind?_of_float hx
    rw [hk, FloatLiteral.parsesTo_chars_iff hw hc]
    simp [hx]
  · simp only [hx, false_and, iff_false]
    by_cases hd : x ∈ digits.language
    · rw [numeralKind?_of_digits hd]
      simp
    · rw [numeralKind?_of_not_digits hd]
      intro h
      obtain ⟨l, hl, -⟩ := Option.map_eq_some_iff.mp h
      exact hx (FloatLiteral.ofChars?_isSome_iff.mp ⟨l, hl⟩)

lemma numeralKind?_eq_none_iff {x : List Char} :
    numeralKind? x = none ↔ x ∉ digits.language ∧ x ∉ floatGrammar.language := by
  constructor
  · intro h
    constructor
    · intro hd
      rw [numeralKind?_of_digits hd] at h
      cases h
    · intro hf
      obtain ⟨l, -, -, -, hl⟩ := numeralKind?_of_float hf
      rw [hl] at h
      cases h
  · rintro ⟨hd, hf⟩
    rw [numeralKind?_of_not_digits hd, Option.map_eq_none_iff, Option.eq_none_iff_forall_ne_some]
    exact fun l hl => hf (FloatLiteral.ofChars?_isSome_iff.mp ⟨l, hl⟩)

end Lexeme

end LCode
