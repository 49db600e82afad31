import LCode.Lexeme.FloatLiteral
import LCode.Proofs.LexemePattern
import Mathlib.Data.List.TakeWhile

namespace LCode

open Lexeme Pattern
open scoped Computability

namespace Lexeme

def digits : Pattern := plus (char Char.isDigit)

def exponentPart : Pattern :=
  seq (char isExponentMark) (seq (optional (char isSign)) digits)

def pointed : Pattern :=
  alt (seq digits (seq (char (· = '.')) (star (char Char.isDigit)))) (seq (char (· = '.')) digits)

def floatGrammar : Pattern :=
  alt (seq pointed (seq (optional exponentPart) (optional (char isFloatSuffix))))
    (alt (seq digits (seq exponentPart (optional (char isFloatSuffix))))
      (seq digits (char isFloatSuffix)))

structure FloatLiteral.WellFormed (l : FloatLiteral) : Prop where
  whole : ∀ c ∈ l.whole, c.isDigit = true
  fraction : ∀ ds ∈ l.fraction, ∀ c ∈ ds, c.isDigit = true
  mark : ∀ e ∈ l.exponent, isExponentMark e.mark = true
  sign : ∀ e ∈ l.exponent, ∀ s ∈ e.sign, isSign s = true
  digits : ∀ e ∈ l.exponent, ∀ c ∈ e.digits, c.isDigit = true
  suffix : ∀ s ∈ l.suffix, isFloatSuffix s = true

lemma splitChar_of_mem {p : Char → Bool} {cs : List Char} {c : Char}
    (h : c ∈ (splitChar p cs).1) : p c = true := by
  cases cs with
  | nil => cases h
  | cons d cs =>
    by_cases hd : p d = true
    · simp only [splitChar, hd, ↓reduceIte, Option.mem_some_iff] at h
      rwa [← h]
    · simp only [splitChar, hd, Bool.false_eq_true, ↓reduceIte, Option.not_mem_none] at h

lemma splitFraction_of_mem {cs ds : List Char} (h : ds ∈ (splitFraction cs).1) :
    ∀ c ∈ ds, c.isDigit = true := by
  rw [splitFraction] at h
  split at h
  next => cases h
  next =>
    obtain rfl := Option.mem_some_iff.mp h
    exact fun c hc => List.mem_takeWhile_imp hc

lemma splitExponent_of_mem {cs : List Char} {e : Exponent} (h : e ∈ (splitExponent cs).1) :
    isExponentMark e.mark = true ∧ (∀ s ∈ e.sign, isSign s = true) ∧
      ∀ c ∈ e.digits, c.isDigit = true := by
  rw [splitExponent] at h
  split at h
  next => cases h
  next hs =>
    obtain rfl := Option.mem_some_iff.mp h
    refine ⟨splitChar_of_mem (by rw [hs]; rfl), ?_, ?_⟩
    · exact fun s hs => splitChar_of_mem hs
    · exact fun c hc => List.mem_takeWhile_imp hc

lemma not_isFloatSuffix_of_isDigit {c : Char} (h : c.isDigit = true) :
    isFloatSuffix c = false := by
  by_contra hs
  simp only [isFloatSuffix, Bool.not_eq_false, Bool.or_eq_true, decide_eq_true_eq] at hs
  rcases hs with ((rfl | rfl) | rfl) | rfl <;> cases h

namespace FloatLiteral

lemma split_wellFormed (cs : List Char) : (split cs).1.WellFormed where
  whole _ hc := List.mem_takeWhile_imp hc
  fraction _ hd := splitFraction_of_mem hd
  mark _ he := (splitExponent_of_mem he).1
  sign _ he := (splitExponent_of_mem he).2.1
  digits _ he := (splitExponent_of_mem he).2.2
  suffix _ hs := splitChar_of_mem hs

lemma WellFormed.fractionDigits {l : FloatLiteral} (hw : l.WellFormed) :
    ∀ c ∈ l.fractionDigits, c.isDigit = true := by
  rw [FloatLiteral.fractionDigits]
  cases hf : l.fraction with
  | none => exact fun c hc => absurd hc List.not_mem_nil
  | some ds => exact hw.fraction ds hf

def significand (l : FloatLiteral) : List Char :=
  l.whole ++ (l.fraction.map ('.' :: ·)).getD []

lemma ofChars?_spec {cs : List Char} {l : FloatLiteral} (h : ofChars? cs = some l) :
    l.chars = cs ∧ l.WellFormed ∧ l.isComplete = true := by
  refine ⟨chars_of_ofChars? h, ?_⟩
  simp only [ofChars?] at h
  split at h
  next hc =>
    cases h
    exact ⟨split_wellFormed cs, hc.2⟩
  next => cases h

lemma isComplete_iff {l : FloatLiteral} :
    l.isComplete = true ↔ l.whole ++ l.fractionDigits ≠ [] ∧ (∀ e ∈ l.exponent, e.digits ≠ []) ∧
      (l.fraction.isSome ∨ l.exponent.isSome ∨ l.suffix.isSome) := by
  simp only [isComplete, Bool.and_eq_true, Bool.or_eq_true, decide_eq_true_eq, Option.all_eq_true,
    and_assoc, or_assoc, Option.mem_def]

end FloatLiteral

lemma mem_digits {x : List Char} (hne : x ≠ []) (hd : ∀ c ∈ x, c.isDigit = true) :
    x ∈ digits.language := by
  cases x with
  | nil => exact absurd rfl hne
  | cons c x =>
    obtain ⟨hc, hx⟩ := List.forall_mem_cons.mp hd
    exact cons_mem_char_star hc hx

lemma toList_mem_optional {p : Char → Bool} {o : Option Char} (h : ∀ c ∈ o, p c = true) :
    o.toList ∈ (optional (char p)).language := by
  cases o with
  | none => exact mem_language_alt.mpr (Or.inr (mem_language_empty.mpr rfl))
  | some c => exact mem_language_alt.mpr (Or.inl ⟨c, h c rfl, rfl⟩)

lemma chars_mem_exponentPart {e : Exponent} (hm : isExponentMark e.mark = true)
    (hs : ∀ s ∈ e.sign, isSign s = true) (hne : e.digits ≠ [])
    (hd : ∀ c ∈ e.digits, c.isDigit = true) : e.chars ∈ exponentPart.language := by
  refine cons_mem_seq_char hm ?_
  exact mem_language_seq.mpr ⟨_, toList_mem_optional hs, _, mem_digits hne hd, rfl⟩

namespace FloatLiteral

variable {l : FloatLiteral}

lemma exponent_mem_optional (hw : l.WellFormed) (hc : ∀ e ∈ l.exponent, e.digits ≠ []) :
    (l.exponent.map Exponent.chars).getD [] ∈ (optional exponentPart).language := by
  apply mem_language_alt.mpr
  cases he : l.exponent with
  | none => exact Or.inr (mem_language_empty.mpr rfl)
  | some e =>
    exact Or.inl (chars_mem_exponentPart (hw.mark e he) (hw.sign e he) (hc e he) (hw.digits e he))

lemma significand_mem_pointed (hw : l.WellFormed) {ds : List Char} (hf : l.fraction = some ds)
    (hne : l.whole ++ l.fractionDigits ≠ []) : l.significand ∈ pointed.language := by
  have hfd : l.fractionDigits = ds := by rw [fractionDigits, hf, Option.getD_some]
  have hds := hw.fraction ds hf
  rw [significand, hf, Option.map_some, Option.getD_some, pointed, mem_language_alt]
  by_cases hwhole : l.whole = []
  · -- no digits before the point, so there are some after it
    rw [hwhole, hfd] at hne
    rw [hwhole]
    exact Or.inr (cons_mem_seq_char rfl (mem_digits hne hds))
  · refine Or.inl (mem_language_seq.mpr ⟨_, mem_digits hwhole hw.whole, '.' :: ds, ?_, rfl⟩)
    exact cons_mem_char_star rfl hds

theorem chars_mem_floatGrammar (hw : l.WellFormed) (hc : l.isComplete = true) :
    l.chars ∈ floatGrammar.language := by
  obtain ⟨hne, he, hsome⟩ := isComplete_iff.mp hc
  have hsuffix := toList_mem_optional hw.suffix
  rw [floatGrammar, mem_language_alt, mem_language_alt]
  cases hf : l.fraction with
  | some ds =>
    have htail := mem_language_seq.mpr ⟨_, exponent_mem_optional hw he, _, hsuffix, rfl⟩
    have hpointed := significand_mem_pointed hw hf hne
    exact Or.inl (mem_language_seq.mpr ⟨_, hpointed, _, htail, (List.append_assoc _ _ _).symm⟩)
  | none =>
    rw [fractionDigits, hf, Option.getD_none, List.append_nil] at hne
    have hdigits := mem_digits hne hw.whole
    refine Or.inr ?_
    cases hex : l.exponent with
    | some e =>
      have hpart : e.chars ∈ exponentPart.language :=
        chars_mem_exponentPart (hw.mark e hex) (hw.sign e hex) (he e hex) (hw.digits e hex)
      have htail := mem_language_seq.mpr ⟨_, hpart, _, hsuffix, rfl⟩
      refine Or.inl (mem_language_seq.mpr ⟨_, hdigits, _, htail, ?_⟩)
      simp only [chars, hf, hex, Option.map_none, Option.map_some, Option.getD_none,
        Option.getD_some, List.append_nil, List.append_assoc]
    | none =>
      rw [hf, hex] at hsome
      rcases hsome with hs | hs | hs
      · cases hs
      · cases hs
      · obtain ⟨s, hs⟩ := Option.isSome_iff_exists.mp hs
        refine Or.inr (mem_language_seq.mpr ⟨_, hdigits, [s], ⟨s, hw.suffix s hs, rfl⟩, ?_⟩)
        simp only [chars, hf, hex, hs, Option.map_none, Option.getD_none, List.append_nil,
          Option.toList_some]

end FloatLiteral

end Lexeme

end LCode
