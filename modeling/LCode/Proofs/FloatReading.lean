import LCode.Proofs.DigitRun
import LCode.Proofs.FloatGrammar
import LCode.Proofs.NearestNumber

namespace LCode

open Lexeme Number

namespace Number.Decimal

def readDigits? (cs : List Char) : Option Nat :=
  if cs ≠ [] ∧ cs.all Char.isDigit then some (Nat.ofDigitChars 10 cs 0) else none

def readExponent? : List Char → Option Int
  | '+' :: cs => (readDigits? cs).map Int.ofNat
  | '-' :: cs => (readDigits? cs).map fun n => -(n : Int)
  | cs => (readDigits? cs).map Int.ofNat

/-- Reads digits with a point before, between or after them, and then an exponent, if there is one.
Nothing may be left. -/
def read? (cs : List Char) : Option Decimal := do
  let significand := cs.takeWhile (!isExponentMark ·)
  let whole := significand.takeWhile (· ≠ '.')
  let fraction := (significand.dropWhile (· ≠ '.')).drop 1
  let digits ← readDigits? (whole ++ fraction)
  let exponent ← match cs.dropWhile (!isExponentMark ·) with
    | [] => some 0
    | _ :: ds => readExponent? ds
  return ⟨digits, exponent - fraction.length⟩

end Number.Decimal

namespace Lexeme

/-- A number in the text `x` is read without its suffix and rounded to `f`. -/
def ParsesTo (x : List Char) (f : Binary64) : Prop :=
  ∃ d, Decimal.read? (x.rdropWhile isFloatSuffix) = some d ∧ RoundsTo d.toRat f.bits.toNat

lemma not_isSign_of_isDigit {c : Char} (h : c.isDigit = true) : isSign c = false := by
  by_contra hs
  simp only [isSign, Bool.not_eq_false, Bool.or_eq_true, decide_eq_true_eq] at hs
  rcases hs with rfl | rfl <;> cases h

namespace FloatLiteral

variable {l : FloatLiteral}

def body (l : FloatLiteral) : List Char :=
  l.significand ++ (l.exponent.map Exponent.chars).getD []

lemma chars_eq_body_append (l : FloatLiteral) : l.chars = l.body ++ l.suffix.toList := rfl

lemma body_eq_append (hw : l.WellFormed) (hc : l.isComplete = true) :
    ∃ xs ys, l.body = xs ++ ys ∧ ys ≠ [] ∧ ∀ c ∈ ys, isFloatSuffix c = false := by
  obtain ⟨hne, he, _⟩ := isComplete_iff.mp hc
  cases hex : l.exponent with
  | some e =>
    refine ⟨l.whole ++ (l.fraction.map ('.' :: ·)).getD [] ++ e.mark :: e.sign.toList, e.digits,
      ?_, he e hex, fun c hd => not_isFloatSuffix_of_isDigit (hw.digits e hex c hd)⟩
    simp only [body, significand, hex, Option.map_some, Option.getD_some, Exponent.chars,
      List.append_assoc, List.cons_append]
  | none =>
    cases hf : l.fraction with
    | some ds =>
      refine ⟨l.whole, '.' :: ds, ?_, List.cons_ne_nil _ _, ?_⟩
      · simp only [body, significand, hex, hf, Option.map_some, Option.map_none, Option.getD_some,
          Option.getD_none, List.append_nil]
      · refine List.forall_mem_cons.mpr ⟨rfl, fun c hd => ?_⟩
        exact not_isFloatSuffix_of_isDigit (hw.fraction ds hf c hd)
    | none =>
      rw [fractionDigits, hf, Option.getD_none, List.append_nil] at hne
      refine ⟨[], l.whole, ?_, hne, fun c hd => not_isFloatSuffix_of_isDigit (hw.whole c hd)⟩
      simp only [body, significand, hex, hf, Option.map_none, Option.getD_none, List.append_nil,
        List.nil_append]

lemma rdropWhile_chars (hw : l.WellFormed) (hc : l.isComplete = true) :
    l.chars.rdropWhile isFloatSuffix = l.body := by
  obtain ⟨xs, ys, hb, hne, hn⟩ := body_eq_append hw hc
  have hlast : l.body.rdropWhile isFloatSuffix = l.body := by
    apply List.rdropWhile_eq_self_iff.mpr
    intro hl
    have hmem : l.body.getLast hl ∈ ys := by
      simp only [hb, List.getLast_append_of_ne_nil _ hne, List.getLast_mem]
    rw [hn _ hmem]
    exact Bool.false_ne_true
  rw [chars_eq_body_append]
  cases hs : l.suffix with
  | none => rwa [Option.toList_none, List.append_nil]
  | some s => rwa [Option.toList_some, List.rdropWhile_concat_pos _ _ _ (hw.suffix s hs)]

lemma length_chars_le (l : FloatLiteral) : l.chars.length ≤ l.body.length + 1 := by
  rw [chars_eq_body_append, List.length_append]
  exact Nat.add_le_add_left Option.length_toList_le _

lemma readDigits?_of_isDigit {ds : List Char} (hne : ds ≠ []) (hd : ∀ c ∈ ds, c.isDigit = true) :
    Decimal.readDigits? ds = some (digitsValue ds) :=
  if_pos ⟨hne, List.all_eq_true.mpr hd⟩

lemma readExponent?_append {e : Exponent} (hs : ∀ s ∈ e.sign, isSign s = true)
    (hne : e.digits ≠ []) (hd : ∀ c ∈ e.digits, c.isDigit = true) :
    Decimal.readExponent? (e.sign.toList ++ e.digits) = some e.value := by
  have hread := readDigits?_of_isDigit hne hd
  cases hsign : e.sign with
  | some s =>
    have hs := hs s hsign
    rw [isSign, Bool.or_eq_true, decide_eq_true_eq, decide_eq_true_eq] at hs
    rcases hs with rfl | rfl
    · simp [Decimal.readExponent?, hread, Exponent.value, hsign]
    · simp [Decimal.readExponent?, hread, Exponent.value, hsign]
  | none =>
    have hhead : ∀ s ds, e.digits = s :: ds → ¬isSign s = true := by
      intro s ds he
      apply Bool.eq_false_iff.mp
      exact not_isSign_of_isDigit (hd s (he ▸ List.mem_cons_self))
    rw [Option.toList_none, List.nil_append, Decimal.readExponent?, hread]
    · simp only [Option.map_some, Exponent.value, hsign, reduceCtorEq, ↓reduceIte]
      rfl
    · exact fun ds he => hhead _ ds he rfl
    · exact fun ds he => hhead _ ds he rfl

lemma takeWhile_dropWhile_append {p : Char → Bool} {xs ys : List Char}
    (hx : ∀ c ∈ xs, p c = true) (hy : ∀ c ∈ ys.head?, p c = false) :
    (xs ++ ys).takeWhile p = xs ∧ (xs ++ ys).dropWhile p = ys := by
  rw [List.takeWhile_append_of_pos hx, List.dropWhile_append_of_pos hx]
  cases ys with
  | nil => exact ⟨List.append_nil xs, rfl⟩
  | cons c ys =>
    have hc : ¬p c = true := by
      rw [hy c rfl]
      exact Bool.false_ne_true
    rw [List.takeWhile_cons_of_neg hc, List.dropWhile_cons_of_neg hc, List.append_nil]
    exact ⟨rfl, rfl⟩

lemma takeWhile_dropWhile_body (hw : l.WellFormed) :
    l.body.takeWhile (!isExponentMark ·) = l.significand ∧
      l.body.dropWhile (!isExponentMark ·) = (l.exponent.map Exponent.chars).getD [] := by
  apply takeWhile_dropWhile_append
  · intro c hc
    rw [Bool.not_eq_true', ← Bool.not_eq_true]
    rw [significand, List.mem_append] at hc
    rcases hc with hc | hc
    · exact LexemeClass.not_isExponentMark_of_isDigit (hw.whole c hc)
    · cases hf : l.fraction with
      | none =>
        rw [hf] at hc
        cases hc
      | some ds =>
        rw [hf] at hc
        rcases List.mem_cons.mp hc with rfl | hc
        · decide
        · exact LexemeClass.not_isExponentMark_of_isDigit (hw.fraction ds hf c hc)
  · intro c hc
    cases hex : l.exponent with
    | none =>
      rw [hex] at hc
      cases hc
    | some e =>
      rw [hex] at hc
      obtain rfl : e.mark = c := Option.some.inj hc
      rw [hw.mark e hex]
      rfl

lemma takeWhile_dropWhile_significand (hw : l.WellFormed) :
    l.significand.takeWhile (· ≠ '.') = l.whole ∧
      (l.significand.dropWhile (· ≠ '.')).drop 1 = l.fractionDigits := by
  have hpoint : ∀ c ∈ l.whole, decide (c ≠ '.') = true := by
    intro c hd
    apply decide_eq_true
    rintro rfl
    cases hw.whole '.' hd
  have hhead : ∀ c ∈ ((l.fraction.map ('.' :: ·)).getD []).head?, decide (c ≠ '.') = false := by
    intro c hc
    cases hf : l.fraction with
    | none =>
      rw [hf] at hc
      cases hc
    | some ds =>
      rw [hf] at hc
      obtain rfl : '.' = c := Option.some.inj hc
      rfl
  obtain ⟨htake, hdrop⟩ := takeWhile_dropWhile_append hpoint hhead
  refine ⟨htake, ?_⟩
  rw [significand, hdrop, fractionDigits]
  cases l.fraction <;> rfl

theorem read?_body (hw : l.WellFormed) (hc : l.isComplete = true) :
    Decimal.read? l.body = some l.value := by
  obtain ⟨hne, he, _⟩ := isComplete_iff.mp hc
  obtain ⟨hsignificand, hexponent⟩ := takeWhile_dropWhile_body hw
  obtain ⟨hwhole, hfraction⟩ := takeWhile_dropWhile_significand hw
  have hdigits : Decimal.readDigits? (l.whole ++ l.fractionDigits) =
      some (digitsValue (l.whole ++ l.fractionDigits)) := by
    apply readDigits?_of_isDigit hne
    exact List.forall_mem_append.mpr ⟨hw.whole, hw.fractionDigits⟩
  simp only [Decimal.read?, hsignificand, hexponent, hwhole, hfraction, hdigits, value]
  cases hex : l.exponent with
  | none => rfl
  | some e =>
    have hread := readExponent?_append (hw.sign e hex) (he e hex) (hw.digits e hex)
    simp only [Option.map_some, Option.getD_some, Exponent.chars, hread]
    rfl

theorem parsesTo_chars_iff (hw : l.WellFormed) (hc : l.isComplete = true) {f : Binary64} :
    ParsesTo l.chars f ↔ l.value.toBinary64 = f := by
  rw [ParsesTo, rdropWhile_chars hw hc, read?_body hw hc]
  constructor
  · rintro ⟨d, hd, hround⟩
    obtain rfl := Option.some.inj hd
    exact Binary64.eq_of_roundsTo l.value.toBinary64_roundsTo hround
  · rintro rfl
    exact ⟨_, rfl, l.value.toBinary64_roundsTo⟩

end FloatLiteral

end Lexeme

end LCode
