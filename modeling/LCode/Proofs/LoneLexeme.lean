import LCode.Proofs.CutText
import LCode.Proofs.Juncture
import LCode.Proofs.LiteralGrammar

namespace LCode

open Lexeme Pattern Text
open scoped Computability

theorem tokenize_lexeme {x : Lexeme} {kind : TokenKind} (hx : x.text ∈ x.cls.pattern.language)
    (hc : x.cls ≠ .comment) (hm : x.meaning = .ok (some kind)) :
    tokenize (String.ofList x.text) = .ok [⟨kind, ⟨0, 0, x.text.length⟩⟩] := by
  have hnewline : '\n' ∉ x.text := LexemeClass.newline_not_mem hx
  have hreturn : x.text.getLast? ≠ some '\r' := by
    intro h
    have hmem : '\r' ∈ x.text := List.mem_of_getLast? h
    exact hc (LexemeClass.eq_comment_of_allows_return (LexemeClass.allows_of_mem hx '\r' hmem))
  have hlines : lines (String.ofList x.text).toList = [x.text] := by
    rw [String.toList_ofList, lines_eq_singleton hnewline hreturn]
  have hline : scanLine 0 x.text = .ok [⟨kind, ⟨0, 0, 0 + x.text.length⟩⟩] :=
    scanLine_eq_iff.mpr (munched_of_munch (munch_self hx) hm)
  rw [tokenize, hlines, scanLines_of_ok hline, Nat.zero_add]
  rfl

namespace LexemeClass

lemma chars_mem_items {e : Exponent} (he : e.WellFormed) :
    e.chars ∈ (star numeralItem).language := by
  have hdigits := mem_items_of_isDigit he.digits
  cases hs : e.sign with
  | none =>
    have hmark : [e.mark] ∈ (star numeralItem).language :=
      mem_items_of_isNumeralPart (by simpa using isNumeralPart_of_isExponentMark he.mark)
    rw [Exponent.chars, hs]
    exact append_mem_items hmark hdigits
  | some s =>
    have hsigned : [e.mark, s] ∈ numeralItem.language :=
      mem_language_alt.mpr (Or.inl (cons_mem_seq_char he.mark ⟨s, he.sign s hs, rfl⟩))
    rw [Exponent.chars, hs]
    exact append_mem_kstar hsigned hdigits

end LexemeClass

open LexemeClass

lemma isNumeralPart_of_isFloatSuffix {c : Char} (h : isFloatSuffix c = true) :
    isNumeralPart c = true := by
  simp only [isFloatSuffix, Bool.or_eq_true, decide_eq_true_eq] at h
  rcases h with ((rfl | rfl) | rfl) | rfl <;> rfl

theorem mem_numeral_of_mem_floatGrammar {x : List Char} (h : x ∈ floatGrammar.language) :
    x ∈ LexemeClass.numeral.pattern.language := by
  obtain ⟨l, rfl, hw, hc⟩ := FloatLiteral.exists_chars_of_mem h
  have htail : (l.exponent.map Exponent.chars).getD [] ++ l.suffix.toList ∈
      (star numeralItem).language := by
    refine append_mem_items ?_ (mem_items_of_isNumeralPart fun c hs => ?_)
    · cases he : l.exponent with
      | none => exact Language.nil_mem_kstar _
      | some e => exact chars_mem_items (FloatLiteral.exponent_wellFormed hw hc e he)
    · exact isNumeralPart_of_isFloatSuffix (hw.suffix c (Option.mem_toList.mp hs))
  rw [FloatLiteral.chars, List.append_assoc, List.append_assoc]
  generalize (l.exponent.map Exponent.chars).getD [] ++ l.suffix.toList = tail at htail
  cases hwhole : l.whole with
  | cons d w =>
    obtain ⟨hd, hdigits⟩ := List.forall_mem_cons.mp (hwhole ▸ hw.whole)
    refine mem_numeral_of_isDigit hd ?_
    refine append_mem_items (mem_items_of_isDigit hdigits) (append_mem_items ?_ htail)
    cases hf : l.fraction with
    | none => exact Language.nil_mem_kstar _
    | some ds =>
      refine mem_items_of_isNumeralPart (List.forall_mem_cons.mpr ⟨rfl, fun c hcd => ?_⟩)
      exact isNumeralPart_of_isDigit (hw.fraction ds hf c hcd)
  | nil =>
    -- without digits before the point there are some after it
    obtain ⟨hne, -, -⟩ := FloatLiteral.isComplete_iff.mp hc
    rw [hwhole, List.nil_append, FloatLiteral.fractionDigits] at hne
    cases hf : l.fraction with
    | none => exact absurd (by rw [hf]; rfl) hne
    | some ds =>
      rw [hf, Option.getD_some] at hne
      obtain ⟨d, w, rfl⟩ := List.exists_cons_of_ne_nil hne
      obtain ⟨hd, hdigits⟩ := List.forall_mem_cons.mp (hw.fraction _ hf)
      exact mem_numeral_of_point hd (append_mem_items (mem_items_of_isDigit hdigits) htail)

end LCode
