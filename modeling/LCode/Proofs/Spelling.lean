import LCode.Proofs.FloatReading
import LCode.Proofs.SourceTiling

namespace LCode

open Lexeme Number Text

/-- A kind of token is spelt by the characters `x`, which stand before `rest` on their line. -/
def TokenKind.Spelt (x rest : List Char) : TokenKind → Prop
  | .identifier name => x = name.toList
  | .comment text => x = text.toList ∧ rest = []
  | .operator k => x = k.spelling.toList
  | .keyword k => x.map Char.toUpper = k.name.toList
  | .boolean b => x = (if b then "true" else "false").toList
  | .integer v => x ≠ [] ∧ (∀ c ∈ x, c.isDigit = true) ∧ 0 ≤ v ∧ v = Nat.ofDigitChars 10 x 0 ∧
      ∃ zeros, x = List.replicate zeros '0' ++ (toString v).toList
  | .float f => x ∈ floatGrammar.language ∧
      x.length ≤ (x.rdropWhile isFloatSuffix).length + 1 ∧ ParsesTo x f

def Token.SpeltIn (source : String) (t : Token) : Prop :=
  ∃ text, lineAt? source t.span.line = some text ∧ t.span.stop ≤ text.length ∧
    t.kind.Spelt (t.span.slice text.toList) (text.toList.drop t.span.stop)

lemma Keyword.map_toUpper_spelling (k : Keyword) :
    k.spelling.toList.map Char.toUpper = k.name.toList := by
  cases k <;> decide

lemma Keyword.map_toUpper_of_ofChars? {word : List Char} {k : Keyword}
    (h : Keyword.ofChars? word = some k) : word.map Char.toUpper = k.name.toList := by
  have hu : Char.toUpper ∘ Char.toLower = Char.toUpper :=
    funext Char.toUpper_toLower_eq_toUpper
  rw [← k.map_toUpper_spelling, ← ofChars?_eq_some_iff.mp h, List.map_map, hu]

namespace Lexeme

lemma wordKind_spelt (word rest : List Char) : (wordKind word).Spelt word rest := by
  rw [wordKind]
  split
  next k hk => exact Keyword.map_toUpper_of_ofChars? hk
  next =>
    split
    next ht => exact ht
    next =>
      split
      next hf => exact hf
      next => exact String.toList_ofList.symm

lemma integer_spelt {x : List Char} (hne : x ≠ []) (hd : ∀ c ∈ x, c.isDigit = true)
    (rest : List Char) : (TokenKind.integer (digitsValue x)).Spelt x rest := by
  obtain ⟨zeros, hz⟩ := eq_zeros_append_toDigits hne hd
  refine ⟨hne, hd, Int.natCast_nonneg _, rfl, zeros, ?_⟩
  have hs : (toString (digitsValue x : Int)).toList = Nat.toDigits 10 (digitsValue x) :=
    String.toList_ofList
  rw [hs, ← hz]

lemma float_spelt {x : List Char} {l : FloatLiteral} (h : FloatLiteral.ofChars? x = some l)
    (rest : List Char) : (TokenKind.float l.value.toBinary64).Spelt x rest := by
  obtain ⟨rfl, hw, hc⟩ := FloatLiteral.ofChars?_spec h
  refine ⟨FloatLiteral.chars_mem_floatGrammar hw hc, ?_, ?_⟩
  · rw [FloatLiteral.rdropWhile_chars hw hc]
    exact l.length_chars_le
  · exact (FloatLiteral.parsesTo_chars_iff hw hc).mpr rfl

lemma numeralKind?_spelt {x : List Char} {kind : TokenKind} (h : numeralKind? x = some kind)
    (rest : List Char) : kind.Spelt x rest := by
  rw [numeralKind?] at h
  split at h
  next hx =>
    cases h
    exact integer_spelt hx.1 (List.all_eq_true.mp hx.2) rest
  next =>
    obtain ⟨l, hl, rfl⟩ := Option.map_eq_some_iff.mp h
    exact float_spelt hl rest

lemma Munch.rest_eq_nil {x : Lexeme} {rest : List Char} (hx : Munch (x.text ++ rest) x)
    (hc : x.cls = .comment) (hn : '\n' ∉ rest) : rest = [] := by
  have hmem := hx.mem
  rw [hc] at hmem
  obtain ⟨slashes, hs, body, hb, hbody⟩ := Pattern.mem_language_seq.mp hmem
  have hrest : body ++ rest ∈ (Pattern.star (.char (· ≠ '\n'))).language := by
    rw [Pattern.mem_language_star_char] at hb ⊢
    refine List.forall_mem_append.mpr ⟨hb, ?_⟩
    intro c hcr
    exact decide_eq_true (ne_of_mem_of_not_mem hcr hn)
  -- with the rest of its line a comment is a comment, and no longer than the longest
  have hall : x.text ++ rest ∈ LexemeClass.comment.pattern.language := by
    refine Pattern.mem_language_seq.mpr ⟨slashes, hs, body ++ rest, hrest, ?_⟩
    rw [← List.append_assoc, hbody]
  have hle := hx.longest .comment _ hall List.prefix_rfl
  rw [List.length_append] at hle
  exact List.length_eq_zero_iff.mp (by omega)

lemma spelt_of_meaning {x : Lexeme} {rest : List Char} {kind : TokenKind}
    (hx : Munch (x.text ++ rest) x) (hm : x.meaning = .ok (some kind)) (hn : '\n' ∉ rest) :
    kind.Spelt x.text rest := by
  rw [meaning] at hm
  split at hm
  next => cases hm
  next hc =>
    cases hm
    exact ⟨String.toList_ofList.symm, hx.rest_eq_nil hc hn⟩
  next =>
    cases hm
    exact wordKind_spelt x.text rest
  next =>
    split at hm
    next hk =>
      cases hm
      exact numeralKind?_spelt hk rest
    next => cases hm
  next k hc =>
    cases hm
    have hmem := hx.mem
    rw [hc, LexemeClass.pattern, Operator.pattern_eq] at hmem
    exact Pattern.mem_language_text.mp hmem

end Lexeme

variable {source : String} {tokens : List Token}

theorem tokenize_spelt (h : tokenize source = .ok tokens) : ∀ t ∈ tokens, t.SpeltIn source := by
  intro t ht
  obtain ⟨text, htext, hmem⟩ := lineAt?_of_mem h ht
  have htiled := tiled_of_tokenize h htext
  obtain ⟨_, _, _, hstop⟩ := htiled.bounds t hmem
  rw [Nat.zero_add, String.length_toList] at hstop
  obtain ⟨x, rest, hx, hm, hslice, hdrop⟩ := htiled.lexeme_of_mem List.length_nil hmem
  rw [List.nil_append] at hslice hdrop
  have hn : '\n' ∉ rest := by
    rw [← hdrop]
    exact fun hr => newline_not_mem_of_lineAt? htext (List.mem_of_mem_drop hr)
  refine ⟨text, htext, hstop, ?_⟩
  rw [hslice, hdrop]
  exact spelt_of_meaning hx hm hn

theorem spelt_of_every_kind :
    ∃ tokens, tokenize "wHiLe x>=-0.25e1D\r\n\ttrue 007//é" = .ok tokens ∧ tokens.length = 8 ∧
      tokens[4]? = some ⟨.float ⟨0x4004000000000000⟩, ⟨0, 10, 17⟩⟩ ∧
      tokens[6]? = some ⟨.integer 7, ⟨1, 6, 9⟩⟩ ∧
      ∀ t ∈ tokens, t.SpeltIn "wHiLe x>=-0.25e1D\r\n\ttrue 007//é" := by
  have h : tokenize "wHiLe x>=-0.25e1D\r\n\ttrue 007//é" = .ok
      [⟨.keyword .while_, ⟨0, 0, 5⟩⟩, ⟨.identifier "x", ⟨0, 6, 7⟩⟩,
        ⟨.operator .greaterOrEqual, ⟨0, 7, 9⟩⟩, ⟨.operator .minus, ⟨0, 9, 10⟩⟩,
        ⟨.float ⟨0x4004000000000000⟩, ⟨0, 10, 17⟩⟩, ⟨.boolean true, ⟨1, 1, 5⟩⟩,
        ⟨.integer 7, ⟨1, 6, 9⟩⟩, ⟨.comment "//é", ⟨1, 9, 12⟩⟩] := by
    decide +kernel
  exact ⟨_, h, rfl, rfl, rfl, tokenize_spelt h⟩

end LCode
