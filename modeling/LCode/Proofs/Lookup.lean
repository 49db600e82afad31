import LCode.Proofs.LoneLexeme

namespace LCode

open Lexeme Pattern Text

theorem tokenize_eq_singleton_iff {s : String} {kind : TokenKind} (hc : kind.cls ≠ .comment) :
    tokenize s = .ok [⟨kind, ⟨0, 0, s.length⟩⟩] ↔
      s.toList ∈ kind.cls.pattern.language ∧ meaning ⟨kind.cls, s.toList⟩ = .ok (some kind) := by
  constructor
  · intro h
    have ht : ⟨kind, ⟨0, 0, s.length⟩⟩ ∈ [(⟨kind, ⟨0, 0, s.length⟩⟩ : Token)] :=
      List.mem_singleton_self _
    obtain ⟨text, htext, hmem⟩ := lineAt?_of_mem h ht
    obtain ⟨-, text', htext', hlength⟩ := stop_le_length h ht
    obtain rfl : text = text' := Option.some.inj (htext.symm.trans htext')
    -- no character of the text is missing in its first line
    have hline : text.toList = s.toList := by
      have hsub := sublist_of_mem_lines (List.mem_of_getElem? (lineAt?_eq_some_iff.mp htext))
      exact hsub.eq_of_length_le (by rwa [String.length_toList, String.length_toList])
    obtain ⟨x, rest, hx, hm, hslice, -⟩ :=
      (tiled_of_tokenize h htext).lexeme_of_mem List.length_nil hmem
    have hxs : x = ⟨kind.cls, s.toList⟩ := by
      rw [List.nil_append, hline, Span.slice, List.drop_zero, Nat.sub_zero, ← String.length_toList,
        List.take_length] at hslice
      rw [hslice, ← cls_of_meaning hm]
    subst hxs
    exact ⟨hx.mem, hm⟩
  · rintro ⟨hmem, hm⟩
    have h := tokenize_lexeme (x := ⟨kind.cls, s.toList⟩) hmem hc hm
    rwa [String.ofList_toList, String.length_toList] at h

namespace Keyword

lemma map_toLower_name (k : Keyword) : k.name.toList.map Char.toLower = k.spelling.toList := by
  cases k <;> decide

theorem ofSpelling?_eq_some_iff {s : String} {k : Keyword} :
    ofSpelling? s = some k ↔ s.toUpper = k.name := by
  have hupper : s.toUpper.toList = s.toList.map Char.toUpper := String.toList_map
  rw [ofSpelling?, ← String.toList_inj, hupper]
  constructor
  · exact map_toUpper_of_ofChars?
  · intro h
    have hl : Char.toLower ∘ Char.toUpper = Char.toLower := funext Char.toLower_toUpper_eq_toLower
    rw [ofChars?_eq_some_iff, ← map_toLower_name, ← h, List.map_map, hl]

lemma mem_word_of_ofChars? {word : List Char} {k : Keyword} (h : ofChars? word = some k) :
    word ∈ LexemeClass.word.pattern.language := by
  have hletters : ∀ c ∈ k.spelling.toList, c.isAlpha = true := by
    cases k <;> simp [spelling]
  have hne : k.spelling.toList ≠ [] := by
    cases k <;> simp [spelling]
  rw [← ofChars?_eq_some_iff.mp h] at hletters hne
  have halpha : ∀ c ∈ word, c.isAlpha = true := by
    intro c hc
    rw [← Char.isAlpha_toLower_eq_isAlpha]
    exact hletters _ (List.mem_map_of_mem hc)
  obtain ⟨c, z, rfl⟩ := List.exists_cons_of_ne_nil (mt (congrArg (List.map Char.toLower)) hne)
  obtain ⟨hc, hz⟩ := List.forall_mem_cons.mp halpha
  refine LexemeClass.mem_word (by simp [isWordStart, hc]) fun d hd => ?_
  simp [isWordPart, Char.isAlphanum, hz d hd]

end Keyword

namespace Lexeme

variable {word : List Char}

lemma wordKind_eq_keyword_iff {k : Keyword} :
    wordKind word = .keyword k ↔ Keyword.ofChars? word = some k := by
  rw [wordKind]
  split
  next l hl => simp [hl]
  next hn =>
    simp only [hn, reduceCtorEq, iff_false]
    split_ifs <;> simp

lemma wordKind_eq_identifier_iff {name : String} :
    wordKind word = .identifier name ↔ name.toList = word ∧ Keyword.ofChars? word = none ∧
      word ≠ "true".toList ∧ word ≠ "false".toList := by
  rw [wordKind]
  split
  next l hl => simp [hl]
  next hn =>
    split_ifs with ht hf
    · simp [ht]
    · simp [hf]
    · simp [hn, ht, hf, ← String.toList_inj, eq_comm]

end Lexeme

structure LookedUp (s : String) : Prop where
  keyword : ∀ k, tokenize s = .ok [⟨.keyword k, ⟨0, 0, s.length⟩⟩] ↔ Keyword.ofSpelling? s = some k
  name : ∀ k, Keyword.ofSpelling? s = some k ↔ s.toUpper = k.name
  operator : ∀ k, tokenize s = .ok [⟨.operator k, ⟨0, 0, s.length⟩⟩] ↔
    Operator.ofSpelling? s = some k
  spelling : ∀ k, Operator.ofSpelling? s = some k ↔ s = k.spelling
  identifier : ∀ n, tokenize s = .ok [⟨.identifier n, ⟨0, 0, s.length⟩⟩] ↔
    n = s ∧ s.toList ∈ LexemeClass.word.pattern.language ∧ Keyword.ofSpelling? s = none ∧
      s ≠ "true" ∧ s ≠ "false"

theorem tokenize_lookedUp (s : String) : LookedUp s where
  keyword k := by
    rw [tokenize_eq_singleton_iff (by simp [TokenKind.cls]), Keyword.ofSpelling?]
    simp only [TokenKind.cls, meaning, Except.ok.injEq, Option.some.injEq, wordKind_eq_keyword_iff]
    exact and_iff_right_of_imp Keyword.mem_word_of_ofChars?
  name k := Keyword.ofSpelling?_eq_some_iff
  operator k := by
    rw [tokenize_eq_singleton_iff (by simp [TokenKind.cls]), Operator.ofSpelling?_eq_some_iff]
    simp only [TokenKind.cls, meaning, LexemeClass.pattern, Operator.pattern_eq, mem_language_text,
      and_true, String.toList_inj, eq_comm]
  spelling k := Operator.ofSpelling?_eq_some_iff.trans eq_comm
  identifier n := by
    rw [tokenize_eq_singleton_iff (by simp [TokenKind.cls]), Keyword.ofSpelling?]
    simp only [TokenKind.cls, meaning, Except.ok.injEq, Option.some.injEq,
      wordKind_eq_identifier_iff, String.toList_inj, Ne]
    tauto

end LCode
