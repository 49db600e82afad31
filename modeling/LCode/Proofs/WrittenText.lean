import LCode.Proofs.Juncture
import LCode.Proofs.LiteralGrammar
import LCode.Proofs.ReferenceScan

namespace LCode

open Lexeme Pattern Text
open scoped Computability

namespace TokenKind

def written : TokenKind → List Char
  | integer v => (toString v).toList
  | float x => x.text
  | boolean b => (if b then "true" else "false").toList
  | identifier name => name.toList
  | keyword k => k.name.toList
  | operator k => k.spelling.toList
  | comment c => c.toList

/-- Kinds that may be written anywhere in a line. An identifier is none of the reserved words. -/
def Plain : TokenKind → Prop
  | integer v => 0 ≤ v
  | float _ => False
  | boolean _ => True
  | identifier name => name.toList ∈ LexemeClass.word.pattern.language ∧ name ≠ "true" ∧
      name ≠ "false" ∧ Keyword.ofSpelling? name = none
  | keyword _ => True
  | operator _ => True
  | comment _ => False

def spell (kinds : List TokenKind) : List Char := [' '].intercalate (kinds.map written)

structure ReadBack (kind : TokenKind) (k : LexemeClass) : Prop where
  notBlank : k ≠ .blank
  mem : kind.written ∈ k.pattern.language
  meaning : Lexeme.meaning ⟨k, kind.written⟩ = .ok (some kind)

end TokenKind

structure WrittenLine where
  kinds : List TokenKind
  comment : Option String
  plain : ∀ kind ∈ kinds, kind.Plain
  slashes : ∀ c ∈ comment, ['/', '/'] <+: c.toList
  oneLine : ∀ c ∈ comment, '\n' ∉ c.toList
  noReturn : ∀ c ∈ comment, c.toList.getLast? ≠ some '\r'

def writtenTokens (line : Nat) : Nat → List TokenKind → List Token
  | _, [] => []
  | column, kind :: kinds =>
    ⟨kind, ⟨line, column, column + kind.written.length⟩⟩ ::
      writtenTokens line (column + kind.written.length + 1) kinds

namespace WrittenLine

def all (l : WrittenLine) : List TokenKind := l.kinds ++ l.comment.toList.map .comment

def text (l : WrittenLine) : List Char := TokenKind.spell l.all

def tokens (line : Nat) : List WrittenLine → List Token
  | [] => []
  | l :: ls => writtenTokens line 0 l.all ++ tokens (line + 1) ls

end WrittenLine

namespace TokenKind

lemma mem_numeral_of_digits {x : List Char} (h : x ∈ digits.language) :
    x ∈ LexemeClass.numeral.pattern.language := by
  obtain ⟨d, z, rfl, hd, hz⟩ := LexemeClass.mem_language_char_star h
  exact LexemeClass.mem_numeral_of_isDigit hd (LexemeClass.mem_items_of_isDigit hz)

lemma readBack_integer (n : Nat) : (integer n).ReadBack .numeral := by
  have hw : (integer n).written = Nat.toDigits 10 n := by
    have hs : (toString (n : Int)).toList = Nat.toDigits 10 n := String.toList_ofList
    exact hs
  have hd : Nat.toDigits 10 n ∈ digits.language :=
    mem_digits Nat.toDigits_ne_nil isDigit_of_mem_toDigits
  refine ⟨by decide, ?_, ?_⟩
  · rw [hw]
    exact mem_numeral_of_digits hd
  · simp only [Lexeme.meaning, hw, numeralKind?_of_digits hd, digitsValue_toDigits]

lemma readBack_boolean (b : Bool) : (boolean b).ReadBack .word := by
  cases b with
  | true =>
    have hmem : 't' :: ['r', 'u', 'e'] ∈ LexemeClass.word.pattern.language :=
      LexemeClass.mem_word rfl (by simp; decide)
    exact ⟨by decide, hmem, rfl⟩
  | false =>
    have hmem : 'f' :: ['a', 'l', 's', 'e'] ∈ LexemeClass.word.pattern.language :=
      LexemeClass.mem_word rfl (by simp; decide)
    exact ⟨by decide, hmem, rfl⟩

lemma readBack_identifier {name : String} (h : (identifier name).Plain) :
    (identifier name).ReadBack .word := by
  obtain ⟨hmem, ht, hf, hk⟩ := h
  refine ⟨by decide, hmem, ?_⟩
  have ht : name.toList ≠ ['t', 'r', 'u', 'e'] := fun h => ht (String.toList_inj.mp h)
  have hf : name.toList ≠ ['f', 'a', 'l', 's', 'e'] := fun h => hf (String.toList_inj.mp h)
  have hk : Keyword.ofChars? name.toList = none := hk
  simp only [Lexeme.meaning, written, wordKind, hk, ht, hf, ↓reduceIte, String.ofList_toList]

lemma readBack_keyword (k : Keyword) : (keyword k).ReadBack .word := by
  have hk : Keyword.ofChars? k.name.toList = some k := by
    apply Keyword.ofChars?_eq_some_iff.mpr
    cases k <;> rfl
  refine ⟨by decide, ?_, ?_⟩
  · have hparts : ∃ c z, k.name.toList = c :: z ∧ isWordStart c = true ∧
        z.all isWordPart = true := by
      cases k <;> exact ⟨_, _, rfl, by decide, by decide +kernel⟩
    obtain ⟨c, z, hname, hc, hz⟩ := hparts
    rw [written, hname]
    exact LexemeClass.mem_word hc (List.all_eq_true.mp hz)
  · simp only [Lexeme.meaning, written, wordKind, hk]

lemma readBack_operator (k : Operator) : (operator k).ReadBack (.operator k) := by
  refine ⟨by simp, ?_, rfl⟩
  rw [LexemeClass.pattern, Operator.pattern_eq, mem_language_text, written]

lemma exists_readBack {kind : TokenKind} (h : kind.Plain) :
    ∃ k, k ≠ .comment ∧ kind.ReadBack k := by
  cases kind with
  | integer v =>
    obtain ⟨n, rfl⟩ := Int.eq_ofNat_of_zero_le h
    exact ⟨_, by decide, readBack_integer n⟩
  | float x => exact h.elim
  | boolean b => exact ⟨_, by decide, readBack_boolean b⟩
  | identifier name => exact ⟨_, by decide, readBack_identifier h⟩
  | keyword k => exact ⟨_, by decide, readBack_keyword k⟩
  | operator k => exact ⟨_, by simp, readBack_operator k⟩
  | comment c => exact h.elim

lemma readBack_comment {c : String} (hs : ['/', '/'] <+: c.toList) (hn : '\n' ∉ c.toList) :
    (comment c).ReadBack .comment := by
  refine ⟨by decide, (munch_comment hs hn).mem, ?_⟩
  simp only [Lexeme.meaning, written, String.ofList_toList]

variable {kind : TokenKind} {kinds : List TokenKind} {k : LexemeClass}

lemma ReadBack.newline_not_mem (h : kind.ReadBack k) : '\n' ∉ kind.written :=
  LexemeClass.newline_not_mem h.mem

lemma ReadBack.return_not_mem (h : kind.ReadBack k) (hk : k ≠ .comment) : '\r' ∉ kind.written :=
  fun hr => hk (LexemeClass.eq_comment_of_allows_return (LexemeClass.allows_of_mem h.mem '\r' hr))

lemma spell_singleton (kind : TokenKind) : spell [kind] = kind.written := by
  simp [spell]

lemma spell_cons (kind : TokenKind) (h : kinds ≠ []) :
    spell (kind :: kinds) = kind.written ++ ' ' :: spell kinds := by
  obtain ⟨next, later, rfl⟩ := List.exists_cons_of_ne_nil h
  simp [spell, List.intercalate_cons_cons]

end TokenKind

open TokenKind

/-- The text of kinds is a line that has the tokens of these kinds from any column on. -/
structure LineReadBack (line : Nat) (kinds : List TokenKind) : Prop where
  munched : ∀ column, Munched line column (spell kinds) (.ok (writtenTokens line column kinds))
  head : ∀ c ∈ (spell kinds).head?, isBlank c = false
  oneLine : '\n' ∉ spell kinds
  noReturn : (spell kinds).getLast? ≠ some '\r'

variable {line : Nat} {kind : TokenKind} {kinds : List TokenKind} {k : LexemeClass}

lemma lineReadBack_nil : LineReadBack line [] where
  munched _ := .done
  head := by simp [spell]
  oneLine := by simp [spell]
  noReturn := by simp [spell]

lemma lineReadBack_singleton (h : kind.ReadBack k) (hm : Munch kind.written ⟨k, kind.written⟩)
    (hr : kind.written.getLast? ≠ some '\r') : LineReadBack line [kind] where
  munched column := by
    rw [spell_singleton]
    exact munched_of_munch hm h.meaning
  head := by
    obtain ⟨c, z, hw, hc⟩ := exists_cons_not_isBlank h.notBlank h.mem
    simpa [spell_singleton, hw] using hc
  oneLine := by
    rw [spell_singleton]
    exact h.newline_not_mem
  noReturn := by rwa [spell_singleton]

lemma munched_cons (h : kind.ReadBack k) (hk : k ≠ .comment) (hne : kinds ≠ [])
    (hl : LineReadBack line kinds) (column : Nat) :
    Munched line column (spell (kind :: kinds))
      (.ok (writtenTokens line column (kind :: kinds))) := by
  have hblank : isBlank ' ' = true := rfl
  have hx := munch_before_blank h.notBlank hk h.mem
    (show ∀ c ∈ (' ' :: spell kinds).head?, isBlank c = true by simpa using hblank)
  have hb := munch_blank (x := [' ']) (by simp) (by simpa using hblank) hl.head
  have hgap : Munched line (column + kind.written.length) (' ' :: spell kinds)
      (.ok (writtenTokens line (column + kind.written.length + 1) kinds)) :=
    .skipped (x := ⟨.blank, [' ']⟩) hb rfl (hl.munched _)
  rw [spell_cons kind hne]
  exact .taken hx h.meaning hgap

lemma lineReadBack_cons (hkind : kind.Plain) (hl : LineReadBack line kinds) :
    LineReadBack line (kind :: kinds) := by
  obtain ⟨k, hk, h⟩ := exists_readBack hkind
  by_cases hne : kinds = []
  · subst hne
    have hx : Munch (kind.written ++ []) ⟨k, kind.written⟩ :=
      munch_before_blank h.notBlank hk h.mem (by simp)
    rw [List.append_nil] at hx
    exact lineReadBack_singleton h hx fun hr => h.return_not_mem hk (List.mem_of_getLast? hr)
  · refine ⟨munched_cons h hk hne hl, ?_, ?_, ?_⟩
    · obtain ⟨c, z, hw, hc⟩ := exists_cons_not_isBlank h.notBlank h.mem
      simpa [spell_cons kind hne, hw] using hc
    · simp [spell_cons kind hne, h.newline_not_mem, hl.oneLine]
    · rw [spell_cons kind hne, List.getLast?_append, List.getLast?_cons]
      cases hlast : (spell kinds).getLast? with
      | none => simp
      | some c => simpa [hlast] using hl.noReturn

lemma lineReadBack_append {last : List TokenKind} (hk : ∀ kind ∈ kinds, kind.Plain)
    (hl : LineReadBack line last) : LineReadBack line (kinds ++ last) := by
  induction kinds with
  | nil => exact hl
  | cons kind kinds ih =>
    obtain ⟨hkind, hk⟩ := List.forall_mem_cons.mp hk
    exact lineReadBack_cons hkind (ih hk)

namespace WrittenLine

theorem lineReadBack (l : WrittenLine) (line : Nat) : LineReadBack line l.all := by
  apply lineReadBack_append l.plain
  cases hc : l.comment with
  | none => exact lineReadBack_nil
  | some c =>
    have hs := l.slashes c hc
    have hn := l.oneLine c hc
    exact lineReadBack_singleton (readBack_comment hs hn) (munch_comment hs hn) (l.noReturn c hc)

lemma scanLine_text (l : WrittenLine) (line : Nat) :
    scanLine line l.text = .ok (writtenTokens line 0 l.all) :=
  scanLine_eq_iff.mpr ((l.lineReadBack line).munched 0)

lemma scanLines_text (line : Nat) (ls : List WrittenLine) :
    scanLines line (ls.map text) = .ok (tokens line ls) := by
  induction ls generalizing line with
  | nil => rfl
  | cons l ls ih =>
    rw [List.map_cons, scanLines_of_ok (l.scanLine_text line), ih]
    rfl

lemma lines_text {ls : List WrittenLine} (hne : ls ≠ []) :
    lines (['\n'].intercalate (ls.map text)) = ls.map text := by
  have hn : ∀ x ∈ ls.map text, '\n' ∉ x := by
    rw [List.forall_mem_map]
    exact fun l _ => (l.lineReadBack 0).oneLine
  rw [lines, List.splitOn_intercalate '\n' hn (by simpa using hne), List.map_map]
  exact List.map_congr_left fun l _ => dropReturn_eq_self (l.lineReadBack 0).noReturn

end WrittenLine

theorem tokenize_written (ls : List WrittenLine) :
    tokenize (String.ofList (['\n'].intercalate (ls.map WrittenLine.text))) =
      .ok (WrittenLine.tokens 0 ls) := by
  rw [tokenize, String.toList_ofList]
  cases ls with
  | nil => exact scanLines_of_ok (Scan.tokens_nil _) []
  | cons l ls => rw [WrittenLine.lines_text (List.cons_ne_nil l ls), WrittenLine.scanLines_text]

theorem written_of_two_lines : ∃ first second : WrittenLine,
    first.text = "IF x1 >= 42 // é".toList ∧ second.text = "true (".toList ∧
      tokenize "IF x1 >= 42 // é\ntrue (" = .ok (WrittenLine.tokens 0 [first, second]) ∧
      WrittenLine.tokens 0 [first, second] =
        [⟨.keyword .if_, ⟨0, 0, 2⟩⟩, ⟨.identifier "x1", ⟨0, 3, 5⟩⟩,
          ⟨.operator .greaterOrEqual, ⟨0, 6, 8⟩⟩, ⟨.integer 42, ⟨0, 9, 11⟩⟩,
          ⟨.comment "// é", ⟨0, 12, 16⟩⟩, ⟨.boolean true, ⟨1, 0, 4⟩⟩,
          ⟨.operator .leftBracket, ⟨1, 5, 6⟩⟩] := by
  have hx : "x1".toList ∈ LexemeClass.word.pattern.language :=
    LexemeClass.mem_word (c := 'x') (z := ['1']) rfl (by simp; decide)
  have hk : Keyword.ofSpelling? "x1" = none := by decide +kernel
  have hplain : ∀ kind ∈ [.keyword .if_, .identifier "x1", .operator .greaterOrEqual, .integer 42],
      TokenKind.Plain kind := by
    simpa [Plain] using And.intro hx hk
  have hsecond : ∀ kind ∈ [.boolean true, .operator .leftBracket], TokenKind.Plain kind := by
    simp [Plain]
  obtain ⟨first, hfirst⟩ : ∃ l : WrittenLine, l.all = [.keyword .if_, .identifier "x1",
      .operator .greaterOrEqual, .integer 42, .comment "// é"] :=
    ⟨⟨_, some "// é", hplain, by simp, by simp, by simp⟩, rfl⟩
  obtain ⟨second, hlast⟩ : ∃ l : WrittenLine, l.all = [.boolean true, .operator .leftBracket] :=
    ⟨⟨_, none, hsecond, by simp, by simp, by simp⟩, rfl⟩
  have htexts : first.text = "IF x1 >= 42 // é".toList ∧ second.text = "true (".toList := by
    rw [WrittenLine.text, WrittenLine.text, hfirst, hlast]
    exact ⟨rfl, rfl⟩
  have hsource : String.ofList (['\n'].intercalate ([first, second].map WrittenLine.text)) =
      "IF x1 >= 42 // é\ntrue (" := by
    rw [List.map_cons, List.map_singleton, htexts.1, htexts.2]
    rfl
  refine ⟨first, second, htexts.1, htexts.2, ?_, ?_⟩
  · rw [← hsource]
    exact tokenize_written [first, second]
  · rw [WrittenLine.tokens, WrittenLine.tokens, WrittenLine.tokens, hfirst, hlast]
    rfl

end LCode
