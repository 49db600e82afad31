import LCode.Proofs.LiteralGrammar
import LCode.Proofs.Separation
import LCode.Proofs.Spelling

/-! A lexeme is the longest one where it stands, so that what touches it cannot go on with it. -/

namespace LCode

open Lexeme Pattern Text

def TokenKind.IsMark (kind : TokenKind) : Prop :=
  (∃ k, kind = .operator k) ∨ ∃ text, kind = .comment text

/-- What the token `b` may be that begins where the token `a` ends. Only after a word may a number
follow, and it begins with a point then. -/
structure Touching (source : String) (a b : Token) : Prop where
  comment : ∀ text, a.kind ≠ .comment text
  integer : ∀ v, a.kind = .integer v → b.kind.IsMark
  float : ∀ x, a.kind = .float x → b.kind.IsMark
  word : (∃ k, a.kind = .keyword k) ∨ (∃ v, a.kind = .boolean v) ∨ (∃ n, a.kind = .identifier n) →
    b.kind.IsMark ∨ (∃ x, b.kind = .float x) ∧ ∃ text, lineAt? source b.span.line = some text ∧
      (b.span.slice text.toList).head? = some '.'
  operators : ∀ k l, a.kind = .operator k → b.kind = .operator l →
    ∀ c ∈ l.spelling.toList.head?, k.spelling.push c ≠ "//" ∧
      ∀ m : Operator, m.spelling ≠ k.spelling.push c
  divide : a.kind = .operator .divide → ∀ text, b.kind ≠ .comment text

namespace LexemeClass

lemma append_mem_word {x : List Char} {c : Char} (hx : x ∈ word.pattern.language)
    (hc : isWordPart c = true) : x ++ [c] ∈ word.pattern.language := by
  obtain ⟨d, z, rfl, hd, hz⟩ := mem_language_char_star hx
  exact mem_word hd (List.forall_mem_append.mpr ⟨hz, List.forall_mem_singleton.mpr hc⟩)

lemma append_mem_numeral {x : List Char} {c : Char} (hx : x ∈ numeral.pattern.language)
    (hc : isNumeralPart c = true) : x ++ [c] ∈ numeral.pattern.language := by
  obtain ⟨s, hs, z, hz, rfl⟩ := mem_language_seq.mp hx
  have hitem : [c] ∈ (star numeralItem).language :=
    mem_items_of_isNumeralPart (List.forall_mem_singleton.mpr hc)
  exact mem_language_seq.mpr ⟨s, hs, z ++ [c], append_mem_items hz hitem,
    (List.append_assoc s z [c]).symm⟩

end LexemeClass

namespace Lexeme

variable {x : Lexeme} {k : LexemeClass} {c : Char} {rest z : List Char}

lemma Munch.append_not_mem (hx : Munch (x.text ++ c :: rest) x) (k : LexemeClass) :
    x.text ++ [c] ∉ k.pattern.language := by
  intro h
  have hle := hx.longest k _ h ⟨rest, (List.append_cons x.text c rest).symm⟩
  rw [List.length_append] at hle
  exact absurd hle (Nat.not_succ_le_self _)

lemma Munch.isNumeralPart_eq_false (hx : Munch (x.text ++ c :: rest) x) (hc : x.cls = .numeral) :
    isNumeralPart c = false :=
  Bool.eq_false_iff.mpr fun hpart =>
    hx.append_not_mem .numeral (LexemeClass.append_mem_numeral (hc ▸ hx.mem) hpart)

lemma Munch.isWordPart_eq_false (hx : Munch (x.text ++ c :: rest) x) (hc : x.cls = .word) :
    isWordPart c = false :=
  Bool.eq_false_iff.mpr fun hpart =>
    hx.append_not_mem .word (LexemeClass.append_mem_word (hc ▸ hx.mem) hpart)

lemma Munch.push_ne (hx : Munch (x.text ++ c :: rest) x) {symbol : Operator}
    (hc : x.cls = .operator symbol) :
    symbol.spelling.push c ≠ "//" ∧ ∀ m : Operator, m.spelling ≠ symbol.spelling.push c := by
  have htext : x.text = symbol.spelling.toList := by
    have hmem := hx.mem
    rwa [hc, LexemeClass.pattern, Operator.pattern_eq, mem_language_text] at hmem
  have hnot := hx.append_not_mem
  rw [htext, ← String.toList_push] at hnot
  constructor
  · intro he
    refine hnot .comment ?_
    rw [he]
    exact (munch_comment List.prefix_rfl (by decide)).mem
  · intro m hm
    refine hnot (.operator m) ?_
    rw [← hm, LexemeClass.pattern, Operator.pattern_eq, mem_language_text]

lemma Munch.push_head_ne {ys : List Char} (hx : Munch (x.text ++ (ys ++ rest)) x)
    {symbol : Operator} (hc : x.cls = .operator symbol) :
    ∀ c ∈ ys.head?, symbol.spelling.push c ≠ "//" ∧
      ∀ m : Operator, m.spelling ≠ symbol.spelling.push c := by
  intro c hhead
  obtain ⟨z, rfl⟩ := List.head?_eq_some_iff.mp hhead
  exact hx.push_ne hc

lemma isNumeralPart_of_starts (h : k.starts c = true) (hk : k = .word ∨ k = .numeral) :
    isNumeralPart c = true := by
  rcases hk with rfl | rfl
  · have hpart := LexemeClass.isWordPart_of_isWordStart h
    rw [isWordPart] at hpart
    rw [isNumeralPart, hpart, Bool.true_or]
  · simp only [LexemeClass.starts, Bool.or_eq_true, decide_eq_true_eq] at h
    rcases h with h | rfl
    · exact LexemeClass.isNumeralPart_of_isDigit h
    · rfl

lemma eq_point_of_starts (h : LexemeClass.numeral.starts c = true) (hc : isWordPart c = false) :
    c = '.' := by
  simp only [LexemeClass.starts, Bool.or_eq_true, decide_eq_true_eq] at h
  refine h.resolve_left fun hd => ?_
  simp [isWordPart, Char.isAlphanum, hd] at hc

lemma isMark_of_cls {kind : TokenKind} (hn : kind.cls ≠ .numeral) (hw : kind.cls ≠ .word) :
    kind.IsMark := by
  cases kind with
  | operator k => exact Or.inl ⟨k, rfl⟩
  | comment text => exact Or.inr ⟨text, rfl⟩
  | integer | float => exact absurd rfl hn
  | keyword | boolean | identifier => exact absurd rfl hw

lemma exists_float_of_point {y : Lexeme} {kind : TokenKind} (hm : y.meaning = .ok (some kind))
    (hc : y.cls = .numeral) (hy : y.text = '.' :: z) : ∃ f, kind = .float f := by
  have hk : numeralKind? ('.' :: z) = some kind := by
    simp only [meaning, hc, hy] at hm
    split at hm
    next hk =>
      cases hm
      exact hk
    next => cases hm
  cases kind with
  | float f => exact ⟨f, rfl⟩
  | integer v =>
    have hdigits := (mem_digits_iff.mp (numeralKind?_eq_integer_iff.mp hk).1).2
    exact absurd (hdigits '.' List.mem_cons_self) (by decide)
  | _ => cases cls_of_numeralKind? hk

section

variable {y : Lexeme} {next : TokenKind} (hx : Munch (x.text ++ (y.text ++ rest)) x)
  (hy : y.text ∈ y.cls.pattern.language) (hm : y.meaning = .ok (some next))

include hx hy hm

lemma isMark_of_numeral (hc : x.cls = .numeral) : next.IsMark := by
  obtain ⟨c, z, hcz, hstarts⟩ := LexemeClass.exists_cons_of_mem hy
  rw [hcz, List.cons_append] at hx
  have hpart := hx.isNumeralPart_eq_false hc
  have hnot : ∀ k, next.cls = k → ¬(k = .word ∨ k = .numeral) := by
    intro k hnext hk
    rw [← hnext, ← cls_of_meaning hm] at hk
    rw [isNumeralPart_of_starts hstarts hk] at hpart
    cases hpart
  exact isMark_of_cls (fun hn => hnot _ hn (Or.inr rfl)) fun hw => hnot _ hw (Or.inl rfl)

lemma isMark_or_point_of_word (hc : x.cls = .word) :
    next.IsMark ∨ (∃ f, next = .float f) ∧ y.text.head? = some '.' := by
  obtain ⟨c, z, hcz, hstarts⟩ := LexemeClass.exists_cons_of_mem hy
  rw [hcz, List.cons_append] at hx
  have hpart := hx.isWordPart_eq_false hc
  rw [cls_of_meaning hm] at hstarts
  by_cases hn : next.cls = .numeral
  · rw [hn] at hstarts
    obtain rfl := eq_point_of_starts hstarts hpart
    have hfloat := exists_float_of_point hm ((cls_of_meaning hm).trans hn) hcz
    exact Or.inr ⟨hfloat, by rw [hcz, List.head?_cons]⟩
  · refine Or.inl (isMark_of_cls hn fun hw => ?_)
    rw [hw] at hstarts
    rw [LexemeClass.isWordPart_of_isWordStart hstarts] at hpart
    cases hpart

end

end Lexeme

variable {source : String} {tokens : List Token}

lemma exists_munch_of_touching (h : tokenize source = .ok tokens) {a b : Token} (ha : a ∈ tokens)
    (hb : b ∈ tokens) (hline : a.span.line = b.span.line) (hstop : a.span.stop = b.span.start) :
    ∃ x y rest text, Munch (x.text ++ (y.text ++ rest)) x ∧ x.meaning = .ok (some a.kind) ∧
      Munch (y.text ++ rest) y ∧ y.meaning = .ok (some b.kind) ∧ '\n' ∉ y.text ++ rest ∧
      lineAt? source b.span.line = some text ∧ b.span.slice text.toList = y.text := by
  obtain ⟨text, htext, hmem⟩ := lineAt?_of_mem h hb
  have htiled := tiled_of_tokenize h htext
  have ha : a ∈ tokens.filter fun t => t.span.line = b.span.line :=
    List.mem_filter.mpr ⟨ha, decide_eq_true hline⟩
  obtain ⟨x, after, hx, hxm, -, hafter⟩ := htiled.lexeme_of_mem List.length_nil ha
  obtain ⟨y, rest, hy, hym, hslice, hrest⟩ := htiled.lexeme_of_mem List.length_nil hmem
  obtain ⟨-, -, hlt, -⟩ := htiled.bounds b hmem
  rw [List.nil_append] at hafter hslice hrest
  have hnext : after = y.text ++ rest := by
    have hsplit :=
      List.take_append_drop (b.span.stop - b.span.start) (text.toList.drop b.span.start)
    rw [List.drop_drop, Nat.add_sub_cancel' hlt.le] at hsplit
    rw [← hafter, hstop, ← hsplit, ← hslice, ← hrest]
    rfl
  have hnewline : '\n' ∉ after := by
    rw [← hafter]
    exact fun hn => newline_not_mem_of_lineAt? htext (List.mem_of_mem_drop hn)
  subst hnext
  exact ⟨x, y, rest, text, hx, hxm, hy, hym, hnewline, htext, hslice⟩

theorem tokens_touching (h : tokenize source = .ok tokens) {a b : Token} (ha : a ∈ tokens)
    (hb : b ∈ tokens) (hline : a.span.line = b.span.line) (hstop : a.span.stop = b.span.start) :
    Touching source a b := by
  obtain ⟨x, y, rest, text, hx, hxm, hy, hym, hnewline, htext, hslice⟩ :=
    exists_munch_of_touching h ha hb hline hstop
  have hxc := cls_of_meaning hxm
  refine ⟨fun t hk => ?_, fun v hk => ?_, fun f hk => ?_, fun hk => ?_, fun k l hk hl => ?_,
    fun hk t hl => ?_⟩
  · rw [hk] at hxc
    have hnil := hx.rest_eq_nil hxc hnewline
    exact hy.nonempty (List.append_eq_nil_iff.mp hnil).1
  · rw [hk] at hxc
    exact isMark_of_numeral hx hy.mem hym hxc
  · rw [hk] at hxc
    exact isMark_of_numeral hx hy.mem hym hxc
  · have hword : x.cls = .word := by
      rcases hk with ⟨k, hk⟩ | ⟨v, hk⟩ | ⟨n, hk⟩ <;> rw [hxc, hk, TokenKind.cls]
    refine (isMark_or_point_of_word hx hy.mem hym hword).imp_right (And.imp_right fun hp => ?_)
    exact ⟨text, htext, hslice ▸ hp⟩
  · rw [hk] at hxc
    have hspelt : y.text = l.spelling.toList := by
      have hs := spelt_of_meaning hy hym fun hn => hnewline (List.mem_append_right _ hn)
      rwa [hl] at hs
    exact hspelt ▸ hx.push_head_ne hxc
  · rw [hk] at hxc
    obtain ⟨body, hbody⟩ : ['/', '/'] <+: y.text := by
      have hmem := hy.mem
      rw [cls_of_meaning hym, hl] at hmem
      exact LexemeClass.slashes_prefix_of_mem hmem
    exact (hx.push_head_ne hxc '/' (by rw [← hbody]; rfl)).1 rfl

theorem touching_of_word_and_point : ∃ a b c, tokenize "x.5//" = .ok [a, b, c] ∧
    a.span.stop = b.span.start ∧ b.span.stop = c.span.start ∧
    Touching "x.5//" a b ∧ Touching "x.5//" b c := by
  have h : tokenize "x.5//" = .ok [⟨.identifier "x", ⟨0, 0, 1⟩⟩,
      ⟨.float ⟨0x3fe0000000000000⟩, ⟨0, 1, 3⟩⟩, ⟨.comment "//", ⟨0, 3, 5⟩⟩] := by decide +kernel
  exact ⟨_, _, _, h, rfl, rfl, tokens_touching h (by simp) (by simp) rfl rfl,
    tokens_touching h (by simp) (by simp) rfl rfl⟩

end LCode
