import LCode.Proofs.ReferenceScan

namespace LCode

open Lexeme Text
open scoped Computability

/-- The text from column `column` of a line on falls into blanks and the lexemes of tokens. -/
inductive Tiled (line : Nat) : Nat → List Char → List Token → Prop
  | done {column : Nat} : Tiled line column [] []
  | blank {column : Nat} {blanks rest : List Char} {tokens : List Token} :
      (∀ c ∈ blanks, isBlank c = true) → Tiled line (column + blanks.length) rest tokens →
      Tiled line column (blanks ++ rest) tokens
  | token {column : Nat} {x : Lexeme} {rest : List Char} {kind : TokenKind} {tokens : List Token} :
      Munch (x.text ++ rest) x → x.meaning = .ok (some kind) →
      Tiled line (column + x.text.length) rest tokens →
      Tiled line column (x.text ++ rest) (⟨kind, ⟨line, column, column + x.text.length⟩⟩ :: tokens)

def TokenKind.cls : TokenKind → LexemeClass
  | .integer _ | .float _ => .numeral
  | .boolean _ | .identifier _ | .keyword _ => .word
  | .operator k => .operator k
  | .comment _ => .comment

namespace Lexeme

lemma cls_of_meaning_none {x : Lexeme} (h : x.meaning = .ok none) : x.cls = .blank := by
  obtain ⟨cls, text⟩ := x
  cases cls with
  | blank => rfl
  | numeral =>
    simp only [meaning] at h
    split at h <;> cases h
  | _ => cases h

lemma cls_wordKind (word : List Char) : (wordKind word).cls = .word := by
  rw [wordKind]
  split
  · rfl
  · split_ifs <;> rfl

lemma cls_of_numeralKind? {numeral : List Char} {kind : TokenKind}
    (h : numeralKind? numeral = some kind) : kind.cls = .numeral := by
  rw [numeralKind?] at h
  split_ifs at h
  · cases h
    rfl
  · obtain ⟨l, -, rfl⟩ := Option.map_eq_some_iff.mp h
    rfl

lemma cls_of_meaning {x : Lexeme} {kind : TokenKind} (h : x.meaning = .ok (some kind)) :
    x.cls = kind.cls := by
  rw [meaning] at h
  split at h
  next => cases h
  next hc =>
    cases h
    exact hc
  next hc =>
    cases h
    rw [hc, cls_wordKind]
  next hc =>
    split at h
    next hk =>
      cases h
      rw [hc, cls_of_numeralKind? hk]
    next => cases h
  next hc =>
    cases h
    exact hc

lemma Munch.isBlank {cs : List Char} {x : Lexeme} (hx : Munch cs x) (hm : x.meaning = .ok none) :
    ∀ c ∈ x.text, Lexeme.isBlank c = true := by
  have hmem := hx.mem
  rw [cls_of_meaning_none hm] at hmem
  obtain ⟨c, z, hcz, hc, hz⟩ := LexemeClass.mem_language_char_star hmem
  rw [hcz]
  exact List.forall_mem_cons.mpr ⟨hc, hz⟩

end Lexeme

lemma Munched.tiled {line column : Nat} {cs : List Char} {result : Result}
    (h : Munched line column cs result) {tokens : List Token} (hr : result = .ok tokens) :
    Tiled line column cs tokens := by
  induction h generalizing tokens with
  | done =>
    cases hr
    exact .done
  | unrecognised _ => cases hr
  | meaningless _ _ => cases hr
  | skipped hx hm _ ih => exact .blank (hx.isBlank hm) (ih hr)
  | @taken column x rest kind result hx hm _ ih =>
    cases result with
    | error e => cases hr
    | ok later =>
      cases hr
      exact .token hx hm (ih rfl)

lemma tiled_of_scanLine {line : Nat} {text : List Char} {tokens : List Token}
    (h : scanLine line text = .ok tokens) : Tiled line 0 text tokens :=
  (scanLine_eq_iff.mp h).tiled rfl

def Span.slice (s : Span) (text : List Char) : List Char :=
  (text.drop s.start).take (s.stop - s.start)

lemma Span.slice_append (line : Nat) (passed x rest : List Char) :
    (⟨line, passed.length, passed.length + x.length⟩ : Span).slice (passed ++ (x ++ rest)) = x := by
  rw [slice, List.drop_left, Nat.add_sub_cancel_left, List.take_left]

namespace Tiled

variable {line column : Nat} {cs : List Char} {tokens : List Token}

lemma bounds (h : Tiled line column cs tokens) :
    ∀ t ∈ tokens, t.span.line = line ∧ column ≤ t.span.start ∧ t.span.start < t.span.stop ∧
      t.span.stop ≤ column + cs.length := by
  induction h with
  | done => exact fun t ht => absurd ht List.not_mem_nil
  | blank _ _ ih =>
    intro t ht
    obtain ⟨hl, hs, hlt, hstop⟩ := ih t ht
    refine ⟨hl, by omega, hlt, ?_⟩
    rw [List.length_append]
    omega
  | @token column x rest kind tokens hx _ _ ih =>
    rintro t (_ | ⟨_, ht⟩)
    · have hpos := List.length_pos_iff.mpr hx.nonempty
      refine ⟨rfl, le_rfl, Nat.lt_add_of_pos_right hpos, ?_⟩
      change column + x.text.length ≤ column + (x.text ++ rest).length
      rw [List.length_append]
      omega
    · obtain ⟨hl, hs, hlt, hstop⟩ := ih t ht
      refine ⟨hl, by omega, hlt, ?_⟩
      rw [List.length_append]
      omega

lemma pairwise (h : Tiled line column cs tokens) :
    tokens.Pairwise fun a b => a.span.stop ≤ b.span.start := by
  induction h with
  | done => exact .nil
  | blank _ _ ih => exact ih
  | token _ _ hrest ih => exact .cons (fun t ht => (hrest.bounds t ht).2.1) ih

lemma isBlank_of_uncovered (h : Tiled line column cs tokens) {i : Nat} {c : Char}
    (hc : cs[i]? = some c)
    (hu : ∀ t ∈ tokens, ¬(t.span.start ≤ column + i ∧ column + i < t.span.stop)) :
    isBlank c = true := by
  induction h generalizing i with
  | done => cases hc
  | @blank column blanks rest tokens hb _ ih =>
    rw [List.getElem?_append] at hc
    split at hc
    · exact hb c (List.mem_of_getElem? hc)
    next hi =>
      have hcol : column + blanks.length + (i - blanks.length) = column + i := by omega
      exact ih hc (by rwa [hcol])
  | @token column x rest kind tokens _ _ _ ih =>
    rw [List.getElem?_append] at hc
    split at hc
    next hi => exact absurd ⟨Nat.le_add_right _ _, by dsimp only; omega⟩ (hu _ List.mem_cons_self)
    next hi =>
      have hcol : column + x.text.length + (i - x.text.length) = column + i := by omega
      exact ih hc (by rw [hcol]; exact fun t ht => hu t (List.mem_cons_of_mem _ ht))

lemma lexeme_of_mem (h : Tiled line column cs tokens) {passed : List Char}
    (hp : passed.length = column) {t : Token} (ht : t ∈ tokens) :
    ∃ x rest, Munch (x.text ++ rest) x ∧ x.meaning = .ok (some t.kind) ∧
      t.span.slice (passed ++ cs) = x.text ∧ (passed ++ cs).drop t.span.stop = rest := by
  induction h generalizing passed with
  | done => cases ht
  | @blank column blanks rest tokens _ _ ih =>
    have hl : (passed ++ blanks).length = column + blanks.length := by
      rw [List.length_append, hp]
    rw [← List.append_assoc]
    exact ih hl ht
  | @token column x rest kind tokens hx hm _ ih =>
    subst hp
    rcases List.mem_cons.mp ht with rfl | ht
    · refine ⟨x, rest, hx, hm, Span.slice_append line passed x.text rest, ?_⟩
      rw [← List.append_assoc, ← List.length_append, List.drop_left]
    · rw [← List.append_assoc]
      exact ih List.length_append ht

lemma woven (h : Tiled line column cs tokens) {passed : List Char} (hp : passed.length = column) :
    ∃ (gaps : List (List Char)) (last : List Char), gaps.length = tokens.length ∧
      (∀ gap ∈ last :: gaps, ∀ c ∈ gap, isBlank c = true) ∧
      cs = (List.zipWith (· ++ ·) gaps (tokens.map (·.span.slice (passed ++ cs)))).flatten ++
        last := by
  induction h generalizing passed with
  | done => exact ⟨[], [], rfl, by simp, rfl⟩
  | @blank column blanks rest tokens hb _ ih =>
    have hl : (passed ++ blanks).length = column + blanks.length := by
      rw [List.length_append, hp]
    obtain ⟨gaps, last, hn, hg, hcs⟩ := ih hl
    rw [List.append_assoc] at hcs
    cases gaps with
    | nil =>
      obtain rfl := List.length_eq_zero_iff.mp hn.symm
      refine ⟨[], blanks ++ last, rfl, ?_, congrArg (blanks ++ ·) hcs⟩
      simp only [List.mem_cons, List.not_mem_nil, or_false, forall_eq, List.forall_mem_append]
      exact ⟨hb, hg last List.mem_cons_self⟩
    | cons gap gaps =>
      cases tokens with
      | nil => cases hn
      | cons t tokens =>
        refine ⟨(blanks ++ gap) :: gaps, last, hn, ?_, ?_⟩
        · simp only [List.forall_mem_cons, List.forall_mem_append] at hg ⊢
          exact ⟨hg.1, ⟨hb, hg.2.1⟩, hg.2.2⟩
        · simp only [List.map_cons, List.zipWith_cons_cons, List.flatten_cons,
            List.append_assoc] at hcs ⊢
          exact congrArg (blanks ++ ·) hcs
  | @token column x rest kind tokens _ _ _ ih =>
    subst hp
    have hp : (passed ++ x.text).length = passed.length + x.text.length := List.length_append
    obtain ⟨gaps, last, hn, hg, hcs⟩ := ih hp
    refine ⟨[] :: gaps, last, congrArg (· + 1) hn, ?_, ?_⟩
    · simp only [List.forall_mem_cons] at hg ⊢
      exact ⟨hg.1, fun c hc => absurd hc List.not_mem_nil, hg.2⟩
    · rw [List.append_assoc] at hcs
      simp only [List.map_cons, List.zipWith_cons_cons, List.flatten_cons, List.nil_append,
        List.append_assoc, Span.slice_append]
      exact congrArg (x.text ++ ·) hcs

end Tiled

end LCode
