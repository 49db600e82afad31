import LCode.Proofs.MaximalMunch
import LCode.Proofs.SourceLines
import LCode.Scan

/-! Scanning by the longest lexeme, as a relation between a text and a result. -/

namespace LCode

open Lexeme Text
open scoped Computability

abbrev Result := Except LexicalError (List Token)

/-- The text from column `column` of a line on has a result by maximal munch. -/
inductive Munched (line : Nat) : Nat → List Char → Result → Prop
  | done {column : Nat} : Munched line column [] (.ok [])
  | unrecognised {column : Nat} {c : Char} {cs : List Char} :
      (∀ k : LexemeClass, ∀ y ∈ k.pattern.language, ¬y <+: c :: cs) →
      Munched line column (c :: cs)
        (.error ⟨.unrecognisedToken (String.ofList [c]), ⟨line, column⟩⟩)
  | meaningless {column : Nat} {x : Lexeme} {rest : List Char} {cause : Cause} :
      Munch (x.text ++ rest) x → x.meaning = .error cause →
      Munched line column (x.text ++ rest) (.error ⟨cause, ⟨line, column⟩⟩)
  | skipped {column : Nat} {x : Lexeme} {rest : List Char} {result : Result} :
      Munch (x.text ++ rest) x → x.meaning = .ok none →
      Munched line (column + x.text.length) rest result →
      Munched line column (x.text ++ rest) result
  | taken {column : Nat} {x : Lexeme} {rest : List Char} {kind : TokenKind} {result : Result} :
      Munch (x.text ++ rest) x → x.meaning = .ok (some kind) →
      Munched line (column + x.text.length) rest result →
      Munched line column (x.text ++ rest)
        (result.map (⟨kind, ⟨line, column, column + x.text.length⟩⟩ :: ·))

namespace Scan

lemma step_of_none {s : Scan} (h : first? s.rest = none) :
    s.step = .error (s.errorAt (.unrecognisedToken (String.ofList (s.rest.take 1)))) := by
  rw [step, h]

lemma step_of_meaningless {s : Scan} {x : Lexeme} {cause : Cause} (h : first? s.rest = some x)
    (hm : x.meaning = .error cause) : s.step = .error (s.errorAt cause) := by
  simp only [step, h, hm]

lemma step_of_meaning {s : Scan} {x : Lexeme} {kind : Option TokenKind}
    (h : first? s.rest = some x) (hm : x.meaning = .ok kind) :
    s.step = .ok (kind.map fun k => ⟨k, s.cursor.spanOf x.text⟩, s.skip x) := by
  simp only [step, h, hm]

lemma skip_rest {s : Scan} {x : Lexeme} {rest : List Char} (h : s.rest = x.text ++ rest) :
    (s.skip x).rest = rest := by
  rw [skip, h, List.drop_left]

lemma first?_of_munch {s : Scan} {x : Lexeme} {rest : List Char} (hx : Munch (x.text ++ rest) x)
    (hr : s.rest = x.text ++ rest) : s.rest ≠ [] ∧ first? s.rest = some x := by
  rw [hr]
  exact ⟨List.append_ne_nil_of_left_ne_nil hx.nonempty rest, first?_eq_some_iff.mpr hx⟩

lemma except_map_id {r : Result} : r.map ([] ++ ·) = r := by
  cases r <;> rfl

lemma tokens_of_skipped {s : Scan} {x : Lexeme} (hr : s.rest ≠ []) (h : first? s.rest = some x)
    (hm : x.meaning = .ok none) : s.tokens = (s.skip x).tokens := by
  rw [tokens_of_ok hr (step_of_meaning h hm)]
  exact except_map_id

lemma tokens_of_taken {s : Scan} {x : Lexeme} {kind : TokenKind} (hr : s.rest ≠ [])
    (h : first? s.rest = some x) (hm : x.meaning = .ok (some kind)) :
    s.tokens = (s.skip x).tokens.map (⟨kind, s.cursor.spanOf x.text⟩ :: ·) :=
  tokens_of_ok hr (step_of_meaning h hm)

theorem munched_tokens (s : Scan) : Munched s.cursor.line s.cursor.column s.rest s.tokens := by
  induction hn : s.rest.length using Nat.strong_induction_on generalizing s with
  | _ n ih =>
    subst hn
    cases hr : s.rest with
    | nil =>
      obtain ⟨cursor, rest⟩ := s
      obtain rfl : rest = [] := hr
      rw [tokens_nil]
      exact .done
    | cons c cs =>
      have hne : s.rest ≠ [] := hr ▸ List.cons_ne_nil c cs
      cases hx : first? s.rest with
      | none =>
        rw [tokens_of_error hne (step_of_none hx), hr]
        exact .unrecognised (hr ▸ first?_eq_none_iff.mp hx)
      | some x =>
        have hmunch := munch_of_first? hx
        obtain ⟨rest, hrest⟩ := hmunch.head
        have hskip : (s.skip x).rest = rest := skip_rest hrest.symm
        have hlt : (s.skip x).rest.length < s.rest.length := length_drop_first? hx
        rw [← hr, ← hrest]
        rw [← hrest] at hmunch
        cases hm : x.meaning with
        | error cause =>
          rw [tokens_of_error hne (step_of_meaningless hx hm)]
          exact .meaningless hmunch hm
        | ok kind =>
          have hlater := ih _ hlt (s.skip x) rfl
          rw [hskip] at hlater
          cases kind with
          | none =>
            rw [tokens_of_skipped hne hx hm]
            exact .skipped hmunch hm hlater
          | some kind =>
            rw [tokens_of_taken hne hx hm]
            exact .taken hmunch hm hlater

end Scan

lemma Munched.eq_tokens {line column : Nat} {cs : List Char} {result : Result}
    (h : Munched line column cs result) {s : Scan} (hl : s.cursor.line = line)
    (hc : s.cursor.column = column) (hr : s.rest = cs) : s.tokens = result := by
  induction h generalizing s with
  | done =>
    obtain ⟨cursor, rest⟩ := s
    obtain rfl : rest = [] := hr
    exact Scan.tokens_nil cursor
  | unrecognised hn =>
    have hx := hr ▸ first?_eq_none_iff.mpr hn
    rw [Scan.tokens_of_error (hr ▸ List.cons_ne_nil _ _) (Scan.step_of_none hx), ← hl, ← hc, hr]
    rfl
  | meaningless hx hm =>
    obtain ⟨hne, hf⟩ := Scan.first?_of_munch hx hr
    rw [Scan.tokens_of_error hne (Scan.step_of_meaningless hf hm), ← hl, ← hc]
    rfl
  | skipped hx hm _ ih =>
    obtain ⟨hne, hf⟩ := Scan.first?_of_munch hx hr
    rw [Scan.tokens_of_skipped hne hf hm]
    exact ih hl (by rw [← hc]; rfl) (Scan.skip_rest hr)
  | taken hx hm _ ih =>
    obtain ⟨hne, hf⟩ := Scan.first?_of_munch hx hr
    rw [Scan.tokens_of_taken hne hf hm,
      ih (by rw [← hl]; rfl) (by rw [← hc]; rfl) (Scan.skip_rest hr)]
    simp only [Cursor.spanOf, hl, hc]

lemma scanLine_eq_iff {line : Nat} {text : List Char} {result : Result} :
    scanLine line text = result ↔ Munched line 0 text result := by
  constructor
  · rintro rfl
    exact Scan.munched_tokens (Scan.ofLine line text)
  · intro h
    exact h.eq_tokens rfl rfl rfl

inductive MunchedLines : Nat → List (List Char) → Result → Prop
  | nil {line : Nat} : MunchedLines line [] (.ok [])
  | error {line : Nat} {text : List Char} {texts : List (List Char)} {e : LexicalError} :
      Munched line 0 text (.error e) → MunchedLines line (text :: texts) (.error e)
  | cons {line : Nat} {text : List Char} {texts : List (List Char)} {tokens : List Token}
      {result : Result} : Munched line 0 text (.ok tokens) → MunchedLines (line + 1) texts result →
      MunchedLines line (text :: texts) (result.map (tokens ++ ·))

def MunchedSource (source : String) (result : Result) : Prop :=
  ∃ texts, SplitInto source.toList texts ∧ MunchedLines 0 texts result

lemma scanLines_of_error {line : Nat} {text : List Char} {e : LexicalError}
    (h : scanLine line text = .error e) (texts : List (List Char)) :
    scanLines line (text :: texts) = .error e := by
  rw [scanLines, h]
  rfl

lemma scanLines_of_ok {line : Nat} {text : List Char} {tokens : List Token}
    (h : scanLine line text = .ok tokens) (texts : List (List Char)) :
    scanLines line (text :: texts) = (scanLines (line + 1) texts).map (tokens ++ ·) := by
  rw [scanLines, h]
  cases scanLines (line + 1) texts <;> rfl

lemma scanLines_eq_iff {line : Nat} {texts : List (List Char)} {result : Result} :
    scanLines line texts = result ↔ MunchedLines line texts result := by
  constructor
  · rintro rfl
    induction texts generalizing line with
    | nil => exact .nil
    | cons text texts ih =>
      cases h : scanLine line text with
      | error e =>
        rw [scanLines_of_error h]
        exact .error (scanLine_eq_iff.mp h)
      | ok tokens =>
        rw [scanLines_of_ok h]
        exact .cons (scanLine_eq_iff.mp h) ih
  · intro h
    induction h with
    | nil => rfl
    | error h => exact scanLines_of_error (scanLine_eq_iff.mpr h) _
    | cons h _ ih => rw [scanLines_of_ok (scanLine_eq_iff.mpr h), ih]

lemma tokenize_eq_iff {source : String} {result : Result} :
    tokenize source = result ↔ MunchedSource source result := by
  constructor
  · intro h
    exact ⟨_, splitInto_iff.mpr rfl, scanLines_eq_iff.mp h⟩
  · rintro ⟨texts, ht, h⟩
    rw [tokenize, splitInto_iff.mp ht]
    exact scanLines_eq_iff.mpr h

/-- To take the first pattern that a backtracking search finds is to take the longest text of any
pattern, and there is never more than one pattern that it belongs to. -/
theorem tokenize_maximalMunch (source : String) :
    (∀ result, tokenize source = result ↔ MunchedSource source result) ∧
      (∀ cs, first? cs = search? cs) ∧
      (∀ cs x, search? cs = some x ↔ Munch cs x) ∧
      (∀ cs, search? cs = none ↔ ∀ k : LexemeClass, ∀ y ∈ k.pattern.language, ¬y <+: cs) ∧
      ∀ k l : LexemeClass, ∀ x ∈ k.pattern.language, x ∈ l.pattern.language → k = l := by
  refine ⟨fun result => tokenize_eq_iff, fun cs => (search?_eq cs).symm, ?_, ?_, ?_⟩
  · intro cs x
    rw [search?_eq]
    exact first?_eq_some_iff
  · intro cs
    rw [search?_eq]
    exact first?_eq_none_iff
  · intro k l x hk hl
    by_contra hkl
    exact LexemeClass.language_disjoint hkl hk hl

end LCode
