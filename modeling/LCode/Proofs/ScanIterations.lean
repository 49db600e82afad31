import LCode.Proofs.CheckedScan

/-! With each lexeme that a scan takes it passes at least one character of the line. -/

namespace LCode

open Lexeme Text

namespace Cursor

inductive Iterates : ℕ → Cursor → Cursor → Prop
  | done {c : Cursor} : Iterates 0 c c
  | next {n : ℕ} {c d e : Cursor} {token : Option Token} : c.atEnd = false →
      c.step? = some (.ok (token, d)) → Iterates n d e → Iterates (n + 1) c e

def tokensWithin? (bound : ℕ) (c : Cursor) : Option Result :=
  if c.atEnd then some (.ok [])
  else
    match bound with
    | 0 => none
    | bound + 1 =>
      match c.step? with
      | none => none
      | some (.error e) => some (.error e)
      | some (.ok (token, d)) =>
        (d.tokensWithin? bound).map fun later => later.map (token.toList ++ ·)

/-- A cursor before `rest` passes the lexeme that the patterns find there, and no more than that. -/
structure Passes (c : Cursor) (rest : List Char) (x : Lexeme) : Prop where
  found : search? rest = some x
  nonempty : x.text ≠ []
  head : x.text <+: rest
  stride : x.stride = x.text
  step : ∃ token, c.step? = some (.ok (token, c.advance x.stride))
  remainder : (c.advance x.stride).remainder? = some (rest.drop x.text.length)
  shorter : (rest.drop x.text.length).length < rest.length

/-- The scan of a line ends. The lexemes taken so far are no more than the characters passed, and
as many lexemes as the line has characters are enough. -/
structure LoopEnds (line : ℕ) (text : List Char) : Prop where
  iteration : ∀ n c, Iterates n (startLine line text) c → ∃ rest, c.remainder? = some rest ∧
    n + rest.length ≤ text.length ∧ (c.atEnd = true ↔ rest = []) ∧
      (c.atEnd = false → (∃ e, c.step? = some (.error e)) ∨ ∃ x, Passes c rest x)
  ends : ∃ n c, Iterates n (startLine line text) c ∧
    (c.atEnd = true ∨ c.atEnd = false ∧ ∃ e, c.step? = some (.error e))
  within : ∀ bound, text.length ≤ bound →
    (startLine line text).tokensWithin? bound = some (scanLine line text)

variable {c d : Cursor} {token : Option Token} {rest : List Char} {n : ℕ}

lemma Iterates.before (h : Iterates n c d) (hb : c.Before rest) :
    ∃ rest', d.Before rest' ∧ n + rest'.length ≤ rest.length := by
  induction h generalizing rest with
  | done => exact ⟨rest, hb, (Nat.zero_add _).le⟩
  | next _ hs _ ih =>
    obtain ⟨t, ht, rfl⟩ := hb.exists_step hs
    obtain ⟨rest', hrest', hle⟩ := ih (Scan.step_before hb ht)
    have hlt : t.rest.length < rest.length := Scan.step_shortens ht
    exact ⟨rest', hrest', by omega⟩

lemma Before.passes (h : c.Before rest) {t : Scan} (ht : Scan.step ⟨c, rest⟩ = .ok (token, t)) :
    ∃ x, Passes c rest x := by
  obtain ⟨x, hx, rfl⟩ := Scan.step_eq_ok ht
  have hstride := stride_of_first? hx
  have hs := step?_of_step ht h
  have hb := Scan.step_before h ht
  refine ⟨x, (search?_eq rest).trans hx, (first?_eq_some hx).2, ?_, hstride, ⟨token, ?_⟩, ?_,
    length_drop_first? hx⟩
  · rw [(first?_eq_some hx).1]
    exact x.cls.take_prefix rest
  · rw [hs, hstride]
    rfl
  · rw [hstride]
    exact hb.remainder?

lemma tokensWithin?_eq {bound : ℕ} (h : c.Before rest) (hbound : rest.length ≤ bound) :
    c.tokensWithin? bound = some (Scan.tokens ⟨c, rest⟩) := by
  induction bound generalizing c rest with
  | zero =>
    obtain rfl := List.length_eq_zero_iff.mp (Nat.le_zero.mp hbound)
    rw [tokensWithin?, if_pos (h.atEnd_iff.mpr rfl), Scan.tokens_nil]
  | succ bound ih =>
    by_cases hr : rest = []
    · rw [tokensWithin?, if_pos (h.atEnd_iff.mpr hr), hr, Scan.tokens_nil]
    · rw [tokensWithin?, if_neg (mt h.atEnd_iff.mp hr), h.step?]
      cases ht : Scan.step ⟨c, rest⟩ with
      | error e => rw [Scan.tokens_of_error hr ht]; rfl
      | ok r =>
        obtain ⟨token, t⟩ := r
        have hlt : t.rest.length < rest.length := Scan.step_shortens ht
        have hlater := ih (Scan.step_before h ht) (by omega)
        rw [Scan.tokens_of_ok hr ht]
        simp only [Except.map, hlater]
        rfl

lemma iterates_of_runs {s t : Scan} {tokens : List Token} (h : s.Runs tokens t)
    (hb : s.cursor.Before s.rest) : ∃ n, Iterates n s.cursor t.cursor := by
  induction h with
  | here => exact ⟨0, .done⟩
  | step hs _ ih =>
    obtain ⟨n, hn⟩ := ih (Scan.step_before hb hs)
    have hend := hb.atEnd_eq_false (Scan.rest_ne_nil hs)
    exact ⟨n + 1, .next hend (step?_of_step hs hb) hn⟩

lemma loopEnds (line : ℕ) (text : List Char) : LoopEnds line text where
  iteration n c h := by
    obtain ⟨rest, hb, hle⟩ := h.before (startLine_before line text)
    refine ⟨rest, hb.remainder?, hle, hb.atEnd_iff, fun _ => ?_⟩
    cases ht : Scan.step ⟨c, rest⟩ with
    | error e => exact Or.inl ⟨e, by rw [hb.step?, ht]; rfl⟩
    | ok r => exact Or.inr (hb.passes ht)
  ends := by
    have hb : (Scan.ofLine line text).cursor.Before text := startLine_before line text
    cases htokens : (Scan.ofLine line text).tokens with
    | ok tokens =>
      obtain ⟨t, hrun, hrest⟩ := Scan.exists_runs_of_ok htokens
      obtain ⟨n, hn⟩ := iterates_of_runs hrun hb
      exact ⟨n, t.cursor, hn, Or.inl ((hrun.before hb).atEnd_iff.mpr hrest)⟩
    | error e =>
      obtain ⟨tokens, t, hrun, hrest, hstep⟩ := Scan.exists_runs_of_error htokens
      obtain ⟨n, hn⟩ := iterates_of_runs hrun hb
      have hbefore := hrun.before hb
      refine ⟨n, t.cursor, hn, Or.inr ⟨?_, e, ?_⟩⟩
      · exact hbefore.atEnd_eq_false hrest
      · rw [hbefore.step?, hstep]
        rfl
  within _ hbound := tokensWithin?_eq (startLine_before line text) hbound

-- blanks and comments are lexemes too, and nothing less is enough for a line of single characters
example : (startLine 0 ['x', ' ', '+']).tokensWithin? 2 = none ∧
    (startLine 0 ['x', ' ', '+']).tokensWithin? 3 = some (scanLine 0 ['x', ' ', '+']) := by
  decide +kernel

end Cursor

def scanLinesWithin? (bound : List Char → ℕ) (line : ℕ) : List (List Char) → Option Result
  | [] => some (.ok [])
  | text :: texts => do
    match ← (Cursor.startLine line text).tokensWithin? (bound text) with
    | .error e => return .error e
    | .ok here => return (← scanLinesWithin? bound (line + 1) texts).map (here ++ ·)

def tokenizeWithin? (bound : List Char → ℕ) (source : String) : Option Result :=
  scanLinesWithin? bound 0 (lines source.toList)

lemma scanLinesWithin?_eq {bound : List Char → ℕ} {texts : List (List Char)} (line : ℕ)
    (h : ∀ text ∈ texts, text.length ≤ bound text) :
    scanLinesWithin? bound line texts = some (scanLines line texts) := by
  rw [← scanLines?_eq]
  induction texts generalizing line with
  | nil => rfl
  | cons text texts ih =>
    obtain ⟨htext, htexts⟩ := List.forall_mem_cons.mp h
    have hb := Cursor.startLine_before line text
    have hfirst : (Cursor.startLine line text).tokens? = some (scanLine line text) :=
      Scan.tokens?_eq (s := .ofLine line text) hb
    rw [scanLinesWithin?, scanLines?, Cursor.tokensWithin?_eq hb htext, hfirst, ih _ htexts]
    rfl

theorem scan_ends :
    (∀ (k : LexemeClass) (cs x : List Char), k.pattern.first? cs = some x → x ≠ [] ∧ x <+: cs) ∧
      (∀ line text, Cursor.LoopEnds line text) ∧
      ∀ (source : String) (bound : List Char → ℕ),
        (∀ text ∈ lines source.toList, text.length ≤ bound text) →
          tokenizeWithin? bound source = some (tokenize source) := by
  refine ⟨fun k cs x h => ?_, Cursor.loopEnds, fun source bound h => scanLinesWithin?_eq 0 h⟩
  rw [LexemeClass.first?_pattern] at h
  split_ifs at h with htake
  rw [Option.some_inj] at h
  exact h ▸ ⟨htake, k.take_prefix cs⟩

end LCode
