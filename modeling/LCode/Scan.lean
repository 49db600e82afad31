import LCode.Cursor.Basic
import LCode.Lexeme.Meaning
import LCode.Text.Lines

/-! Scanning, lexeme by lexeme and line by line. The result is all tokens, or the first error. -/

namespace LCode

open Text

/-- A line partly scanned: a cursor, and the text from the cursor on. -/
structure Scan where
  cursor : Cursor
  rest : List Char
deriving DecidableEq, Repr

namespace Scan

def ofLine (line : Nat) (text : List Char) : Scan := ⟨.startLine line text, text⟩

def errorAt (s : Scan) (cause : Cause) : LexicalError := ⟨cause, s.cursor.position⟩

def skip (s : Scan) (x : Lexeme) : Scan :=
  ⟨s.cursor.advance x.text, s.rest.drop x.text.length⟩

def step (s : Scan) : Except LexicalError (Option Token × Scan) :=
  match Lexeme.first? s.rest with
  | none => .error (s.errorAt (.unrecognisedToken (String.ofList (s.rest.take 1))))
  | some x =>
    match x.meaning with
    | .error cause => .error (s.errorAt cause)
    | .ok kind => .ok (kind.map fun k => ⟨k, s.cursor.spanOf x.text⟩, s.skip x)

theorem step_eq_ok {s t : Scan} {token : Option Token} (h : s.step = .ok (token, t)) :
    ∃ x, Lexeme.first? s.rest = some x ∧ t = s.skip x := by
  simp only [step] at h
  split at h
  next => cases h
  next x hx =>
    split at h
    next => cases h
    next =>
      cases h
      exact ⟨x, hx, rfl⟩

theorem step_shortens {s t : Scan} {token : Option Token} (h : s.step = .ok (token, t)) :
    t.rest.length < s.rest.length := by
  obtain ⟨x, hx, rfl⟩ := step_eq_ok h
  exact Lexeme.length_drop_first? hx

theorem step_before {s t : Scan} {token : Option Token} (hs : s.cursor.Before s.rest)
    (h : s.step = .ok (token, t)) : t.cursor.Before t.rest := by
  obtain ⟨x, hx, rfl⟩ := step_eq_ok h
  rw [← Lexeme.first?_append hx] at hs
  exact hs.advance

def tokens (s : Scan) : Except LexicalError (List Token) :=
  if s.rest = [] then .ok []
  else
    match h : s.step with
    | .error e => .error e
    | .ok (token, t) => do
      have : t.rest.length < s.rest.length := step_shortens h
      let later ← t.tokens
      return token.toList ++ later
termination_by s.rest.length

theorem tokens_nil (c : Cursor) : tokens ⟨c, []⟩ = .ok [] := by
  rw [tokens]
  rfl

theorem tokens_of_error {s : Scan} {e : LexicalError} (hr : s.rest ≠ []) (h : s.step = .error e) :
    s.tokens = .error e := by
  rw [tokens, if_neg hr]
  split
  next e' he =>
    rw [h] at he
    cases he
    rfl
  next token t ht =>
    rw [h] at ht
    cases ht

theorem tokens_of_ok {s t : Scan} {token : Option Token} (hr : s.rest ≠ [])
    (h : s.step = .ok (token, t)) : s.tokens = t.tokens.map (token.toList ++ ·) := by
  rw [tokens, if_neg hr]
  split
  next e he =>
    rw [h] at he
    cases he
  next token' t' ht =>
    rw [h] at ht
    cases ht
    cases t.tokens <;> rfl

end Scan

def scanLine (line : Nat) (text : List Char) : Except LexicalError (List Token) :=
  (Scan.ofLine line text).tokens

def scanLines (line : Nat) : List (List Char) → Except LexicalError (List Token)
  | [] => .ok []
  | text :: texts => do
    let here ← scanLine line text
    let later ← scanLines (line + 1) texts
    return here ++ later

theorem scanLines_append (line : Nat) (xs ys : List (List Char)) :
    scanLines line (xs ++ ys) = do
      let here ← scanLines line xs
      let later ← scanLines (line + xs.length) ys
      return here ++ later := by
  induction xs generalizing line with
  | nil =>
    simp only [List.nil_append, scanLines, List.length_nil, Nat.add_zero]
    cases scanLines line ys <;> rfl
  | cons x xs ih =>
    have hl : line + 1 + xs.length = line + (xs.length + 1) := by omega
    simp only [List.cons_append, scanLines, ih, List.length_cons, hl]
    cases scanLine line x with
    | error e => rfl
    | ok here =>
      cases scanLines (line + 1) xs with
      | error e => rfl
      | ok later =>
        cases scanLines (line + (xs.length + 1)) ys with
        | error e => rfl
        | ok rest => exact congrArg Except.ok (List.append_assoc here later rest).symm

def tokenize (source : String) : Except LexicalError (List Token) :=
  scanLines 0 (lines source.toList)

end LCode
