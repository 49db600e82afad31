import LCode.Proofs.ReferenceScan

namespace LCode

open Lexeme Text

def Result.shiftLines (n : Nat) : Result → Result
  | .ok tokens => .ok (tokens.map (Token.shiftLines n))
  | .error e => .error (e.shiftLines n)

lemma Result.shiftLines_cons (n : Nat) (t : Token) (result : Result) :
    Result.shiftLines n (result.map (t :: ·)) =
      (Result.shiftLines n result).map (t.shiftLines n :: ·) := by
  cases result <;> rfl

lemma Result.shiftLines_append (n : Nat) (tokens : List Token) (result : Result) :
    Result.shiftLines n (result.map (tokens ++ ·)) =
      (Result.shiftLines n result).map (tokens.map (Token.shiftLines n) ++ ·) := by
  cases result with
  | error e => rfl
  | ok later => exact congrArg Except.ok List.map_append

lemma Munched.shiftLines {line column : Nat} {cs : List Char} {result : Result} (n : Nat)
    (h : Munched line column cs result) :
    Munched (line + n) column cs (Result.shiftLines n result) := by
  induction h with
  | done => exact .done
  | unrecognised hn => exact .unrecognised hn
  | meaningless hx hm => exact .meaningless hx hm
  | skipped hx hm _ ih => exact .skipped hx hm ih
  | taken hx hm _ ih =>
    rw [Result.shiftLines_cons]
    exact .taken hx hm ih

lemma MunchedLines.shiftLines {line : Nat} {texts : List (List Char)} {result : Result} (n : Nat)
    (h : MunchedLines line texts result) :
    MunchedLines (line + n) texts (Result.shiftLines n result) := by
  induction h with
  | nil => exact .nil
  | error h => exact .error (h.shiftLines n)
  | cons h _ ih =>
    rw [Nat.add_right_comm] at ih
    rw [Result.shiftLines_append]
    exact .cons (h.shiftLines n) ih

lemma scanLines_add (line n : Nat) (texts : List (List Char)) :
    scanLines (line + n) texts = Result.shiftLines n (scanLines line texts) :=
  scanLines_eq_iff.mpr ((scanLines_eq_iff.mp rfl).shiftLines n)

theorem tokenize_append_newline (a b : String) :
    tokenize (a ++ "\n" ++ b) =
      match tokenize a, tokenize b with
      | .error e, _ => .error e
      | .ok first, .ok second =>
        .ok (first ++ second.map (Token.shiftLines (1 + a.toList.count '\n')))
      | .ok _, .error e => .error (e.shiftLines (1 + a.toList.count '\n')) := by
  have hlines : lines (a ++ "\n" ++ b).toList = lines a.toList ++ lines b.toList := by
    rw [String.toList_append, String.toList_append, List.append_assoc]
    exact lines_append_newline a.toList b.toList
  have hlater := scanLines_add 0 (lines a.toList).length (lines b.toList)
  rw [length_lines] at hlater
  rw [tokenize, hlines, scanLines_append, length_lines, hlater]
  change (do
    let first ← tokenize a
    let second ← Result.shiftLines (1 + a.toList.count '\n') (tokenize b)
    return first ++ second) = _
  cases tokenize a with
  | error e => rfl
  | ok first => cases tokenize b <;> rfl

end LCode
