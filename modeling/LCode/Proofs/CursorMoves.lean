import LCode.Cursor.Move
import LCode.Proofs.CheckedScan

/-! A cursor in closed form: the line started last, and the sizes of the lexemes since then. -/

namespace LCode

open Text

lemma Text.dropBytes?_eq_some_iff {n : ℕ} {cs rest : List Char} :
    dropBytes? n cs = some rest ↔
      ∃ passed, cs = passed ++ rest ∧ (String.ofList passed).utf8ByteSize = n := by
  simp only [utf8ByteSize_ofList]
  constructor
  · exact eq_append_of_dropBytes?
  · rintro ⟨passed, rfl, rfl⟩
    exact dropBytes?_append passed rest

namespace Cursor

namespace Move

def started? : Move → Option (ℕ × List Char)
  | startLine line text => some (line, text)
  | _ => none

def advanced? : Move → Option (List Char)
  | advance lexeme => some lexeme
  | _ => none

end Move

def lastLine (ms : List Move) : ℕ × List Char := (ms.reverse.findSome? Move.started?).getD (0, [])

def lexemesSince (ms : List Move) : List (List Char) :=
  (ms.reverse.takeWhile fun m => m.started?.isNone).reverse.filterMap Move.advanced?

def bytesSince (ms : List Move) : ℕ :=
  ((lexemesSince ms).map fun x => (String.ofList x).utf8ByteSize).sum

def columnsSince (ms : List Move) : ℕ := ((lexemesSince ms).map List.length).sum

variable {ms : List Move} {m : Move}

lemma lastLine_concat : lastLine (ms ++ [m]) = m.started?.getD (lastLine ms) := by
  cases m <;> simp [lastLine, List.findSome?_cons, Move.started?]

lemma lexemesSince_concat (ms : List Move) (m : Move) : lexemesSince (ms ++ [m]) =
    if m.started?.isSome then [] else lexemesSince ms ++ m.advanced?.toList := by
  cases m <;> simp [lexemesSince, Move.started?, Move.advanced?]

lemma moves_eq (ms : List Move) : initial.moves ms =
    ⟨(lastLine ms).1, (lastLine ms).2, bytesSince ms, columnsSince ms⟩ := by
  induction ms using List.reverseRecOn with
  | nil => rfl
  | append_singleton ms m ih =>
    have hm : initial.moves (ms ++ [m]) = (initial.moves ms).move m := moves_append _ _ _
    have hlexemes := lexemesSince_concat ms m
    rw [hm, ih, lastLine_concat]
    cases m with
    | startLine line text =>
      simp [move, Move.started?, bytesSince, columnsSince, hlexemes, startLine]
    | advance x =>
      simp [move, Move.started?, Move.advanced?, advance, bytesSince, columnsSince, hlexemes,
        utf8ByteSize_ofList]
    | measure x => simp [move, Move.started?, Move.advanced?, bytesSince, columnsSince, hlexemes]
    | record t => simp [move, Move.started?, Move.advanced?, bytesSince, columnsSince, hlexemes]

lemma length_flatten_lexemesSince (ms : List Move) :
    (lexemesSince ms).flatten.length = columnsSince ms :=
  List.length_flatten

lemma byteLength_flatten_lexemesSince (ms : List Move) :
    byteLength (lexemesSince ms).flatten = bytesSince ms := by
  rw [bytesSince]
  induction lexemesSince ms with
  | nil => rfl
  | cons x xs ih =>
    rw [List.flatten_cons, byteLength_append, ih, List.map_cons, List.sum_cons, utf8ByteSize_ofList]

structure Tells (ms : List Move) (c : Cursor) : Prop where
  position : c.position = ⟨(lastLine ms).1, columnsSince ms⟩
  span : ∀ x, c.spanOf? x = some ⟨(lastLine ms).1, columnsSince ms, columnsSince ms + x.length⟩
  measure : ∀ x, c.measured? (.measure x) = c.spanOf? x ∧ c.move (.measure x) = c
  record : ∀ t, c.move (.record t) = c
  atEnd : c.atEnd = true ↔ (String.ofList (lastLine ms).2).utf8ByteSize ≤ bytesSince ms
  remainder : ∀ rest, c.remainder? = some rest ↔ ∃ passed, (lastLine ms).2 = passed ++ rest ∧
    (String.ofList passed).utf8ByteSize = bytesSince ms
  character : ∀ rest, c.remainder? = some rest → c.at? = some (rest.take 1)
  noCharacter : c.remainder? = none → c.at? = none
  passed : ∀ rest, (lastLine ms).2 = (lexemesSince ms).flatten ++ rest →
    columnsSince ms = (lexemesSince ms).flatten.length ∧ c.remainder? = some rest

lemma before_of_lexemesSince {rest : List Char}
    (h : (lastLine ms).2 = (lexemesSince ms).flatten ++ rest) : (initial.moves ms).Before rest := by
  rw [moves_eq]
  exact ⟨_, h, (byteLength_flatten_lexemesSince ms).symm, (length_flatten_lexemesSince ms).symm⟩

theorem moves_tell (ms : List Move) : Tells ms (initial.moves ms) where
  position := by rw [moves_eq, Cursor.position]
  span x := by rw [moves_eq, spanOf?_eq, spanOf]
  measure x := by
    rw [spanOf?_eq]
    exact ⟨rfl, rfl⟩
  record _ := rfl
  atEnd := by rw [moves_eq, Cursor.atEnd, decide_eq_true_eq, utf8ByteSize_ofList]
  remainder rest := by
    rw [moves_eq, Cursor.remainder?]
    exact dropBytes?_eq_some_iff
  character rest h := by rw [at?, h, Option.map_some]
  noCharacter h := by rw [at?, h, Option.map_none]
  passed rest h :=
    ⟨(length_flatten_lexemesSince ms).symm, (before_of_lexemesSince h).remainder?⟩

-- one byte is no whole character of the line, and two of them are one column too many
example : (initial.moves [.startLine 4 ['é'], .advance ['x']]).remainder? = none ∧
    initial.moves [.startLine 4 ['é'], .advance ['x'], .advance ['y']] = ⟨4, ['é'], 2, 2⟩ := by
  decide +kernel

end Cursor

end LCode
