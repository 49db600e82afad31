import LCode.Diagnostic
import LCode.Proofs.ErrorPlace

/-! The caret stands under the first character of an error's token, if that character is shown. -/

namespace LCode

open Lexeme Text

namespace Text

lemma trimEnd_append_of_forall {a b : List Char} (h : ∀ c ∈ b, whitespace.contains c = true) :
    trimEnd (a ++ b) = trimEnd a := by
  rw [trimEnd, trimEnd, List.reverse_append, List.dropWhile_append_of_pos (by simpa using h)]

lemma trimEnd_append_of_exists {a b : List Char} {c : Char}
    (h : ∃ d ∈ c :: b, whitespace.contains d = false) :
    ∃ t, trimEnd (a ++ c :: b) = a ++ c :: t := by
  have hne : (c :: b).reverse.dropWhile whitespace.contains ≠ [] := by
    obtain ⟨d, hd, hw⟩ := h
    intro hnil
    have hall := List.dropWhile_eq_nil_iff.mp hnil d (List.mem_reverse.mpr hd)
    rw [hw] at hall
    cases hall
  have happend : trimEnd (a ++ c :: b) = a ++ trimEnd (c :: b) := by
    rw [trimEnd, trimEnd, List.reverse_append, List.dropWhile_append, if_neg (by simpa using hne),
      List.reverse_append, List.reverse_reverse]
  obtain ⟨d, t, ht⟩ := List.exists_cons_of_ne_nil (mt List.reverse_eq_nil_iff.mp hne)
  have hp : d :: t <+: c :: b := ht ▸ trimEnd_prefix (c :: b)
  obtain rfl := (List.cons_prefix_cons.mp hp).1
  exact ⟨t, by rw [happend, trimEnd, ht]⟩

lemma toList_printLines (ls : List String) :
    (printLines ls).toList = ['\n'].intercalate (ls.map String.toList ++ [[]]) := by
  have hcons : ∀ (l : List Char) (ms : List (List Char)),
      ['\n'].intercalate (l :: (ms ++ [[]])) = l ++ '\n' :: ['\n'].intercalate (ms ++ [[]]) := by
    intro l ms
    cases ms <;> simp [List.intercalate_cons_cons]
  induction ls with
  | nil => rfl
  | cons l ls ih =>
    rw [List.map_cons, List.cons_append, hcons, ← ih]
    simp [printLines]

lemma splitOn_printLines {ls : List String} (h : ∀ l ∈ ls, '\n' ∉ l.toList) :
    (printLines ls).toList.splitOn '\n' = ls.map String.toList ++ [[]] := by
  rw [toList_printLines]
  refine List.splitOn_intercalate '\n' ?_ (by simp)
  refine List.forall_mem_append.mpr ⟨List.forall_mem_map.mpr h, by simp⟩

end Text

namespace Diagnostic

/-- Printed lines point at column `column` of the line `text`, which is shown with its number. -/
structure PointsAt (number text : List Char) (column : Nat) (gap numbered caret : List Char)
    (place : Nat) : Prop where
  indent_le : indent text ≤ column
  gap_bar : gap.idxOf? '|' = some (number.length + 1)
  numbered_bar : numbered.idxOf? '|' = some (number.length + 1)
  caret_bar : caret.idxOf? '|' = some (number.length + 1)
  caret_place : caret.idxOf? '^' = some place
  visible : (∃ c ∈ text.drop column, whitespace.contains c = false) →
    numbered[place]? = text[column]? ∧ numbered.take (place + 1) =
      number ++ ' ' :: '|' :: ' ' :: (text.take (column + 1)).drop (indent text)
  hidden : (∀ c ∈ text.drop column, whitespace.contains c = true) → numbered.length ≤ place

lemma idxOf?_append_cons {before after : List Char} {c : Char} (h : c ∉ before) :
    (before ++ c :: after).idxOf? c = some before.length := by
  refine List.idxOf?_eq_some_iff.mpr ⟨by simp, by simp, fun i hi => ?_⟩
  rw [List.getElem_append_left hi]
  exact fun hc => h (hc ▸ List.getElem_mem hi)

lemma toList_bar (number : String) :
    (bar number).toList = List.replicate (number.length + 1) ' ' ++ ['|'] := by
  simp [bar, fill]

lemma toList_caretLine (number : String) (column : Nat) (text : List Char) :
    (caretLine number column text).toList =
      List.replicate (number.length + 1) ' ' ++ '|' :: ' ' ::
        (List.replicate (dashes column text) '-' ++ ['^']) := by
  simp [caretLine, toList_bar, fill]

lemma indent_le_of_not_isIndent {passed rest : List Char} {c : Char} (h : isIndent c = false) :
    indent (passed ++ c :: rest) ≤ passed.length := by
  rw [indent, List.takeWhile_append]
  split
  · simp [h]
  · exact (List.takeWhile_prefix _).length_le

lemma dropWhile_isIndent (text : List Char) :
    text.dropWhile isIndent = text.drop (indent text) := by
  have h : (text.takeWhile isIndent ++ text.dropWhile isIndent).drop (indent text) =
      text.dropWhile isIndent := List.drop_left
  rw [List.takeWhile_append_dropWhile] at h
  exact h.symm

section

variable {number : String} {passed rest : List Char} {c : Char}

lemma toList_numbered (h : indent (passed ++ c :: rest) ≤ passed.length) :
    (number ++ " | " ++ String.ofList (shown (passed ++ c :: rest))).toList =
      number.toList ++ ' ' :: '|' :: ' ' ::
        trimEnd (passed.drop (indent (passed ++ c :: rest)) ++ c :: rest) := by
  rw [shown, dropWhile_isIndent, List.drop_append_of_le_length h]
  simp

lemma idxOf?_caret (column : Nat) (text : List Char) :
    (caretLine number column text).toList.idxOf? '^' =
      some (number.length + 3 + dashes column text) := by
  have hline : (caretLine number column text).toList =
      (List.replicate (number.length + 1) ' ' ++ '|' :: ' ' ::
        List.replicate (dashes column text) '-') ++ ['^'] := by
    rw [toList_caretLine, List.append_assoc]
    rfl
  rw [hline, idxOf?_append_cons (by simp)]
  rw [Option.some.injEq, List.length_append, List.length_cons, List.length_cons,
    List.length_replicate, List.length_replicate]
  omega

lemma length_upToPlace (number : String) (passed text : List Char) :
    (number.toList ++ ' ' :: '|' :: ' ' :: passed.drop (indent text)).length =
      number.length + 3 + dashes passed.length text := by
  simp only [dashes, List.length_append, List.length_cons, List.length_drop, String.length_toList]
  omega

lemma exists_numbered_of_visible (number : String)
    (hle : indent (passed ++ c :: rest) ≤ passed.length)
    (hv : ∃ d ∈ c :: rest, whitespace.contains d = false) :
    ∃ t, (number ++ " | " ++ String.ofList (shown (passed ++ c :: rest))).toList =
      (number.toList ++ ' ' :: '|' :: ' ' :: passed.drop (indent (passed ++ c :: rest))) ++
        c :: t := by
  obtain ⟨t, ht⟩ := trimEnd_append_of_exists (a := passed.drop (indent (passed ++ c :: rest))) hv
  refine ⟨t, ?_⟩
  rw [toList_numbered hle, ht]
  simp

lemma length_numbered_of_hidden (hle : indent (passed ++ c :: rest) ≤ passed.length)
    (hv : ∀ d ∈ c :: rest, whitespace.contains d = true) :
    (number ++ " | " ++ String.ofList (shown (passed ++ c :: rest))).toList.length ≤
      number.length + 3 + dashes passed.length (passed ++ c :: rest) := by
  have hp := trimEnd_prefix (passed.drop (indent (passed ++ c :: rest)))
  have hlen := hp.length_le
  rw [List.length_drop] at hlen
  rw [toList_numbered hle, trimEnd_append_of_forall hv]
  simp only [List.length_append, List.length_cons, String.length_toList, dashes]
  omega

lemma pointsAt_of_not_isIndent (hn : ∀ d ∈ number.toList, d.isDigit = true)
    (hc : isIndent c = false) (passed rest : List Char) :
    PointsAt number.toList (passed ++ c :: rest) passed.length (bar number).toList
      (number ++ " | " ++ String.ofList (shown (passed ++ c :: rest))).toList
      (caretLine number passed.length (passed ++ c :: rest)).toList
      (number.length + 3 + dashes passed.length (passed ++ c :: rest)) := by
  have hle : indent (passed ++ c :: rest) ≤ passed.length := indent_le_of_not_isIndent hc
  have hlen := String.length_toList (s := number)
  refine ⟨hle, ?_, ?_, ?_, idxOf?_caret _ _, fun hv => ?_, fun hv => ?_⟩
  · rw [toList_bar, idxOf?_append_cons (by simp), List.length_replicate, hlen]
  · have hbar : '|' ∉ number.toList ++ [' '] := by
      intro h
      rcases List.mem_append.mp h with h | h
      · cases hn _ h
      · cases List.mem_singleton.mp h
    rw [toList_numbered hle, List.append_cons, idxOf?_append_cons hbar, List.length_append, hlen]
    rfl
  · rw [toList_caretLine, idxOf?_append_cons (by simp), List.length_replicate, hlen]
  · rw [List.drop_left] at hv
    obtain ⟨t, ht⟩ := exists_numbered_of_visible number hle hv
    rw [ht, ← length_upToPlace, List.take_length_add_append, List.take_length_add_append,
      List.drop_append_of_le_length hle]
    exact ⟨by simp, by simp⟩
  · rw [List.drop_left] at hv
    exact length_numbered_of_hidden hle hv

end

lemma newline_not_mem_heading {cause : Cause} (h : '\n' ∉ cause.token.toList) :
    '\n' ∉ (heading cause).toList := by
  cases cause with
  | unrecognisedToken token => simp [heading, Cause.tip?, Cause.name]
  | malformedNumber token =>
    have htoken : '\n' ∉ token.toList := h
    simp [heading, Cause.tip?, Cause.name, htoken]

lemma newline_not_mem_shown {text : List Char} (h : '\n' ∉ text) : '\n' ∉ shown text := by
  intro hs
  have hp := trimEnd_prefix (text.dropWhile isIndent)
  exact h ((List.dropWhile_suffix isIndent).subset (hp.subset hs))

lemma newline_not_mem_printed {cause : Cause} {fileName number : String} {text : List Char}
    (hcause : '\n' ∉ cause.token.toList) (hf : '\n' ∉ fileName.toList) (hn : '\n' ∉ number.toList)
    (ht : '\n' ∉ text) (column : Nat) :
    ∀ l ∈ opening cause fileName number text ++ [caretLine number column text],
      '\n' ∉ l.toList := by
  simp only [opening, List.forall_mem_append, List.forall_mem_cons]
  refine ⟨⟨newline_not_mem_heading hcause, ?_, ?_, ?_, by simp⟩, ?_, by simp⟩
  · simpa using hf
  · simp [toList_bar]
  · simpa using ⟨hn, newline_not_mem_shown ht⟩
  · simp [toList_caretLine]

lemma lines_ofError {e : LexicalError} {fileName source : String}
    (h : (ofError e fileName source).isComplete = true) {text : String}
    (ht : lineAt? source e.position.line = some text) :
    (ofError e fileName source).lines =
      opening e.cause fileName (toString (e.position.line + 1)) text.toList ++
        [caretLine (toString (e.position.line + 1)) e.position.column text.toList] := by
  simp only [ofError, ht, Option.getD_some] at h ⊢
  split_ifs at h ⊢
  rfl

end Diagnostic

lemma Cause.StandsBefore.exists_head {cause : Cause} {cs : List Char} (h : cause.StandsBefore cs)
    (hp : cause.token.toList <+: cs) : ∃ c rest, cs = c :: rest ∧ isBlank c = false ∧
      cause.token.toList.head? = some c := by
  cases cause with
  | malformedNumber token =>
    obtain ⟨c, t, ht, hc⟩ := h.1.starts
    obtain ⟨rest, rfl⟩ := hp
    refine ⟨c, t ++ rest, by simp [Cause.token, ht], ?_, by simp [Cause.token, ht]⟩
    exact Bool.eq_false_iff.mpr fun hb => (LexemeClass.starts_blank hb).2.2 hc
  | unrecognisedToken token =>
    obtain ⟨c, rest, rfl, ht, hu⟩ := h
    refine ⟨c, rest, rfl, Bool.eq_false_iff.mpr fun hb => hu.blank ?_, by simp [Cause.token, ht]⟩
    simpa [isBlank, or_assoc] using hb

open Diagnostic

def LexicalError.PointedOut (fileName source : String) (e : LexicalError) : Prop :=
  ∃ text gap numbered caret place, lineAt? source e.position.line = some text ∧
    (ofError e fileName source).print.toList.splitOn '\n' =
      [(heading e.cause).toList, "-> ".toList ++ fileName.toList, gap, numbered, caret, []] ∧
    PointsAt (toString (e.position.line + 1)).toList text.toList e.position.column gap numbered
      caret place ∧
    e.position.column < text.length ∧
    e.cause.token.toList.head? = text.toList[e.position.column]?

variable {source fileName : String} {e : LexicalError}

lemma exists_place_of_error (h : tokenize source = .error e) : ∃ text passed c rest,
    lineAt? source e.position.line = some text ∧ text.toList = passed ++ c :: rest ∧
      e.position.column = passed.length ∧ isBlank c = false ∧
      e.cause.token.toList.head? = some c ∧ e.cause.token.toList <+: c :: rest := by
  obtain ⟨tokens, s, hs, hr, hstep⟩ := Scan.exists_reaches_of_error h
  obtain ⟨text, passed, ht, hpassed, hcolumn⟩ := ComesTo.exists_line hs
  obtain ⟨hposition, hp, hstands⟩ := Scan.standsBefore_of_step hr hstep
  obtain ⟨c, rest, hrest, hc, htoken⟩ := hstands.exists_head hp
  rw [hrest] at hpassed hp
  refine ⟨text, passed, c, rest, ?_, hpassed, ?_, hc, htoken, hp⟩
  · rw [hposition]
    exact ht
  · rw [hposition]
    exact hcolumn

theorem pointedOut_of_tokenize (h : tokenize source = .error e) (hf : '\n' ∉ fileName.toList)
    (hc : (ofError e fileName source).isComplete = true) : e.PointedOut fileName source := by
  obtain ⟨text, passed, c, rest, ht, htext, hcolumn, hblank, htoken, hp⟩ := exists_place_of_error h
  have hnumber : ∀ d ∈ (toString (e.position.line + 1)).toList, d.isDigit = true := by
    intro d hd
    rw [Nat.toString_eq_repr, Nat.toList_repr] at hd
    exact Nat.isDigit_of_mem_toDigits (by decide) (by decide) hd
  have hindent : isIndent c = false := by
    simp only [isBlank, Bool.or_eq_false_iff] at hblank
    simp only [isIndent, hblank.1.1, hblank.1.2, Bool.or_false]
  have hn := newline_not_mem_of_lineAt? ht
  have hpoints := pointsAt_of_not_isIndent hnumber hindent passed rest
  have hlines := lines_ofError hc ht
  rw [← htext, ← hcolumn] at hpoints
  refine ⟨text, _, _, _, _, ht, ?_, hpoints, ?_, ?_⟩
  · rw [print, hlines, splitOn_printLines]
    · simp [opening]
    · refine newline_not_mem_printed (fun h => hn ?_) hf (fun h => by cases hnumber _ h) hn _
      rw [htext]
      exact List.mem_append_right passed (hp.subset h)
  · rw [hcolumn, ← String.length_toList, htext]
    simp
  · rw [htoken, htext, hcolumn]
    simp

theorem pointedOut_of_tenth_line_and_of_return :
    (∃ e, tokenize "\n\n\n\n\n\n\n\n\n\t x|| 1.2.3|" = .error e ∧ e.position = ⟨9, 6⟩ ∧
      e.PointedOut "a|b" "\n\n\n\n\n\n\n\n\n\t x|| 1.2.3|") ∧
    ∃ e, tokenize "  x \r\x0c\r\r\n" = .error e ∧ e.position = ⟨0, 4⟩ ∧
      e.PointedOut "" "  x \r\x0c\r\r\n" := by
  have hnumeral : tokenize "\n\n\n\n\n\n\n\n\n\t x|| 1.2.3|" =
      .error ⟨.malformedNumber "1.2.3", ⟨9, 6⟩⟩ := by decide +kernel
  have hreturn : tokenize "  x \r\x0c\r\r\n" = .error ⟨.unrecognisedToken "\r", ⟨0, 4⟩⟩ := by
    decide +kernel
  exact ⟨⟨_, hnumeral, rfl, pointedOut_of_tokenize hnumeral (by decide) (by decide +kernel)⟩,
    ⟨_, hreturn, rfl, pointedOut_of_tokenize hreturn (by decide) (by decide +kernel)⟩⟩

end LCode
