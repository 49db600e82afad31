import LCode.Proofs.CaretPlace
import LCode.Proofs.CutText
import LCode.Proofs.Juncture

/-! Diagnostics line by line. A sum too great for a word, or a field too wide to be filled, stops
the drawing. -/

namespace LCode

open Lexeme Text

abbrev Drawing := OptionT (StateM (List String))

namespace Drawing

def wordLimit : Nat := 2 ^ 64

def printLine (line : String) : Drawing Unit := modify (· ++ [line])

def wordSum (a b : Nat) : Drawing Nat := if a + b < wordLimit then pure (a + b) else failure

/-- A text at the right end of a field, which the device fills up to its width. -/
def field (width : Nat) (c : Char) (text : String) : Drawing String :=
  if width ≤ Diagnostic.caretLimit then
    pure (Diagnostic.fill (width - text.length) c ++ text)
  else failure

def diagnostic (d : Drawing Unit) (printed : List String) : Diagnostic :=
  let (done, lines) := d.run.run printed
  ⟨lines, done.isSome⟩

variable {printed : List String} {a b width : Nat}

lemma diagnostic_printLine (line : String) :
    (printLine line).diagnostic printed = ⟨printed ++ [line], true⟩ := rfl

lemma diagnostic_printLine_bind (line : String) (next : Unit → Drawing Unit) :
    (printLine line >>= next).diagnostic printed = (next ()).diagnostic (printed ++ [line]) := rfl

lemma diagnostic_wordSum_bind (next : Nat → Drawing Unit) :
    (wordSum a b >>= next).diagnostic printed =
      if a + b < wordLimit then (next (a + b)).diagnostic printed else ⟨printed, false⟩ := by
  rw [wordSum]
  split <;> rfl

lemma diagnostic_field_bind (c : Char) (text : String) (next : String → Drawing Unit) :
    (field width c text >>= next).diagnostic printed =
      if width ≤ Diagnostic.caretLimit then
        (next (Diagnostic.fill (width - text.length) c ++ text)).diagnostic printed
      else ⟨printed, false⟩ := by
  rw [field]
  split <;> rfl

end Drawing

namespace Diagnostic

open Drawing

def drawLine (cause : Cause) (fileName number : String) (text : List Char) (column : Nat) :
    Drawing Unit := do
  let width ← wordSum number.length 2
  printLine (heading cause)
  printLine ("-> " ++ fileName)
  printLine (← field width ' ' "|")
  printLine (number ++ " | " ++ String.ofList (trimEnd (text.drop (indent text))))
  let arrow ← wordSum (dashes column text) 1
  printLine ((← field width ' ' "|") ++ " " ++ (← field arrow '-' "^"))

def errorLine (e : LexicalError) (source : String) : List Char :=
  ((lineAt? source e.position.line).getD "").toList

def draw (e : LexicalError) (fileName source : String) : Drawing Unit := do
  let line ← wordSum e.position.line 1
  drawLine e.cause fileName (toString line) (errorLine e source) e.position.column

lemma length_toString_le {n : Nat} (h : n < wordLimit) : (toString n).length ≤ 20 :=
  Nat.repr_length n 20 (by decide) (h.trans (by decide))

lemma diagnostic_drawLine {number : String} (hnumber : number.length ≤ 20) (cause : Cause)
    (fileName : String) (text : List Char) (column : Nat) :
    (drawLine cause fileName number text column).diagnostic [] =
      if caretLimit < dashes column text + 1 then ⟨opening cause fileName number text, false⟩
      else ⟨opening cause fileName number text ++ [caretLine number column text], true⟩ := by
  -- a line number has at most twenty digits, so that only the field of the caret can be too wide
  have hword : number.length + 2 < wordLimit :=
    (Nat.add_le_add_right hnumber 2).trans_lt (by decide)
  have hwidth : number.length + 2 ≤ caretLimit := (Nat.add_le_add_right hnumber 2).trans (by decide)
  have hopening : [heading cause, "-> " ++ fileName,
      fill (number.length + 2 - "|".length) ' ' ++ "|",
      number ++ " | " ++ String.ofList (trimEnd (text.drop (indent text)))] =
        opening cause fileName number text := by
    rw [opening, shown, dropWhile_isIndent]
    rfl
  have hcaretLine : fill (number.length + 2 - "|".length) ' ' ++ "|" ++ " " ++
      (fill (dashes column text + 1 - "^".length) '-' ++ "^") = caretLine number column text := by
    rw [caretLine, ← String.append_assoc]
    rfl
  simp only [drawLine, diagnostic_wordSum_bind, diagnostic_printLine_bind, diagnostic_field_bind,
    diagnostic_printLine, if_pos hword, if_pos hwidth, List.nil_append, List.cons_append, hopening,
    hcaretLine]
  by_cases hcaret : caretLimit < dashes column text + 1
  · rw [if_pos hcaret, if_neg hcaret.not_ge, ite_self]
  · have hle := not_lt.mp hcaret
    rw [if_neg hcaret, if_pos (hle.trans_lt (by decide)), if_pos hle]

theorem diagnostic_draw (e : LexicalError) (fileName source : String) :
    (draw e fileName source).diagnostic [] = ofError e fileName source := by
  rw [draw, diagnostic_wordSum_bind, ofError]
  by_cases hline : e.position.line + 1 < wordLimit
  · rw [if_pos hline, diagnostic_drawLine (length_toString_le hline)]
    exact (if_neg (not_le.mpr hline)).symm
  · rw [if_neg hline]
    exact (if_pos (not_lt.mp hline)).symm

def wholeLines (e : LexicalError) (fileName source : String) : List String :=
  opening e.cause fileName (toString (e.position.line + 1)) (errorLine e source) ++
    [caretLine (toString (e.position.line + 1)) e.position.column (errorLine e source)]

structure DrawnUpTo (e : LexicalError) (fileName source : String) : Prop where
  drawn : (draw e fileName source).diagnostic [] = ofError e fileName source
  stopped : (ofError e fileName source).isComplete = false ↔ e.position.line = 2 ^ 64 - 1 ∨
    65535 ≤ e.position.column - indent (errorLine e source)
  nothing : e.position.line = 2 ^ 64 - 1 → (ofError e fileName source).print = ""
  noCaret : e.position.line ≠ 2 ^ 64 - 1 →
    65535 ≤ e.position.column - indent (errorLine e source) →
      (ofError e fileName source).lines = (wholeLines e fileName source).dropLast ∧
        (ofError e fileName source).print =
          String.join ((wholeLines e fileName source).dropLast.map (· ++ "\n"))
  whole : e.position.line ≠ 2 ^ 64 - 1 →
    e.position.column - indent (errorLine e source) < 65535 →
      (ofError e fileName source).lines = wholeLines e fileName source ∧
        (ofError e fileName source).print =
          String.join ((wholeLines e fileName source).map (· ++ "\n")) ∧
        ∃ l, (wholeLines e fileName source).getLast? = some l ∧
          l.toList.count '-' = e.position.column - indent (errorLine e source)
  tokenized : tokenize source = .error e → (Text.lines source.toList).length < 2 ^ 64 - 1 →
    e.position.line ≠ 2 ^ 64 - 1

variable {e : LexicalError} {fileName source : String}

lemma ofError_of_lineLimit_le (h : lineLimit ≤ e.position.line + 1) :
    ofError e fileName source = ⟨[], false⟩ := if_pos h

lemma ofError_of_caretLimit_le (hl : e.position.line + 1 < lineLimit)
    (hc : caretLimit ≤ dashes e.position.column (errorLine e source)) :
    ofError e fileName source = ⟨(wholeLines e fileName source).dropLast, false⟩ := by
  rw [wholeLines, List.dropLast_concat]
  exact (if_neg hl.not_ge).trans (if_pos (Nat.lt_succ_of_le hc))

lemma ofError_of_lt (hl : e.position.line + 1 < lineLimit)
    (hc : dashes e.position.column (errorLine e source) < caretLimit) :
    ofError e fileName source = ⟨wholeLines e fileName source, true⟩ :=
  (if_neg hl.not_ge).trans (if_neg (not_lt.mpr hc))

lemma count_dash_caretLine (number : String) (column : Nat) (text : List Char) :
    (caretLine number column text).toList.count '-' = dashes column text := by
  rw [toList_caretLine]
  simp [List.count_replicate]

lemma line_lt_of_tokenize (h : tokenize source = .error e) :
    e.position.line < (Text.lines source.toList).length := by
  obtain ⟨text, -, -, -, ht, -⟩ := exists_place_of_error h
  exact (List.getElem?_eq_some_iff.mp (lineAt?_eq_some_iff.mp ht)).1

lemma line_eq_iff (h : e.position.line < wordLimit) :
    e.position.line = 2 ^ 64 - 1 ↔ ¬e.position.line + 1 < lineLimit := by
  rw [wordLimit] at h
  rw [lineLimit]
  omega

theorem drawnUpTo_of_line_lt (h : e.position.line < 2 ^ 64) : DrawnUpTo e fileName source := by
  have hline := line_eq_iff h
  have hnothing (heq : e.position.line = 2 ^ 64 - 1) : ofError e fileName source = ⟨[], false⟩ :=
    ofError_of_lineLimit_le (not_lt.mp (hline.mp heq))
  refine ⟨diagnostic_draw e fileName source, ?_, fun heq => ?_, fun hne hc => ?_, fun hne hc => ?_,
    fun ht hlines => ((line_lt_of_tokenize ht).trans hlines).ne⟩
  · rw [← Bool.not_eq_true, isComplete_ofError_iff, not_and_or, hline]
    exact or_congr_right not_lt
  · rw [hnothing heq]
    rfl
  · rw [ofError_of_caretLimit_le (not_not.mp (mt hline.mpr hne)) hc]
    exact ⟨rfl, rfl⟩
  · rw [ofError_of_lt (not_not.mp (mt hline.mpr hne)) hc]
    exact ⟨rfl, rfl, _, List.getLast?_concat, count_dash_caretLine _ _ _⟩

lemma errorLine_eq {text : List Char}
    (h : (Text.lines source.toList)[e.position.line]? = some text) : errorLine e source = text := by
  rw [errorLine, lineAt?, h]
  simp

lemma tokenize_before_dollar {word : List Char} (h : word ∈ LexemeClass.word.pattern.language) :
    Text.lines (word ++ [' ', '$']) = [word ++ [' ', '$']] ∧
      tokenize (String.ofList (word ++ [' ', '$'])) =
        .error ⟨.unrecognisedToken "$", ⟨0, 0 + word.length + 1⟩⟩ := by
  have hnewline : '\n' ∉ word ++ [' ', '$'] := by simpa using LexemeClass.newline_not_mem h
  have hlines : Text.lines (word ++ [' ', '$']) = [word ++ [' ', '$']] :=
    lines_eq_singleton hnewline (by simp)
  have hdollar : Munched 0 (0 + word.length + 1) ['$'] _ :=
    .unrecognised (first?_eq_none_iff.mp (by decide +kernel))
  have hblank : ∀ c ∈ [' '], isBlank c = true := by simp [isBlank]
  have hgap : Munched 0 (0 + word.length) [' ', '$'] _ :=
    munched_blanks hblank (by simp [isBlank]) hdollar
  have hmunch : Munch (word ++ [' ', '$']) ⟨.word, word⟩ :=
    munch_before_blank (by decide) (by decide) h (by simp [isBlank])
  have hline := scanLine_eq_iff.mpr (.taken (x := ⟨.word, word⟩) hmunch rfl hgap)
  refine ⟨hlines, ?_⟩
  rw [tokenize, String.toList_ofList, hlines]
  exact scanLines_of_error hline []

theorem exists_error_at_column (n : Nat) : ∃ source e, tokenize source = .error e ∧
    Text.lines source.toList = [errorLine e source] ∧
      e.position.column - indent (errorLine e source) = n + 2 := by
  have hword : 'a' :: List.replicate n 'a' ∈ LexemeClass.word.pattern.language :=
    LexemeClass.mem_word rfl (by simp [isWordPart])
  obtain ⟨hlines, herror⟩ := tokenize_before_dollar hword
  have htext : errorLine ⟨.unrecognisedToken "$", ⟨0, 0 + (n + 1) + 1⟩⟩
      (String.ofList ('a' :: List.replicate n 'a' ++ [' ', '$'])) =
        'a' :: List.replicate n 'a' ++ [' ', '$'] :=
    errorLine_eq (by rw [String.toList_ofList, hlines]; rfl)
  rw [List.length_cons, List.length_replicate] at herror
  refine ⟨_, _, herror, ?_, ?_⟩
  · rw [htext, String.toList_ofList, hlines]
  · rw [htext, List.cons_append, indent, List.takeWhile_cons_of_neg (by decide)]
    simp

theorem drawnUpTo_of_last_number_and_of_wide :
    (∃ e, e.position = ⟨2 ^ 64 - 1, 2 ^ 64 - 1⟩ ∧ DrawnUpTo e "a.l" "x" ∧
      (ofError e "a.l" "x").print = "" ∧ (ofError e "a.l" "x").isComplete = false) ∧
    (∃ source e, tokenize source = .error e ∧ (Text.lines source.toList).length = 1 ∧
      DrawnUpTo e "a.l" source ∧ (ofError e "a.l" source).isComplete = false ∧
      (ofError e "a.l" source).print =
        String.join ((wholeLines e "a.l" source).dropLast.map (· ++ "\n"))) ∧
    ∃ e, tokenize "x\n \t y := 1.2.3" = .error e ∧ DrawnUpTo e "a.l" "x\n \t y := 1.2.3" ∧
      (ofError e "a.l" "x\n \t y := 1.2.3").print =
        "Error: MalformedNumber (Invalid number: `1.2.3`, expected digits with an optional " ++
          "fraction, exponent and f/d suffix)\n-> a.l\n  |\n2 | y := 1.2.3\n  | -----^\n" := by
  refine ⟨?_, ?_, ?_⟩
  · have h : DrawnUpTo ⟨.unrecognisedToken "$", ⟨2 ^ 64 - 1, 2 ^ 64 - 1⟩⟩ "a.l" "x" :=
      drawnUpTo_of_line_lt (by decide)
    exact ⟨_, rfl, h, h.nothing rfl, h.stopped.mpr (Or.inl rfl)⟩
  · obtain ⟨source, e, herror, hlines, hcolumn⟩ := exists_error_at_column 65533
    have hlength : (Text.lines source.toList).length = 1 := by rw [hlines, List.length_singleton]
    have hline : e.position.line < 1 := hlength ▸ line_lt_of_tokenize herror
    have h : DrawnUpTo e "a.l" source := drawnUpTo_of_line_lt (hline.trans (by decide))
    have hwide := hcolumn.ge
    refine ⟨source, e, herror, hlength, h, h.stopped.mpr (Or.inr hwide),
      (h.noCaret ?_ hwide).2⟩
    exact h.tokenized herror (by rw [hlength]; decide)
  · have herror : tokenize "x\n \t y := 1.2.3" = .error ⟨.malformedNumber "1.2.3", ⟨1, 8⟩⟩ := by
      decide +kernel
    exact ⟨_, herror, drawnUpTo_of_line_lt (by decide), by decide +kernel⟩

end Diagnostic

end LCode
