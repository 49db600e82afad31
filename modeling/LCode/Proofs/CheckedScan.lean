import LCode.Proofs.ScanRun

/-! Scanning by the cursor alone, with operations that may be undefined. Each step keeps where the
cursor stands, and this makes the next one defined. -/

namespace LCode

open Lexeme Text

namespace Text

lemma utf8ByteSize_ofList (cs : List Char) : (String.ofList cs).utf8ByteSize = byteLength cs := by
  rw [String.utf8ByteSize_ofList]
  induction cs with
  | nil => rfl
  | cons c cs ih => rw [String.utf8Len_cons, byteLength_cons, ih, Nat.add_comm]

lemma length_le_byteLength (cs : List Char) : cs.length ≤ byteLength cs := by
  induction cs with
  | nil => exact Nat.le_refl 0
  | cons c cs ih =>
    have hc := c.utf8Size_pos
    rw [List.length_cons, byteLength_cons]
    omega

lemma byteLength_pos {cs : List Char} (h : cs ≠ []) : 0 < byteLength cs :=
  (List.length_pos_iff.mpr h).trans_le (length_le_byteLength cs)

lemma byteLength_le_of_sublist {xs ys : List Char} (h : xs.Sublist ys) :
    byteLength xs ≤ byteLength ys := by
  induction h with
  | slnil => exact Nat.le_refl 0
  | cons c _ ih => exact ih.trans (Nat.le_add_left _ _)
  | cons_cons c _ ih => exact Nat.add_le_add_left ih _

end Text

/-- The characters that are passed with a lexeme. For an operator these are its own spelling,
whatever was found. -/
def Lexeme.stride (x : Lexeme) : List Char :=
  match x.cls with
  | .operator k => k.spelling.toList
  | _ => x.text

lemma Lexeme.stride_of_first? {cs : List Char} {x : Lexeme} (h : first? cs = some x) :
    x.stride = x.text := by
  obtain ⟨htext, hne⟩ := first?_eq_some h
  rw [stride]
  split
  next k hk =>
    rw [hk, LexemeClass.take] at htext
    split at htext
    · exact htext.symm
    · exact absurd htext hne
  next => rfl

namespace Cursor

def spanOf? (c : Cursor) (lexeme : List Char) : Option Span :=
  Span.ofBounds? c.line c.column (c.column + lexeme.length)

def step? (c : Cursor) : Option (Except LexicalError (Option Token × Cursor)) := do
  match first? (← c.remainder?) with
  | none => return .error ⟨.unrecognisedToken (String.ofList (← c.at?)), c.position⟩
  | some x =>
    match x.meaning with
    | .error cause => return .error ⟨cause, c.position⟩
    | .ok none => return .ok (none, c.advance x.stride)
    | .ok (some kind) => return .ok (some ⟨kind, ← c.spanOf? x.stride⟩, c.advance x.stride)

variable {c d : Cursor} {token : Option Token} {rest : List Char}

lemma spanOf?_eq (c : Cursor) (lexeme : List Char) : c.spanOf? lexeme = some (c.spanOf lexeme) :=
  if_pos (Nat.le_add_right _ _)

lemma Before.at? (h : c.Before rest) : c.at? = some (rest.take 1) := by
  rw [Cursor.at?, h.remainder?, Option.map_some]

lemma Before.atEnd_iff (h : c.Before rest) : c.atEnd = true ↔ rest = [] := by
  obtain ⟨passed, ht, ho, -⟩ := h
  rw [atEnd, decide_eq_true_eq, ht, ho, byteLength_append]
  constructor
  · intro hle
    by_contra hne
    have hpos := byteLength_pos hne
    omega
  · rintro rfl
    exact Nat.le_refl _

lemma Before.atEnd_eq_false (h : c.Before rest) (hr : rest ≠ []) : c.atEnd = false :=
  Bool.eq_false_iff.mpr (mt h.atEnd_iff.mp hr)

lemma Before.step? (h : c.Before rest) :
    c.step? = some ((Scan.step ⟨c, rest⟩).map fun r => (r.1, r.2.cursor)) := by
  rw [Cursor.step?, h.remainder?, h.at?]
  cases hx : first? rest with
  | none =>
    rw [Scan.step_of_none hx]
    simp [hx, Scan.errorAt, Except.map]
  | some x =>
    cases hm : x.meaning with
    | error cause =>
      rw [Scan.step_of_meaningless hx hm]
      simp [hx, hm, Scan.errorAt, Except.map]
    | ok kind =>
      rw [Scan.step_of_meaning hx hm]
      cases kind with
      | none => simp [hx, hm, Except.map, stride_of_first? hx, Scan.skip]
      | some kind => simp [hx, hm, Except.map, stride_of_first? hx, Scan.skip, spanOf?_eq]

lemma Before.exists_step (h : c.Before rest) (hs : c.step? = some (.ok (token, d))) :
    ∃ t : Scan, Scan.step ⟨c, rest⟩ = .ok (token, t) ∧ t.cursor = d := by
  rw [h.step?] at hs
  cases ht : Scan.step ⟨c, rest⟩ with
  | error e =>
    rw [ht] at hs
    cases hs
  | ok r =>
    rw [ht] at hs
    cases hs
    exact ⟨r.2, rfl, rfl⟩

lemma step?_of_step {s t : Scan} (hs : Scan.step s = .ok (token, t))
    (h : s.cursor.Before s.rest) : s.cursor.step? = some (.ok (token, t.cursor)) := by
  rw [h.step?, hs]
  rfl

lemma step?_eq_ok (h : c.step? = some (.ok (token, d))) :
    ∃ rest x, c.remainder? = some rest ∧ first? rest = some x ∧ d = c.advance x.text := by
  rw [Cursor.step?] at h
  obtain ⟨rest, hr, h⟩ := Option.bind_eq_some_iff.mp h
  cases hx : first? rest with
  | none => simp [hx, hr, Cursor.at?] at h
  | some x =>
    refine ⟨rest, x, hr, hx, ?_⟩
    have hstride := stride_of_first? hx
    cases hm : x.meaning with
    | error cause => simp [hx, hm] at h
    | ok kind =>
      cases kind with
      | none =>
        have hmoved : none = token ∧ c.advance x.text = d := by simpa [hx, hm, hstride] using h
        exact hmoved.2.symm
      | some kind =>
        have hmoved : some ⟨kind, c.spanOf x.text⟩ = token ∧ c.advance x.text = d := by
          simpa [hx, hm, hstride, spanOf?_eq] using h
        exact hmoved.2.symm

lemma step?_advances (hc : c.atEnd = false) (h : c.step? = some (.ok (token, d))) :
    byteLength d.text - d.offset < byteLength c.text - c.offset := by
  obtain ⟨rest, x, -, hx, rfl⟩ := step?_eq_ok h
  have hpos := byteLength_pos (first?_eq_some hx).2
  have hc := Nat.lt_of_not_le (of_decide_eq_false hc)
  simp only [advance]
  omega

def tokens? (c : Cursor) : Option Result :=
  if hc : c.atEnd then some (.ok [])
  else
    match h : c.step? with
    | none => none
    | some (.error e) => some (.error e)
    | some (.ok (token, d)) =>
      have : byteLength d.text - d.offset < byteLength c.text - c.offset :=
        step?_advances (Bool.eq_false_of_not_eq_true hc) h
      d.tokens?.map fun later => later.map (token.toList ++ ·)
termination_by byteLength c.text - c.offset

lemma tokens?_of_atEnd (hc : c.atEnd = true) : c.tokens? = some (.ok []) := by
  rw [tokens?, dif_pos hc]

lemma tokens?_of_error {e : LexicalError} (hc : c.atEnd = false) (h : c.step? = some (.error e)) :
    c.tokens? = some (.error e) := by
  rw [tokens?, dif_neg (Bool.eq_false_iff.mp hc)]
  split
  next hs => simp [h] at hs
  next hs => simpa [h] using hs.symm
  next hs => simp [h] at hs

lemma tokens?_of_ok (hc : c.atEnd = false) (h : c.step? = some (.ok (token, d))) :
    c.tokens? = d.tokens?.map fun later => later.map (token.toList ++ ·) := by
  rw [tokens?, dif_neg (Bool.eq_false_iff.mp hc)]
  split
  next hs => simp [h] at hs
  next hs => simp [h] at hs
  next hs =>
    rw [h] at hs
    cases hs
    rfl

end Cursor

lemma Scan.tokens?_eq {s : Scan} (h : s.cursor.Before s.rest) :
    s.cursor.tokens? = some s.tokens := by
  induction s using Scan.tokens.induct with
  | case1 s hr =>
    rw [Cursor.tokens?_of_atEnd (h.atEnd_iff.mpr hr), tokens, if_pos hr]
  | case2 s hr e he =>
    have hs := h.step?
    rw [he] at hs
    rw [Cursor.tokens?_of_error (h.atEnd_eq_false hr) hs, tokens_of_error hr he]
  | case3 s hr token t ht hlt ih =>
    have hs := Cursor.step?_of_step ht h
    rw [Cursor.tokens?_of_ok (h.atEnd_eq_false hr) hs, tokens_of_ok hr ht, ih (step_before h ht)]
    rfl

def scanLines? (line : Nat) : List (List Char) → Option Result
  | [] => some (.ok [])
  | text :: texts => do
    match ← (Cursor.startLine line text).tokens? with
    | .error e => return .error e
    | .ok here => return (← scanLines? (line + 1) texts).map (here ++ ·)

def tokenize? (source : String) : Option Result := scanLines? 0 (lines source.toList)

lemma scanLines?_eq (line : Nat) (texts : List (List Char)) :
    scanLines? line texts = some (scanLines line texts) := by
  induction texts generalizing line with
  | nil => rfl
  | cons text texts ih =>
    have hfirst : (Cursor.startLine line text).tokens? = some (scanLine line text) :=
      Scan.tokens?_eq (s := .ofLine line text) (Cursor.startLine_before line text)
    rw [scanLines?, hfirst, ih]
    cases h : scanLine line text with
    | error e =>
      rw [scanLines_of_error h]
      rfl
    | ok here =>
      rw [scanLines_of_ok h]
      rfl

inductive Visits (source : String) : Cursor → Prop
  | first {text : List Char} : (lines source.toList)[0]? = some text →
      Visits source (.startLine 0 text)
  | step {c d : Cursor} {token : Option Token} : Visits source c → c.atEnd = false →
      c.step? = some (.ok (token, d)) → Visits source d
  | next {c : Cursor} {text : List Char} : Visits source c → c.atEnd = true →
      (lines source.toList)[c.line + 1]? = some text → Visits source (.startLine (c.line + 1) text)

/-- A cursor of a scan has passed the characters `passed` of its line, and `rest` is left. -/
structure Stands (source : String) (c : Cursor) (passed rest : List Char) : Prop where
  line : lineAt? source c.line = some (String.ofList c.text)
  text : c.text = passed ++ rest
  offset : c.offset = (String.ofList passed).utf8ByteSize
  column : c.column = passed.length
  remainder : c.remainder? = some rest
  head : c.at? = some (rest.take 1)
  atEnd : c.atEnd = true ↔ rest = []
  span : ∀ lexeme, c.spanOf? lexeme = some ⟨c.line, c.column, c.column + lexeme.length⟩
  defined : c.step?.isSome = true
  unrecognised : rest ≠ [] → first? rest = none → ∃ d, c.at? = some [d] ∧
    c.step? = some (.error ⟨.unrecognisedToken (String.ofList [d]), ⟨c.line, c.column⟩⟩)
  bounded : c.line ≤ source.utf8ByteSize ∧ c.column ≤ c.offset ∧ c.offset ≤ source.utf8ByteSize

structure ScanDefined (source : String) : Prop where
  result : tokenize? source = some (tokenize source)
  stands : ∀ c, Visits source c → ∃ passed rest, Stands source c passed rest
  comesTo : ∀ tokens s, ComesTo source tokens s →
    Visits source s.cursor ∧ s.cursor.remainder? = some s.rest

variable {source : String} {c : Cursor}

lemma Visits.before (h : Visits source c) :
    (lines source.toList)[c.line]? = some c.text ∧ ∃ rest, c.Before rest := by
  -- a step needs nothing but that the cursor stands before some text of its line
  induction h with
  | first hline => exact ⟨hline, _, Cursor.startLine_before 0 _⟩
  | step _ _ hs ih =>
    obtain ⟨hline, rest, hb⟩ := ih
    refine ⟨?_, ?_⟩
    · obtain ⟨_, _, _, _, rfl⟩ := Cursor.step?_eq_ok hs
      exact hline
    · obtain ⟨t, ht, rfl⟩ := hb.exists_step hs
      exact ⟨t.rest, Scan.step_before hb ht⟩
  | next _ _ hline _ => exact ⟨hline, _, Cursor.startLine_before _ _⟩

lemma Visits.bounded (h : Visits source c) :
    c.line ≤ source.utf8ByteSize ∧ c.column ≤ c.offset ∧ c.offset ≤ source.utf8ByteSize := by
  obtain ⟨hline, rest, passed, ht, ho, hc⟩ := h.before
  have hsize : source.utf8ByteSize = byteLength source.toList := by
    rw [← utf8ByteSize_ofList, String.ofList_toList]
  obtain ⟨hlt, -⟩ := List.getElem?_eq_some_iff.mp hline
  rw [length_lines] at hlt
  have hcount : source.toList.count '\n' ≤ source.toList.length := List.count_le_length
  have hlength := length_le_byteLength source.toList
  have htext := byteLength_le_of_sublist (sublist_of_mem_lines (List.mem_of_getElem? hline))
  rw [ht, byteLength_append] at htext
  have hpassed := length_le_byteLength passed
  omega

lemma Visits.stands (h : Visits source c) : ∃ passed rest, Stands source c passed rest := by
  obtain ⟨hline, rest, hb⟩ := h.before
  have ⟨passed, ht, ho, hc⟩ := hb
  refine ⟨passed, rest, ?_, ht, ?_, hc, hb.remainder?, hb.at?, hb.atEnd_iff, c.spanOf?_eq, ?_, ?_,
    h.bounded⟩
  · rw [lineAt?_eq_some_iff, String.toList_ofList, hline]
  · rw [ho, utf8ByteSize_ofList]
  · rw [hb.step?]
    rfl
  · intro hr hx
    obtain ⟨d, t, rfl⟩ := List.exists_cons_of_ne_nil hr
    refine ⟨d, hb.at?, ?_⟩
    rw [hb.step?, Scan.step_of_none hx]
    rfl

namespace Scan

variable {s t : Scan} {tokens : List Token}

lemma Runs.before (h : s.Runs tokens t) (hb : s.cursor.Before s.rest) :
    t.cursor.Before t.rest := by
  induction h with
  | here => exact hb
  | step hs _ ih => exact ih (step_before hb hs)

lemma Runs.visits (h : s.Runs tokens t) (hb : s.cursor.Before s.rest)
    (hv : Visits source s.cursor) : Visits source t.cursor := by
  induction h with
  | here => exact hv
  | step hs _ ih =>
    have hend := hb.atEnd_eq_false (rest_ne_nil hs)
    exact ih (step_before hb hs) (hv.step hend (Cursor.step?_of_step hs hb))

lemma Reaches.visits {line : Nat} {texts : List (List Char)} (h : Reaches line texts tokens s)
    (htexts : ∀ i text, texts[i]? = some text → (lines source.toList)[line + i]? = some text)
    (hstart : ∀ text, texts[0]? = some text → Visits source (.startLine line text)) :
    Visits source s.cursor ∧ s.cursor.Before s.rest := by
  induction h with
  | @here line text texts tokens s hrun =>
    have hb := Cursor.startLine_before line text
    exact ⟨hrun.visits hb (hstart text rfl), hrun.before hb⟩
  | @next line text texts first tokens s hfirst _ ih =>
    have hb := Cursor.startLine_before line text
    obtain ⟨t, hrun, ht⟩ := exists_runs_of_ok hfirst
    have hv := hrun.visits hb (hstart text rfl)
    have hend := (hrun.before hb).atEnd_iff.mpr ht
    obtain ⟨passed, -, hcursor, -⟩ := hrun.exists_passed
    have hline : t.cursor.line = line := by
      rw [hcursor]
      rfl
    refine ih (fun i text hi => ?_) fun text htext => ?_
    · rw [Nat.add_assoc, Nat.add_comm 1]
      exact htexts (i + 1) text hi
    · have hnext := htexts 1 text htext
      rw [← hline] at hnext ⊢
      exact hv.next hend hnext

end Scan

theorem scanDefined (source : String) : ScanDefined source where
  result := scanLines?_eq 0 _
  stands _ h := h.stands
  comesTo tokens s h := by
    obtain ⟨hv, hb⟩ := Scan.Reaches.visits h (fun i text hi => by rwa [Nat.zero_add])
      fun text htext => .first htext
    exact ⟨hv, hb.remainder?⟩

-- an offset that counts characters would be inside of the first one
example : (⟨0, ['é', ')'], 1, 1⟩ : Cursor).step? = none := by
  decide +kernel

end LCode
