import LCode.Proofs.Coverage
import LCode.Proofs.ScanRun
import LCode.Proofs.Separation
import LCode.Proofs.Spelling

namespace LCode

open Lexeme Text

namespace Text

def upTo : Nat → Nat → List Char → List Char
  | 0, column, cs => cs.take column
  | _ + 1, _, [] => []
  | line + 1, column, c :: cs => c :: upTo (if c = '\n' then line else line + 1) column cs

lemma upTo_isPrefix (line column : Nat) (cs : List Char) : upTo line column cs <+: cs := by
  induction cs generalizing line with
  | nil => cases line <;> simp [upTo]
  | cons c cs ih =>
    cases line with
    | zero => exact List.take_prefix column (c :: cs)
    | succ line => exact List.cons_prefix_cons.mpr ⟨rfl, ih _⟩

lemma upTo_append_newline {raw : List Char} (h : '\n' ∉ raw) (line column : Nat) (cs : List Char) :
    upTo (line + 1) column (raw ++ '\n' :: cs) = raw ++ '\n' :: upTo line column cs := by
  induction raw with
  | nil => rfl
  | cons c raw ih =>
    obtain ⟨hc, h⟩ := List.ne_and_not_mem_of_not_mem_cons h
    rw [List.cons_append, upTo, if_neg hc.symm, ih h]
    rfl

lemma lines_of_newline_not_mem {cs : List Char} (h : '\n' ∉ cs) : lines cs = [dropReturn cs] := by
  have hs := List.splitOn_intercalate '\n' (List.forall_mem_singleton.mpr h) (by simp)
  rw [List.intercalate_singleton] at hs
  rw [lines, hs, List.map_singleton]

lemma lines_eq_singleton {cs : List Char} (h : '\n' ∉ cs) (hr : cs.getLast? ≠ some '\r') :
    lines cs = [cs] := by
  rw [lines_of_newline_not_mem h, dropReturn_eq_self hr]

lemma exists_first_line (source : List Char) : ∃ raw, '\n' ∉ raw ∧
    (source = raw ∧ lines source = [dropReturn raw] ∨
      ∃ later, source = raw ++ '\n' :: later ∧ lines source = dropReturn raw :: lines later) := by
  by_cases h : '\n' ∈ source
  · obtain ⟨raw, later, rfl, hraw⟩ := List.eq_append_cons_of_mem h
    refine ⟨raw, hraw, Or.inr ⟨later, rfl, ?_⟩⟩
    rw [lines_append_newline, lines_of_newline_not_mem hraw, List.singleton_append]
  · exact ⟨source, h, Or.inl ⟨rfl, lines_of_newline_not_mem h⟩⟩

theorem lines_upTo {source text : List Char} {line column : Nat}
    (ht : (lines source)[line]? = some text) (hc : column ≤ text.length) :
    lines (upTo line column source) =
      (lines source).take line ++ [dropReturn (text.take column)] := by
  induction line generalizing source with
  | zero =>
    have htext : text <+: source := by
      obtain ⟨raw, -, ⟨rfl, hl⟩ | ⟨later, rfl, hl⟩⟩ := exists_first_line source
      · rw [hl] at ht
        obtain rfl := Option.some.inj ht
        exact dropReturn_isPrefix source
      · rw [hl] at ht
        obtain rfl := Option.some.inj ht
        exact (dropReturn_isPrefix raw).trans (List.prefix_append raw _)
    have hn : '\n' ∉ text.take column := fun h =>
      newline_not_mem_lines (List.mem_of_getElem? ht) (List.mem_of_mem_take h)
    obtain ⟨rest, rfl⟩ := htext
    rw [upTo, List.take_append_of_le_length hc, lines_of_newline_not_mem hn]
    rfl
  | succ line ih =>
    obtain ⟨raw, hraw, ⟨rfl, hl⟩ | ⟨later, rfl, hl⟩⟩ := exists_first_line source
    · rw [hl] at ht
      cases ht
    · rw [hl, List.getElem?_cons_succ] at ht
      rw [upTo_append_newline hraw, lines_append_newline, ih ht, lines_of_newline_not_mem hraw, hl]
      rfl

end Text

namespace Scan

variable {s t : Scan} {tokens : List Token}

lemma Runs.return_not_mem (h : s.Runs tokens t) (hn : '\n' ∉ s.rest) (ht : t.rest ≠ []) :
    ∃ passed, s.rest = passed ++ t.rest ∧ '\r' ∉ passed := by
  induction h with
  | here => exact ⟨[], rfl, List.not_mem_nil⟩
  | @step s t u token later hs _ ih =>
    obtain ⟨x, -, hr, hx, -⟩ := step_ok_cases hs
    rw [hr] at hn hx
    have hrest : '\n' ∉ t.rest := fun h => hn (List.mem_append_right _ h)
    obtain ⟨passed, hp, hreturn⟩ := ih hrest ht
    have hc : x.cls ≠ .comment := by
      intro hc
      have hnil := hx.rest_eq_nil hc hrest
      rw [hp] at hnil
      exact ht (List.append_eq_nil_iff.mp hnil).2
    refine ⟨x.text ++ passed, by rw [hr, hp, List.append_assoc], fun h => ?_⟩
    rcases List.mem_append.mp h with h | h
    · exact hc (LexemeClass.eq_comment_of_allows_return (LexemeClass.allows_of_mem hx.mem _ h))
    · exact hreturn h

end Scan

def cut (source : String) (p : Position) : String :=
  String.ofList (upTo p.line p.column source.toList)

lemma cut_isPrefix (source : String) (p : Position) : (cut source p).toList <+: source.toList := by
  rw [cut, String.toList_ofList]
  exact upTo_isPrefix p.line p.column source.toList

def Token.EndsBy (t : Token) (p : Position) : Prop :=
  t.span.line < p.line ∨ t.span.line = p.line ∧ t.span.stop ≤ p.column

variable {source : String} {tokens : List Token} {s : Scan}

lemma tokenize_cut_of_scanLine {text : String} {line : Nat} {passed : List Char}
    {before here : List Token} (ht : lineAt? source line = some text) (hp : passed <+: text.toList)
    (hr : passed.getLast? ≠ some '\r')
    (hb : scanLines 0 ((lines source.toList).take line) = .ok before)
    (hh : scanLine line passed = .ok here) :
    tokenize (cut source ⟨line, passed.length⟩) = .ok (before ++ here) := by
  have hlines := lineAt?_eq_some_iff.mp ht
  have hlen : ((lines source.toList).take line).length = line :=
    List.length_take_of_le (List.getElem?_eq_some_iff.mp hlines).1.le
  rw [tokenize, cut, String.toList_ofList, lines_upTo hlines hp.length_le,
    ← List.prefix_iff_eq_take.mp hp, dropReturn_eq_self hr, scanLines_append, hb, hlen,
    Nat.zero_add, scanLines_of_ok hh]
  exact congrArg (fun tokens => Except.ok (before ++ tokens)) (List.append_nil here)

lemma ComesTo.tokenize_cut_position (h : ComesTo source tokens s) {text : String}
    {passed : List Char} (ht : lineAt? source s.cursor.line = some text)
    (hp : text.toList = passed ++ s.rest) (hr : passed.getLast? ≠ some '\r') :
    tokenize (cut source s.cursor.position) = .ok tokens := by
  obtain ⟨text', before, here, ht', hbefore, hrun, rfl⟩ := h.exists_run
  obtain rfl : text = text' := Option.some.inj (ht.symm.trans ht')
  obtain ⟨passed', hp', hc, hm⟩ := hrun.exists_passed
  obtain rfl : passed = passed' := List.append_cancel_right (hp.symm.trans hp')
  have hposition : s.cursor.position = ⟨s.cursor.line, passed.length⟩ := by
    rw [hc]
    exact congrArg (Position.mk _) (Nat.zero_add passed.length)
  rw [hposition]
  exact tokenize_cut_of_scanLine ht ⟨s.rest, hp.symm⟩ hr hbefore (scanLine_eq_iff.mpr hm)

lemma ComesTo.endsBy (h : ComesTo source tokens s) : ∀ t ∈ tokens, t.EndsBy s.cursor.position := by
  obtain ⟨text, before, here, -, hbefore, hrun, rfl⟩ := h.exists_run
  obtain ⟨passed, -, hc, hm⟩ := hrun.exists_passed
  have hhere := tiled_of_scanLine (scanLine_eq_iff.mpr hm)
  refine List.forall_mem_append.mpr ⟨fun t ht => ?_, fun t ht => ?_⟩
  · have hlt := (line_of_scanLines hbefore t ht).2
    rw [Nat.zero_add, List.length_take] at hlt
    exact Or.inl (hlt.trans_le (Nat.min_le_left _ _))
  · obtain ⟨hl, -, -, hstop⟩ := hhere.bounds t ht
    refine Or.inr ⟨hl, hstop.trans ?_⟩
    rw [hc]
    exact le_rfl

lemma tokenize_cut_of_error {e : LexicalError} (h : tokenize source = .error e) :
    ∃ tokens, tokenize (cut source e.position) = .ok tokens ∧
      ∀ t ∈ tokens, t.EndsBy e.position := by
  obtain ⟨tokens, s, hs, hrest, hstep⟩ := Scan.exists_reaches_of_error h
  have hs : ComesTo source tokens s := hs
  have hposition : e.position = s.cursor.position := by
    rcases Scan.step_error_cases hstep with ⟨-, rfl⟩ | ⟨x, cause, -, -, rfl⟩ <;> rfl
  obtain ⟨text, before, here, ht, -, hrun, -⟩ := hs.exists_run
  obtain ⟨passed, hp, hreturn⟩ := hrun.return_not_mem (newline_not_mem_of_lineAt? ht) hrest
  rw [hposition]
  refine ⟨tokens, hs.tokenize_cut_position ht hp ?_, hs.endsBy⟩
  exact fun hlast => hreturn (List.mem_of_getLast? hlast)

lemma tokenize_cut_of_getElem? (h : tokenize source = .ok tokens) {k : Nat} {t : Token}
    (hk : tokens[k]? = some t) (hr : ∀ c, t.kind = .comment c → c.toList.getLast? ≠ some '\r') :
    tokenize (cut source ⟨t.span.line, t.span.stop⟩) = .ok (tokens.take (k + 1)) := by
  obtain ⟨s, u, hs, hstep⟩ := Scan.exists_reaches_of_getElem? h hk
  have hs : ComesTo source (tokens.take k) s := hs
  have hu : ComesTo source (tokens.take (k + 1)) u := by
    rw [List.take_add_one, hk]
    exact Scan.Reaches.snoc hs hstep
  obtain ⟨text, passed, ht, hp, -⟩ := hs.exists_line
  obtain ⟨⟨cls, x⟩, kind, hrest, hx, hm, hc, hkind⟩ := Scan.step_ok_cases hstep
  obtain ⟨kind, rfl, rfl⟩ := Option.map_eq_some_iff.mp hkind.symm
  have hlast : (passed ++ x).getLast? ≠ some '\r' := by
    intro hl
    rw [List.getLast?_append_of_ne_nil _ hx.nonempty] at hl
    have hmem : '\r' ∈ x := List.mem_of_getLast? hl
    obtain rfl := LexemeClass.eq_comment_of_allows_return (LexemeClass.allows_of_mem hx.mem _ hmem)
    cases hm
    exact hr _ rfl (by rwa [String.toList_ofList])
  have hposition : u.cursor.position = ⟨s.cursor.line, s.cursor.column + x.length⟩ := by
    rw [hc]
    rfl
  have hline : lineAt? source u.cursor.line = some text := by
    rw [hc]
    exact ht
  have hpassed : text.toList = passed ++ x ++ u.rest := by
    rw [hp, hrest, List.append_assoc]
  have hcut := hu.tokenize_cut_position hline hpassed hlast
  rwa [hposition] at hcut

theorem tokenize_cut (source : String) :
    (∀ p, (cut source p).toList <+: source.toList) ∧
    (∀ tokens, tokenize source = .ok tokens → ∀ k t, tokens[k]? = some t →
      (∀ c, t.kind = .comment c → c.toList.getLast? ≠ some '\r') →
      tokenize (cut source ⟨t.span.line, t.span.stop⟩) = .ok (tokens.take (k + 1))) ∧
    ∀ e, tokenize source = .error e → ∃ tokens, tokenize (cut source e.position) = .ok tokens ∧
      ∀ t ∈ tokens, t.EndsBy e.position :=
  ⟨cut_isPrefix source, fun _ h _ _ hk hr => tokenize_cut_of_getElem? h hk hr,
    fun _ h => tokenize_cut_of_error h⟩

theorem cut_of_token_and_of_error :
    (∃ tokens, tokenize "x // é\r\n:=.5;" = .ok tokens ∧ tokens.length = 5 ∧
      tokenize "x // é\r\n:=.5" = .ok (tokens.take 4)) ∧
    ∃ e tokens, tokenize "x\n:= 0x ?" = .error e ∧ tokenize "x\n:= " = .ok tokens ∧
      ∀ t ∈ tokens, t.EndsBy e.position := by
  have hok : tokenize "x // é\r\n:=.5;" = .ok
      [⟨.identifier "x", ⟨0, 0, 1⟩⟩, ⟨.comment "// é", ⟨0, 2, 6⟩⟩, ⟨.operator .set, ⟨1, 0, 2⟩⟩,
        ⟨.float ⟨0x3fe0000000000000⟩, ⟨1, 2, 4⟩⟩, ⟨.operator .semicolon, ⟨1, 4, 5⟩⟩] := by
    decide +kernel
  have herror : tokenize "x\n:= 0x ?" = .error ⟨.malformedNumber "0x", ⟨1, 3⟩⟩ := by
    decide +kernel
  have hfourth := (tokenize_cut _).2.1 _ hok 3 _ rfl (by simp)
  obtain ⟨tokens, hcut, hends⟩ := (tokenize_cut _).2.2 _ herror
  have htoken : cut "x // é\r\n:=.5;" ⟨1, 4⟩ = "x // é\r\n:=.5" := by decide +kernel
  have hplace : cut "x\n:= 0x ?" ⟨1, 3⟩ = "x\n:= " := by decide +kernel
  rw [htoken] at hfourth
  rw [hplace] at hcut
  exact ⟨⟨_, hok, rfl, hfourth⟩, _, tokens, herror, hcut, hends⟩

-- a comment that ends in a carriage return loses it where the text is cut behind the comment
example : tokenize "//\r\r\nx" = .ok [⟨.comment "//\r", ⟨0, 0, 3⟩⟩, ⟨.identifier "x", ⟨1, 0, 1⟩⟩] ∧
    tokenize (cut "//\r\r\nx" ⟨0, 3⟩) = .ok [⟨.comment "//", ⟨0, 0, 2⟩⟩] := by
  decide +kernel

end LCode
