import LCode.Command.Run
import LCode.Proofs.CaretPlace
import LCode.Proofs.RenderedToken
import LCode.Proofs.Spelling

namespace LCode

open Text

lemma printLines_cons (l : String) (ls : List String) :
    printLines (l :: ls) = l ++ "\n" ++ printLines ls := by
  simp [printLines]

lemma count_newline_printLines {ls : List String} (h : ∀ l ∈ ls, '\n' ∉ l.toList) :
    (printLines ls).toList.count '\n' = ls.length := by
  induction ls with
  | nil => rfl
  | cons l ls ih =>
    obtain ⟨hl, hls⟩ := List.forall_mem_cons.mp h
    rw [printLines_cons, String.toList_append, String.toList_append, List.count_append,
      List.count_append, List.count_eq_zero_of_not_mem hl, ih hls]
    simp [Nat.add_comm]

namespace TokenKind

lemma newline_not_mem_payload {a : TokenKind} {x rest : List Char} (h : a.Spelt x rest)
    (hx : '\n' ∉ x) : '\n' ∉ a.payload.toList := by
  cases a with
  | integer v =>
    obtain ⟨-, -, -, -, zeros, rfl⟩ := h
    have hv := fun hv => hx (List.mem_append_right _ hv)
    simpa [payload] using hv
  | float f => simpa [payload, Number.Binary64.render] using f.newline_not_mem_text
  | boolean b => cases b <;> simp [payload]
  | identifier name =>
    obtain rfl : x = name.toList := h
    simpa [payload] using hx
  | keyword k => simp [payload]
  | operator k => simp [payload]
  | comment text =>
    obtain ⟨rfl, -⟩ := h
    simpa [payload] using hx

end TokenKind

lemma newline_not_mem_numberField {name : String} (h : '\n' ∉ name.toList) (n : ℕ) :
    '\n' ∉ numberField name n := by
  have hn : '\n' ∉ Nat.toDigits 10 n := fun hn => by cases Lexeme.isDigit_of_mem_toDigits _ hn
  simp [numberField, h, hn]

lemma Span.newline_not_mem_render (s : Span) : '\n' ∉ s.render.toList := by
  have hline : '\n' ∉ numberField "line" s.line := newline_not_mem_numberField (by simp) _
  have hstart : '\n' ∉ numberField ", begin" s.start := newline_not_mem_numberField (by simp) _
  have hstop : '\n' ∉ numberField ", end" s.stop := newline_not_mem_numberField (by simp) _
  simp [s.toList_render, hline, hstart, hstop]

lemma newline_not_mem_render {source : String} {tokens : List Token}
    (h : tokenize source = .ok tokens) {t : Token} (ht : t ∈ tokens) : '\n' ∉ t.render.toList := by
  obtain ⟨text, htext, hmem⟩ := lineAt?_of_mem h ht
  have hline := newline_not_mem_of_lineAt? htext
  obtain ⟨x, rest, hx, hm, hslice, hdrop⟩ :=
    (tiled_of_tokenize h htext).lexeme_of_mem List.length_nil hmem
  rw [List.nil_append] at hslice hdrop
  have hrest : '\n' ∉ rest := by
    rw [← hdrop]
    exact fun hr => hline (List.mem_of_mem_drop hr)
  have hxtext : '\n' ∉ x.text := by
    rw [← hslice, Span.slice]
    exact fun hr => hline (List.mem_of_mem_drop (List.mem_of_mem_take hr))
  have hpayload := TokenKind.newline_not_mem_payload (Lexeme.spelt_of_meaning hx hm hrest) hxtext
  have hlabel : '\n' ∉ t.kind.label.toList := t.kind.not_mem_label rfl
  simp [t.toList_render, hlabel, hpayload, t.span.newline_not_mem_render]

def TokenKind.initials : List Char := ['B', 'C', 'F', 'I', 'K', 'O']

lemma TokenKind.head_label (a : TokenKind) :
    ∃ c ∈ initials, ∃ rest, a.label.toList = c :: rest := by
  cases a with
  | integer v => exact ⟨'I', by decide, _, by simp [label]; rfl⟩
  | float x => exact ⟨'F', by decide, _, by simp [label]; rfl⟩
  | boolean b => exact ⟨'B', by decide, _, by simp [label]; rfl⟩
  | identifier n => exact ⟨'I', by decide, _, by simp [label]; rfl⟩
  | keyword k => exact ⟨'K', by decide, _, by simp [label]; rfl⟩
  | operator k => exact ⟨'O', by decide, _, by simp [label]; rfl⟩
  | comment t => exact ⟨'C', by decide, _, by simp [label]; rfl⟩

lemma ne_render_of_head {l : String} {c : Char} {rest : List Char} (h : l.toList = c :: rest)
    (hc : c ∉ TokenKind.initials) (t : Token) : l ≠ t.render := by
  rintro rfl
  obtain ⟨d, hd, name, hname⟩ := t.kind.head_label
  rw [t.toList_render, hname] at h
  rw [(List.cons.inj h).1] at hd
  exact hc hd

namespace Command

open Diagnostic

def OfTokens (l : String) : Prop := l = banner ∨ ∃ t : Token, l = t.render

lemma exists_toList_banner : ∃ rest, banner.toList = '-' :: '-' :: rest :=
  ⟨_, rfl⟩

lemma not_ofTokens_of_head {l : String} {c : Char} {rest : List Char} (h : l.toList = c :: rest)
    (hdash : c ≠ '-') (hc : c ∉ TokenKind.initials) : ¬OfTokens l := by
  rintro (rfl | ⟨t, ht⟩)
  · obtain ⟨dashes, hbanner⟩ := exists_toList_banner
    rw [hbanner] at h
    exact hdash (List.cons.inj h).1.symm
  · exact ne_render_of_head h hc t ht

lemma not_ofTokens_fileName (fileName : String) : ¬OfTokens ("-> " ++ fileName) := by
  have hlist : ("-> " ++ fileName).toList = '-' :: '>' :: ' ' :: fileName.toList := by simp
  rintro (h | ⟨t, ht⟩)
  · obtain ⟨dashes, hbanner⟩ := exists_toList_banner
    rw [h, hbanner] at hlist
    simp at hlist
  · exact ne_render_of_head hlist (by decide) t ht

lemma not_ofTokens_blank {l : String} {rest : List Char} (h : l.toList = ' ' :: rest) :
    ¬OfTokens l :=
  not_ofTokens_of_head h (by decide) (by decide)

lemma not_ofTokens_printed (cause : Cause) (fileName : String) (n column : ℕ) (text : List Char) :
    ∀ l ∈ opening cause fileName (toString n) text ++ [caretLine (toString n) column text],
      ¬OfTokens l := by
  -- the first characters of the lines are no initials, and only the second line begins with a dash
  simp only [opening, List.forall_mem_append, List.forall_mem_cons]
  refine ⟨⟨?_, not_ofTokens_fileName fileName, not_ofTokens_blank (toList_bar _), ?_, by simp⟩,
    not_ofTokens_blank (toList_caretLine _ _ _), by simp⟩
  · have hheading : ∃ rest, (heading cause).toList = 'E' :: rest := by
      rw [heading]
      split <;> exact ⟨_, by simp; rfl⟩
    obtain ⟨rest, hrest⟩ := hheading
    exact not_ofTokens_of_head hrest (by decide) (by decide)
  · obtain ⟨d, ds, hd⟩ := List.exists_cons_of_ne_nil (Nat.toDigits_ne_nil (n := n) (b := 10))
    have hdigit : d.isDigit = true := Lexeme.isDigit_of_mem_toDigits d (hd ▸ List.mem_cons_self)
    have hnumbered : (toString n ++ " | " ++ String.ofList (shown text)).toList =
        d :: (ds ++ ' ' :: '|' :: ' ' :: shown text) := by simp [hd]
    refine not_ofTokens_of_head hnumbered ?_ ?_
    · rintro rfl
      cases hdigit
    · intro hc
      simp only [TokenKind.initials, List.mem_cons, List.not_mem_nil, or_false] at hc
      rcases hc with rfl | rfl | rfl | rfl | rfl | rfl <;> cases hdigit

lemma not_ofTokens_of_mem_lines {e : LexicalError} {fileName source l : String}
    (h : l ∈ (ofError e fileName source).lines) : ¬OfTokens l := by
  simp only [ofError] at h
  split_ifs at h
  · cases h
  · have hprinted := not_ofTokens_printed e.cause fileName (e.position.line + 1) 0
    exact hprinted _ l (List.mem_append_left _ h)
  · exact not_ofTokens_printed e.cause fileName (e.position.line + 1) _ _ l h

lemma fromUTF8?_toByteArray (source : String) :
    String.fromUTF8? source.toByteArray = some source := by
  rw [String.fromUTF8?, dif_pos source.isValidUTF8]
  rfl

structure Reported (parse : List String → Except Outcome Request)
    (read : String → Except ReadError ByteArray) (request : Request) (bytes : ByteArray)
    (o : Outcome) : Prop where
  notText : ¬bytes.IsValidUTF8 → o.exitCode = 1 ∧
    o.output = "Something went wrong:\n     stream did not contain valid UTF-8\n"
  success : ∀ source tokens, source.toByteArray = bytes → tokenize source = .ok tokens →
    o.exitCode = 0 ∧
      o.output = (if request.quiet then "" else "----Code successfully parsed----\n") ++
        printLines (tokens.map Token.render) ∧
      (∀ t ∈ tokens, '\n' ∉ t.render.toList) ∧
      o.output.toList.count '\n' = tokens.length + if request.quiet then 0 else 1
  failure : ∀ source e, source.toByteArray = bytes → tokenize source = .error e →
    o.output = (ofError e request.path source).print ∧
      (∀ l ∈ (ofError e request.path source).lines, ¬OfTokens l) ∧
      o.exitCode = if (ofError e request.path source).isComplete then 1 else 101
  quiet : ∀ args, parse args = .ok ⟨request.path, true⟩ →
    (runWith parse read args).exitCode = o.exitCode ∧
      (o.exitCode ≠ 0 → (runWith parse read args).output = o.output) ∧
      (o.exitCode = 0 → request.quiet = false →
        o.output = "----Code successfully parsed----\n" ++ (runWith parse read args).output)

variable {parse : List String → Except Outcome Request}
  {read : String → Except ReadError ByteArray} {args : List String} {request : Request}
  {bytes : ByteArray} {source : String} {tokens : List Token} {e : LexicalError}

lemma runWith_of_accepted (ha : parse args = .ok request) :
    runWith parse read args = request.outcome (read request.path) := by
  rw [runWith, runIn, ha]
  rfl

lemma outcome_of_not_text (request : Request) (h : ¬bytes.IsValidUTF8) :
    request.outcome (.ok bytes) = ReadError.notText.outcome := by
  have hnone : String.fromUTF8? bytes = none := by rw [String.fromUTF8?, dif_neg h]
  simp only [Request.outcome, hnone]

lemma outcome_of_ok (request : Request) (h : tokenize source = .ok tokens) :
    request.outcome (.ok source.toByteArray) = request.tokensOutcome tokens := by
  simp only [Request.outcome, fromUTF8?_toByteArray, Request.textOutcome, h]

lemma outcome_of_error (request : Request) (h : tokenize source = .error e) :
    request.outcome (.ok source.toByteArray) =
      diagnosticOutcome (ofError e request.path source) := by
  simp only [Request.outcome, fromUTF8?_toByteArray, Request.textOutcome, h]

lemma tokensOutcome_eq (request : Request) (tokens : List Token) :
    (request.tokensOutcome tokens).exitCode = 0 ∧ (request.tokensOutcome tokens).output =
      (if request.quiet then "" else "----Code successfully parsed----\n") ++
        printLines (tokens.map Token.render) := by
  rw [Request.tokensOutcome]
  split_ifs
  · exact ⟨rfl, String.empty_append.symm⟩
  · exact ⟨rfl, printLines_cons _ _⟩

lemma diagnosticOutcome_eq (d : Diagnostic) : (diagnosticOutcome d).output = d.print ∧
    (diagnosticOutcome d).exitCode = if d.isComplete then 1 else 101 := by
  rw [diagnosticOutcome]
  split_ifs <;> exact ⟨rfl, rfl⟩

lemma content_cases (bytes : ByteArray) : ¬bytes.IsValidUTF8 ∨ ∃ source : String,
    source.toByteArray = bytes ∧
      ((∃ tokens, tokenize source = .ok tokens) ∨ ∃ e, tokenize source = .error e) := by
  by_cases h : bytes.IsValidUTF8
  · refine Or.inr ⟨String.ofByteArray bytes h, rfl, ?_⟩
    cases tokenize (String.ofByteArray bytes h) with
    | error e => exact Or.inr ⟨e, rfl⟩
    | ok tokens => exact Or.inl ⟨tokens, rfl⟩
  · exact Or.inl h

lemma outcome_quiet (request : Request) (bytes : ByteArray) :
    (Request.outcome ⟨request.path, true⟩ (.ok bytes)).exitCode =
        (request.outcome (.ok bytes)).exitCode ∧
      ((request.outcome (.ok bytes)).exitCode ≠ 0 →
        (Request.outcome ⟨request.path, true⟩ (.ok bytes)).output =
          (request.outcome (.ok bytes)).output) ∧
      ((request.outcome (.ok bytes)).exitCode = 0 → request.quiet = false →
        (request.outcome (.ok bytes)).output = "----Code successfully parsed----\n" ++
          (Request.outcome ⟨request.path, true⟩ (.ok bytes)).output) := by
  rcases content_cases bytes with h | ⟨source, rfl, ⟨tokens, h⟩ | ⟨e, h⟩⟩
  · rw [outcome_of_not_text _ h, outcome_of_not_text _ h]
    exact ⟨rfl, fun _ => rfl, fun hexit => by cases hexit⟩
  · obtain ⟨hexit, houtput⟩ := tokensOutcome_eq request tokens
    obtain ⟨hqexit, hqoutput⟩ := tokensOutcome_eq ⟨request.path, true⟩ tokens
    rw [outcome_of_ok _ h, outcome_of_ok _ h]
    refine ⟨hqexit.trans hexit.symm, fun hne => absurd hexit hne, fun _ hquiet => ?_⟩
    rw [houtput, hqoutput, hquiet, if_pos rfl, String.empty_append]
    rfl
  · obtain ⟨-, hexit⟩ := diagnosticOutcome_eq (ofError e request.path source)
    rw [outcome_of_error _ h, outcome_of_error _ h]
    refine ⟨rfl, fun _ => rfl, fun hzero => ?_⟩
    rw [hexit] at hzero
    split_ifs at hzero

theorem run_reported (ha : parse args = .ok request) (hr : read request.path = .ok bytes) :
    Reported parse read request bytes (runWith parse read args) := by
  rw [runWith_of_accepted ha, hr]
  refine ⟨fun h => ?_, fun source tokens hs h => ?_, fun source e hs h => ?_, fun qargs hq => ?_⟩
  · rw [outcome_of_not_text request h]
    exact ⟨rfl, rfl⟩
  · obtain ⟨hexit, houtput⟩ := tokensOutcome_eq request tokens
    have hrender : ∀ t ∈ tokens, '\n' ∉ t.render.toList := fun t ht => newline_not_mem_render h ht
    have hcount := count_newline_printLines (List.forall_mem_map.mpr hrender)
    rw [← hs, outcome_of_ok request h]
    refine ⟨hexit, houtput, hrender, ?_⟩
    rw [houtput, String.toList_append, List.count_append, hcount, List.length_map, Nat.add_comm]
    split_ifs
    · rfl
    · rfl
  · obtain ⟨houtput, hexit⟩ := diagnosticOutcome_eq (ofError e request.path source)
    rw [← hs, outcome_of_error request h]
    exact ⟨houtput, fun l hl => not_ofTokens_of_mem_lines hl, hexit⟩
  · rw [runWith_of_accepted hq, hr]
    exact outcome_quiet request bytes

theorem reported_of_two_lines : ∃ (folder : Folder) (o : Outcome),
    Reported Request.ofArguments folder.read ⟨"./d/a.l", false⟩ "x // é\r\n-2.50".toByteArray o ∧
      o = run folder.read ["--", "./d/a.l"] ∧ o.output =
      "----Code successfully parsed----\nIDENTIFIER(name:x, line:0, begin:0, end:1)\n" ++
        "COMMENT(text:// é, line:0, begin:2, end:6)\nOP_MINUS(line:1, begin:0, end:1)\n" ++
          "FLOAT(value:2.5, line:1, begin:1, end:5)\n" := by
  have ha : Request.ofArguments ["--", "./d/a.l"] = .ok ⟨"./d/a.l", false⟩ := by
    decide +kernel
  have hr : (Folder.ofPaths [("d/a.l", "x // é\r\n-2.50".toByteArray)] []).read "./d/a.l" =
      .ok "x // é\r\n-2.50".toByteArray := rfl
  exact ⟨_, _, run_reported ha hr, rfl, by decide +kernel⟩

end Command

end LCode
