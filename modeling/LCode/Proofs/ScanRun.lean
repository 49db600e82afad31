import LCode.Proofs.SourceTiling

namespace LCode

open Lexeme Text

namespace Scan

/-- A scan takes lexemes, which give `tokens`, and then stands at another place. -/
inductive Runs : Scan → List Token → Scan → Prop
  | here {s : Scan} : Runs s [] s
  | step {s t u : Scan} {token : Option Token} {later : List Token} :
      s.step = .ok (token, t) → Runs t later u → Runs s (token.toList ++ later) u

/-- The scan of lines that are numbered from `line` on has given `tokens` when it comes to `s`. -/
inductive Reaches : Nat → List (List Char) → List Token → Scan → Prop
  | here {line : Nat} {text : List Char} {texts : List (List Char)} {tokens : List Token}
      {s : Scan} : (ofLine line text).Runs tokens s → Reaches line (text :: texts) tokens s
  | next {line : Nat} {text : List Char} {texts : List (List Char)} {first tokens : List Token}
      {s : Scan} : scanLine line text = .ok first → Reaches (line + 1) texts tokens s →
      Reaches line (text :: texts) (first ++ tokens) s

variable {s t u : Scan} {token : Option Token} {tokens : List Token} {e : LexicalError}

lemma step_ok_cases (h : s.step = .ok (token, t)) : ∃ x kind, s.rest = x.text ++ t.rest ∧
    Munch s.rest x ∧ x.meaning = .ok kind ∧ t.cursor = s.cursor.advance x.text ∧
    token = kind.map fun k => ⟨k, s.cursor.spanOf x.text⟩ := by
  obtain ⟨x, hx, rfl⟩ := step_eq_ok h
  cases hm : x.meaning with
  | error cause =>
    rw [step_of_meaningless hx hm] at h
    cases h
  | ok kind =>
    rw [step_of_meaning hx hm] at h
    cases h
    exact ⟨x, kind, (first?_append hx).symm, munch_of_first? hx, hm, rfl, rfl⟩

lemma step_error_cases (h : s.step = .error e) :
    first? s.rest = none ∧ e = s.errorAt (.unrecognisedToken (String.ofList (s.rest.take 1))) ∨
      ∃ x cause, Munch s.rest x ∧ x.meaning = .error cause ∧ e = s.errorAt cause := by
  cases hx : first? s.rest with
  | none =>
    rw [step_of_none hx] at h
    cases h
    exact Or.inl ⟨rfl, rfl⟩
  | some x =>
    cases hm : x.meaning with
    | error cause =>
      rw [step_of_meaningless hx hm] at h
      cases h
      exact Or.inr ⟨x, cause, munch_of_first? hx, hm, rfl⟩
    | ok kind =>
      rw [step_of_meaning hx hm] at h
      cases h

lemma rest_ne_nil (h : s.step = .ok (token, t)) : s.rest ≠ [] :=
  List.length_pos_iff.mp (Nat.zero_lt_of_lt (step_shortens h))

lemma Runs.tokens_eq (h : s.Runs tokens t) : s.tokens = t.tokens.map (tokens ++ ·) := by
  induction h with
  | here => exact except_map_id.symm
  | @step s t u token later hs _ ih =>
    rw [tokens_of_ok (rest_ne_nil hs) hs, ih]
    cases u.tokens <;> simp [Except.map]

lemma Runs.snoc (h : s.Runs tokens t) (ht : t.step = .ok (token, u)) :
    s.Runs (tokens ++ token.toList) u := by
  induction h with
  | here => simpa using Runs.step ht .here
  | step hs _ ih =>
    rw [List.append_assoc]
    exact .step hs (ih ht)

lemma Runs.exists_passed (h : s.Runs tokens t) : ∃ passed, s.rest = passed ++ t.rest ∧
    t.cursor = s.cursor.advance passed ∧
    Munched s.cursor.line s.cursor.column passed (.ok tokens) := by
  induction h with
  | here => exact ⟨[], rfl, rfl, .done⟩
  | @step s t u token later hs _ ih =>
    obtain ⟨x, kind, hr, hx, hm, hc, rfl⟩ := step_ok_cases hs
    obtain ⟨passed, hp, hu, hlater⟩ := ih
    rw [hp] at hr
    rw [hc] at hu hlater
    have hcut : Munch (x.text ++ passed) x := by
      refine hx.of_prefix ?_ (List.prefix_append _ _)
      rw [hr, ← List.append_assoc]
      exact List.prefix_append _ _
    refine ⟨x.text ++ passed, by rw [hr, List.append_assoc], ?_, ?_⟩
    · rw [hu, Cursor.advance_append]
    · cases kind with
      | none => exact .skipped hcut hm hlater
      | some kind => exact .taken hcut hm hlater

lemma exists_runs_of_error (h : s.tokens = .error e) :
    ∃ tokens t, s.Runs tokens t ∧ t.rest ≠ [] ∧ t.step = .error e := by
  induction s using Scan.tokens.induct with
  | case1 s hr =>
    rw [tokens, if_pos hr] at h
    cases h
  | case2 s hr e' he =>
    rw [tokens_of_error hr he] at h
    cases h
    exact ⟨[], s, .here, hr, he⟩
  | case3 s hr token t ht hlt ih =>
    rw [tokens_of_ok hr ht] at h
    cases htokens : t.tokens with
    | error e' =>
      rw [htokens] at h
      cases h
      obtain ⟨later, u, hrun, hu⟩ := ih htokens
      exact ⟨_, u, .step ht hrun, hu⟩
    | ok later =>
      rw [htokens] at h
      cases h

lemma exists_runs_of_ok (h : s.tokens = .ok tokens) : ∃ t, s.Runs tokens t ∧ t.rest = [] := by
  induction s using Scan.tokens.induct generalizing tokens with
  | case1 s hr =>
    rw [Scan.tokens, if_pos hr] at h
    cases h
    exact ⟨s, .here, hr⟩
  | case2 s hr e he =>
    rw [tokens_of_error hr he] at h
    cases h
  | case3 s hr token t ht hlt ih =>
    rw [tokens_of_ok hr ht] at h
    cases htokens : t.tokens with
    | error e =>
      rw [htokens] at h
      cases h
    | ok later =>
      rw [htokens] at h
      cases h
      obtain ⟨u, hrun, hu⟩ := ih htokens
      exact ⟨u, .step ht hrun, hu⟩

lemma exists_runs_of_getElem? (h : s.tokens = .ok tokens) {k : Nat} {a : Token}
    (ha : tokens[k]? = some a) :
    ∃ t u, s.Runs (tokens.take k) t ∧ t.step = .ok (some a, u) := by
  induction s using Scan.tokens.induct generalizing tokens k with
  | case1 s hr =>
    rw [Scan.tokens, if_pos hr] at h
    cases h
    cases ha
  | case2 s hr e' he =>
    rw [tokens_of_error hr he] at h
    cases h
  | case3 s hr token t ht hlt ih =>
    rw [tokens_of_ok hr ht] at h
    cases htokens : t.tokens with
    | error e' =>
      rw [htokens] at h
      cases h
    | ok later =>
      rw [htokens] at h
      cases h
      cases token with
      | none =>
        obtain ⟨u, v, hrun, hu⟩ := ih htokens ha
        exact ⟨u, v, .step ht hrun, hu⟩
      | some b =>
        cases k with
        | zero =>
          cases ha
          exact ⟨s, t, .here, ht⟩
        | succ k =>
          obtain ⟨u, v, hrun, hu⟩ := ih htokens ha
          exact ⟨u, v, .step ht hrun, hu⟩

variable {line : Nat} {texts : List (List Char)}

lemma Reaches.scanLines_eq (h : Reaches line texts tokens s) : ∃ later : Result,
    scanLines line texts = do
      let here ← s.tokens
      let there ← later
      return tokens ++ (here ++ there) := by
  induction h with
  | @here line text texts tokens s hrun =>
    refine ⟨scanLines (line + 1) texts, ?_⟩
    rw [scanLines, scanLine, hrun.tokens_eq]
    cases s.tokens with
    | error e => rfl
    | ok here =>
      cases scanLines (line + 1) texts with
      | error e => rfl
      | ok there => exact congrArg Except.ok (List.append_assoc tokens here there)
  | @next line text texts first tokens s hfirst _ ih =>
    obtain ⟨later, hlater⟩ := ih
    refine ⟨later, ?_⟩
    rw [scanLines_of_ok hfirst, hlater]
    cases s.tokens with
    | error e => rfl
    | ok here =>
      cases later with
      | error e => rfl
      | ok there => exact congrArg Except.ok (List.append_assoc first tokens (here ++ there)).symm

lemma Reaches.exists_run (h : Reaches line texts tokens s) : ∃ i text before here,
    texts[i]? = some text ∧ scanLines line (texts.take i) = .ok before ∧
      (ofLine (line + i) text).Runs here s ∧ tokens = before ++ here := by
  induction h with
  | here hrun => exact ⟨0, _, [], _, rfl, rfl, hrun, rfl⟩
  | @next line text texts first tokens s hfirst _ ih =>
    obtain ⟨i, text, before, here, hi, hbefore, hrun, rfl⟩ := ih
    refine ⟨i + 1, text, first ++ before, here, hi, ?_, ?_, (List.append_assoc ..).symm⟩
    · rw [List.take_succ_cons, scanLines_of_ok hfirst, hbefore]
      rfl
    · rwa [Nat.add_right_comm, Nat.add_assoc] at hrun

lemma Reaches.snoc (h : Reaches line texts tokens s) (hs : s.step = .ok (token, t)) :
    Reaches line texts (tokens ++ token.toList) t := by
  induction h with
  | here hrun => exact .here (hrun.snoc hs)
  | next hfirst _ ih =>
    rw [List.append_assoc]
    exact .next hfirst (ih hs)

lemma exists_reaches_of_error (h : scanLines line texts = .error e) :
    ∃ tokens s, Reaches line texts tokens s ∧ s.rest ≠ [] ∧ s.step = .error e := by
  induction texts generalizing line with
  | nil => cases h
  | cons text texts ih =>
    cases hfirst : scanLine line text with
    | error e' =>
      rw [scanLines_of_error hfirst] at h
      cases h
      obtain ⟨tokens, s, hrun, hs⟩ := exists_runs_of_error hfirst
      exact ⟨tokens, s, .here hrun, hs⟩
    | ok first =>
      rw [scanLines_of_ok hfirst] at h
      cases hlater : scanLines (line + 1) texts with
      | error e' =>
        rw [hlater] at h
        cases h
        obtain ⟨tokens, s, hr, hs⟩ := ih hlater
        exact ⟨_, s, .next hfirst hr, hs⟩
      | ok later =>
        rw [hlater] at h
        cases h

lemma exists_reaches_of_getElem? (h : scanLines line texts = .ok tokens) {k : Nat} {a : Token}
    (ha : tokens[k]? = some a) :
    ∃ s t, Reaches line texts (tokens.take k) s ∧ s.step = .ok (some a, t) := by
  induction texts generalizing line tokens k with
  | nil =>
    cases h
    cases ha
  | cons text texts ih =>
    obtain ⟨first, later, hfirst, hlater, rfl⟩ := scanLines_cons_ok h
    by_cases hk : k < first.length
    · rw [List.getElem?_append_left hk] at ha
      obtain ⟨s, t, hrun, hs⟩ := exists_runs_of_getElem? hfirst ha
      rw [List.take_append_of_le_length hk.le]
      exact ⟨s, t, .here hrun, hs⟩
    · have hk := Nat.le_of_not_lt hk
      rw [List.getElem?_append_right hk] at ha
      obtain ⟨s, t, hr, hs⟩ := ih hlater ha
      rw [List.take_append, List.take_of_length_le hk]
      exact ⟨s, t, .next hfirst hr, hs⟩

end Scan

def ComesTo (source : String) (tokens : List Token) (s : Scan) : Prop :=
  Scan.Reaches 0 (lines source.toList) tokens s

variable {source : String} {tokens : List Token} {s : Scan}

lemma ComesTo.error (h : ComesTo source tokens s) (hr : s.rest ≠ []) {e : LexicalError}
    (hs : s.step = .error e) : tokenize source = .error e := by
  obtain ⟨later, hl⟩ := h.scanLines_eq
  rw [tokenize, hl, Scan.tokens_of_error hr hs]
  rfl

lemma ComesTo.isPrefix (h : ComesTo source tokens s) {all : List Token}
    (ha : tokenize source = .ok all) : tokens <+: all := by
  obtain ⟨later, hl⟩ := h.scanLines_eq
  rw [tokenize, hl] at ha
  cases hs : s.tokens with
  | error e =>
    rw [hs] at ha
    cases ha
  | ok here =>
    rw [hs] at ha
    cases later with
    | error e => cases ha
    | ok there =>
      cases ha
      exact List.prefix_append tokens _

lemma ComesTo.exists_run (h : ComesTo source tokens s) : ∃ text before here,
    lineAt? source s.cursor.line = some text ∧
      scanLines 0 ((lines source.toList).take s.cursor.line) = .ok before ∧
      (Scan.ofLine s.cursor.line text.toList).Runs here s ∧ tokens = before ++ here := by
  obtain ⟨i, text, before, here, hi, hbefore, hrun, rfl⟩ := Scan.Reaches.exists_run h
  have hline : s.cursor.line = i := by
    obtain ⟨passed, -, hc, -⟩ := hrun.exists_passed
    rw [hc]
    exact Nat.zero_add i
  rw [Nat.zero_add] at hrun
  refine ⟨String.ofList text, before, here, ?_, hline ▸ hbefore, ?_, rfl⟩
  · rw [lineAt?_eq_some_iff, String.toList_ofList, hline, hi]
  · rwa [String.toList_ofList, hline]

lemma ComesTo.exists_line (h : ComesTo source tokens s) : ∃ text passed,
    lineAt? source s.cursor.line = some text ∧ text.toList = passed ++ s.rest ∧
      s.cursor.column = passed.length := by
  obtain ⟨text, before, here, htext, -, hrun, -⟩ := h.exists_run
  obtain ⟨passed, hp, hc, -⟩ := hrun.exists_passed
  refine ⟨text, passed, htext, hp, ?_⟩
  rw [hc]
  exact Nat.zero_add passed.length

end LCode
