import LCode.Proofs.SourceTiling

namespace LCode

open Lexeme Text

def Span.covers (s : Span) (line column : Nat) : Bool :=
  s.line = line && s.start ≤ column && column < s.stop

lemma Span.covers_iff {s : Span} {line column : Nat} :
    s.covers line column = true ↔ s.line = line ∧ s.start ≤ column ∧ column < s.stop := by
  simp only [covers, Bool.and_eq_true, decide_eq_true_eq, and_assoc]

def blanks : List Char := [' ', '\t', '\x0c']

lemma mem_blanks_iff {c : Char} : c ∈ blanks ↔ isBlank c = true := by
  simp only [blanks, isBlank, List.mem_cons, List.not_mem_nil, or_false, Bool.or_eq_true,
    decide_eq_true_eq, or_assoc]

structure Coverage (source : String) (tokens : List Token) : Prop where
  ordered : tokens.Pairwise fun a b => a.span.line < b.span.line ∨
    a.span.line = b.span.line ∧ a.span.start < b.span.start
  inside : ∀ t ∈ tokens, t.span.start < t.span.stop ∧
    ∃ text, lineAt? source t.span.line = some text ∧ t.span.stop ≤ text.length
  once : ∀ line column, tokens.countP (fun t => t.span.covers line column) ≤ 1
  uncovered : ∀ line text, lineAt? source line = some text →
    ∀ column c, text.toList[column]? = some c →
      tokens.countP (fun t => t.span.covers line column) = 0 → c ∈ blanks
  woven : ∀ line text, lineAt? source line = some text →
    let lexemes := (tokens.filter fun t => t.span.line = line).map (·.span.slice text.toList)
    ∃ (gaps : List (List Char)) (last : List Char), gaps.length = lexemes.length ∧
      (∀ gap ∈ last :: gaps, ∀ c ∈ gap, c ∈ blanks) ∧
      text.toList = (List.zipWith (· ++ ·) gaps lexemes).flatten ++ last

lemma countP_le_one {α : Type} {r : α → α → Prop} {p : α → Bool} {xs : List α}
    (h : xs.Pairwise r) (hp : ∀ a b, r a b → p a = true → p b ≠ true) : xs.countP p ≤ 1 := by
  induction h with
  | nil => exact Nat.zero_le 1
  | @cons a xs ha _ ih =>
    by_cases hpa : p a = true
    · have hn : xs.countP p = 0 := List.countP_eq_zero.mpr fun b hb => hp a b (ha b hb) hpa
      rw [List.countP_cons_of_pos hpa, hn]
    · rwa [List.countP_cons_of_neg hpa]

variable {source : String} {tokens : List Token}

lemma stop_le_length (h : tokenize source = .ok tokens) {t : Token} (ht : t ∈ tokens) :
    t.span.start < t.span.stop ∧
      ∃ text, lineAt? source t.span.line = some text ∧ t.span.stop ≤ text.length := by
  obtain ⟨text, htext, hmem⟩ := lineAt?_of_mem h ht
  obtain ⟨_, _, hlt, hstop⟩ := (tiled_of_tokenize h htext).bounds t hmem
  rw [Nat.zero_add, String.length_toList] at hstop
  exact ⟨hlt, text, htext, hstop⟩

theorem tokenize_coverage (h : tokenize source = .ok tokens) : Coverage source tokens where
  ordered := by
    refine (precedes_of_scanLines h).imp_of_mem ?_
    rintro a b ha _ (hl | ⟨hl, hab⟩)
    · exact Or.inl hl
    · exact Or.inr ⟨hl, (stop_le_length h ha).1.trans_le hab⟩
  inside t ht := stop_le_length h ht
  once line column := by
    apply countP_le_one (precedes_of_scanLines h)
    intro a b hab ha hb
    obtain ⟨hal, _, has⟩ := Span.covers_iff.mp ha
    obtain ⟨hbl, hbs, _⟩ := Span.covers_iff.mp hb
    rcases hab with hl | ⟨_, hab⟩ <;> omega
  uncovered line text htext column c hc hn := by
    apply mem_blanks_iff.mpr
    apply (tiled_of_tokenize h htext).isBlank_of_uncovered hc
    intro t ht hcover
    obtain ⟨ht, hl⟩ := List.mem_filter.mp ht
    rw [Nat.zero_add] at hcover
    exact List.countP_eq_zero.mp hn t ht (Span.covers_iff.mpr ⟨of_decide_eq_true hl, hcover⟩)
  woven line text htext := by
    obtain ⟨gaps, last, hn, hg, htiles⟩ := (tiled_of_tokenize h htext).woven List.length_nil
    refine ⟨gaps, last, ?_, ?_, htiles⟩
    · rw [List.length_map, hn]
    · exact fun gap hgap c hc => mem_blanks_iff.mpr (hg gap hgap c hc)

theorem coverage_of_two_lines :
    ∃ tokens, tokenize "x:=.5 // é\r\n\tIF 007\n" = .ok tokens ∧ tokens.length = 6 ∧
      Coverage "x:=.5 // é\r\n\tIF 007\n" tokens := by
  have h : tokenize "x:=.5 // é\r\n\tIF 007\n" = .ok
      [⟨.identifier "x", ⟨0, 0, 1⟩⟩, ⟨.operator .set, ⟨0, 1, 3⟩⟩,
        ⟨.float ⟨0x3fe0000000000000⟩, ⟨0, 3, 5⟩⟩, ⟨.comment "// é", ⟨0, 6, 10⟩⟩,
        ⟨.keyword .if_, ⟨1, 1, 3⟩⟩, ⟨.integer 7, ⟨1, 4, 7⟩⟩] := by
    decide +kernel
  exact ⟨_, h, rfl, tokenize_coverage h⟩

end LCode
