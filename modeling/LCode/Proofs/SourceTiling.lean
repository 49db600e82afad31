import LCode.Proofs.LineTiling

namespace LCode

open Lexeme Text

def Token.Precedes (a b : Token) : Prop :=
  a.span.line < b.span.line ∨ a.span.line = b.span.line ∧ a.span.stop ≤ b.span.start

lemma scanLines_cons_ok {line : Nat} {text : List Char} {texts : List (List Char)}
    {tokens : List Token} (h : scanLines line (text :: texts) = .ok tokens) :
    ∃ here later, scanLine line text = .ok here ∧ scanLines (line + 1) texts = .ok later ∧
      tokens = here ++ later := by
  cases hh : scanLine line text with
  | error e =>
    rw [scanLines_of_error hh] at h
    cases h
  | ok here =>
    rw [scanLines_of_ok hh] at h
    cases hl : scanLines (line + 1) texts with
    | error e =>
      rw [hl] at h
      cases h
    | ok later =>
      rw [hl] at h
      cases h
      exact ⟨here, later, rfl, rfl, rfl⟩

variable {line : Nat} {texts : List (List Char)} {tokens : List Token}

lemma line_of_scanLines (h : scanLines line texts = .ok tokens) :
    ∀ t ∈ tokens, line ≤ t.span.line ∧ t.span.line < line + texts.length := by
  induction texts generalizing line tokens with
  | nil =>
    cases h
    exact fun t ht => absurd ht List.not_mem_nil
  | cons text texts ih =>
    obtain ⟨here, later, hh, hl, rfl⟩ := scanLines_cons_ok h
    intro t ht
    rw [List.length_cons]
    rcases List.mem_append.mp ht with ht | ht
    · have ht := ((tiled_of_scanLine hh).bounds t ht).1
      omega
    · have ht := ih hl t ht
      omega

lemma tiled_of_scanLines (h : scanLines line texts = .ok tokens) {i : Nat} {text : List Char}
    (ht : texts[i]? = some text) :
    Tiled (line + i) 0 text (tokens.filter fun t => t.span.line = line + i) := by
  induction texts generalizing line tokens i with
  | nil => cases ht
  | cons first texts ih =>
    obtain ⟨here, later, hh, hl, rfl⟩ := scanLines_cons_ok h
    have hhere := tiled_of_scanLine hh
    rw [List.filter_append]
    cases i with
    | zero =>
      cases ht
      have hf : (here.filter fun t => t.span.line = line + 0) = here := by
        apply List.filter_eq_self.mpr
        intro t ht
        exact decide_eq_true (hhere.bounds t ht).1
      have hn : (later.filter fun t => t.span.line = line + 0) = [] := by
        apply List.filter_eq_nil_iff.mpr
        intro t ht
        have hlt := (line_of_scanLines hl t ht).1
        rw [decide_eq_true_eq]
        omega
      rw [hf, hn, List.append_nil]
      exact hhere
    | succ i =>
      have hn : (here.filter fun t => t.span.line = line + (i + 1)) = [] := by
        apply List.filter_eq_nil_iff.mpr
        intro t ht
        have hline := (hhere.bounds t ht).1
        rw [decide_eq_true_eq]
        omega
      have hi : line + (i + 1) = line + 1 + i := by omega
      rw [hn, List.nil_append, hi]
      exact ih hl ht

lemma precedes_of_scanLines (h : scanLines line texts = .ok tokens) :
    tokens.Pairwise Token.Precedes := by
  induction texts generalizing line tokens with
  | nil =>
    cases h
    exact .nil
  | cons text texts ih =>
    obtain ⟨here, later, hh, hl, rfl⟩ := scanLines_cons_ok h
    have hhere := tiled_of_scanLine hh
    refine List.pairwise_append.mpr ⟨?_, ih hl, ?_⟩
    · refine hhere.pairwise.imp_of_mem ?_
      intro a b ha hb hab
      exact Or.inr ⟨(hhere.bounds a ha).1.trans (hhere.bounds b hb).1.symm, hab⟩
    · intro a ha b hb
      have hal := (hhere.bounds a ha).1
      have hbl := (line_of_scanLines hl b hb).1
      exact Or.inl (by omega)

variable {source : String}

lemma lineAt?_eq_some_iff {text : String} :
    lineAt? source line = some text ↔ (lines source.toList)[line]? = some text.toList := by
  rw [lineAt?, Option.map_eq_some_iff]
  constructor
  · rintro ⟨cs, h, rfl⟩
    rw [h, String.toList_ofList]
  · intro h
    exact ⟨_, h, String.ofList_toList⟩

lemma newline_not_mem_of_lineAt? {text : String} (h : lineAt? source line = some text) :
    '\n' ∉ text.toList :=
  newline_not_mem_lines (List.mem_of_getElem? (lineAt?_eq_some_iff.mp h))

lemma tiled_of_tokenize (h : tokenize source = .ok tokens) {text : String}
    (ht : lineAt? source line = some text) :
    Tiled line 0 text.toList (tokens.filter fun t => t.span.line = line) := by
  have htiled := tiled_of_scanLines h (lineAt?_eq_some_iff.mp ht)
  rwa [Nat.zero_add] at htiled

lemma lineAt?_of_mem (h : tokenize source = .ok tokens) {t : Token} (ht : t ∈ tokens) :
    ∃ text, lineAt? source t.span.line = some text ∧
      t ∈ tokens.filter fun u => u.span.line = t.span.line := by
  obtain ⟨_, hlt⟩ := line_of_scanLines h t ht
  rw [Nat.zero_add] at hlt
  have hline := List.getElem?_eq_getElem hlt
  refine ⟨String.ofList (lines source.toList)[t.span.line], ?_, ?_⟩
  · rw [lineAt?_eq_some_iff, String.toList_ofList, hline]
  · exact List.mem_filter.mpr ⟨ht, decide_eq_true rfl⟩

end LCode
