import LCode.Proofs.LexemePattern
import Mathlib

/-! A class that comes later in the order begins with other characters, or has shorter lexemes. -/

namespace LCode

open Lexeme Pattern
open scoped Computability

namespace LexemeClass

/-- Where lexemes of both classes stand at the head of a text, those of the first are longer. -/
def Outruns (k l : LexemeClass) : Prop :=
  ∀ cs x y : List Char, x ∈ k.pattern.language → x <+: cs → y ∈ l.pattern.language → y <+: cs →
    y.length < x.length

lemma outruns_of_starts {k l : LexemeClass} (h : ∀ c, k.starts c = true → ¬l.starts c = true) :
    Outruns k l := by
  rintro cs x y hx ⟨r, rfl⟩ hy ⟨t, ht⟩
  obtain ⟨c, z, rfl, hc⟩ := exists_cons_of_mem hx
  obtain ⟨d, w, rfl, hd⟩ := exists_cons_of_mem hy
  obtain ⟨rfl, _⟩ := List.cons.inj ht
  exact absurd hd (h d hc)

lemma not_isDigit_of_isAlpha {c : Char} (h : c.isAlpha = true) : c.isDigit = false := by
  by_contra hd
  simp only [Char.isAlpha, Char.isUpper, Char.isLower, Char.isDigit, Bool.or_eq_true,
    Bool.and_eq_true, Bool.not_eq_false, decide_eq_true_eq, UInt32.le_iff_toNat_le,
    ge_iff_le] at h hd
  change (65 ≤ c.toNat ∧ c.toNat ≤ 90) ∨ (97 ≤ c.toNat ∧ c.toNat ≤ 122) at h
  change 48 ≤ c.toNat ∧ c.toNat ≤ 57 at hd
  omega

lemma starts_blank {c : Char} (h : blank.starts c = true) :
    ¬comment.starts c = true ∧ ¬word.starts c = true ∧ ¬numeral.starts c = true := by
  simp only [starts, isBlank, Bool.or_eq_true, decide_eq_true_eq] at h
  rcases h with (rfl | rfl) | rfl <;> decide

lemma starts_comment {c : Char} (h : comment.starts c = true) :
    ¬word.starts c = true ∧ ¬numeral.starts c = true := by
  rw [of_decide_eq_true h]
  decide

lemma starts_word {c : Char} (h : word.starts c = true) : ¬numeral.starts c = true := by
  simp only [starts, isWordStart, Bool.or_eq_true, decide_eq_true_eq] at h ⊢
  rintro (hd | rfl)
  · rcases h with h | rfl
    · exact absurd hd (Bool.eq_false_iff.mp (not_isDigit_of_isAlpha h))
    · cases hd
  · revert h
    decide

lemma starts_operator {k : Operator} {c : Char} (h : (operator k).starts c = true) :
    ¬blank.starts c = true ∧ ¬word.starts c = true ∧ ¬numeral.starts c = true := by
  simp only [starts, decide_eq_true_eq] at h
  cases k <;> cases h <;> decide

lemma comment_outruns_operator (k : Operator) : Outruns comment (operator k) := by
  -- of the operators only division begins like a comment
  by_cases hk : k = .divide
  · subst hk
    intro cs x y hx _ hy _
    obtain ⟨s, hs, z, _, rfl⟩ := mem_language_seq.mp hx
    rw [mem_language_text.mp hs, mem_language_text.mp hy]
    simp
  · apply outruns_of_starts
    intro c hc
    rw [of_decide_eq_true hc]
    cases k <;> first | exact absurd rfl hk | decide

lemma outruns_operator (k : Operator) {l : LexemeClass} (h : l ∈ [blank, comment, word, numeral]) :
    Outruns l (operator k) := by
  simp only [List.mem_cons, List.not_mem_nil, or_false] at h
  rcases h with rfl | rfl | rfl | rfl
  · exact outruns_of_starts fun c hc hk => (starts_operator hk).1 hc
  · exact comment_outruns_operator k
  · exact outruns_of_starts fun c hc hk => (starts_operator hk).2.1 hc
  · exact outruns_of_starts fun c hc hk => (starts_operator hk).2.2 hc

lemma operators_pairwise : Operator.longestFirst.Pairwise
    fun k l => Outruns (operator k) (operator l) := by
  have h : Operator.longestFirst.Pairwise
      fun k l => ¬k.spelling.toList <+: l.spelling.toList := by decide +kernel
  refine h.imp ?_
  rintro k l hkl cs x y hx hxc hy hyc
  rw [pattern, Operator.pattern_eq] at hx hy
  obtain rfl := mem_language_text.mp hx
  obtain rfl := mem_language_text.mp hy
  rcases List.prefix_or_prefix_of_prefix hxc hyc with hp | hp
  · exact absurd hp hkl
  · refine lt_of_le_of_ne hp.length_le ?_
    intro hn
    rw [hp.eq_of_length hn] at hkl
    exact hkl List.prefix_rfl

lemma all_pairwise : all.Pairwise Outruns := by
  have hfirst : [blank, comment, word, numeral].Pairwise Outruns := by
    simp only [List.pairwise_cons, List.mem_cons, List.not_mem_nil, or_false, forall_eq_or_imp,
      forall_eq, false_imp_iff, forall_true_iff, List.Pairwise.nil, and_true]
    refine ⟨⟨?_, ?_, ?_⟩, ⟨?_, ?_⟩, ?_⟩
    · exact outruns_of_starts fun c h => (starts_blank h).1
    · exact outruns_of_starts fun c h => (starts_blank h).2.1
    · exact outruns_of_starts fun c h => (starts_blank h).2.2
    · exact outruns_of_starts fun c h => (starts_comment h).1
    · exact outruns_of_starts fun c h => (starts_comment h).2
    · exact outruns_of_starts fun c h => starts_word h
  refine List.pairwise_append.mpr ⟨hfirst, List.pairwise_map.mpr operators_pairwise, ?_⟩
  rintro l hl _ hk
  obtain ⟨k, _, rfl⟩ := List.mem_map.mp hk
  exact outruns_operator k hl

lemma mem_all (k : LexemeClass) : k ∈ all := by
  cases k with
  | operator k =>
    refine List.mem_append_right _ (List.mem_map_of_mem ?_)
    exact Operator.longestFirst_perm.mem_iff.mpr (Operator.mem_all k)
  | _ => decide

theorem language_disjoint {k l : LexemeClass} (hkl : k ≠ l) {x : List Char}
    (hk : x ∈ k.pattern.language) : x ∉ l.pattern.language := by
  have hp : all.Pairwise fun k l =>
      ∀ x : List Char, ¬(x ∈ k.pattern.language ∧ x ∈ l.pattern.language) := by
    refine all_pairwise.imp ?_
    rintro k l h x ⟨hk, hl⟩
    exact lt_irrefl _ (h x x x hk List.prefix_rfl hl List.prefix_rfl)
  have hs : Std.Symm fun k l : LexemeClass =>
      ∀ x : List Char, ¬(x ∈ k.pattern.language ∧ x ∈ l.pattern.language) :=
    ⟨fun k l h x hx => h x hx.symm⟩
  intro hl
  exact hp.forall (mem_all k) (mem_all l) hkl x ⟨hk, hl⟩

end LexemeClass

namespace Lexeme

/-- A lexeme is the longest at the head of a text among the lexemes of all classes. -/
structure Munch (cs : List Char) (x : Lexeme) : Prop where
  nonempty : x.text ≠ []
  mem : x.text ∈ x.cls.pattern.language
  head : x.text <+: cs
  longest : ∀ k : LexemeClass, ∀ y ∈ k.pattern.language, y <+: cs → y.length ≤ x.text.length

lemma Munch.unique {cs : List Char} {x y : Lexeme} (hx : Munch cs x) (hy : Munch cs y) :
    x = y := by
  have hn : x.text.length = y.text.length :=
    le_antisymm (hy.longest _ _ hx.mem hx.head) (hx.longest _ _ hy.mem hy.head)
  have ht : x.text = y.text :=
    (List.prefix_of_prefix_length_le hx.head hy.head hn.le).eq_of_length hn
  have hc : x.cls = y.cls := by
    by_contra hc
    exact LexemeClass.language_disjoint hc hx.mem (ht ▸ hy.mem)
  cases x
  cases y
  rw [Lexeme.mk.injEq]
  exact ⟨hc, ht⟩

lemma Munch.of_prefix {cs ds : List Char} {x : Lexeme} (h : Munch cs x) (hd : ds <+: cs)
    (hx : x.text <+: ds) : Munch ds x where
  nonempty := h.nonempty
  mem := h.mem
  head := hx
  longest k y hy hp := h.longest k y hy (hp.trans hd)

lemma munch_of_first? {cs : List Char} {x : Lexeme} (h : first? cs = some x) : Munch cs x := by
  obtain ⟨k, hk, rfl⟩ := Option.map_eq_some_iff.mp h
  obtain ⟨hn, earlier, later, hall, he⟩ := List.find?_eq_some_iff_append.mp hk
  have hn : k.take cs ≠ [] := of_decide_eq_true hn
  have hmem := LexemeClass.take_mem hn
  refine ⟨hn, hmem, k.take_prefix cs, ?_⟩
  intro l y hy hp
  have hl := LexemeClass.mem_all l
  rw [hall, List.mem_append, List.mem_cons] at hl
  -- the classes tried before this one take nothing, and it outruns those after it
  rcases hl with hl | rfl | hl
  · have hempty : l.take cs = [] := by simpa using he l hl
    have hlen := (LexemeClass.prefix_take hy hp).length_le
    rw [hempty] at hlen
    exact hlen.trans (Nat.zero_le _)
  · exact (LexemeClass.prefix_take hy hp).length_le
  · have hpair := LexemeClass.all_pairwise
    rw [hall] at hpair
    have hkl := (List.pairwise_cons.mp (List.pairwise_append.mp hpair).2.1).1 l hl
    exact (hkl cs _ y hmem (k.take_prefix cs) hy hp).le

lemma first?_eq_none_iff {cs : List Char} :
    first? cs = none ↔ ∀ k : LexemeClass, ∀ y ∈ k.pattern.language, ¬y <+: cs := by
  simp only [first?, Option.map_eq_none_iff, List.find?_eq_none, decide_eq_true_eq, not_not]
  constructor
  · intro h k y hy hp
    obtain ⟨c, z, rfl, _⟩ := LexemeClass.exists_cons_of_mem hy
    have hn := LexemeClass.prefix_take hy hp
    rw [h k (LexemeClass.mem_all k)] at hn
    cases List.prefix_nil.mp hn
  · intro h k _
    by_contra hn
    exact h k _ (LexemeClass.take_mem hn) (k.take_prefix cs)

theorem first?_eq_some_iff {cs : List Char} {x : Lexeme} : first? cs = some x ↔ Munch cs x := by
  constructor
  · exact munch_of_first?
  · intro hx
    cases h : first? cs with
    | none => exact absurd hx.head (first?_eq_none_iff.mp h _ _ hx.mem)
    | some y => rw [(munch_of_first? h).unique hx]

def search? (cs : List Char) : Option Lexeme :=
  LexemeClass.all.findSome? fun k => (k.pattern.first? cs).map fun x => ⟨k, x⟩

theorem search?_eq (cs : List Char) : search? cs = first? cs := by
  have h : ∀ ks : List LexemeClass,
      (ks.findSome? fun k => (k.pattern.first? cs).map fun x => (⟨k, x⟩ : Lexeme)) =
        (ks.find? fun k => k.take cs ≠ []).map fun k => ⟨k, k.take cs⟩ := by
    intro ks
    induction ks with
    | nil => rfl
    | cons k ks ih =>
      rw [List.findSome?_cons, ih, LexemeClass.first?_pattern]
      by_cases hk : k.take cs = []
      · simp [hk]
      · simp [hk]
  exact h LexemeClass.all

end Lexeme

end LCode
