import LCode.Proofs.NumeralRun

/-! No lexeme but a comment or a blank has a blank in it, so that a blank keeps lexemes apart. -/

namespace LCode

open Lexeme Pattern

namespace LexemeClass

def allows : LexemeClass → Char → Bool
  | blank, c => isBlank c
  | comment, c => c ≠ '\n'
  | word, c => isWordPart c
  | numeral, c => isNumeralPart c || isSign c
  | operator k, c => c ∈ k.spelling.toList

variable {k : LexemeClass} {c : Char}

lemma allows_of_mem {y : List Char} (hy : y ∈ k.pattern.language) :
    ∀ c ∈ y, k.allows c = true := by
  cases k with
  | blank =>
    obtain ⟨d, z, rfl, hd, hz⟩ := mem_language_char_star hy
    exact List.forall_mem_cons.mpr ⟨hd, hz⟩
  | comment =>
    obtain ⟨s, hs, z, hz, rfl⟩ := mem_language_seq.mp hy
    rw [mem_language_text.mp hs]
    exact List.forall_mem_append.mpr ⟨by simp [allows], mem_language_star_char.mp hz⟩
  | word =>
    obtain ⟨d, z, rfl, hd, hz⟩ := mem_language_char_star hy
    exact List.forall_mem_cons.mpr ⟨isWordPart_of_isWordStart hd, hz⟩
  | numeral =>
    have hstart := startsNumeral_iff.mpr (startsNumber_of_mem hy)
    have hrun : LongestRun y (numeral.take y) :=
      longestRun_iff.mpr (if_pos hstart)
    have htake : y = numeral.take y :=
      (prefix_take hy List.prefix_rfl).eq_of_length_le (numeral.take_prefix y).length_le
    intro c hc
    rw [htake] at hc
    simpa [allows] using isNumeralPart_or_isSign_iff.mpr (hrun.run.chars c hc)
  | operator k =>
    rw [pattern, Operator.pattern_eq] at hy
    rw [mem_language_text.mp hy]
    simp [allows]

lemma eq_blank_or_comment_of_allows (hb : isBlank c = true) (h : k.allows c = true) :
    k = blank ∨ k = comment := by
  simp only [isBlank, Bool.or_eq_true, decide_eq_true_eq] at hb
  revert h
  cases k with
  | blank => simp
  | comment => simp
  | operator k => rcases hb with (rfl | rfl) | rfl <;> cases k <;> decide
  | _ => rcases hb with (rfl | rfl) | rfl <;> decide

lemma eq_comment_of_allows_return (h : k.allows '\r' = true) : k = comment := by
  revert h
  cases k with
  | comment => simp
  | operator k => cases k <;> decide
  | _ => decide

lemma comment_or_divide_of_allows (h : k.allows '/' = true) :
    k = comment ∨ k = operator .divide := by
  revert h
  cases k with
  | comment => simp
  | operator k => cases k <;> decide
  | _ => decide

lemma slashes_prefix_of_mem {x : List Char} (h : x ∈ comment.pattern.language) :
    ['/', '/'] <+: x := by
  obtain ⟨s, hs, body, -, rfl⟩ := mem_language_seq.mp h
  rw [mem_language_text.mp hs]
  exact List.prefix_append _ body

lemma not_slashes_infix_of_mem {x : List Char} (hc : k ≠ comment) (hx : x ∈ k.pattern.language) :
    ¬['/', '/'] <:+: x := by
  intro hi
  rcases comment_or_divide_of_allows (allows_of_mem hx '/' (hi.subset (by simp))) with rfl | rfl
  · exact hc rfl
  · rw [mem_language_text.mp hx] at hi
    exact absurd hi.length_le (by simp)

lemma newline_not_mem {x : List Char} (hx : x ∈ k.pattern.language) : '\n' ∉ x := by
  intro hn
  have hallows := allows_of_mem hx '\n' hn
  revert hallows
  cases k with
  | operator k => cases k <;> decide
  | _ => decide

end LexemeClass

namespace Lexeme

variable {k : LexemeClass} {x y rest : List Char}

lemma exists_head_of_length_lt (hy : y <+: x ++ rest) (hlt : x.length < y.length) :
    ∃ b z, y = x ++ b :: z ∧ rest.head? = some b := by
  obtain ⟨z, rfl⟩ := List.prefix_of_prefix_length_le (List.prefix_append x rest) hy hlt.le
  cases z with
  | nil => simp at hlt
  | cons b z =>
    obtain ⟨t, rfl⟩ := List.prefix_append_right_inj x |>.mp hy
    exact ⟨b, z, rfl, rfl⟩

lemma exists_cons_not_isBlank (hk : k ≠ .blank) (hx : x ∈ k.pattern.language) :
    ∃ c z, x = c :: z ∧ isBlank c = false := by
  obtain ⟨c, z, rfl, hc⟩ := LexemeClass.exists_cons_of_mem hx
  refine ⟨c, z, rfl, Bool.eq_false_iff.mpr fun hb => ?_⟩
  rcases LexemeClass.eq_blank_or_comment_of_allows hb
    (LexemeClass.allows_of_mem hx c List.mem_cons_self) with rfl | rfl
  · exact hk rfl
  · exact (LexemeClass.starts_blank hb).1 hc

lemma munch_self (hx : x ∈ k.pattern.language) : Munch x ⟨k, x⟩ where
  nonempty := by
    obtain ⟨c, z, rfl, -⟩ := LexemeClass.exists_cons_of_mem hx
    exact List.cons_ne_nil c z
  mem := hx
  head := List.prefix_rfl
  longest _ _ _ hp := hp.length_le

/-- No lexeme that begins in `cs` goes on into `rest`, unless it begins with a blank. -/
def Apart (cs rest : List Char) : Prop :=
  ∀ s, s <:+ cs → (∃ c ∈ s.head?, isBlank c = false) →
    ∀ k : LexemeClass, ∀ y ∈ k.pattern.language, y <+: s ++ rest → y <+: s

lemma Apart.of_append {front cs : List Char} (h : Apart (front ++ cs) rest) : Apart cs rest :=
  fun s hs => h s (hs.trans (List.suffix_append front cs))

lemma apart_of_not_goesOn {cs : List Char} (h : ∀ s, s <:+ cs → (∃ c ∈ s.head?, isBlank c = false) →
    ∀ k : LexemeClass, ∀ b z, rest.head? = some b → s ++ b :: z ∉ k.pattern.language) :
    Apart cs rest := by
  intro s hs hc k y hy hp
  by_cases hlt : s.length < y.length
  · obtain ⟨b, z, rfl, hb⟩ := exists_head_of_length_lt hp hlt
    exact absurd hy (h s hs hc k b z hb)
  · exact List.prefix_of_prefix_length_le hp (List.prefix_append s rest) (Nat.le_of_not_lt hlt)

lemma apart_blank {cs : List Char} (h : ¬['/', '/'] <:+: cs)
    (hr : ∀ c ∈ rest.head?, isBlank c = true) : Apart cs rest := by
  refine apart_of_not_goesOn ?_
  rintro s hs ⟨c, hc, hnot⟩ k b z hb hmem
  obtain ⟨t, rfl⟩ := List.head?_eq_some_iff.mp hc
  have hblank : isBlank b = true := hr b hb
  have hallows := LexemeClass.allows_of_mem hmem
  rcases LexemeClass.eq_blank_or_comment_of_allows hblank (hallows b (by simp)) with rfl | rfl
  · have hfirst : isBlank c = true := hallows c (by simp)
    rw [hnot] at hfirst
    cases hfirst
  · have hp := LexemeClass.slashes_prefix_of_mem hmem
    cases t with
    | nil =>
      obtain ⟨-, rfl⟩ : '/' = c ∧ '/' = b := by simpa using hp
      cases hblank
    | cons d t =>
      have hcd : ['/', '/'] <+: c :: d :: t :=
        List.prefix_of_prefix_length_le hp (List.prefix_append _ _) (by simp)
      exact h (hcd.isInfix.trans hs.isInfix)

lemma Munch.append {cs : List Char} {x : Lexeme} (hx : Munch cs x) (hb : x.cls ≠ .blank)
    (ha : Apart cs rest) : Munch (cs ++ rest) x := by
  obtain ⟨c, z, hcz, hc⟩ := exists_cons_not_isBlank hb hx.mem
  have hhead : ∃ c ∈ cs.head?, isBlank c = false := by
    obtain ⟨t, ht⟩ := hx.head
    exact ⟨c, by simp [← ht, hcz], hc⟩
  refine ⟨hx.nonempty, hx.mem, hx.head.trans (List.prefix_append cs rest), fun k y hy hp => ?_⟩
  exact hx.longest k y hy (ha cs List.suffix_rfl hhead k y hy hp)

theorem munch_before_blank (hb : k ≠ .blank) (hc : k ≠ .comment) (hx : x ∈ k.pattern.language)
    (hr : ∀ c ∈ rest.head?, isBlank c = true) : Munch (x ++ rest) ⟨k, x⟩ :=
  (munch_self hx).append hb (apart_blank (LexemeClass.not_slashes_infix_of_mem hc hx) hr)

theorem munch_blank (hx : x ≠ []) (hblank : ∀ c ∈ x, isBlank c = true)
    (hr : ∀ c ∈ rest.head?, isBlank c = false) : Munch (x ++ rest) ⟨.blank, x⟩ := by
  obtain ⟨c, t, rfl⟩ := List.exists_cons_of_ne_nil hx
  obtain ⟨hc, ht⟩ := List.forall_mem_cons.mp hblank
  have hmem : c :: t ∈ LexemeClass.blank.pattern.language :=
    cons_mem_char_star hc ht
  refine ⟨hx, hmem, List.prefix_append _ rest, fun l y hy hp => ?_⟩
  by_contra hlt
  obtain ⟨b, z, rfl, hhead⟩ := exists_head_of_length_lt hp (Nat.lt_of_not_le hlt)
  have hallows := LexemeClass.allows_of_mem hy
  rcases LexemeClass.eq_blank_or_comment_of_allows hc (hallows c (by simp)) with rfl | rfl
  · have hb : isBlank b = true := hallows b (by simp)
    rw [hr b hhead] at hb
    cases hb
  · obtain ⟨d, w, hd, hstart⟩ := LexemeClass.exists_cons_of_mem hy
    obtain ⟨rfl, -⟩ := List.cons.inj hd
    exact (LexemeClass.starts_blank hc).1 hstart

theorem munch_comment (hx : ['/', '/'] <+: x) (hn : '\n' ∉ x) : Munch x ⟨.comment, x⟩ := by
  obtain ⟨body, rfl⟩ := hx
  refine munch_self (mem_language_seq.mpr ⟨_, mem_language_text.mpr rfl, body, ?_, rfl⟩)
  refine mem_language_star_char.mpr fun c hc => decide_eq_true ?_
  rintro rfl
  exact hn (List.mem_append_right _ hc)

end Lexeme

end LCode
