import LCode.Lexeme.Basic
import LCode.Proofs.Pattern

namespace LCode

open Lexeme Pattern
open scoped Computability

def Operator.pattern : Operator → Pattern
  | set => text [':', '=']
  | equal => text ['=', '=']
  | notEqual => text ['!', '=']
  | greaterOrEqual => text ['>', '=']
  | lowerOrEqual => text ['<', '=']
  | and => text ['&', '&']
  | or => text ['|', '|']
  | greater => text ['>']
  | lower => text ['<']
  | plus => text ['+']
  | minus => text ['-']
  | multiply => text ['*']
  | divide => text ['/']
  | mod => text ['%']
  | leftBracket => text ['(']
  | rightBracket => text [')']
  | semicolon => text [';']

lemma Operator.pattern_eq (k : Operator) : k.pattern = text k.spelling.toList := by
  cases k <;> rfl

namespace LexemeClass

def numeralStart : Pattern :=
  alt (char Char.isDigit) (seq (char (· = '.')) (char Char.isDigit))

def numeralItem : Pattern :=
  alt (seq (char isExponentMark) (char isSign)) (char isNumeralPart)

def pattern : LexemeClass → Pattern
  | blank => plus (char isBlank)
  | comment => seq (text ['/', '/']) (star (char (· ≠ '\n')))
  | word => seq (char isWordStart) (star (char isWordPart))
  | numeral => seq numeralStart (star numeralItem)
  | operator k => k.pattern

lemma isWordPart_of_isWordStart {c : Char} (h : isWordStart c = true) : isWordPart c = true := by
  simp only [isWordStart, isWordPart, Char.isAlphanum, Bool.or_eq_true] at h ⊢
  tauto

lemma isNumeralPart_of_isExponentMark {c : Char} (h : isExponentMark c = true) :
    isNumeralPart c = true := by
  simp only [isExponentMark, Bool.or_eq_true, decide_eq_true_eq] at h
  rcases h with rfl | rfl <;> rfl

lemma isNumeralPart_of_isDigit {c : Char} (h : c.isDigit = true) : isNumeralPart c = true := by
  simp only [isNumeralPart, Char.isAlphanum, h, Bool.or_true, Bool.true_or]

lemma not_isExponentMark_of_isDigit {c : Char} (h : c.isDigit = true) :
    isExponentMark c ≠ true := by
  intro he
  simp only [isExponentMark, Bool.or_eq_true, decide_eq_true_eq] at he
  rcases he with rfl | rfl <;> cases h

lemma not_isExponentMark_of_isSign {c : Char} (h : isSign c = true) :
    isExponentMark c ≠ true := by
  simp only [isSign, Bool.or_eq_true, decide_eq_true_eq] at h
  rcases h with rfl | rfl <;> decide

lemma prefix_takeWhile {p : Char → Bool} {y cs : List Char} (hp : ∀ c ∈ y, p c = true)
    (h : y <+: cs) : y <+: cs.takeWhile p := by
  obtain ⟨r, rfl⟩ := h
  rw [List.takeWhile_append_of_pos hp]
  exact List.prefix_append _ _

lemma numeralRun_of_isNumeralPart {previous c : Char} (h : isNumeralPart c = true)
    (cs : List Char) : numeralRun previous (c :: cs) = c :: numeralRun c cs := by
  simp only [numeralRun, h, Bool.true_or, ↓reduceIte]

lemma numeralRun_of_exponent {previous c s : Char} (hc : isExponentMark c = true)
    (hs : isSign s = true) (cs : List Char) :
    numeralRun previous (c :: s :: cs) = c :: s :: numeralRun s cs := by
  rw [numeralRun_of_isNumeralPart (isNumeralPart_of_isExponentMark hc)]
  simp only [numeralRun, hc, hs, Bool.and_self, Bool.or_true, ↓reduceIte]

lemma prefix_numeralRun {z cs : List Char} (previous : Char) (hz : z ∈ (star numeralItem).language)
    (h : z <+: cs) : z <+: numeralRun previous cs := by
  obtain ⟨items, rfl, hi⟩ := Language.mem_kstar.mp hz
  obtain ⟨r, rfl⟩ := h
  clear hz
  induction items generalizing previous with
  | nil => exact List.nil_prefix
  | cons y ys ih =>
    have hys := fun p => ih p fun w hw => hi w (List.mem_cons_of_mem y hw)
    rcases mem_language_alt.mp (hi y List.mem_cons_self) with hy | hy
    · obtain ⟨_, ⟨c, hc, rfl⟩, _, ⟨s, hs, rfl⟩, rfl⟩ := mem_language_seq.mp hy
      simp only [List.flatten_cons, List.cons_append, List.nil_append,
        numeralRun_of_exponent hc hs]
      exact List.cons_prefix_cons.mpr ⟨rfl, List.cons_prefix_cons.mpr ⟨rfl, hys s⟩⟩
    · obtain ⟨c, hc, rfl⟩ := hy
      simp only [List.flatten_cons, List.cons_append, List.nil_append,
        numeralRun_of_isNumeralPart hc]
      exact List.cons_prefix_cons.mpr ⟨rfl, hys c⟩

lemma mem_language_char_star {p q : Char → Bool} {y : List Char}
    (h : y ∈ (seq (char p) (star (char q))).language) :
    ∃ c z, y = c :: z ∧ p c = true ∧ ∀ d ∈ z, q d = true := by
  obtain ⟨_, ⟨c, hc, rfl⟩, z, hz, rfl⟩ := mem_language_seq.mp h
  exact ⟨c, z, rfl, hc, mem_language_star_char.mp hz⟩

lemma mem_word {c : Char} {z : List Char} (hc : isWordStart c = true)
    (hz : ∀ d ∈ z, isWordPart d = true) : c :: z ∈ word.pattern.language :=
  cons_mem_char_star hc hz

lemma mem_numeralStart {y : List Char} (h : y ∈ numeralStart.language) :
    ∃ d, d.isDigit = true ∧ (y = [d] ∨ y = ['.', d]) := by
  rcases mem_language_alt.mp h with ⟨d, hd, rfl⟩ | h
  · exact ⟨d, hd, Or.inl rfl⟩
  · obtain ⟨_, ⟨c, hc, rfl⟩, _, ⟨d, hd, rfl⟩, rfl⟩ := mem_language_seq.mp h
    rw [of_decide_eq_true hc]
    exact ⟨d, hd, Or.inr rfl⟩

lemma append_mem_items {y z : List Char} (hy : y ∈ (star numeralItem).language)
    (hz : z ∈ (star numeralItem).language) : y ++ z ∈ (star numeralItem).language := by
  obtain ⟨ys, rfl, hys⟩ := Language.mem_kstar.mp hy
  obtain ⟨zs, rfl, hzs⟩ := Language.mem_kstar.mp hz
  exact Language.mem_kstar.mpr
    ⟨ys ++ zs, List.flatten_append.symm, List.forall_mem_append.mpr ⟨hys, hzs⟩⟩

lemma mem_items_of_isNumeralPart {z : List Char} (h : ∀ c ∈ z, isNumeralPart c = true) :
    z ∈ (star numeralItem).language := by
  refine Language.mem_kstar.mpr ⟨z.map ([·]), (List.flatMap_singleton' z).symm, fun y hy => ?_⟩
  obtain ⟨c, hc, rfl⟩ := List.mem_map.mp hy
  exact mem_language_alt.mpr (Or.inr ⟨c, h c hc, rfl⟩)

lemma mem_items_of_isDigit {z : List Char} (h : ∀ c ∈ z, c.isDigit = true) :
    z ∈ (star numeralItem).language :=
  mem_items_of_isNumeralPart fun c hc => isNumeralPart_of_isDigit (h c hc)

lemma mem_numeral_of_isDigit {d : Char} {z : List Char} (hd : d.isDigit = true)
    (hz : z ∈ (star numeralItem).language) : d :: z ∈ numeral.pattern.language :=
  mem_language_seq.mpr ⟨[d], mem_language_alt.mpr (Or.inl ⟨d, hd, rfl⟩), z, hz, rfl⟩

lemma mem_numeral_of_point {d : Char} {z : List Char} (hd : d.isDigit = true)
    (hz : z ∈ (star numeralItem).language) : '.' :: d :: z ∈ numeral.pattern.language := by
  have hstart : ['.', d] ∈ (seq (char (· = '.')) (char Char.isDigit)).language :=
    cons_mem_seq_char rfl ⟨d, hd, rfl⟩
  exact mem_language_seq.mpr ⟨['.', d], mem_language_alt.mpr (Or.inr hstart), z, hz, rfl⟩

lemma take_numeral_of_isDigit {d : Char} (hd : d.isDigit = true) (cs : List Char) :
    numeral.take (d :: cs) = d :: numeralRun d cs := by
  have hs : startsNumeral (d :: cs) = true := by
    cases cs <;> simp [startsNumeral, hd]
  rw [take, if_pos hs, numeralRun_of_isNumeralPart (isNumeralPart_of_isDigit hd)]

lemma take_numeral_of_point {d : Char} (hd : d.isDigit = true) (cs : List Char) :
    numeral.take ('.' :: d :: cs) = '.' :: d :: numeralRun d cs := by
  have hs : startsNumeral ('.' :: d :: cs) = true := by
    simp only [startsNumeral, hd, decide_true, Bool.and_self, Bool.or_true]
  rw [take, if_pos hs, numeralRun_of_isNumeralPart rfl,
    numeralRun_of_isNumeralPart (isNumeralPart_of_isDigit hd)]

lemma prefix_take_word {y cs : List Char} (hy : y ∈ word.pattern.language) (h : y <+: cs) :
    y <+: word.take cs := by
  obtain ⟨c, z, rfl, hc, hz⟩ := mem_language_char_star hy
  obtain ⟨r, rfl⟩ := h
  rw [take, if_pos (by simpa using hc)]
  apply prefix_takeWhile _ (List.prefix_append _ r)
  rintro d (_ | ⟨_, hd⟩)
  · exact isWordPart_of_isWordStart hc
  · exact hz d hd

lemma prefix_take_numeral {y cs : List Char} (hy : y ∈ numeral.pattern.language) (h : y <+: cs) :
    y <+: numeral.take cs := by
  obtain ⟨s, hs, z, hz, rfl⟩ := mem_language_seq.mp hy
  obtain ⟨r, rfl⟩ := h
  have hp := fun p => prefix_numeralRun p hz (List.prefix_append z r)
  obtain ⟨d, hd, rfl | rfl⟩ := mem_numeralStart hs
  · simp only [List.cons_append, List.nil_append, take_numeral_of_isDigit hd]
    exact List.cons_prefix_cons.mpr ⟨rfl, hp d⟩
  · simp only [List.cons_append, List.nil_append, take_numeral_of_point hd]
    exact List.cons_prefix_cons.mpr ⟨rfl, List.cons_prefix_cons.mpr ⟨rfl, hp d⟩⟩

theorem prefix_take {k : LexemeClass} {y cs : List Char} (hy : y ∈ k.pattern.language)
    (h : y <+: cs) : y <+: k.take cs := by
  cases k with
  | blank =>
    obtain ⟨c, z, rfl, hc, hz⟩ := mem_language_char_star hy
    exact prefix_takeWhile (List.forall_mem_cons.mpr ⟨hc, hz⟩) h
  | comment =>
    obtain ⟨s, hs, z, hz, rfl⟩ := mem_language_seq.mp hy
    rw [mem_language_text.mp hs] at h ⊢
    have hp : ['/', '/'] <+: cs := (List.prefix_append _ z).trans h
    rw [take, if_pos (List.isPrefixOf_iff_prefix.mpr hp)]
    apply prefix_takeWhile _ h
    have hz := mem_language_star_char.mp hz
    simpa using hz
  | word => exact prefix_take_word hy h
  | numeral => exact prefix_take_numeral hy h
  | operator k =>
    rw [pattern, Operator.pattern_eq] at hy
    obtain rfl := mem_language_text.mp hy
    rw [take, if_pos (List.isPrefixOf_iff_prefix.mpr h)]

lemma first?_of_head {p : Pattern} {cs x r : List Char} (h : (p.ways cs).head? = some (x, r)) :
    p.first? cs = some x := by
  rw [Pattern.first?, h]
  rfl

lemma first?_char_star {p q : Char → Bool} {c : Char} (hp : p c = true) (cs : List Char) :
    (seq (char p) (star (char q))).first? (c :: cs) = some (c :: cs.takeWhile q) := by
  have hc : ((char p).ways (c :: cs)).head? = some ([c], cs) := by
    simp only [ways, hp, ↓reduceIte, List.head?_cons]
  exact first?_of_head (head_seq hc (head_star_char q cs))

lemma ways_exponent_of_not {c : Char} {cs : List Char}
    (h : ¬(isExponentMark c = true ∧ cs.head?.any isSign = true)) :
    (seq (char isExponentMark) (char isSign)).ways (c :: cs) = [] := by
  apply List.eq_nil_iff_forall_not_mem.mpr
  rintro ⟨x, r⟩ hw
  obtain ⟨hx, hr⟩ := (mem_ways_iff _ _ _ _).mp hw
  obtain ⟨_, ⟨e, he, rfl⟩, _, ⟨s, hs, rfl⟩, rfl⟩ := mem_language_seq.mp hx
  obtain ⟨rfl, rfl⟩ := List.cons.inj hr
  exact h ⟨he, by simpa using hs⟩

lemma head_numeralItem_of_exponent {c s : Char} (hc : isExponentMark c = true)
    (hs : isSign s = true) (cs : List Char) :
    (numeralItem.ways (c :: s :: cs)).head? = some ([c, s], cs) := by
  simp [numeralItem, ways, andThen, hc, hs]

lemma ways_numeralItem_of_not {c : Char} {cs : List Char}
    (h : ¬(isExponentMark c = true ∧ cs.head?.any isSign = true)) :
    numeralItem.ways (c :: cs) = if isNumeralPart c then [([c], cs)] else [] := by
  rw [numeralItem, ways, ways_exponent_of_not h, List.nil_append, ways]

lemma head_numeralItems (previous : Char) (cs : List Char)
    (h : ¬(isExponentMark previous = true ∧ cs.head?.any isSign = true)) :
    ∃ r, ((star numeralItem).ways cs).head? = some (numeralRun previous cs, r) := by
  -- an item may be two characters long, so the induction is on the length
  induction hn : cs.length using Nat.strong_induction_on generalizing previous cs with
  | _ n ih =>
    subst hn
    cases cs with
    | nil => exact ⟨[], by rw [ways_star_of_nil rfl]; rfl⟩
    | cons c cs =>
      by_cases he : isExponentMark c = true ∧ cs.head?.any isSign = true
      · -- the mark and its sign are one item, and the search goes on after the sign
        obtain ⟨hc, hs⟩ := he
        cases cs with
        | nil => cases hs
        | cons s ds =>
          have hs : isSign s = true := hs
          have hlt : ds.length < (c :: s :: ds).length := by
            simp only [List.length_cons]
            omega
          have hsm := not_isExponentMark_of_isSign hs
          obtain ⟨r, hr⟩ := ih ds.length hlt s ds (fun h => hsm h.1) rfl
          rw [numeralRun_of_exponent hc hs]
          exact ⟨r, head_star (head_numeralItem_of_exponent hc hs ds) (List.cons_ne_nil _ _) hr⟩
      · have hways := ways_numeralItem_of_not he
        by_cases hp : isNumeralPart c = true
        · rw [if_pos hp] at hways
          obtain ⟨r, hr⟩ := ih cs.length (Nat.lt_succ_self _) c cs he rfl
          rw [numeralRun_of_isNumeralPart hp]
          exact ⟨r, head_star (by rw [hways, List.head?_cons]) (List.cons_ne_nil _ _) hr⟩
        · rw [if_neg hp] at hways
          have hr : numeralRun previous (c :: cs) = [] := by
            have hs : ¬(isExponentMark previous = true ∧ isSign c = true) := h
            simp only [numeralRun, hp, Bool.false_or, Bool.and_eq_true]
            rw [if_neg (fun hh => hs hh.symm)]
          exact ⟨c :: cs, by rw [ways_star_of_nil hways, hr]; rfl⟩

def starts : LexemeClass → Char → Bool
  | blank, c => isBlank c
  | comment, c => c = '/'
  | word, c => isWordStart c
  | numeral, c => c.isDigit || c = '.'
  | operator k, c => k.spelling.toList.head? = some c

lemma exists_cons_of_mem {k : LexemeClass} {y : List Char} (hy : y ∈ k.pattern.language) :
    ∃ c z, y = c :: z ∧ k.starts c = true := by
  cases k with
  | blank =>
    obtain ⟨c, z, rfl, hc, _⟩ := mem_language_char_star hy
    exact ⟨c, z, rfl, hc⟩
  | comment =>
    obtain ⟨s, hs, z, _, rfl⟩ := mem_language_seq.mp hy
    rw [mem_language_text.mp hs]
    exact ⟨'/', '/' :: z, rfl, rfl⟩
  | word =>
    obtain ⟨c, z, rfl, hc, _⟩ := mem_language_char_star hy
    exact ⟨c, z, rfl, hc⟩
  | numeral =>
    obtain ⟨s, hs, z, _, rfl⟩ := mem_language_seq.mp hy
    obtain ⟨d, hd, rfl | rfl⟩ := mem_numeralStart hs
    · exact ⟨d, z, rfl, by simp only [starts, hd, Bool.true_or]⟩
    · exact ⟨'.', d :: z, rfl, rfl⟩
  | operator k =>
    rw [pattern, Operator.pattern_eq] at hy
    rw [mem_language_text.mp hy]
    cases k <;> exact ⟨_, _, rfl, rfl⟩

lemma startsNumeral_cases {cs : List Char} (h : startsNumeral cs = true) :
    ∃ d t, d.isDigit = true ∧ (cs = d :: t ∨ cs = '.' :: d :: t) := by
  match cs with
  | [] => cases h
  | [c] => exact ⟨c, [], h, Or.inl rfl⟩
  | c :: d :: t =>
    simp only [startsNumeral, Bool.or_eq_true, Bool.and_eq_true, decide_eq_true_eq] at h
    rcases h with hc | ⟨rfl, hd⟩
    · exact ⟨c, d :: t, hc, Or.inl rfl⟩
    · exact ⟨d, t, hd, Or.inr rfl⟩

lemma first?_comment (r : List Char) :
    comment.pattern.first? ('/' :: '/' :: r) = some ('/' :: '/' :: r.takeWhile (· ≠ '\n')) := by
  have ht : ((text ['/', '/']).ways ('/' :: '/' :: r)).head? = some (['/', '/'], r) := by
    rw [← List.head?_cons, ← ways_text]
    rfl
  exact first?_of_head (head_seq ht (head_star_char _ r))

lemma first?_numeral_of_isDigit {d : Char} (hd : d.isDigit = true) (t : List Char) :
    numeral.pattern.first? (d :: t) = some (d :: numeralRun d t) := by
  have hs : (numeralStart.ways (d :: t)).head? = some ([d], t) := by
    simp only [numeralStart, ways, hd, ↓reduceIte, List.cons_append, List.head?_cons]
  obtain ⟨r, hr⟩ := head_numeralItems d t fun h => not_isExponentMark_of_isDigit hd h.1
  exact first?_of_head (head_seq hs hr)

lemma first?_numeral_of_point {d : Char} (hd : d.isDigit = true) (t : List Char) :
    numeral.pattern.first? ('.' :: d :: t) = some ('.' :: d :: numeralRun d t) := by
  have hs : (numeralStart.ways ('.' :: d :: t)).head? = some (['.', d], t) := by
    simp [numeralStart, ways, andThen, hd]
  obtain ⟨r, hr⟩ := head_numeralItems d t fun h => not_isExponentMark_of_isDigit hd h.1
  exact first?_of_head (head_seq hs hr)

lemma of_ite_ne_nil {p : Prop} [Decidable p] {xs : List Char}
    (h : (if p then xs else []) ≠ []) : p := by
  by_contra hp
  exact h (if_neg hp)

lemma exists_cons_of_takeWhile_ne_nil {p : Char → Bool} {cs : List Char}
    (h : cs.takeWhile p ≠ []) : ∃ c t, cs = c :: t ∧ p c = true := by
  cases cs with
  | nil => exact absurd rfl h
  | cons c t =>
    refine ⟨c, t, rfl, ?_⟩
    by_contra hc
    exact h (List.takeWhile_cons_of_neg hc)

lemma first?_of_take_ne_nil {k : LexemeClass} {cs : List Char} (h : k.take cs ≠ []) :
    k.pattern.first? cs = some (k.take cs) := by
  cases k with
  | blank =>
    obtain ⟨c, t, rfl, hc⟩ := exists_cons_of_takeWhile_ne_nil h
    rw [take, List.takeWhile_cons_of_pos hc]
    exact first?_char_star hc t
  | comment =>
    have hp := of_ite_ne_nil h
    rw [take, if_pos hp]
    obtain ⟨r, rfl⟩ := List.isPrefixOf_iff_prefix.mp hp
    exact first?_comment r
  | word =>
    have hw := of_ite_ne_nil h
    rw [take, if_pos hw]
    obtain ⟨c, hh, hc⟩ := (Option.any_eq_true _ _).mp hw
    obtain ⟨t, rfl⟩ := List.head?_eq_some_iff.mp hh
    rw [List.takeWhile_cons_of_pos (isWordPart_of_isWordStart hc)]
    exact first?_char_star hc t
  | numeral =>
    obtain ⟨d, t, hd, rfl | rfl⟩ := startsNumeral_cases (of_ite_ne_nil h)
    · rw [take_numeral_of_isDigit hd]
      exact first?_numeral_of_isDigit hd t
    · rw [take_numeral_of_point hd]
      exact first?_numeral_of_point hd t
  | operator k =>
    have hp := of_ite_ne_nil h
    rw [take, if_pos hp]
    obtain ⟨r, rfl⟩ := List.isPrefixOf_iff_prefix.mp hp
    rw [pattern, Operator.pattern_eq]
    exact first?_of_head (by rw [ways_text]; rfl)

theorem first?_pattern (k : LexemeClass) (cs : List Char) :
    k.pattern.first? cs = if k.take cs = [] then none else some (k.take cs) := by
  split
  next h =>
    rw [first?_eq_none_iff]
    intro y hy hp
    obtain ⟨c, z, rfl, _⟩ := exists_cons_of_mem hy
    have hn := prefix_take hy hp
    rw [h] at hn
    cases List.prefix_nil.mp hn
  next h => exact first?_of_take_ne_nil h

lemma take_mem {k : LexemeClass} {cs : List Char} (h : k.take cs ≠ []) :
    k.take cs ∈ k.pattern.language :=
  (mem_of_first? (first?_of_take_ne_nil h)).1

end LexemeClass

end LCode
