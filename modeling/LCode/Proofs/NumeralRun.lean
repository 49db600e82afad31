import LCode.Proofs.MaximalMunch

namespace LCode.Lexeme

open Pattern

structure IsRun (x : List Char) : Prop where
  chars : ∀ c ∈ x, c.isAlphanum = true ∨ c ∈ ['_', '.', '+', '-']
  signs : ∀ before c after, x = before ++ c :: after → c ∈ ['+', '-'] →
    ∃ mark ∈ before.getLast?, mark ∈ ['e', 'E']

structure LongestRun (cs x : List Char) : Prop where
  head : x <+: cs
  run : IsRun x
  longest : ∀ y, y <+: cs → IsRun y → y.length ≤ x.length

/-- Whether a character goes on with a run whose last character is `previous`. -/
def Continues (previous c : Char) : Prop :=
  isNumeralPart c = true ∨ isSign c = true ∧ isExponentMark previous = true

lemma isSign_iff {c : Char} : isSign c = true ↔ c ∈ ['+', '-'] := by
  simp [isSign]

lemma isExponentMark_iff {c : Char} : isExponentMark c = true ↔ c ∈ ['e', 'E'] := by
  simp [isExponentMark]

lemma isNumeralPart_or_isSign_iff {c : Char} :
    isNumeralPart c = true ∨ isSign c = true ↔
      c.isAlphanum = true ∨ c ∈ ['_', '.', '+', '-'] := by
  simp [isNumeralPart, isSign, or_assoc]

lemma not_isNumeralPart_of_isSign {c : Char} (h : isSign c = true) : ¬isNumeralPart c = true := by
  simp only [isSign, Bool.or_eq_true, decide_eq_true_eq] at h
  rcases h with rfl | rfl <;> decide

lemma isChain_cons_iff_forall_getLast? {r : Char → Char → Prop} {p : Char} {x : List Char} :
    (p :: x).IsChain r ↔
      ∀ before c after, x = before ++ c :: after → r (before.getLast?.getD p) c := by
  induction x generalizing p with
  | nil => simp
  | cons d x ih =>
    rw [List.isChain_cons_cons, ih]
    constructor
    · rintro ⟨hd, hx⟩ before c after he
      cases before with
      | nil =>
        obtain ⟨rfl, rfl⟩ := List.cons.inj he
        exact hd
      | cons b before =>
        obtain ⟨rfl, rfl⟩ := List.cons.inj he
        simpa [List.getLast?_cons] using hx before c after rfl
    · intro h
      refine ⟨h [] d x rfl, fun before c after he => ?_⟩
      simpa [List.getLast?_cons] using h (d :: before) c after (congrArg (d :: ·) he)

lemma isRun_iff_isChain {p : Char} (hp : ¬isExponentMark p = true) {x : List Char} :
    IsRun x ↔ (p :: x).IsChain Continues := by
  rw [isChain_cons_iff_forall_getLast?]
  constructor
  · rintro ⟨hchars, hsigns⟩ before c after rfl
    have hc := hchars c (List.mem_append_right before List.mem_cons_self)
    rcases isNumeralPart_or_isSign_iff.mpr hc with hpart | hsign
    · exact Or.inl hpart
    · obtain ⟨mark, hm, he⟩ := hsigns before c after rfl (isSign_iff.mp hsign)
      rw [Option.mem_def.mp hm]
      exact Or.inr ⟨hsign, isExponentMark_iff.mpr he⟩
  · intro h
    refine ⟨fun c hc => ?_, fun before c after hx hc => ?_⟩
    · obtain ⟨before, after, rfl, -⟩ := List.eq_append_cons_of_mem hc
      apply isNumeralPart_or_isSign_iff.mp
      exact (h before c after rfl).imp_right And.left
    · have hsign := isSign_iff.mpr hc
      rcases h before c after hx with hpart | ⟨-, hmark⟩
      · exact absurd hpart (not_isNumeralPart_of_isSign hsign)
      · cases hb : before.getLast? with
        | none =>
          rw [hb] at hmark
          exact absurd hmark hp
        | some mark =>
          rw [hb] at hmark
          exact ⟨mark, rfl, isExponentMark_iff.mp hmark⟩

lemma isChain_numeralRun (previous : Char) (cs : List Char) :
    (previous :: numeralRun previous cs).IsChain Continues := by
  induction cs generalizing previous with
  | nil => exact List.isChain_singleton previous
  | cons c cs ih =>
    rw [numeralRun]
    split
    next h =>
      rw [Bool.or_eq_true, Bool.and_eq_true] at h
      exact List.isChain_cons_cons.mpr ⟨h, ih c⟩
    next => exact List.isChain_singleton previous

lemma prefix_numeralRun_of_isChain {previous : Char} {y cs : List Char} (hy : y <+: cs)
    (h : (previous :: y).IsChain Continues) : y <+: numeralRun previous cs := by
  induction y generalizing previous cs with
  | nil => exact List.nil_prefix
  | cons c y ih =>
    obtain ⟨rest, rfl⟩ := hy
    obtain ⟨hc, hy⟩ := List.isChain_cons_cons.mp h
    have hc : (isNumeralPart c || (isSign c && isExponentMark previous)) = true := by
      rwa [Bool.or_eq_true, Bool.and_eq_true]
    rw [List.cons_append, numeralRun, if_pos hc]
    exact List.cons_prefix_cons.mpr ⟨rfl, ih (List.prefix_append y rest) hy⟩

theorem longestRun_iff {cs x : List Char} : LongestRun cs x ↔ x = numeralRun ' ' cs := by
  have hblank : ¬isExponentMark ' ' = true := by decide
  have hhead := numeralRun_prefix ' ' cs
  have hrun : IsRun (numeralRun ' ' cs) :=
    (isRun_iff_isChain hblank).mpr (isChain_numeralRun ' ' cs)
  have hlong : ∀ y, y <+: cs → IsRun y → y <+: numeralRun ' ' cs := fun y hy hr =>
    prefix_numeralRun_of_isChain hy ((isRun_iff_isChain hblank).mp hr)
  constructor
  · rintro ⟨hx, hr, hle⟩
    exact (hlong x hx hr).eq_of_length_le (hle _ hhead hrun)
  · rintro rfl
    exact ⟨hhead, hrun, fun y hy hr => (hlong y hy hr).length_le⟩

def StartsNumber (cs : List Char) : Prop :=
  ∃ d t, d.isDigit = true ∧ (cs = d :: t ∨ cs = '.' :: d :: t)

lemma startsNumeral_iff {cs : List Char} : startsNumeral cs = true ↔ StartsNumber cs := by
  constructor
  · exact LexemeClass.startsNumeral_cases
  · rintro ⟨d, t, hd, rfl | rfl⟩
    · cases t <;> simp [startsNumeral, hd]
    · simp [startsNumeral, hd]

lemma StartsNumber.starts {cs : List Char} (h : StartsNumber cs) :
    ∃ c t, cs = c :: t ∧ LexemeClass.numeral.starts c = true := by
  obtain ⟨d, t, hd, rfl | rfl⟩ := h
  · exact ⟨d, t, rfl, by simp [LexemeClass.starts, hd]⟩
  · exact ⟨'.', d :: t, rfl, rfl⟩

lemma startsNumber_of_mem {x : List Char} (h : x ∈ LexemeClass.numeral.pattern.language) :
    StartsNumber x := by
  obtain ⟨s, hs, z, -, rfl⟩ := mem_language_seq.mp h
  obtain ⟨d, hd, rfl | rfl⟩ := LexemeClass.mem_numeralStart hs
  · exact ⟨d, z, hd, Or.inl rfl⟩
  · exact ⟨d, z, hd, Or.inr rfl⟩

lemma eq_numeral_of_starts {k : LexemeClass} {c : Char} (hk : k.starts c = true)
    (hc : LexemeClass.numeral.starts c = true) : k = .numeral := by
  cases k with
  | blank => exact absurd hc (LexemeClass.starts_blank hk).2.2
  | comment => exact absurd hc (LexemeClass.starts_comment hk).2
  | word => exact absurd hc (LexemeClass.starts_word hk)
  | numeral => rfl
  | operator k => exact absurd hc (LexemeClass.starts_operator hk).2.2

lemma take_numeral_ne_nil {cs : List Char} (h : StartsNumber cs) :
    LexemeClass.numeral.take cs ≠ [] := by
  obtain ⟨d, t, hd, rfl | rfl⟩ := h
  · rw [LexemeClass.take_numeral_of_isDigit hd]
    exact List.cons_ne_nil d _
  · rw [LexemeClass.take_numeral_of_point hd]
    exact List.cons_ne_nil '.' _

theorem munch_numeral {cs x : List Char} (h : StartsNumber cs) (hx : LongestRun cs x) :
    Munch cs ⟨.numeral, x⟩ := by
  have hne := take_numeral_ne_nil h
  have htake : LexemeClass.numeral.take cs = x := by
    rw [longestRun_iff.mp hx, LexemeClass.take, if_pos (startsNumeral_iff.mpr h)]
  rw [← htake]
  refine ⟨hne, LexemeClass.take_mem hne, LexemeClass.numeral.take_prefix cs, fun k y hy hp => ?_⟩
  -- a lexeme of another class does not begin with this character
  obtain ⟨c, t, rfl, hc⟩ := h.starts
  obtain ⟨d, z, rfl, hd⟩ := LexemeClass.exists_cons_of_mem hy
  obtain ⟨rfl, -⟩ := List.cons_prefix_cons.mp hp
  obtain rfl := eq_numeral_of_starts hd hc
  exact (LexemeClass.prefix_take hy hp).length_le

lemma Munch.longestRun {cs : List Char} {x : Lexeme} (h : Munch cs x) (hc : x.cls = .numeral) :
    StartsNumber cs ∧ LongestRun cs x.text := by
  obtain ⟨htake, hne⟩ := first?_eq_some (first?_eq_some_iff.mpr h)
  rw [htake, hc] at hne
  have hs := LexemeClass.of_ite_ne_nil hne
  refine ⟨startsNumeral_iff.mp hs, longestRun_iff.mpr ?_⟩
  rw [htake, hc, LexemeClass.take, if_pos hs]

end LCode.Lexeme
