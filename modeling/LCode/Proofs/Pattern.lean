import Mathlib.Computability.Language

/-! Regular expressions, with the heads of a text in the order in which a backtracking search finds
them: the first alternative first, and the longest repetition first. -/

namespace LCode

open scoped Computability

inductive Pattern
  | empty
  | char (p : Char → Bool)
  | seq (a b : Pattern)
  | alt (a b : Pattern)
  | star (a : Pattern)

namespace Pattern

def text : List Char → Pattern
  | [] => empty
  | c :: cs => seq (char (· = c)) (text cs)

def plus (a : Pattern) : Pattern := seq a (star a)

def optional (a : Pattern) : Pattern := alt a empty

def language : Pattern → Language Char
  | empty => 1
  | char p => {x | ∃ c, p c = true ∧ x = [c]}
  | seq a b => a.language * b.language
  | alt a b => a.language + b.language
  | star a => a.language∗

abbrev Way := List Char × List Char

def andThen (ws : List Way) (next : List Char → List Way) : List Way :=
  ws.flatMap fun w => (next w.2).map fun v => (w.1 ++ v.1, v.2)

def repeated (ways : List Char → List Way) (cs : List Char) : List Way :=
  ((ways cs).filter fun w => w.2.length < cs.length).attach.flatMap
    (fun w => (repeated ways w.1.2).map fun v => (w.1.1 ++ v.1, v.2)) ++ [([], cs)]
termination_by cs.length
decreasing_by simpa using (List.mem_filter.mp w.2).2

def ways : Pattern → List Char → List Way
  | empty, cs => [([], cs)]
  | char _, [] => []
  | char p, c :: cs => if p c then [([c], cs)] else []
  | seq a b, cs => andThen (a.ways cs) b.ways
  | alt a b, cs => a.ways cs ++ b.ways cs
  | star a, cs => repeated a.ways cs

def first? (p : Pattern) (cs : List Char) : Option (List Char) := (p.ways cs).head?.map Prod.fst

@[simp] lemma mem_language_empty {x : List Char} : x ∈ empty.language ↔ x = [] :=
  Language.mem_one x

@[simp] lemma mem_language_char {p : Char → Bool} {x : List Char} :
    x ∈ (char p).language ↔ ∃ c, p c = true ∧ x = [c] :=
  Iff.rfl

@[simp] lemma mem_language_seq {a b : Pattern} {x : List Char} :
    x ∈ (seq a b).language ↔ ∃ y ∈ a.language, ∃ z ∈ b.language, y ++ z = x :=
  Language.mem_mul

@[simp] lemma mem_language_alt {a b : Pattern} {x : List Char} :
    x ∈ (alt a b).language ↔ x ∈ a.language ∨ x ∈ b.language :=
  Language.mem_add a.language b.language x

lemma repeated_eq (ways : List Char → List Way) (cs : List Char) :
    repeated ways cs =
      andThen ((ways cs).filter fun w => w.2.length < cs.length) (repeated ways) ++ [([], cs)] := by
  rw [repeated]
  simp only [List.flatMap_subtype, List.unattach_attach, andThen]

lemma mem_andThen {ws : List Way} {next : List Char → List Way} {x r : List Char} :
    (x, r) ∈ andThen ws next ↔ ∃ y s z, (y, s) ∈ ws ∧ (z, r) ∈ next s ∧ x = y ++ z := by
  simp only [andThen, List.mem_flatMap, List.mem_map, Prod.mk.injEq, Prod.exists]
  constructor
  · rintro ⟨y, s, hy, z, t, hz, rfl, rfl⟩
    exact ⟨y, s, z, hy, hz, rfl⟩
  · rintro ⟨y, s, z, hy, hz, rfl⟩
    exact ⟨y, s, hy, z, r, hz, rfl, rfl⟩

lemma mem_kstar_cases {l : Language Char} {x : List Char} (h : x ∈ l∗) :
    x = [] ∨ ∃ y ∈ l, ∃ z ∈ l∗, y ≠ [] ∧ x = y ++ z := by
  obtain ⟨chunks, rfl, hc⟩ := Language.mem_kstar_iff_exists_nonempty.mp h
  cases chunks with
  | nil => exact Or.inl rfl
  | cons y ys =>
    obtain ⟨hy, hn⟩ := hc y List.mem_cons_self
    have hz : ys.flatten ∈ l∗ :=
      Language.join_mem_kstar fun z hz => (hc z (List.mem_cons_of_mem y hz)).1
    exact Or.inr ⟨y, hy, ys.flatten, hz, hn, rfl⟩

lemma append_mem_kstar {l : Language Char} {y z : List Char} (hy : y ∈ l) (hz : z ∈ l∗) :
    y ++ z ∈ l∗ := by
  obtain ⟨chunks, rfl, hc⟩ := Language.mem_kstar.mp hz
  refine Language.mem_kstar.mpr ⟨y :: chunks, rfl, ?_⟩
  rintro w (_ | ⟨_, hw⟩)
  · exact hy
  · exact hc w hw

lemma mem_repeated_iff {a : Pattern}
    (ha : ∀ cs x r, (x, r) ∈ a.ways cs ↔ x ∈ a.language ∧ x ++ r = cs) (cs x r : List Char) :
    (x, r) ∈ repeated a.ways cs ↔ x ∈ a.language∗ ∧ x ++ r = cs := by
  induction hn : cs.length using Nat.strong_induction_on generalizing cs x with
  | _ n ih =>
    subst hn
    rw [repeated_eq, List.mem_append, mem_andThen]
    constructor
    · rintro (⟨y, s, z, hy, hz, rfl⟩ | h)
      · obtain ⟨hy, hs⟩ := List.mem_filter.mp hy
        obtain ⟨hya, rfl⟩ := (ha cs y s).mp hy
        obtain ⟨hza, rfl⟩ := (ih s.length (by simpa using hs) s z rfl).mp hz
        exact ⟨append_mem_kstar hya hza, List.append_assoc y z r⟩
      · obtain ⟨rfl, rfl⟩ := Prod.mk.inj (List.mem_singleton.mp h)
        exact ⟨Language.nil_mem_kstar _, rfl⟩
    · rintro ⟨hx, rfl⟩
      rcases mem_kstar_cases hx with rfl | ⟨y, hy, z, hz, hn, rfl⟩
      · exact Or.inr (List.mem_singleton.mpr rfl)
      · have hs : (z ++ r).length < (y ++ z ++ r).length := by
          have hpos := List.length_pos_iff.mpr hn
          simp only [List.length_append]
          omega
        refine Or.inl ⟨y, z ++ r, z, List.mem_filter.mpr ⟨?_, by simpa using hs⟩, ?_, rfl⟩
        · exact (ha _ _ _).mpr ⟨hy, (List.append_assoc y z r).symm⟩
        · exact (ih _ hs _ _ rfl).mpr ⟨hz, rfl⟩

theorem mem_ways_iff (p : Pattern) (cs x r : List Char) :
    (x, r) ∈ p.ways cs ↔ x ∈ p.language ∧ x ++ r = cs := by
  induction p generalizing cs x r with
  | empty =>
    simp only [ways, mem_language_empty, List.mem_singleton, Prod.mk.injEq]
    constructor
    · rintro ⟨rfl, rfl⟩
      exact ⟨rfl, rfl⟩
    · rintro ⟨rfl, rfl⟩
      exact ⟨rfl, rfl⟩
  | char p =>
    rw [mem_language_char]
    cases cs with
    | nil =>
      constructor
      · intro h
        cases h
      · rintro ⟨⟨c, _, rfl⟩, h⟩
        cases h
    | cons d cs =>
      constructor
      · intro h
        by_cases hd : p d
        · rw [ways, if_pos hd] at h
          obtain ⟨rfl, rfl⟩ := Prod.mk.inj (List.mem_singleton.mp h)
          exact ⟨⟨d, hd, rfl⟩, rfl⟩
        · simp [ways, hd] at h
      · rintro ⟨⟨c, hc, rfl⟩, h⟩
        obtain ⟨rfl, rfl⟩ := List.cons.inj h
        simp [ways, hc]
  | seq a b iha ihb =>
    simp only [ways, mem_language_seq, mem_andThen, iha, ihb]
    constructor
    · rintro ⟨y, s, z, ⟨hy, rfl⟩, ⟨hz, rfl⟩, rfl⟩
      exact ⟨⟨y, hy, z, hz, rfl⟩, List.append_assoc y z r⟩
    · rintro ⟨⟨y, hy, z, hz, rfl⟩, rfl⟩
      exact ⟨y, z ++ r, z, ⟨hy, (List.append_assoc y z r).symm⟩, ⟨hz, rfl⟩, rfl⟩
  | alt a b iha ihb =>
    simp only [ways, mem_language_alt, List.mem_append, iha, ihb, or_and_right]
  | star a ih => exact mem_repeated_iff ih cs x r

lemma mem_of_first? {p : Pattern} {cs x : List Char} (h : p.first? cs = some x) :
    x ∈ p.language ∧ x <+: cs := by
  obtain ⟨⟨y, r⟩, hw, rfl⟩ := Option.map_eq_some_iff.mp h
  obtain ⟨hy, rfl⟩ := (mem_ways_iff p cs y r).mp (List.mem_of_head? hw)
  exact ⟨hy, List.prefix_append y r⟩

lemma first?_eq_none_iff {p : Pattern} {cs : List Char} :
    p.first? cs = none ↔ ∀ x ∈ p.language, ¬ x <+: cs := by
  simp only [first?, Option.map_eq_none_iff, List.head?_eq_none_iff]
  constructor
  · rintro h x hx ⟨r, hr⟩
    have hw := (mem_ways_iff p cs x r).mpr ⟨hx, hr⟩
    rw [h] at hw
    cases hw
  · intro h
    apply List.eq_nil_iff_forall_not_mem.mpr
    rintro ⟨x, r⟩ hw
    obtain ⟨hx, hr⟩ := (mem_ways_iff p cs x r).mp hw
    exact h x hx ⟨r, hr⟩

@[simp] lemma mem_language_text {xs x : List Char} : x ∈ (text xs).language ↔ x = xs := by
  induction xs generalizing x with
  | nil => exact Language.mem_one x
  | cons c xs ih =>
    simp only [text, mem_language_seq, mem_language_char, decide_eq_true_eq, ih]
    constructor
    · rintro ⟨_, ⟨d, rfl, rfl⟩, _, rfl, rfl⟩
      rfl
    · rintro rfl
      exact ⟨[c], ⟨c, rfl, rfl⟩, xs, rfl, rfl⟩

@[simp] lemma mem_language_star_char {p : Char → Bool} {x : List Char} :
    x ∈ (star (char p)).language ↔ ∀ c ∈ x, p c = true := by
  constructor
  · intro h
    obtain ⟨chunks, rfl, hc⟩ := Language.mem_kstar.mp h
    intro c hx
    obtain ⟨y, hy, hcy⟩ := List.mem_flatten.mp hx
    obtain ⟨d, hd, rfl⟩ := hc y hy
    rwa [List.mem_singleton.mp hcy]
  · intro h
    induction x with
    | nil => exact Language.nil_mem_kstar _
    | cons c x ih =>
      have hx := ih fun d hd => h d (List.mem_cons_of_mem c hd)
      exact append_mem_kstar (y := [c]) ⟨c, h c List.mem_cons_self, rfl⟩ hx

lemma cons_mem_seq_char {p : Char → Bool} {b : Pattern} {c : Char} {x : List Char}
    (hc : p c = true) (hx : x ∈ b.language) : c :: x ∈ (seq (char p) b).language :=
  mem_language_seq.mpr ⟨[c], ⟨c, hc, rfl⟩, x, hx, rfl⟩

lemma cons_mem_char_star {p q : Char → Bool} {c : Char} {x : List Char} (hc : p c = true)
    (hx : ∀ d ∈ x, q d = true) : c :: x ∈ (seq (char p) (star (char q))).language :=
  cons_mem_seq_char hc (mem_language_star_char.mpr hx)

lemma head_seq {a b : Pattern} {cs x r y t : List Char} (ha : (a.ways cs).head? = some (x, r))
    (hb : (b.ways r).head? = some (y, t)) : ((seq a b).ways cs).head? = some (x ++ y, t) := by
  obtain ⟨ws, hws⟩ := List.head?_eq_some_iff.mp ha
  obtain ⟨vs, hvs⟩ := List.head?_eq_some_iff.mp hb
  simp only [ways, hws, andThen, List.flatMap_cons, hvs, List.map_cons, List.cons_append,
    List.head?_cons]

lemma head_star {a : Pattern} {cs x r y t : List Char} (ha : (a.ways cs).head? = some (x, r))
    (hx : x ≠ []) (hs : ((star a).ways r).head? = some (y, t)) :
    ((star a).ways cs).head? = some (x ++ y, t) := by
  obtain ⟨ws, hws⟩ := List.head?_eq_some_iff.mp ha
  obtain ⟨vs, hvs⟩ := List.head?_eq_some_iff.mp hs
  obtain ⟨_, rfl⟩ := (mem_ways_iff a cs x r).mp (List.mem_of_head? ha)
  have hr : r.length < (x ++ r).length := by
    have hpos := List.length_pos_iff.mpr hx
    simp only [List.length_append]
    omega
  simp only [ways] at hvs ⊢
  rw [repeated_eq, hws, List.filter_cons_of_pos (by simpa using hr)]
  simp only [andThen, List.flatMap_cons, hvs, List.map_cons, List.cons_append, List.head?_cons]

lemma ways_star_of_nil {a : Pattern} {cs : List Char} (h : a.ways cs = []) :
    (star a).ways cs = [([], cs)] := by
  rw [ways, repeated_eq, h]
  rfl

lemma head_star_char (p : Char → Bool) (cs : List Char) :
    ((star (char p)).ways cs).head? = some (cs.takeWhile p, cs.dropWhile p) := by
  induction cs with
  | nil => rw [ways_star_of_nil rfl]; rfl
  | cons c cs ih =>
    by_cases hc : p c = true
    · rw [List.takeWhile_cons_of_pos hc, List.dropWhile_cons_of_pos hc]
      exact head_star (by simp only [ways, if_pos hc, List.head?_cons]) (List.cons_ne_nil c []) ih
    · rw [List.takeWhile_cons_of_neg hc, List.dropWhile_cons_of_neg hc, ways_star_of_nil]
      · rfl
      · simp only [ways, if_neg hc]

lemma ways_text (xs r : List Char) : (text xs).ways (xs ++ r) = [(xs, r)] := by
  induction xs with
  | nil => rfl
  | cons c xs ih => simp [text, ways, andThen, ih]

end Pattern

end LCode
