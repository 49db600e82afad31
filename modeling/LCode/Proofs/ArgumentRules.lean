import LCode.Command.Run
import Mathlib

/-! What is known of a parser of arguments: what it does with one argument, and with one letter. -/

namespace LCode.Command

def isPath (arg : String) : Bool := arg = "-" || arg.toList.head? ≠ some '-'

def isQuiet (arg : String) : Bool := arg = "-q" || arg = "--quiet"

/-- Letters that ask for help before one of them is wrong, as a second quiet flag is. -/
def LettersAskHelp (quiet : Bool) (cs : List Char) : Prop :=
  (∃ rest, cs = 'h' :: rest) ∨ quiet = false ∧ ∃ rest, cs = 'q' :: 'h' :: rest

def AsksHelp (quiet : Bool) (arg : String) : Prop :=
  arg = "--help" ∨ ∃ cs, arg.toList = '-' :: cs ∧ LettersAskHelp quiet cs

def Complains {α : Type} (x : Except Outcome α) : Prop :=
  ∃ o, x = .error o ∧ o.exitCode = 2 ∧ o.output = ""

def Helps {α : Type} (help : String) (x : Except Outcome α) : Prop :=
  ∃ o, x = .error o ∧ o.exitCode = 0 ∧ o.output = help

structure ArgumentParser where
  parse : List String → Except Outcome Request
  take : Draft → String → Except Outcome Draft
  letter : Draft → Char → Except Outcome Draft
  finish : Draft → Except Outcome Request
  help : String

namespace ArgumentParser

/-- The documented rules: flags take no value and have no other names than their own, a flag and a
path are given once, a path is required and is not empty, and errors and help end the parsing. -/
structure Documented (p : ArgumentParser) : Prop where
  inOrder : ∀ args, p.parse args = args.foldlM p.take .empty >>= p.finish
  dashes : ∀ d, d.onlyPaths = false → p.take d "--" = .ok { d with onlyPaths := true }
  firstPath : ∀ d arg, d.onlyPaths = true ∨ isPath arg = true → d.path = none → arg ≠ "" →
    p.take d arg = .ok { d with path := some arg }
  secondPath : ∀ d arg, d.onlyPaths = true ∨ isPath arg = true → d.path ≠ none →
    Complains (p.take d arg)
  emptyPath : ∀ d, Complains (p.take d "")
  quietWord : ∀ d, d.onlyPaths = false → d.quiet = false →
    p.take d "--quiet" = .ok { d with quiet := true }
  secondQuietWord : ∀ d, d.onlyPaths = false → d.quiet = true → Complains (p.take d "--quiet")
  helpWord : ∀ d, d.onlyPaths = false → Helps p.help (p.take d "--help")
  otherWord : ∀ d arg, d.onlyPaths = false → ['-', '-'] <+: arg.toList →
    arg ∉ ["--", "--quiet", "--help"] → Complains (p.take d arg)
  cluster : ∀ d arg c cs, d.onlyPaths = false → arg.toList = '-' :: c :: cs → c ≠ '-' →
    p.take d arg = (c :: cs).foldlM p.letter d
  quietLetter : ∀ d, d.quiet = false → p.letter d 'q' = .ok { d with quiet := true }
  secondQuietLetter : ∀ d, d.quiet = true → Complains (p.letter d 'q')
  helpLetter : ∀ d, Helps p.help (p.letter d 'h')
  otherLetter : ∀ d c, c ≠ 'q' → c ≠ 'h' → Complains (p.letter d c)
  complete : ∀ d path, d.path = some path → p.finish d = .ok ⟨path, d.quiet⟩
  missing : ∀ d, d.path = none → Complains (p.finish d)

end ArgumentParser

section

variable {arg : String}

lemma isQuiet_of_isPath (h : isPath arg = true) : isQuiet arg = false := by
  by_contra hq
  rw [Bool.not_eq_false, isQuiet, Bool.or_eq_true, decide_eq_true_eq, decide_eq_true_eq] at hq
  rcases hq with rfl | rfl <;> simp [isPath] at h

lemma isPath_of_isQuiet (h : isQuiet arg = true) : isPath arg = false := by
  by_contra hp
  rw [isQuiet_of_isPath (Bool.eq_true_of_not_eq_false hp)] at h
  cases h

lemma ne_dashes_of_isPath (h : isPath arg = true) : arg ≠ "--" := by
  rintro rfl
  simp [isPath] at h

lemma ne_dashes_of_isQuiet (h : isQuiet arg = true) : arg ≠ "--" := by
  rintro rfl
  simp [isQuiet] at h

lemma exists_toList_of_not_isPath (h : ¬isPath arg = true) :
    ∃ c cs, arg.toList = '-' :: c :: cs := by
  rw [Bool.not_eq_true] at h
  simp only [isPath, Bool.or_eq_false_iff, decide_eq_false_iff_not, not_not] at h
  obtain ⟨hne, hhead⟩ := h
  cases hcs : arg.toList with
  | nil => simp [hcs] at hhead
  | cons a cs =>
    obtain rfl : a = '-' := by simpa [hcs] using hhead
    cases cs with
    | nil => exact absurd (String.toList_inj.mp hcs) hne
    | cons c cs => exact ⟨c, cs, rfl⟩

lemma toList_ne_of_isPath (h : isPath arg = true) (c : Char) (cs : List Char) :
    arg.toList ≠ '-' :: c :: cs := by
  intro hcs
  simp only [isPath, Bool.or_eq_true, decide_eq_true_eq] at h
  rcases h with rfl | h
  · simp at hcs
  · simp [hcs] at h

lemma LettersAskHelp.exists_cons {quiet : Bool} {cs : List Char} (h : LettersAskHelp quiet cs) :
    ∃ c rest, cs = c :: rest ∧ c ≠ '-' := by
  rcases h with ⟨rest, rfl⟩ | ⟨-, rest, rfl⟩
  · exact ⟨'h', rest, rfl, by decide⟩
  · exact ⟨'q', _, rfl, by decide⟩

end

section

variable {α β : Type} {x : Except Outcome α} {f : α → Except Outcome β} {o : Outcome} {a : α}
  {help : String}

lemma bind_eq_ok_iff {b : β} : x >>= f = .ok b ↔ ∃ a, x = .ok a ∧ f a = .ok b := by
  cases x <;> simp [bind, Except.bind]

lemma bind_eq_error_iff :
    x >>= f = .error o ↔ x = .error o ∨ ∃ a, x = .ok a ∧ f a = .error o := by
  cases x <;> simp [bind, Except.bind]

lemma complains_error_iff :
    Complains (.error o : Except Outcome α) ↔ o.exitCode = 2 ∧ o.output = "" := by
  simp [Complains]

lemma not_complains_ok : ¬Complains (.ok a : Except Outcome α) := by
  simp [Complains]

lemma helps_error_iff :
    Helps help (.error o : Except Outcome α) ↔ o.exitCode = 0 ∧ o.output = help := by
  simp [Helps]

lemma not_helps_ok : ¬Helps help (.ok a : Except Outcome α) := by
  simp [Helps]

lemma Complains.bind (h : Complains x) : Complains (x >>= f) := by
  obtain ⟨o, rfl, ho⟩ := h
  exact ⟨o, rfl, ho⟩

lemma Helps.bind (h : Helps help x) : Helps help (x >>= f) := by
  obtain ⟨o, rfl, ho⟩ := h
  exact ⟨o, rfl, ho⟩

lemma foldlM_eq_error_iff {f : β → α → Except Outcome β} {xs : List α} {b : β} :
    xs.foldlM f b = .error o ↔ ∃ earlier y later c, xs = earlier ++ y :: later ∧
      earlier.foldlM f b = .ok c ∧ f c y = .error o := by
  constructor
  · intro h
    induction xs generalizing b with
    | nil => cases h
    | cons x xs ih =>
      rw [List.foldlM_cons] at h
      rcases bind_eq_error_iff.mp h with h | ⟨c, hc, h⟩
      · exact ⟨[], x, xs, b, rfl, rfl, h⟩
      · obtain ⟨earlier, y, later, e, rfl, he, hy⟩ := ih h
        refine ⟨x :: earlier, y, later, e, rfl, ?_, hy⟩
        rw [List.foldlM_cons]
        exact bind_eq_ok_iff.mpr ⟨c, hc, he⟩
  · rintro ⟨earlier, y, later, c, rfl, hc, hy⟩
    rw [List.foldlM_append]
    refine bind_eq_error_iff.mpr (Or.inr ⟨c, hc, ?_⟩)
    rw [List.foldlM_cons]
    exact bind_eq_error_iff.mpr (Or.inl hy)

end

namespace ArgumentParser

variable {p : ArgumentParser} {d e : Draft} {arg : String} {c : Char} {cs : List Char}

lemma letters_of_lettersAskHelp (h : p.Documented) (hcs : LettersAskHelp d.quiet cs) :
    Helps p.help (cs.foldlM p.letter d) := by
  rcases hcs with ⟨rest, rfl⟩ | ⟨hquiet, rest, rfl⟩
  · rw [List.foldlM_cons]
    exact (h.helpLetter d).bind
  · rw [List.foldlM_cons, h.quietLetter d hquiet]
    exact (h.helpLetter _).bind

lemma letters_cases (h : p.Documented) (d : Draft) (cs : List Char) :
    cs = [] ∨ cs = ['q'] ∧ d.quiet = false ∨ LettersAskHelp d.quiet cs ∨
      Complains (cs.foldlM p.letter d) := by
  induction cs generalizing d with
  | nil => exact Or.inl rfl
  | cons c cs ih =>
    by_cases hh : c = 'h'
    · exact Or.inr (Or.inr (Or.inl (Or.inl ⟨cs, by rw [hh]⟩)))
    by_cases hq : c = 'q'
    · subst hq
      cases hquiet : d.quiet with
      | true =>
        refine Or.inr (Or.inr (Or.inr ?_))
        rw [List.foldlM_cons]
        exact (h.secondQuietLetter d hquiet).bind
      | false =>
        rcases ih { d with quiet := true } with rfl | ⟨-, hf⟩ | (⟨rest, rfl⟩ | ⟨hf, -⟩) | hc
        · exact Or.inr (Or.inl ⟨rfl, rfl⟩)
        · cases hf
        · exact Or.inr (Or.inr (Or.inl (Or.inr ⟨rfl, rest, rfl⟩)))
        · cases hf
        · refine Or.inr (Or.inr (Or.inr ?_))
          rw [List.foldlM_cons, h.quietLetter d hquiet]
          exact hc
    · refine Or.inr (Or.inr (Or.inr ?_))
      rw [List.foldlM_cons]
      exact (h.otherLetter d c hq hh).bind

lemma take_of_isQuiet (h : p.Documented) (hd : d.onlyPaths = false) (hquiet : d.quiet = false)
    (ha : isQuiet arg = true) : p.take d arg = .ok { d with quiet := true } := by
  rw [isQuiet, Bool.or_eq_true, decide_eq_true_eq, decide_eq_true_eq] at ha
  rcases ha with rfl | rfl
  · rw [h.cluster d "-q" 'q' [] hd (by simp) (by decide), List.foldlM_cons, h.quietLetter d hquiet]
    rfl
  · exact h.quietWord d hd hquiet

lemma take_of_asksHelp (h : p.Documented) (hd : d.onlyPaths = false) (ha : AsksHelp d.quiet arg) :
    Helps p.help (p.take d arg) := by
  rcases ha with rfl | ⟨cs, hcs, hask⟩
  · exact h.helpWord d hd
  · obtain ⟨c, rest, rfl, hc⟩ := hask.exists_cons
    rw [h.cluster d arg c rest hd hcs hc]
    exact letters_of_lettersAskHelp h hask

inductive Reply (p : ArgumentParser) (d : Draft) (arg : String) : Except Outcome Draft → Prop
  | dashes : d.onlyPaths = false → arg = "--" → Reply p d arg (.ok { d with onlyPaths := true })
  | path : d.onlyPaths = true ∨ isPath arg = true → d.path = none → arg ≠ "" →
      Reply p d arg (.ok { d with path := some arg })
  | quiet : d.onlyPaths = false → isQuiet arg = true → d.quiet = false →
      Reply p d arg (.ok { d with quiet := true })
  | help {x : Except Outcome Draft} : d.onlyPaths = false → AsksHelp d.quiet arg →
      Helps p.help x → Reply p d arg x
  | complaint {x : Except Outcome Draft} : Complains x → Reply p d arg x

lemma reply_of_path (h : p.Documented) (ha : d.onlyPaths = true ∨ isPath arg = true) :
    p.Reply d arg (p.take d arg) := by
  by_cases hd : d.path = none
  · by_cases hne : arg = ""
    · rw [hne]
      exact .complaint (h.emptyPath d)
    · rw [h.firstPath d arg ha hd hne]
      exact .path ha hd hne
  · exact .complaint (h.secondPath d arg ha hd)

lemma reply_of_word (h : p.Documented) (hd : d.onlyPaths = false)
    (ha : ['-', '-'] <+: arg.toList) : p.Reply d arg (p.take d arg) := by
  by_cases hmem : arg ∈ ["--", "--quiet", "--help"]
  · simp only [List.mem_cons, List.not_mem_nil, or_false] at hmem
    rcases hmem with rfl | rfl | rfl
    · rw [h.dashes d hd]
      exact .dashes hd rfl
    · cases hquiet : d.quiet with
      | true => exact .complaint (h.secondQuietWord d hd hquiet)
      | false =>
        rw [h.quietWord d hd hquiet]
        exact .quiet hd rfl hquiet
    · exact .help hd (Or.inl rfl) (h.helpWord d hd)
  · exact .complaint (h.otherWord d arg hd ha hmem)

lemma reply_of_cluster (h : p.Documented) (hd : d.onlyPaths = false)
    (ha : arg.toList = '-' :: c :: cs) (hc : c ≠ '-') : p.Reply d arg (p.take d arg) := by
  rw [h.cluster d arg c cs hd ha hc]
  rcases letters_cases h d (c :: cs) with hnil | ⟨hq, hquiet⟩ | hask | hcomplains
  · cases hnil
  · obtain rfl : arg = "-q" := by
      rw [← String.toList_inj, ha, hq]
      simp
    rw [hq, List.foldlM_cons, h.quietLetter d hquiet]
    exact .quiet hd rfl hquiet
  · exact .help hd (Or.inr ⟨_, ha, hask⟩) (letters_of_lettersAskHelp h hask)
  · exact .complaint hcomplains

lemma reply (h : p.Documented) (d : Draft) (arg : String) : p.Reply d arg (p.take d arg) := by
  by_cases hp : d.onlyPaths = true ∨ isPath arg = true
  · exact reply_of_path h hp
  · obtain ⟨hd, hpath⟩ := not_or.mp hp
    have hd := Bool.eq_false_of_not_eq_true hd
    obtain ⟨c, cs, hcs⟩ := exists_toList_of_not_isPath hpath
    by_cases hc : c = '-'
    · exact reply_of_word h hd ⟨cs, by rw [hcs, hc]; rfl⟩
    · exact reply_of_cluster h hd hcs hc

lemma take_eq_ok_iff (h : p.Documented) : p.take d arg = .ok e ↔
    d.onlyPaths = false ∧ arg = "--" ∧ e = { d with onlyPaths := true } ∨
      (d.onlyPaths = true ∨ isPath arg = true) ∧ d.path = none ∧ arg ≠ "" ∧
        e = { d with path := some arg } ∨
      d.onlyPaths = false ∧ isQuiet arg = true ∧ d.quiet = false ∧
        e = { d with quiet := true } := by
  constructor
  · intro he
    have hreply := reply h d arg
    rw [he] at hreply
    cases hreply with
    | dashes hd ha => exact Or.inl ⟨hd, ha, rfl⟩
    | path ha hd hne => exact Or.inr (Or.inl ⟨ha, hd, hne, rfl⟩)
    | quiet hd ha hquiet => exact Or.inr (Or.inr ⟨hd, ha, hquiet, rfl⟩)
    | help _ _ hx => exact absurd hx not_helps_ok
    | complaint hx => exact absurd hx not_complains_ok
  · rintro (⟨hd, rfl, rfl⟩ | ⟨ha, hd, hne, rfl⟩ | ⟨hd, ha, hquiet, rfl⟩)
    · exact h.dashes d hd
    · exact h.firstPath d arg ha hd hne
    · exact take_of_isQuiet h hd hquiet ha

lemma take_error_cases (h : p.Documented) {o : Outcome} (ho : p.take d arg = .error o) :
    d.onlyPaths = false ∧ AsksHelp d.quiet arg ∨ o.exitCode = 2 ∧ o.output = "" := by
  have hreply := reply h d arg
  rw [ho] at hreply
  cases hreply with
  | help hd ha _ => exact Or.inl ⟨hd, ha⟩
  | complaint hx => exact Or.inr (complains_error_iff.mp hx)

end ArgumentParser

namespace Draft

variable {d : Draft} {arg path : String} {name : List Char}

lemma setQuiet_of_false (h : d.quiet = false) (flag : String) :
    d.setQuiet flag = .ok { d with quiet := true } :=
  if_neg (Bool.eq_false_iff.mp h)

lemma complains_setQuiet (h : d.quiet = true) (flag : String) : Complains (d.setQuiet flag) :=
  ⟨_, if_pos h, rfl, rfl⟩

lemma addPath_of_none (h : d.path = none) (hne : path ≠ "") :
    d.addPath path = .ok { d with path := some path } := by
  rw [addPath, h, if_neg (by simp), if_neg hne]

lemma complains_addPath (h : d.path ≠ none ∨ path = "") : Complains (d.addPath path) := by
  rw [addPath]
  split_ifs with hpath hempty
  · exact ⟨_, rfl, rfl, rfl⟩
  · exact ⟨_, rfl, rfl, rfl⟩
  · rw [← Option.ne_none_iff_isSome] at hpath
    exact absurd h (not_or.mpr ⟨hpath, hempty⟩)

lemma addArgument_of_path (h : d.onlyPaths = true ∨ isPath arg = true) :
    d.addArgument arg = d.addPath arg := by
  rw [addArgument]
  split_ifs with hd
  · rfl
  · have harg := h.resolve_left hd
    split
    next name hcs => exact absurd hcs (toList_ne_of_isPath harg _ _)
    next c cs _ hcs => exact absurd hcs (toList_ne_of_isPath harg _ _)
    next => rfl

lemma addArgument_of_word (hd : d.onlyPaths = false) (h : arg.toList = '-' :: '-' :: name) :
    d.addArgument arg = d.addWord name := by
  rw [addArgument, if_neg (Bool.eq_false_iff.mp hd), h]
  rfl

lemma addArgument_of_cluster {c : Char} {cs : List Char} (hd : d.onlyPaths = false)
    (h : arg.toList = '-' :: c :: cs) (hc : c ≠ '-') :
    d.addArgument arg = (c :: cs).foldlM addLetter d := by
  rw [addArgument, if_neg (Bool.eq_false_iff.mp hd), h]
  split
  next name hname => exact absurd (List.cons.inj (List.cons.inj hname).2).1 hc
  next c cs _ hcs => rw [(List.cons.inj hcs).2]
  next hne => exact absurd rfl (hne c cs)

lemma addArgument_dashes (hd : d.onlyPaths = false) :
    d.addArgument "--" = .ok { d with onlyPaths := true } := by
  have hname : "--".toList = '-' :: '-' :: [] := by simp
  rw [addArgument_of_word hd hname, addWord, if_pos rfl]

lemma addArgument_help (hd : d.onlyPaths = false) :
    d.addArgument "--help" = .error helpOutcome := by
  have hname : "--help".toList = '-' :: '-' :: "help".toList := by simp
  rw [addArgument_of_word hd hname, addWord, if_neg (by simp), if_pos rfl]

lemma addArgument_quiet (hd : d.onlyPaths = false) :
    d.addArgument "--quiet" = d.setQuiet "--quiet" := by
  have hname : "--quiet".toList = '-' :: '-' :: "quiet".toList := by simp
  rw [addArgument_of_word hd hname, addWord, if_neg (by simp), if_neg (by simp), if_pos rfl]

lemma complains_addWord (hempty : name ≠ []) (hhelp : name ≠ "help".toList)
    (hquiet : name ≠ "quiet".toList) : Complains (d.addWord name) := by
  rw [addWord, if_neg hempty, if_neg hhelp, if_neg hquiet]
  exact ⟨_, rfl, rfl, rfl⟩

lemma complains_addLetter {c : Char} (hq : c ≠ 'q') (hh : c ≠ 'h') : Complains (d.addLetter c) := by
  rw [addLetter.eq_def]
  split
  · exact absurd rfl hh
  · exact absurd rfl hq
  · exact ⟨_, rfl, rfl, rfl⟩

lemma finish_of_some (h : d.path = some path) : d.finish = .ok ⟨path, d.quiet⟩ := by
  simp only [finish, h]

lemma complains_finish (h : d.path = none) : Complains d.finish := by
  simp only [finish, h]
  exact ⟨_, rfl, rfl, rfl⟩

end Draft

def draftParser : ArgumentParser where
  parse := Request.ofArguments
  take := Draft.addArgument
  letter := Draft.addLetter
  finish := Draft.finish
  help := helpText

open Draft

lemma draftParser_documented : draftParser.Documented where
  inOrder _ := rfl
  dashes _ hd := addArgument_dashes hd
  firstPath _ _ ha hd hne := (addArgument_of_path ha).trans (addPath_of_none hd hne)
  secondPath d arg ha hd := by
    change Complains (d.addArgument arg)
    rw [addArgument_of_path ha]
    exact complains_addPath (Or.inl hd)
  emptyPath d := by
    change Complains (d.addArgument "")
    rw [addArgument_of_path (Or.inr rfl)]
    exact complains_addPath (Or.inr rfl)
  quietWord _ hd hquiet := (addArgument_quiet hd).trans (setQuiet_of_false hquiet _)
  secondQuietWord d hd hquiet := by
    change Complains (d.addArgument "--quiet")
    rw [addArgument_quiet hd]
    exact complains_setQuiet hquiet _
  helpWord _ hd := ⟨_, addArgument_help hd, rfl, rfl⟩
  otherWord d arg hd hprefix hmem := by
    obtain ⟨name, hname⟩ := hprefix
    have hne (word : List Char)
        (h : String.ofList ('-' :: '-' :: word) ∈ ["--", "--quiet", "--help"]) : name ≠ word := by
      rintro rfl
      rw [← String.ofList_toList (s := arg), ← hname] at hmem
      exact hmem h
    change Complains (d.addArgument arg)
    rw [addArgument_of_word hd hname.symm]
    exact complains_addWord (hne _ (by simp)) (hne _ (by simp)) (hne _ (by simp))
  cluster _ _ _ _ hd harg hc := addArgument_of_cluster hd harg hc
  quietLetter _ hquiet := setQuiet_of_false hquiet _
  secondQuietLetter _ hquiet := complains_setQuiet hquiet _
  helpLetter _ := ⟨_, rfl, rfl, rfl⟩
  otherLetter _ _ hq hh := complains_addLetter hq hh
  complete _ _ hpath := finish_of_some hpath
  missing _ hpath := complains_finish hpath

end LCode.Command
