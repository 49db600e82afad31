import LCode.Proofs.ArgumentRules
import LCode.Proofs.CommandRun

/-! Flags and paths up to a double dash, and paths behind it. The first argument that does not fit
in decides what the command does. -/

namespace LCode.Command

def beforeDashes (args : List String) : List String := args.takeWhile (· ≠ "--")

def behindDashes (args : List String) : List String := (args.dropWhile (· ≠ "--")).drop 1

def quietFlags (args : List String) : List String := (beforeDashes args).filter isQuiet

def paths (args : List String) : List String :=
  (beforeDashes args).filter isPath ++ behindDashes args

/-- The arguments ask to read one file, with the quiet flag or without it. -/
structure Asks (args : List String) (request : Request) : Prop where
  known : ∀ arg ∈ beforeDashes args, isQuiet arg ∨ isPath arg
  quiet : (quietFlags args).length = if request.quiet then 1 else 0
  path : paths args = [request.path]
  nonempty : request.path ≠ ""

/-- None of the arguments asks for help or is out of place. There may be no path yet. -/
structure Fitting (args : List String) : Prop where
  known : ∀ arg ∈ beforeDashes args, isQuiet arg ∨ isPath arg
  quiet : (quietFlags args).length ≤ 1
  path : (paths args).length ≤ 1
  nonempty : "" ∉ paths args

def HelpFirst (args : List String) : Prop :=
  ∃ earlier arg later, args = earlier ++ arg :: later ∧ "--" ∉ earlier ∧ Fitting earlier ∧
    AsksHelp (decide (quietFlags earlier ≠ [])) arg

section

variable {arg : String} {args : List String}

lemma beforeDashes_cons (h : arg ≠ "--") : beforeDashes (arg :: args) = arg :: beforeDashes args :=
  List.takeWhile_cons_of_pos (by simpa using h)

lemma behindDashes_cons (h : arg ≠ "--") : behindDashes (arg :: args) = behindDashes args := by
  rw [behindDashes, List.dropWhile_cons_of_pos (by simpa using h), behindDashes]

lemma beforeDashes_dashes : beforeDashes ("--" :: args) = [] :=
  List.takeWhile_cons_of_neg (by simp)

lemma behindDashes_dashes : behindDashes ("--" :: args) = args := by
  rw [behindDashes, List.dropWhile_cons_of_neg (by simp), List.drop_one, List.tail_cons]

lemma quietFlags_cons_of_isPath (h : isPath arg = true) :
    quietFlags (arg :: args) = quietFlags args := by
  rw [quietFlags, beforeDashes_cons (ne_dashes_of_isPath h),
    List.filter_cons_of_neg (by simp [isQuiet_of_isPath h]), quietFlags]

lemma quietFlags_cons_of_isQuiet (h : isQuiet arg = true) :
    quietFlags (arg :: args) = arg :: quietFlags args := by
  rw [quietFlags, beforeDashes_cons (ne_dashes_of_isQuiet h), List.filter_cons_of_pos h, quietFlags]

lemma paths_cons_of_isPath (h : isPath arg = true) : paths (arg :: args) = arg :: paths args := by
  rw [paths, beforeDashes_cons (ne_dashes_of_isPath h), behindDashes_cons (ne_dashes_of_isPath h),
    List.filter_cons_of_pos h, List.cons_append, paths]

lemma paths_cons_of_isQuiet (h : isQuiet arg = true) : paths (arg :: args) = paths args := by
  rw [paths, beforeDashes_cons (ne_dashes_of_isQuiet h), behindDashes_cons (ne_dashes_of_isQuiet h),
    List.filter_cons_of_neg (by simp [isPath_of_isQuiet h]), paths]

end

namespace Draft

variable {d e : Draft} {arg path : String} {args : List String}

structure Takes (d : Draft) (args : List String) (e : Draft) : Prop where
  known : ∀ arg ∈ beforeDashes args, isQuiet arg ∨ isPath arg
  quiet : d.quiet.toNat + (quietFlags args).length = e.quiet.toNat
  path : d.path.toList ++ paths args = e.path.toList
  nonempty : "" ∉ paths args
  dashes : e.onlyPaths = true ↔ "--" ∈ args

lemma eq_iff_parts : d = e ↔ d.quiet.toNat = e.quiet.toNat ∧ d.path.toList = e.path.toList ∧
    d.onlyPaths = e.onlyPaths := by
  constructor
  · rintro rfl
    exact ⟨rfl, rfl, rfl⟩
  · obtain ⟨dquiet, dpath, donly⟩ := d
    obtain ⟨equiet, epath, eonly⟩ := e
    cases dquiet <;> cases equiet <;> cases dpath <;> cases epath <;> simp

lemma toList_append_cons {p q : Option String} :
    p.toList ++ path :: args = q.toList ↔ p = none ∧ args = [] ∧ q = some path := by
  cases p <;> cases q <;> simp [eq_comm, and_comm]

lemma takes_nil (hd : d.onlyPaths = false) : d.Takes [] e ↔ e = d := by
  rw [@eq_comm _ e, eq_iff_parts]
  constructor
  · rintro ⟨-, hquiet, hpath, -, hdashes⟩
    refine ⟨hquiet, by simpa [paths, beforeDashes, behindDashes] using hpath, ?_⟩
    rw [hd, eq_comm, Bool.eq_false_iff]
    exact fun honly => List.not_mem_nil (hdashes.mp honly)
  · rintro ⟨hquiet, hpath, honly⟩
    refine ⟨by simp [beforeDashes], hquiet, ?_, ?_, ?_⟩
    · simpa [paths, beforeDashes, behindDashes] using hpath
    · simp [paths, beforeDashes, behindDashes]
    · simp [← honly, hd]

lemma takes_dashes : d.Takes ("--" :: args) e ↔ e.onlyPaths = true ∧
    d.quiet.toNat = e.quiet.toNat ∧ d.path.toList ++ args = e.path.toList ∧ "" ∉ args := by
  constructor
  · rintro ⟨-, hquiet, hpath, hempty, hdashes⟩
    rw [quietFlags, beforeDashes_dashes] at hquiet
    rw [paths, beforeDashes_dashes, behindDashes_dashes] at hpath hempty
    exact ⟨hdashes.mpr List.mem_cons_self, hquiet, hpath, hempty⟩
  · rintro ⟨honly, hquiet, hpath, hempty⟩
    refine ⟨by simp [beforeDashes_dashes], ?_, ?_, ?_, by simpa using honly⟩
    · rwa [quietFlags, beforeDashes_dashes]
    · rwa [paths, beforeDashes_dashes, behindDashes_dashes]
    · rwa [paths, beforeDashes_dashes, behindDashes_dashes]

lemma takes_cons_of_isPath (h : isPath arg = true) : d.Takes (arg :: args) e ↔
    d.path = none ∧ arg ≠ "" ∧ Takes { d with path := some arg } args e := by
  have hdashes : "--" ∈ arg :: args ↔ "--" ∈ args := by
    simp [(ne_dashes_of_isPath h).symm]
  constructor
  · rintro ⟨hknown, hquiet, hpath, hempty, honly⟩
    rw [beforeDashes_cons (ne_dashes_of_isPath h)] at hknown
    rw [quietFlags_cons_of_isPath h] at hquiet
    rw [paths_cons_of_isPath h] at hpath hempty
    obtain ⟨hd, hargs, he⟩ := toList_append_cons.mp hpath
    obtain ⟨hne, hempty⟩ := not_or.mp (mt List.mem_cons.mpr hempty)
    rw [hd] at hpath
    exact ⟨hd, Ne.symm hne, (List.forall_mem_cons.mp hknown).2, hquiet, hpath, hempty,
      honly.trans hdashes⟩
  · rintro ⟨hd, hne, hknown, hquiet, hpath, hempty, honly⟩
    refine ⟨?_, ?_, ?_, ?_, honly.trans hdashes.symm⟩
    · rw [beforeDashes_cons (ne_dashes_of_isPath h)]
      exact List.forall_mem_cons.mpr ⟨Or.inr h, hknown⟩
    · rw [quietFlags_cons_of_isPath h]
      exact hquiet
    · rw [paths_cons_of_isPath h, hd]
      exact hpath
    · rw [paths_cons_of_isPath h]
      exact fun hmem => (List.mem_cons.mp hmem).elim (Ne.symm hne) hempty

lemma takes_cons_of_isQuiet (h : isQuiet arg = true) : d.Takes (arg :: args) e ↔
    d.quiet = false ∧ Takes { d with quiet := true } args e := by
  have hdashes : "--" ∈ arg :: args ↔ "--" ∈ args := by
    simp [(ne_dashes_of_isQuiet h).symm]
  constructor
  · rintro ⟨hknown, hquiet, hpath, hempty, honly⟩
    rw [beforeDashes_cons (ne_dashes_of_isQuiet h)] at hknown
    rw [quietFlags_cons_of_isQuiet h, List.length_cons] at hquiet
    rw [paths_cons_of_isQuiet h] at hpath hempty
    have hd : d.quiet = false := by
      have he := Bool.toNat_le e.quiet
      rw [← Bool.toNat_eq_zero]
      omega
    rw [hd, Bool.toNat_false] at hquiet
    refine ⟨hd, (List.forall_mem_cons.mp hknown).2, ?_, hpath, hempty, honly.trans hdashes⟩
    rw [← hquiet, Bool.toNat_true]
    omega
  · rintro ⟨hd, hknown, hquiet, hpath, hempty, honly⟩
    refine ⟨?_, ?_, ?_, ?_, honly.trans hdashes.symm⟩
    · rw [beforeDashes_cons (ne_dashes_of_isQuiet h)]
      exact List.forall_mem_cons.mpr ⟨Or.inl h, hknown⟩
    · rw [quietFlags_cons_of_isQuiet h, List.length_cons, hd, ← hquiet, Bool.toNat_true,
        Bool.toNat_false]
      omega
    · rwa [paths_cons_of_isQuiet h]
    · rwa [paths_cons_of_isQuiet h]

lemma takes_empty_iff : Takes .empty args e ↔
    (∀ arg ∈ beforeDashes args, isQuiet arg ∨ isPath arg) ∧
      (quietFlags args).length = e.quiet.toNat ∧ paths args = e.path.toList ∧ "" ∉ paths args ∧
        (e.onlyPaths = true ↔ "--" ∈ args) := by
  constructor
  · rintro ⟨hknown, hquiet, hpath, hempty, hdashes⟩
    exact ⟨hknown, (Nat.zero_add _).symm.trans hquiet, hpath, hempty, hdashes⟩
  · rintro ⟨hknown, hquiet, hpath, hempty, hdashes⟩
    exact ⟨hknown, (Nat.zero_add _).trans hquiet, hpath, hempty, hdashes⟩

end Draft

open Draft

namespace ArgumentParser

variable {p : ArgumentParser} {d e : Draft} {arg : String} {args : List String}
  {request : Request} {o : Outcome}

lemma foldlM_of_onlyPaths (h : p.Documented) (hd : d.onlyPaths = true) :
    args.foldlM p.take d = .ok e ↔ e.onlyPaths = true ∧ d.quiet.toNat = e.quiet.toNat ∧
      d.path.toList ++ args = e.path.toList ∧ "" ∉ args := by
  induction args generalizing d with
  | nil =>
    change Except.ok d = Except.ok e ↔ _
    rw [Except.ok.injEq, eq_iff_parts, hd, List.append_nil]
    exact ⟨fun ⟨hquiet, hpath, honly⟩ => ⟨honly.symm, hquiet, hpath, List.not_mem_nil⟩,
      fun ⟨honly, hquiet, hpath, _⟩ => ⟨hquiet, hpath, honly.symm⟩⟩
  | cons arg args ih =>
    rw [List.foldlM_cons, bind_eq_ok_iff]
    simp only [take_eq_ok_iff h, hd, Bool.true_eq_false, false_and, true_or, true_and, false_or,
      or_false, List.mem_cons, not_or]
    constructor
    · rintro ⟨_, ⟨hpath, hne, rfl⟩, hargs⟩
      obtain ⟨honly, hquiet, hpaths, hempty⟩ := (ih rfl).mp hargs
      rw [hpath]
      exact ⟨honly, hquiet, hpaths, Ne.symm hne, hempty⟩
    · rintro ⟨honly, hquiet, hpaths, hne, hempty⟩
      obtain ⟨hpath, -, -⟩ := toList_append_cons.mp hpaths
      rw [hpath] at hpaths
      exact ⟨_, ⟨hpath, Ne.symm hne, rfl⟩, (ih rfl).mpr ⟨honly, hquiet, hpaths, hempty⟩⟩

lemma takes_cons (h : p.Documented) (hd : d.onlyPaths = false) (ha : arg ≠ "--") :
    d.Takes (arg :: args) e ↔
      ∃ d', p.take d arg = .ok d' ∧ d'.onlyPaths = false ∧ d'.Takes args e := by
  simp only [take_eq_ok_iff h, hd, ha, Bool.false_eq_true, false_or, false_and, true_and]
  cases hp : isPath arg with
  | true => simp [takes_cons_of_isPath hp, isQuiet_of_isPath hp, and_assoc, hd]
  | false =>
    cases hq : isQuiet arg with
    | true => simp [takes_cons_of_isQuiet hq, and_assoc, hd]
    | false =>
      have hunknown : ¬d.Takes (arg :: args) e := by
        intro ht
        have hknown := ht.known
        rw [beforeDashes_cons ha] at hknown
        simpa [hp, hq] using (List.forall_mem_cons.mp hknown).1
      simp [hunknown]

lemma foldlM_eq_ok_iff (h : p.Documented) (hd : d.onlyPaths = false) :
    args.foldlM p.take d = .ok e ↔ d.Takes args e := by
  induction args generalizing d with
  | nil =>
    change Except.ok d = Except.ok e ↔ _
    rw [takes_nil hd, Except.ok.injEq, eq_comm]
  | cons arg args ih =>
    rw [List.foldlM_cons]
    by_cases ha : arg = "--"
    · rw [ha, h.dashes d hd, takes_dashes]
      exact foldlM_of_onlyPaths h rfl
    · rw [bind_eq_ok_iff, takes_cons h hd ha]
      refine exists_congr fun d' => and_congr_right fun hd' => ?_
      have honly : d'.onlyPaths = false := by
        rcases (take_eq_ok_iff h).mp hd' with ⟨-, hdashes, -⟩ | ⟨-, -, -, rfl⟩ | ⟨-, -, -, rfl⟩
        · exact absurd hdashes ha
        · exact hd
        · exact hd
      rw [ih honly, and_iff_right honly]

lemma foldlM_eq_ok_iff_empty (h : p.Documented) : args.foldlM p.take .empty = .ok e ↔
    (∀ arg ∈ beforeDashes args, isQuiet arg ∨ isPath arg) ∧
      (quietFlags args).length = e.quiet.toNat ∧ paths args = e.path.toList ∧ "" ∉ paths args ∧
        (e.onlyPaths = true ↔ "--" ∈ args) := by
  rw [foldlM_eq_ok_iff h rfl, takes_empty_iff]

lemma finish_eq_ok_iff (h : p.Documented) :
    p.finish d = .ok request ↔ d.quiet = request.quiet ∧ d.path = some request.path := by
  cases hpath : d.path with
  | none =>
    obtain ⟨o, ho, -⟩ := h.missing d hpath
    simp [ho]
  | some path =>
    rw [h.complete d path hpath]
    obtain ⟨p, q⟩ := request
    simp [and_comm]

lemma parse_eq_ok_iff (h : p.Documented) : p.parse args = .ok request ↔ Asks args request := by
  rw [h.inOrder, bind_eq_ok_iff]
  simp only [finish_eq_ok_iff h, foldlM_eq_ok_iff_empty h]
  have hflag : request.quiet.toNat = if request.quiet then 1 else 0 := by
    cases request.quiet <;> rfl
  constructor
  · rintro ⟨e, ⟨hknown, hquiet, hpath, hempty, -⟩, hequiet, hepath⟩
    rw [hequiet] at hquiet
    rw [hepath] at hpath
    refine ⟨hknown, hquiet.trans hflag, hpath, fun hr => ?_⟩
    rw [hpath, hr] at hempty
    exact hempty List.mem_cons_self
  · rintro ⟨hknown, hquiet, hpath, hne⟩
    refine ⟨⟨request.quiet, some request.path, decide ("--" ∈ args)⟩,
      ⟨hknown, hquiet.trans hflag.symm, hpath, ?_, by simp⟩, rfl, rfl⟩
    rw [hpath]
    simpa using Ne.symm hne

lemma fitting_iff (h : p.Documented) :
    Fitting args ↔ ∃ e, args.foldlM p.take .empty = .ok e := by
  simp only [foldlM_eq_ok_iff_empty h]
  constructor
  · rintro ⟨hknown, hquiet, hpath, hempty⟩
    have hflag : ∃ b : Bool, (quietFlags args).length = b.toNat := by
      interval_cases h : (quietFlags args).length
      · exact ⟨false, rfl⟩
      · exact ⟨true, rfl⟩
    have hgiven : ∃ p : Option String, paths args = p.toList := by
      interval_cases h : (paths args).length
      · exact ⟨none, List.length_eq_zero_iff.mp h⟩
      · obtain ⟨p, hp⟩ := List.length_eq_one_iff.mp h
        exact ⟨some p, hp⟩
    obtain ⟨b, hb⟩ := hflag
    obtain ⟨p, hp⟩ := hgiven
    exact ⟨⟨b, p, decide ("--" ∈ args)⟩, hknown, hb, hp, hempty, by simp⟩
  · rintro ⟨e, hknown, hquiet, hpath, hempty, -⟩
    refine ⟨hknown, ?_, ?_, hempty⟩
    · rw [hquiet]
      exact Bool.toNat_le _
    · rw [hpath]
      exact Option.length_toList_le

lemma quiet_of_foldlM (h : p.Documented) (he : args.foldlM p.take .empty = .ok e) :
    e.quiet = decide (quietFlags args ≠ []) := by
  obtain ⟨-, hquiet, -, -, -⟩ := (foldlM_eq_ok_iff_empty h).mp he
  cases hq : e.quiet with
  | false =>
    rw [hq, Bool.toNat_false, List.length_eq_zero_iff] at hquiet
    simp [hquiet]
  | true =>
    rw [hq, Bool.toNat_true, List.length_eq_one_iff] at hquiet
    obtain ⟨flag, hflag⟩ := hquiet
    simp [hflag]

lemma onlyPaths_of_foldlM (h : p.Documented)
    (he : args.foldlM p.take .empty = .ok e) :
    e.onlyPaths = false ↔ "--" ∉ args := by
  obtain ⟨-, -, -, -, hdashes⟩ := (foldlM_eq_ok_iff_empty h).mp he
  rw [← Bool.not_eq_true, hdashes]

lemma parse_of_helpFirst (h : p.Documented) (ha : HelpFirst args) :
    Helps p.help (p.parse args) := by
  obtain ⟨earlier, arg, later, rfl, hdashes, hfit, hask⟩ := ha
  obtain ⟨d, hd⟩ := (fitting_iff h).mp hfit
  rw [← quiet_of_foldlM h hd] at hask
  obtain ⟨o, ho, hhelp⟩ := take_of_asksHelp h ((onlyPaths_of_foldlM h hd).mpr hdashes) hask
  refine ⟨o, ?_, hhelp⟩
  rw [h.inOrder]
  exact bind_eq_error_iff.mpr (Or.inl (foldlM_eq_error_iff.mpr ⟨_, _, _, _, rfl, hd, ho⟩))

lemma parse_error_cases (h : p.Documented) (ho : p.parse args = .error o) :
    HelpFirst args ∨ o.exitCode = 2 ∧ o.output = "" := by
  rw [h.inOrder] at ho
  rcases bind_eq_error_iff.mp ho with ho | ⟨d, -, ho⟩
  · obtain ⟨earlier, arg, later, d, rfl, hd, ho⟩ := foldlM_eq_error_iff.mp ho
    rcases take_error_cases h ho with ⟨honly, hask⟩ | hcomplaint
    · rw [quiet_of_foldlM h hd] at hask
      have hdashes := (onlyPaths_of_foldlM h hd).mp honly
      exact Or.inl ⟨earlier, arg, later, rfl, hdashes, (fitting_iff h).mpr ⟨d, hd⟩, hask⟩
    · exact Or.inr hcomplaint
  · cases hpath : d.path with
    | none =>
      have hx := h.missing d hpath
      rw [ho] at hx
      exact Or.inr (complains_error_iff.mp hx)
    | some path =>
      rw [h.complete d path hpath] at ho
      cases ho

lemma parse_append (h : p.Documented) (ha : ¬Fitting args) (more : List String) :
    ∃ o, p.parse args = .error o ∧ p.parse (args ++ more) = .error o := by
  cases hargs : args.foldlM p.take .empty with
  | ok e => exact absurd ((fitting_iff h).mpr ⟨e, hargs⟩) ha
  | error o =>
    refine ⟨o, ?_, ?_⟩
    · rw [h.inOrder, hargs]
      rfl
    · rw [h.inOrder, List.foldlM_append, hargs]
      rfl

end ArgumentParser

def noted (read : String → Except ReadError ByteArray) (path : String) :
    StateM (List String) (Except ReadError ByteArray) := do
  modify (· ++ [path])
  return read path

def filesRead (parse : List String → Except Outcome Request)
    (read : String → Except ReadError ByteArray) (args : List String) : List String :=
  ((runIn parse (noted read) args).run []).2

section

variable {parse : List String → Except Outcome Request} {args : List String} {request : Request}
  {o : Outcome} (read : String → Except ReadError ByteArray)

lemma runWith_of_request (h : parse args = .ok request) :
    runWith parse read args = request.outcome (read request.path) ∧
      filesRead parse read args = [request.path] := by
  refine ⟨runWith_of_accepted h, ?_⟩
  rw [filesRead, runIn, h]
  rfl

lemma runWith_of_error (h : parse args = .error o) :
    runWith parse read args = o ∧ filesRead parse read args = [] := by
  rw [runWith, filesRead, runIn, runIn, h]
  exact ⟨rfl, rfl⟩

lemma note_of_empty (request : Request) : (request.outcome (.ok "".toByteArray)).note =
    if request.quiet then .silent else .timing := by
  have hempty : tokenize "" = .ok [] := by
    decide +kernel
  rw [outcome_of_ok request hempty, Request.tokensOutcome]
  split_ifs <;> rfl

/-- The path that is read and the output for an empty file tell requests apart. -/
lemma request_of_run {other : Request} (h : parse args = .ok other)
    (hrun : ∀ read, runWith parse read args = request.outcome (read request.path) ∧
      filesRead parse read args = [request.path]) : other = request := by
  obtain ⟨hout, hfiles⟩ := runWith_of_request (fun _ => .ok "".toByteArray) h
  obtain ⟨hout', hfiles'⟩ := hrun fun _ => .ok "".toByteArray
  have hpath : other.path = request.path := List.singleton_inj.mp (hfiles.symm.trans hfiles')
  have hnote := congrArg Outcome.note (hout.symm.trans hout')
  rw [note_of_empty, note_of_empty] at hnote
  have hquiet : other.quiet = request.quiet := by
    cases ho : other.quiet <;> cases hr : request.quiet <;> simp [ho, hr] at hnote ⊢
  cases other
  cases request
  exact congr (congrArg Request.mk hpath) hquiet

end

structure Answers (p : ArgumentParser) (args : List String) : Prop where
  reads : ∀ request, (∀ read, runWith p.parse read args = request.outcome (read request.path) ∧
    filesRead p.parse read args = [request.path]) ↔ Asks args request
  refuses : (∀ request, ¬Asks args request) → ∀ read, filesRead p.parse read args = [] ∧
    (HelpFirst args → (runWith p.parse read args).exitCode = 0 ∧
      (runWith p.parse read args).output = p.help) ∧
    (¬HelpFirst args → (runWith p.parse read args).exitCode = 2 ∧
      (runWith p.parse read args).output = "")
  decided : ¬Fitting args → ∀ more read,
    runWith p.parse read (args ++ more) = runWith p.parse read args ∧
      filesRead p.parse read (args ++ more) = []

theorem arguments_answered {p : ArgumentParser} (h : p.Documented) (args : List String) :
    Answers p args where
  reads request := by
    refine ⟨fun hrun => ?_,
      fun ha read => runWith_of_request read ((ArgumentParser.parse_eq_ok_iff h).mpr ha)⟩
    cases hargs : p.parse args with
    | ok other => exact (ArgumentParser.parse_eq_ok_iff h).mp (request_of_run hargs hrun ▸ hargs)
    | error o =>
      obtain ⟨-, hfiles⟩ := hrun fun _ => .error .notFound
      rw [(runWith_of_error _ hargs).2] at hfiles
      cases hfiles
  refuses ha read := by
    cases hargs : p.parse args with
    | ok request => exact absurd ((ArgumentParser.parse_eq_ok_iff h).mp hargs) (ha request)
    | error o =>
      obtain ⟨hrun, hfiles⟩ := runWith_of_error read hargs
      rw [hrun]
      refine ⟨hfiles, fun hhelp => ?_, (ArgumentParser.parse_error_cases h hargs).resolve_left⟩
      have hx := ArgumentParser.parse_of_helpFirst h hhelp
      rw [hargs] at hx
      exact helps_error_iff.mp hx
  decided ha more read := by
    obtain ⟨o, hargs, hmore⟩ := ArgumentParser.parse_append h ha more
    obtain ⟨hrun, -⟩ := runWith_of_error read hargs
    obtain ⟨hrun', hfiles'⟩ := runWith_of_error read hmore
    exact ⟨hrun'.trans hrun.symm, hfiles'⟩

theorem answers_of_dashes_and_of_letters : draftParser.Documented ∧
    (Answers draftParser ["-q", "--", "-x"] ∧ Asks ["-q", "--", "-x"] ⟨"-x", true⟩ ∧
      draftParser.parse ["-q", "--", "-x"] = .ok ⟨"-x", true⟩) ∧
    (Answers draftParser ["a.l", "-qh", "b.l"] ∧ HelpFirst ["a.l", "-qh", "b.l"] ∧
      draftParser.parse ["a.l", "-qh", "b.l"] = .error ⟨0, helpText, .silent⟩) ∧
    Answers draftParser ["a.l", "-q", "-qh"] ∧ ¬Fitting ["a.l", "-q", "-qh"] ∧
      draftParser.parse ["a.l", "-q", "-qh"] =
        .error ⟨2, "", .message "error: the argument '-q' cannot be used multiple times"⟩ := by
  have hrules := draftParser_documented
  have hasks : draftParser.parse ["-q", "--", "-x"] = .ok ⟨"-x", true⟩ := by decide +kernel
  have hfit : Fitting ["a.l"] :=
    (ArgumentParser.fitting_iff hrules).mpr ⟨⟨false, "a.l", false⟩, rfl⟩
  have hhelp : AsksHelp (decide (quietFlags ["a.l"] ≠ [])) "-qh" :=
    Or.inr ⟨['q', 'h'], by simp, Or.inr ⟨by decide +kernel, [], rfl⟩⟩
  have htwice : ¬Fitting ["a.l", "-q", "-qh"] := by
    intro hf
    obtain ⟨e, he⟩ := (ArgumentParser.fitting_iff hrules).mp hf
    cases he
  exact ⟨hrules,
    ⟨arguments_answered hrules _, (ArgumentParser.parse_eq_ok_iff hrules).mp hasks, hasks⟩,
    ⟨arguments_answered hrules _, ⟨["a.l"], "-qh", ["b.l"], rfl, by simp, hfit, hhelp⟩,
      by decide +kernel⟩,
    arguments_answered hrules _, htwice, by decide +kernel⟩

end LCode.Command
