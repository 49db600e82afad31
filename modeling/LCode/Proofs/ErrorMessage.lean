import LCode.LexicalError
import LCode.Proofs.RenderedToken

/-! What stands between quotes can be read back, so it is clear where a quoted token ends. -/

namespace LCode

open Lexeme Text

namespace Text

/-- Whether a character has the general category Cc. -/
def isControl (c : Char) : Bool := c.toNat < 0x20 || 0x7f ≤ c.toNat && c.toNat < 0xa0

def hexValue (c : Char) : ℕ :=
  if c.isDigit then c.toNat - '0'.toNat else c.toNat - 'a'.toNat + 10

def named? : Char → Option Char
  | '0' => some '\x00'
  | 't' => some '\t'
  | 'r' => some '\r'
  | 'n' => some '\n'
  | '"' => some '"'
  | '\\' => some '\\'
  | _ => none

/-- Reads one character behind an opening quote, and leaves what follows it. A quote that is not
escaped is the closing one. -/
def unescape? : List Char → Option (Char × List Char)
  | [] => none
  | '"' :: _ => none
  | '\\' :: 'u' :: '\x7b' :: cs =>
    let value := (cs.takeWhile (· ≠ '\x7d')).foldl (fun n d => 16 * n + hexValue d) 0
    some (Char.ofNat value, (cs.dropWhile (· ≠ '\x7d')).tail)
  | '\\' :: letter :: cs => (named? letter).map fun c => (c, cs)
  | c :: cs => some (c, cs)

lemma hexValue_digitChar {d : ℕ} (h : d < 16) : hexValue d.digitChar = d := by
  interval_cases d <;> rfl

lemma exists_digitChar_of_mem_toDigits {n : ℕ} {c : Char} (h : c ∈ Nat.toDigits 16 n) :
    ∃ d < 16, c = d.digitChar := by
  induction n using Nat.strongRecOn with
  | ind n ih =>
    rw [Nat.toDigits_eq_if (by decide)] at h
    split_ifs at h with hn
    · exact ⟨n, hn, List.mem_singleton.mp h⟩
    · rcases List.mem_append.mp h with h | h
      · exact ih (n / 16) (by omega) h
      · exact ⟨n % 16, Nat.mod_lt n (by decide), List.mem_singleton.mp h⟩

lemma foldl_hexValue_toDigits (n : ℕ) :
    (Nat.toDigits 16 n).foldl (fun m d => 16 * m + hexValue d) 0 = n := by
  induction n using Nat.strongRecOn with
  | ind n ih =>
    rw [Nat.toDigits_eq_if (by decide)]
    split_ifs with hn
    · simp [hexValue_digitChar hn]
    · rw [List.foldl_append, ih (n / 16) (by omega), List.foldl_cons, List.foldl_nil,
        hexValue_digitChar (Nat.mod_lt n (by decide)), Nat.div_add_mod]

lemma unescape?_codePointEscape (c : Char) (rest : List Char) :
    unescape? (codePointEscape c ++ rest) = some (c, rest) := by
  have hdigits : ∀ d ∈ Nat.toDigits 16 c.toNat, decide (d ≠ '\x7d') = true := by
    intro d hd
    obtain ⟨n, hn, rfl⟩ := exists_digitChar_of_mem_toDigits hd
    interval_cases n <;> rfl
  simp only [codePointEscape, List.append_assoc, List.cons_append, List.nil_append, unescape?]
  rw [List.takeWhile_append_of_pos hdigits, List.dropWhile_append_of_pos hdigits]
  simp [foldl_hexValue_toDigits]

lemma unescape?_quote (cs : List Char) : unescape? ('"' :: cs) = none := rfl

lemma unescape?_escape (c : Char) (rest : List Char) :
    unescape? (escape c ++ rest) = some (c, rest) := by
  rw [escape]
  split_ifs with hnull htab hreturn hfeed hquote hbackslash hhidden
  · rw [hnull]
    rfl
  · rw [htab]
    rfl
  · rw [hreturn]
    rfl
  · rw [hfeed]
    rfl
  · rw [hquote]
    rfl
  · rw [hbackslash]
    rfl
  · exact unescape?_codePointEscape c rest
  · simp [unescape?, hbackslash]

variable {s t xs ys : List Char}

lemma flatMap_escape_append_inj
    (h : s.flatMap escape ++ '"' :: xs = t.flatMap escape ++ '"' :: ys) : s = t ∧ xs = ys := by
  induction s generalizing t with
  | nil =>
    cases t with
    | nil => exact ⟨rfl, (List.cons.inj h).2⟩
    | cons d t =>
      have hread := congrArg unescape? h
      rw [List.flatMap_cons, List.append_assoc, unescape?_escape, List.flatMap_nil,
        List.nil_append, unescape?_quote] at hread
      cases hread
  | cons c s ih =>
    rw [List.flatMap_cons, List.append_assoc] at h
    have hread := congrArg unescape? h
    cases t with
    | nil =>
      rw [unescape?_escape, List.flatMap_nil, List.nil_append, unescape?_quote] at hread
      cases hread
    | cons d t =>
      rw [List.flatMap_cons, List.append_assoc, unescape?_escape, unescape?_escape,
        Option.some_inj, Prod.mk.injEq] at hread
      obtain ⟨rfl, hrest⟩ := hread
      obtain ⟨rfl, hxs⟩ := ih hrest
      exact ⟨rfl, hxs⟩

lemma quoted_append_inj {a b : String} (h : (quoted a).toList ++ xs = (quoted b).toList ++ ys) :
    a = b ∧ xs = ys := by
  simp only [quoted, String.toList_ofList, List.cons_append, List.append_assoc,
    List.nil_append] at h
  obtain ⟨htext, hxs⟩ := flatMap_escape_append_inj (List.cons.inj h).2
  exact ⟨String.toList_inj.mp htext, hxs⟩

lemma not_isControl_of_not_isHidden {c : Char} (h : ¬isHidden c = true) : isControl c = false := by
  by_contra hc
  rw [Bool.not_eq_false, isControl, Bool.or_eq_true, Bool.and_eq_true, decide_eq_true_eq,
    decide_eq_true_eq, decide_eq_true_eq] at hc
  exact h (isHidden_of_control hc)

lemma not_isControl_codePointEscape (c : Char) : ∀ d ∈ codePointEscape c, isControl d = false := by
  have hdigits : ∀ d ∈ Nat.toDigits 16 c.toNat, isControl d = false := by
    intro d hd
    obtain ⟨n, hn, rfl⟩ := exists_digitChar_of_mem_toDigits hd
    interval_cases n <;> rfl
  rw [codePointEscape, List.forall_mem_append, List.forall_mem_append]
  exact ⟨⟨by simp [isControl], hdigits⟩, by simp [isControl]⟩

lemma not_isControl_escape (c : Char) : ∀ d ∈ escape c, isControl d = false := by
  rw [escape]
  split_ifs with hnull htab hreturn hfeed hquote hbackslash hhidden
  · simp [isControl]
  · simp [isControl]
  · simp [isControl]
  · simp [isControl]
  · simp [isControl]
  · simp [isControl]
  · exact not_isControl_codePointEscape c
  · exact List.forall_mem_singleton.mpr (not_isControl_of_not_isHidden hhidden)

lemma not_isControl_quoted (text : String) : ∀ d ∈ (quoted text).toList, isControl d = false := by
  rw [quoted, String.toList_ofList, List.forall_mem_cons, List.forall_mem_append]
  refine ⟨by simp [isControl], fun d hd => ?_, by simp [isControl]⟩
  obtain ⟨c, -, hc⟩ := List.mem_flatMap.mp hd
  exact not_isControl_escape c d hc

lemma not_isControl_toDigits (n : ℕ) : ∀ d ∈ Nat.toDigits 10 n, isControl d = false := by
  intro d hd
  obtain ⟨hge, hle⟩ := Char.isDigit_iff_toNat.mp (isDigit_of_mem_toDigits d hd)
  have hzero : '0'.toNat = 48 := rfl
  have hnine : '9'.toNat = 57 := rfl
  simp only [isControl, Bool.or_eq_false_iff, Bool.and_eq_false_iff, decide_eq_false_iff_not]
  omega

end Text

namespace Cause

variable {a b : Cause} {xs ys : List Char}

def opening : Cause → String
  | unrecognisedToken _ => "unrecognised token: "
  | malformedNumber _ => "malformed number: "

lemma reason_eq (a : Cause) : a.reason = a.opening ++ quoted a.token := by
  cases a <;> rfl

lemma reason_append_inj (h : a.reason.toList ++ xs = b.reason.toList ++ ys) : a = b ∧ xs = ys := by
  rw [reason_eq, reason_eq, String.toList_append, String.toList_append, List.append_assoc,
    List.append_assoc] at h
  cases a with
  | unrecognisedToken s =>
    cases b with
    | unrecognisedToken t =>
      obtain ⟨htoken, hxs⟩ := quoted_append_inj (List.append_cancel_left h)
      exact ⟨congrArg unrecognisedToken htoken, hxs⟩
    | malformedNumber t => simp [opening] at h
  | malformedNumber s =>
    cases b with
    | unrecognisedToken t => simp [opening] at h
    | malformedNumber t =>
      obtain ⟨htoken, hxs⟩ := quoted_append_inj (List.append_cancel_left h)
      exact ⟨congrArg malformedNumber htoken, hxs⟩

lemma not_isControl_opening (a : Cause) : ∀ c ∈ a.opening.toList, isControl c = false := by
  cases a with
  | unrecognisedToken t => simp [opening, isControl]
  | malformedNumber t => simp [opening, isControl]

end Cause

lemma toDigits_inj {m n : ℕ} (h : Nat.toDigits 10 m = Nat.toDigits 10 n) : m = n := by
  rw [← digitsValue_toDigits m, h, digitsValue_toDigits]

namespace LexicalError

def placeText (p : Position) : List Char :=
  " at line ".toList ++
    (Nat.toDigits 10 p.line ++ ',' :: (" column ".toList ++ Nat.toDigits 10 p.column))

lemma toList_message (e : LexicalError) :
    e.message.toList = e.cause.reason.toList ++ placeText e.position := by
  have hcolumn : ", column ".toList = ',' :: " column ".toList := by simp
  unfold message placeText
  simp only [String.toList_append, Nat.toString_eq_repr, Nat.toList_repr, List.append_assoc,
    hcolumn, List.cons_append]

lemma placeText_inj {p q : Position} (h : placeText p = placeText q) : p = q := by
  have hcomma : ∀ n : ℕ, ',' ∉ Nat.toDigits 10 n := fun n hn => by
    cases isDigit_of_mem_toDigits _ hn
  have hplace := List.append_cancel_left h
  obtain ⟨hline, hcolumn⟩ := append_cons_inj_of_first (hcomma _) (hcomma _) hplace
  have hcolumn := List.append_cancel_left hcolumn
  cases p
  cases q
  exact congr (congrArg Position.mk (toDigits_inj hline)) (toDigits_inj hcolumn)

theorem message_identifies (e : LexicalError) :
    (∀ f : LexicalError, e.message = f.message ↔ e = f) ∧
      ∀ c ∈ e.message.toList, isControl c = false := by
  constructor
  · intro f
    refine ⟨fun h => ?_, congrArg message⟩
    rw [← String.toList_inj, e.toList_message, f.toList_message] at h
    -- the token may look like a place, but the reason shows where its closing quote is
    obtain ⟨hcause, hplace⟩ := Cause.reason_append_inj h
    cases e
    cases f
    exact congr (congrArg LexicalError.mk hcause) (placeText_inj hplace)
  · rw [e.toList_message, e.cause.reason_eq, String.toList_append]
    unfold placeText
    simp only [List.forall_mem_append, List.forall_mem_cons]
    exact ⟨⟨e.cause.not_isControl_opening, not_isControl_quoted _⟩, by simp [isControl],
      not_isControl_toDigits _, rfl, by simp [isControl], not_isControl_toDigits _⟩

-- an escaped quote does not close the text
example : quoted "\"\x7f\\" = "\"\\\"\\u\x7b7f\x7d\\\\\"" := by
  decide +kernel

end LexicalError

end LCode
