import LCode.Proofs.LineTiling
import LCode.Proofs.Separation

/-! Where no lexeme of the first part of a line goes on into the second part, the scan of the line
is the scan of the first part and then that of the second. -/

namespace LCode

open Lexeme

def Result.followedBy : Result → Result → Result
  | .error e, _ => .error e
  | .ok tokens, later => later.map (tokens ++ ·)

lemma Result.map_followedBy (first later : Result) (t : Token) :
    Result.followedBy (first.map (t :: ·)) later = (first.followedBy later).map (t :: ·) := by
  cases first with
  | error e => rfl
  | ok tokens => cases later <;> rfl

namespace Lexeme

lemma cls_ne_blank {x : Lexeme} (h : x.meaning ≠ .ok none) : x.cls ≠ .blank := by
  intro hb
  simp only [meaning, hb] at h
  exact h rfl

end Lexeme

variable {line column : Nat} {cs rest blanks : List Char} {result first later : Result}
  {tokens : List Token}

lemma exists_munched (line column : Nat) (cs : List Char) :
    ∃ result, Munched line column cs result :=
  ⟨_, Scan.munched_tokens ⟨⟨line, cs, 0, column⟩, cs⟩⟩

lemma Munched.unique (h : Munched line column cs first) (h' : Munched line column cs later) :
    first = later := by
  rw [← h.eq_tokens (s := ⟨⟨line, cs, 0, column⟩, cs⟩) rfl rfl rfl]
  exact h'.eq_tokens rfl rfl rfl

lemma munched_of_munch {x : Lexeme} {kind : TokenKind} (hx : Munch x.text x)
    (hm : x.meaning = .ok (some kind)) : Munched line column x.text
      (.ok [⟨kind, ⟨line, column, column + x.text.length⟩⟩]) := by
  have hx' : Munch (x.text ++ []) x := by rwa [List.append_nil]
  have h : Munched line column (x.text ++ [])
      (.ok [⟨kind, ⟨line, column, column + x.text.length⟩⟩]) :=
    .taken hx' hm .done
  rwa [List.append_nil] at h

lemma munched_blanks (hb : ∀ c ∈ blanks, isBlank c = true) (hr : ∀ c ∈ cs.head?, isBlank c = false)
    (h : Munched line (column + blanks.length) cs result) :
    Munched line column (blanks ++ cs) result := by
  by_cases hne : blanks = []
  · subst hne
    exact h
  · exact .skipped (x := ⟨.blank, blanks⟩) (munch_blank hne hb hr) rfl h

lemma Munched.blank (hb : ∀ c ∈ blanks, isBlank c = true)
    (h : Munched line (column + blanks.length) cs result) :
    Munched line column (blanks ++ cs) result := by
  have hmore : ∀ c ∈ cs.takeWhile isBlank, isBlank c = true := fun c hc => List.mem_takeWhile_imp hc
  have hr : ∀ c ∈ (cs.dropWhile isBlank).head?, isBlank c = false := by
    intro c hc
    have hnot := List.head?_dropWhile_not isBlank cs
    rw [Option.mem_def.mp hc] at hnot
    simpa using hnot
  obtain ⟨result', h'⟩ := exists_munched line
    (column + blanks.length + (cs.takeWhile isBlank).length) (cs.dropWhile isBlank)
  have hcs := munched_blanks hmore hr h'
  rw [List.takeWhile_append_dropWhile] at hcs
  obtain rfl := h.unique hcs
  -- a scan takes `blanks` and the blanks that `cs` begins with as one lexeme
  have hall : Munched line column (blanks ++ cs.takeWhile isBlank ++ cs.dropWhile isBlank) result :=
    munched_blanks (List.forall_mem_append.mpr ⟨hb, hmore⟩) hr (by
      rwa [List.length_append, ← Nat.add_assoc])
  rwa [List.append_assoc, List.takeWhile_append_dropWhile] at hall

theorem tiled_iff : Tiled line column cs tokens ↔ Munched line column cs (.ok tokens) := by
  constructor
  · intro h
    induction h with
    | done => exact .done
    | blank hb _ ih => exact ih.blank hb
    | token hx hm _ ih => exact .taken hx hm ih
  · exact fun h => h.tiled rfl

theorem Munched.append (h : Munched line column cs first) (ha : Apart cs rest)
    (hl : Munched line (column + cs.length) rest later) :
    Munched line column (cs ++ rest) (first.followedBy later) := by
  -- each lexeme of the first scan is the longest one in front of `rest` too, or is a blank
  induction h with
  | done =>
    have hn : Result.followedBy (.ok []) later = later := Scan.except_map_id
    rwa [hn]
  | @unrecognised column c cs hn =>
    have hc : isBlank c = false := by
      refine Bool.eq_false_iff.mpr fun hc => hn .blank [c] ?_ ⟨cs, rfl⟩
      exact Pattern.cons_mem_char_star hc (by simp)
    refine .unrecognised fun k y hy hp => ?_
    exact hn k y hy (ha _ List.suffix_rfl ⟨c, rfl, hc⟩ k y hy hp)
  | @meaningless column x later cause hx hm =>
    have hx' := hx.append (cls_ne_blank (by simp [hm])) ha
    rw [List.append_assoc] at hx' ⊢
    exact .meaningless hx' hm
  | @skipped column x later result hx hm _ ih =>
    rw [List.length_append, ← Nat.add_assoc] at hl
    rw [List.append_assoc]
    exact (ih ha.of_append hl).blank (hx.isBlank hm)
  | @taken column x later kind result hx hm _ ih =>
    have hx' := hx.append (cls_ne_blank (by simp [hm])) ha
    rw [List.length_append, ← Nat.add_assoc] at hl
    rw [List.append_assoc] at hx' ⊢
    rw [Result.map_followedBy]
    exact .taken hx' hm (ih ha.of_append hl)

end LCode
