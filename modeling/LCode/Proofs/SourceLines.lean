import LCode.Text.Lines
import Mathlib.Data.List.Forall2

namespace LCode.Text

def Stripped (raw line : List Char) : Prop :=
  raw = line ++ ['\r'] ∨ raw = line ∧ ¬['\r'] <:+ raw

def SplitInto (source : List Char) (texts : List (List Char)) : Prop :=
  ∃ raws : List (List Char), raws ≠ [] ∧ (∀ raw ∈ raws, '\n' ∉ raw) ∧
    ['\n'].intercalate raws = source ∧ List.Forall₂ Stripped raws texts

lemma stripped_iff {raw line : List Char} : Stripped raw line ↔ dropReturn raw = line := by
  constructor
  · rintro (rfl | ⟨rfl, h⟩)
    · exact dropReturn_append_return line
    · exact dropReturn_eq_self (mt List.singleton_suffix_iff_getLast?_eq_some.mpr h)
  · rintro rfl
    by_cases h : raw.getLast? = some '\r'
    · obtain ⟨ys, rfl⟩ := List.getLast?_eq_some_iff.mp h
      rw [dropReturn_append_return]
      exact Or.inl rfl
    · rw [dropReturn_eq_self h]
      exact Or.inr ⟨rfl, mt List.singleton_suffix_iff_getLast?_eq_some.mp h⟩

lemma dropReturn_isPrefix (raw : List Char) : dropReturn raw <+: raw := by
  rw [dropReturn]
  split
  · exact List.dropLast_prefix raw
  · exact List.prefix_rfl

lemma dropReturn_append {xs ys : List Char} (h : ys ≠ []) :
    dropReturn (xs ++ ys) = xs ++ dropReturn ys := by
  rw [dropReturn, dropReturn, List.getLast?_append_of_ne_nil _ h]
  split
  · rw [List.dropLast_append_of_ne_nil h]
  · rfl

lemma mem_splitOn_cons {c : Char} {source raw : List Char} (h : raw ∈ (c :: source).splitOn '\n') :
    raw = [] ∨ (∃ first ∈ source.splitOn '\n', c ≠ '\n' ∧ raw = c :: first) ∨
      raw ∈ source.splitOn '\n' := by
  rw [List.splitOn_cons_eq_if_modifyHead] at h
  split at h
  · exact (List.mem_cons.mp h).imp_right Or.inr
  next hc =>
    cases hs : source.splitOn '\n' with
    | nil =>
      rw [hs] at h
      cases h
    | cons first later =>
      rw [hs] at h
      rcases List.mem_cons.mp h with rfl | h
      · exact Or.inr (Or.inl ⟨first, List.mem_cons_self, fun he => hc (beq_iff_eq.mpr he), rfl⟩)
      · exact Or.inr (Or.inr (List.mem_cons_of_mem first h))

lemma newline_not_mem_splitOn {source raw : List Char} (h : raw ∈ source.splitOn '\n') :
    '\n' ∉ raw := by
  induction source generalizing raw with
  | nil =>
    rw [List.mem_singleton.mp h]
    exact List.not_mem_nil
  | cons c source ih =>
    rcases mem_splitOn_cons h with rfl | ⟨first, hf, hc, rfl⟩ | h
    · exact List.not_mem_nil
    · exact List.not_mem_cons_of_ne_of_not_mem hc.symm (ih hf)
    · exact ih h

lemma sublist_of_mem_splitOn {source raw : List Char} (h : raw ∈ source.splitOn '\n') :
    raw.Sublist source := by
  induction source generalizing raw with
  | nil =>
    rw [List.mem_singleton.mp h]
    exact List.nil_sublist _
  | cons c source ih =>
    rcases mem_splitOn_cons h with rfl | ⟨first, hf, -, rfl⟩ | h
    · exact List.nil_sublist _
    · exact (ih hf).cons_cons c
    · exact (ih h).cons c

theorem splitInto_iff {source : List Char} {texts : List (List Char)} :
    SplitInto source texts ↔ lines source = texts := by
  have hs : Stripped = fun raw line => dropReturn raw = line := by
    funext raw line
    exact propext stripped_iff
  have hf : ∀ raws, List.Forall₂ Stripped raws texts ↔ raws.map dropReturn = texts := by
    intro raws
    rw [hs, ← List.forall₂_map_left_iff (R := (· = ·)), List.forall₂_eq_eq_eq]
  constructor
  · rintro ⟨raws, hne, hn, rfl, h⟩
    rw [lines, List.splitOn_intercalate '\n' hn hne]
    exact (hf raws).mp h
  · intro h
    exact ⟨source.splitOn '\n', List.splitOn_ne_nil _ _, fun _ => newline_not_mem_splitOn,
      List.intercalate_splitOn '\n', (hf _).mpr h⟩

lemma sublist_of_mem_lines {source line : List Char} (h : line ∈ lines source) :
    line.Sublist source := by
  obtain ⟨raw, hr, rfl⟩ := List.mem_map.mp h
  exact (dropReturn_isPrefix raw).sublist.trans (sublist_of_mem_splitOn hr)

lemma newline_not_mem_lines {source line : List Char} (h : line ∈ lines source) :
    '\n' ∉ line := by
  obtain ⟨raw, hr, hs⟩ := List.mem_map.mp h
  have hn := newline_not_mem_splitOn hr
  rcases stripped_iff.mpr hs with rfl | ⟨rfl, _⟩
  · exact fun hl => hn (List.mem_append_left _ hl)
  · exact hn

lemma length_lines (source : List Char) : (lines source).length = 1 + source.count '\n' := by
  rw [lines, List.length_map]
  induction source with
  | nil => rfl
  | cons c source ih =>
    rw [List.splitOn_cons_eq_if_modifyHead, List.count_cons]
    split
    · rw [List.length_cons, ih]
      omega
    · rw [List.length_modifyHead, ih]
      rfl

end LCode.Text
