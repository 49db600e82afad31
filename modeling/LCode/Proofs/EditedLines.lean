import LCode.Proofs.ReferenceScan

namespace LCode

open Text

namespace Text

/-- A text with `f i` in place of what stands before, between or after its line feeds. -/
def editLines (f : Nat → List Char → List Char) (source : String) : String :=
  String.ofList (['\n'].intercalate ((source.toList.splitOn '\n').mapIdx f))

variable {f : Nat → List Char → List Char}

lemma splitOn_editLines (hf : ∀ i raw, '\n' ∉ raw → '\n' ∉ f i raw) (source : String) :
    (editLines f source).toList.splitOn '\n' = (source.toList.splitOn '\n').mapIdx f := by
  rw [editLines, String.toList_ofList]
  apply List.splitOn_intercalate '\n'
  · intro raw hraw
    obtain ⟨i, hi, rfl⟩ := List.mem_mapIdx.mp hraw
    exact hf i _ (newline_not_mem_splitOn (List.getElem_mem hi))
  · exact mt List.mapIdx_eq_nil_iff.mp (List.splitOn_ne_nil _ _)

lemma lines_editLines (hf : ∀ i raw, '\n' ∉ raw → '\n' ∉ f i raw) (source : String) :
    lines (editLines f source).toList =
      (source.toList.splitOn '\n').mapIdx fun i raw => dropReturn (f i raw) := by
  rw [lines, splitOn_editLines hf]
  refine List.ext_getElem (by simp) fun i _ _ => ?_
  rw [List.getElem_map, List.getElem_mapIdx, List.getElem_mapIdx]

end Text

variable {f : Nat → List Char → List Char} {k : Token → Option Token}

lemma scanLines_mapIdx {line : Nat} {raws : List (List Char)}
    (h : ∀ i raw, raws[i]? = some raw → scanLine (line + i) (dropReturn (f i raw)) =
      (scanLine (line + i) (dropReturn raw)).map (List.filterMap k)) :
    scanLines line (raws.mapIdx fun i raw => dropReturn (f i raw)) =
      (scanLines line (raws.map dropReturn)).map (List.filterMap k) := by
  induction raws generalizing line f with
  | nil => rfl
  | cons raw raws ih =>
    have hfirst := h 0 raw rfl
    have hlater : scanLines (line + 1) (raws.mapIdx fun i raw => dropReturn (f (i + 1) raw)) =
        (scanLines (line + 1) (raws.map dropReturn)).map (List.filterMap k) := by
      refine ih fun i later hi => ?_
      have hl := h (i + 1) later hi
      rwa [← Nat.add_assoc, Nat.add_right_comm] at hl
    rw [List.mapIdx_cons, List.map_cons, scanLines, scanLines, hlater]
    rw [Nat.add_zero] at hfirst
    rw [hfirst]
    cases scanLine line (dropReturn raw) with
    | error e => rfl
    | ok here =>
      cases scanLines (line + 1) (raws.map dropReturn) with
      | error e => rfl
      | ok later => exact congrArg Except.ok List.filterMap_append.symm

theorem tokenize_editLines {source : String} (hf : ∀ i raw, '\n' ∉ raw → '\n' ∉ f i raw)
    (h : ∀ i raw, (source.toList.splitOn '\n')[i]? = some raw →
      scanLine i (dropReturn (f i raw)) = (scanLine i (dropReturn raw)).map (List.filterMap k)) :
    tokenize (editLines f source) = (tokenize source).map (List.filterMap k) := by
  rw [tokenize, lines_editLines hf]
  exact scanLines_mapIdx fun i raw hi => by
    rw [Nat.zero_add]
    exact h i raw hi

end LCode
