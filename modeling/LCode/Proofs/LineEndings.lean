import LCode.Diagnostic
import LCode.Proofs.EditedLines

namespace LCode

open Text

namespace Text

def withReturns (chosen : Nat → Bool) (source : String) : String :=
  editLines (fun i raw => if chosen i then raw ++ ['\r'] else raw) source

theorem lines_withReturns {source : String}
    (h : ∀ raw ∈ source.toList.splitOn '\n', raw.getLast? ≠ some '\r') (chosen : Nat → Bool) :
    lines (withReturns chosen source).toList = lines source.toList := by
  have hf : ∀ i raw, '\n' ∉ raw → '\n' ∉ if chosen i then raw ++ ['\r'] else raw := by
    intro i raw hraw
    split
    · simpa using hraw
    · exact hraw
  rw [withReturns, lines_editLines hf, lines]
  refine List.ext_getElem (by simp) fun i hi _ => ?_
  simp only [List.getElem_mapIdx, List.getElem_map]
  split
  · rw [dropReturn_append_return, dropReturn_eq_self (h _ (List.getElem_mem _))]
  · rfl

end Text

variable {source : String}

theorem tokenize_withReturns
    (h : ∀ raw ∈ source.toList.splitOn '\n', raw.getLast? ≠ some '\r') (chosen : Nat → Bool) :
    tokenize (withReturns chosen source) = tokenize source ∧
      (∀ p : Position, lineAt? (withReturns chosen source) p.line = lineAt? source p.line) ∧
      ∀ e fileName, Diagnostic.ofError e fileName (withReturns chosen source) =
        Diagnostic.ofError e fileName source := by
  have hlines := lines_withReturns h chosen
  have hline (line : Nat) : lineAt? (withReturns chosen source) line = lineAt? source line := by
    rw [lineAt?, lineAt?, hlines]
  refine ⟨?_, fun p => hline p.line, fun e fileName => ?_⟩
  · rw [tokenize, tokenize, hlines]
  · rw [Diagnostic.ofError, Diagnostic.ofError, hline]

theorem withReturns_of_comment_and_error :
    (∀ raw ∈ "// é\n\n x := 0x".toList.splitOn '\n', raw.getLast? ≠ some '\r') ∧
      tokenize "// é\r\n\n x := 0x\r" = tokenize "// é\n\n x := 0x" ∧
      ∀ e fileName, Diagnostic.ofError e fileName "// é\r\n\n x := 0x\r" =
        Diagnostic.ofError e fileName "// é\n\n x := 0x" := by
  have hreturns : withReturns (· ≠ 1) "// é\n\n x := 0x" = "// é\r\n\n x := 0x\r" := by
    decide +kernel
  have hno : ∀ raw ∈ "// é\n\n x := 0x".toList.splitOn '\n', raw.getLast? ≠ some '\r' := by
    decide +kernel
  obtain ⟨htokens, -, hshown⟩ := tokenize_withReturns hno (· ≠ 1)
  rw [hreturns] at htokens
  simp only [hreturns] at hshown
  exact ⟨hno, htokens, hshown⟩

end LCode
