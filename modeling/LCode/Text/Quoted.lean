import LCode.Text.Extending
import LCode.Text.Ignorable
import LCode.Text.Unprintable

namespace LCode.Text

def isHidden (c : Char) : Bool :=
  extending.contains c || ignorable.contains c || unprintable.contains c

def codePointEscape (c : Char) : List Char :=
  ['\\', 'u', '\x7b'] ++ Nat.toDigits 16 c.toNat ++ ['\x7d']

def escape (c : Char) : List Char :=
  if c = '\x00' then ['\\', '0']
  else if c = '\t' then ['\\', 't']
  else if c = '\r' then ['\\', 'r']
  else if c = '\n' then ['\\', 'n']
  else if c = '"' then ['\\', '"']
  else if c = '\\' then ['\\', '\\']
  else if isHidden c then codePointEscape c
  else [c]

def quoted (text : String) : String :=
  String.ofList ('"' :: (text.toList.flatMap escape ++ ['"']))

theorem isHidden_of_mem {c : Char} {r : Nat × Nat} (hr : r ∈ unprintableLow)
    (hc : r.1 ≤ c.toNat ∧ c.toNat ≤ r.2) : isHidden c = true :=
  Bool.or_eq_true_iff.mpr <| .inr <| (Ranges.contains_iff _ _).mpr
    ⟨r, List.mem_append_left _ (List.mem_append_left _ hr), hc⟩

theorem isHidden_of_control {c : Char} (h : c.toNat < 0x20 ∨ 0x7f ≤ c.toNat ∧ c.toNat < 0xa0) :
    isHidden c = true := by
  rcases h with h | h
  · exact isHidden_of_mem (r := (0x0, 0x1f)) (.head _) ⟨Nat.zero_le _, Nat.le_of_lt_succ h⟩
  · exact isHidden_of_mem (r := (0x7f, 0xa0)) (.tail _ (.head _)) ⟨h.1, Nat.le_of_lt h.2⟩

end LCode.Text
