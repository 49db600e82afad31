import LCode.Text.Ranges

/-! The characters with the property White_Space. -/

namespace LCode.Text

def whitespace : Ranges where
  bounds := [(0x9, 0xd), (0x20, 0x20), (0x85, 0x85), (0xa0, 0xa0), (0x1680, 0x1680),
    (0x2000, 0x200a), (0x2028, 0x2029), (0x202f, 0x202f), (0x205f, 0x205f), (0x3000, 0x3000)]

def trimEnd (cs : List Char) : List Char :=
  (cs.reverse.dropWhile whitespace.contains).reverse

theorem trimEnd_prefix (cs : List Char) : trimEnd cs <+: cs := by
  simpa [trimEnd] using
    List.reverse_prefix.mpr (List.dropWhile_suffix whitespace.contains (l := cs.reverse))

end LCode.Text
