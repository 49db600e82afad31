namespace LCode.Text

def byteLength : List Char → Nat
  | [] => 0
  | c :: cs => c.utf8Size + byteLength cs

/-- The text after the first `n` bytes, if they end where a character ends. -/
def dropBytes? : Nat → List Char → Option (List Char)
  | 0, cs => some cs
  | _ + 1, [] => none
  | n + 1, c :: cs => if c.utf8Size ≤ n + 1 then dropBytes? (n + 1 - c.utf8Size) cs else none

@[simp] theorem byteLength_nil : byteLength [] = 0 := rfl

@[simp] theorem byteLength_cons (c : Char) (cs : List Char) :
    byteLength (c :: cs) = c.utf8Size + byteLength cs := rfl

@[simp] theorem byteLength_append (p r : List Char) :
    byteLength (p ++ r) = byteLength p + byteLength r := by
  induction p with
  | nil => simp
  | cons c p ih => simp only [List.cons_append, byteLength_cons, ih, Nat.add_assoc]

theorem dropBytes?_append (p r : List Char) : dropBytes? (byteLength p) (p ++ r) = some r := by
  induction p with
  | nil => simp [dropBytes?]
  | cons c p ih =>
    have hc := c.utf8Size_pos
    obtain ⟨n, hn⟩ : ∃ n, c.utf8Size + byteLength p = n + 1 := ⟨_, (Nat.succ_pred (by omega)).symm⟩
    have hp : n + 1 - c.utf8Size = byteLength p := by omega
    rw [byteLength_cons, List.cons_append, hn, dropBytes?, if_pos (by omega), hp, ih]

theorem eq_append_of_dropBytes? {n : Nat} {cs r : List Char} (h : dropBytes? n cs = some r) :
    ∃ p, cs = p ++ r ∧ byteLength p = n := by
  induction cs generalizing n with
  | nil =>
    cases n with
    | zero => exact ⟨[], by simpa [dropBytes?] using h, rfl⟩
    | succ n => simp [dropBytes?] at h
  | cons c cs ih =>
    cases n with
    | zero => exact ⟨[], by simpa [dropBytes?] using h, rfl⟩
    | succ n =>
      simp only [dropBytes?] at h
      split at h
      · obtain ⟨p, rfl, hp⟩ := ih h
        exact ⟨c :: p, rfl, by rw [byteLength_cons, hp]; omega⟩
      · cases h

end LCode.Text
