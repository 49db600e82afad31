import LCode.Proofs.NumberText

/-! A rendered token is read from both ends, because what it carries can hold any characters. -/

namespace LCode

open Lexeme Number

section

variable {c : Char} {xs ys ds es : List Char}

lemma append_cons_inj_of_last (hd : c ∉ ds) (he : c ∉ es) (h : xs ++ c :: ds = ys ++ c :: es) :
    xs = ys ∧ ds = es := by
  rcases List.append_eq_append_iff.mp h with ⟨zs, hys, hz⟩ | ⟨zs, hxs, hz⟩
  · cases zs with
    | nil => exact ⟨by simpa using hys.symm, (List.cons.inj hz).2⟩
    | cons z zs =>
      rw [(List.cons.inj hz).2] at hd
      exact absurd (List.mem_append_right zs List.mem_cons_self) hd
  · cases zs with
    | nil => exact ⟨by simpa using hxs, (List.cons.inj hz).2.symm⟩
    | cons z zs =>
      rw [(List.cons.inj hz).2] at he
      exact absurd (List.mem_append_right zs List.mem_cons_self) he

lemma append_cons_inj_of_first (hx : c ∉ xs) (hy : c ∉ ys) (h : xs ++ c :: ds = ys ++ c :: es) :
    xs = ys ∧ ds = es := by
  have hr : ds.reverse ++ c :: xs.reverse = es.reverse ++ c :: ys.reverse := by
    simpa using congrArg List.reverse h
  obtain ⟨hds, hxs⟩ := append_cons_inj_of_last (by simpa using hx) (by simpa using hy) hr
  exact ⟨List.reverse_inj.mp hxs, List.reverse_inj.mp hds⟩

end

lemma Keyword.name_injective {k l : Keyword} (h : k.name = l.name) : k = l := by
  revert h
  cases k <;> cases l <;> decide

lemma Operator.name_injective {k l : Operator} (h : k.name = l.name) : k = l := by
  revert h
  cases k <;> cases l <;> decide

def numberField (name : String) (n : ℕ) : List Char := name.toList ++ ':' :: Nat.toDigits 10 n

lemma append_numberField_inj {xs ys : List Char} {name : String} {m n : ℕ}
    (h : xs ++ numberField name m = ys ++ numberField name n) : xs = ys ∧ m = n := by
  have hcolon : ∀ k : ℕ, ':' ∉ Nat.toDigits 10 k := fun k hk => by
    cases isDigit_of_mem_toDigits _ hk
  rw [numberField, numberField, ← List.append_assoc, ← List.append_assoc] at h
  obtain ⟨hname, hdigits⟩ := append_cons_inj_of_last (hcolon m) (hcolon n) h
  refine ⟨List.append_cancel_right hname, ?_⟩
  rw [← digitsValue_toDigits m, hdigits, digitsValue_toDigits]

lemma Span.toList_render (s : Span) : s.render.toList =
    numberField "line" s.line ++ numberField ", begin" s.start ++ numberField ", end" s.stop := by
  simp [render, numberField]

lemma append_render_inj {xs ys : List Char} {s t : Span}
    (h : xs ++ s.render.toList = ys ++ t.render.toList) : xs = ys ∧ s = t := by
  rw [s.toList_render, t.toList_render, ← List.append_assoc, ← List.append_assoc,
    ← List.append_assoc, ← List.append_assoc] at h
  obtain ⟨hwithout, hstop⟩ := append_numberField_inj h
  obtain ⟨hbefore, hstart⟩ := append_numberField_inj hwithout
  obtain ⟨hxs, hline⟩ := append_numberField_inj hbefore
  refine ⟨hxs, ?_⟩
  cases s
  cases t
  exact congr (congr (congrArg Span.mk hline) hstart) hstop

namespace TokenKind

lemma all_label (a : TokenKind) : a.label.toList.all (fun c => c.isUpper || c = '_') = true := by
  cases a with
  | keyword k => cases k <;> rfl
  | operator k => cases k <;> rfl
  | _ => simp [label, Char.isUpper]

lemma not_mem_label (a : TokenKind) {c : Char} (h : (c.isUpper || c = '_') = false) :
    c ∉ a.label.toList := by
  intro hc
  have hall := List.all_eq_true.mp a.all_label c hc
  rw [h] at hall
  cases hall

/-- The same kind, or numbers that are both undefined and so have one text. -/
def SameText : TokenKind → TokenKind → Prop
  | .float x, .float y => x = y ∨ x.isUndefined = true ∧ y.isUndefined = true
  | a, b => a = b

lemma sameText {a b : TokenKind} (hl : a.label = b.label) (hp : a.payload = b.payload) :
    SameText a b := by
  -- the first two characters of the label tell the constructors apart
  have htwo : a.label.toList.take 2 = b.label.toList.take 2 := by rw [hl]
  cases a with
  | integer v =>
    cases b with
    | integer w =>
      have hvalue : toString v = toString w := by simpa [payload] using hp
      exact congrArg integer (Int.repr_inj.mp hvalue)
    | _ => simp [label] at htwo
  | float x =>
    cases b with
    | float y =>
      have hvalue : x.render = y.render := by simpa [payload] using hp
      exact Binary64.text_eq_iff.mp (String.ofList_inj.mp hvalue)
    | _ => simp [label] at htwo
  | boolean p =>
    cases b with
    | boolean q => cases p <;> cases q <;> simp_all [payload, SameText]
    | _ => simp [label] at htwo
  | identifier m =>
    cases b with
    | identifier n =>
      have hname : m = n := by simpa [payload] using hp
      exact congrArg identifier hname
    | _ => simp [label] at htwo
  | keyword k =>
    cases b with
    | keyword l =>
      have hname : k.name = l.name := by simpa [label] using hl
      exact congrArg keyword (Keyword.name_injective hname)
    | _ => simp [label] at htwo
  | operator k =>
    cases b with
    | operator l =>
      have hname : k.name = l.name := by simpa [label] using hl
      exact congrArg operator (Operator.name_injective hname)
    | _ => simp [label] at htwo
  | comment s =>
    cases b with
    | comment t =>
      have htext : s = t := by simpa [payload] using hp
      exact congrArg comment htext
    | _ => simp [label] at htwo

lemma SameText.label_payload {a b : TokenKind} (h : SameText a b) :
    a.label = b.label ∧ a.payload = b.payload := by
  cases a with
  | float x =>
    cases b with
    | float y =>
      have htext : x.text = y.text := Binary64.text_eq_iff.mpr h
      exact ⟨rfl, by rw [payload, payload, Binary64.render, Binary64.render, htext]⟩
    | _ => cases h
  | _ =>
    cases h
    exact ⟨rfl, rfl⟩

end TokenKind

lemma Token.toList_render (t : Token) : t.render.toList =
    t.kind.label.toList ++ '(' :: (t.kind.payload.toList ++ t.span.render.toList ++ [')']) := by
  simp [render]

theorem Token.render_eq_iff {t u : Token} :
    t.render = u.render ↔ t.span = u.span ∧ t.kind.SameText u.kind := by
  rw [← String.toList_inj, t.toList_render, u.toList_render]
  constructor
  · intro h
    -- the payload may have any characters, but there is no bracket before it and the span's last
    -- three colons are behind it
    obtain ⟨hlabel, hrest⟩ := append_cons_inj_of_first (t.kind.not_mem_label rfl)
      (u.kind.not_mem_label rfl) h
    obtain ⟨hpayload, hspan⟩ := append_render_inj (List.append_cancel_right hrest)
    exact ⟨hspan, TokenKind.sameText (String.toList_inj.mp hlabel) (String.toList_inj.mp hpayload)⟩
  · rintro ⟨hspan, hkind⟩
    obtain ⟨hlabel, hpayload⟩ := hkind.label_payload
    rw [hspan, hlabel, hpayload]

-- a comment whose text looks like the fields after it
example : Token.render ⟨.comment "//a, line:1, begin:0, end:3)", ⟨0, 2, 30⟩⟩ =
    "COMMENT(text://a, line:1, begin:0, end:3), line:0, begin:2, end:30)" := by
  decide +kernel

end LCode
