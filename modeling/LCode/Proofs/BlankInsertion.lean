import LCode.Proofs.CommentStripping
import LCode.Proofs.Coverage

/-! More blanks may stand where no token of a line goes over a column and no comment has begun. -/

namespace LCode

open Lexeme Pattern Text

def Text.insertAt (line column : Nat) (w : List Char) (source : String) : String :=
  editLines (fun i raw => if i = line then raw.take column ++ w ++ raw.drop column else raw) source

def Token.shiftColumns (n : Nat) (t : Token) : Token :=
  { t with span := { t.span with start := t.span.start + n, stop := t.span.stop + n } }

/-- A token where it stands when there are `n` more characters before a column of its line. -/
def Token.movedFrom (line column n : Nat) (t : Token) : Token :=
  if t.span.line = line ∧ column ≤ t.span.start then t.shiftColumns n else t

namespace Tiled

variable {line column : Nat} {u v : List Char} {tokens before after : List Token}

lemma append (hu : Tiled line column u before) (ha : Apart u v)
    (hv : Tiled line (column + u.length) v after) :
    Tiled line column (u ++ v) (before ++ after) :=
  tiled_iff.mpr ((tiled_iff.mp hu).append ha (tiled_iff.mp hv))

lemma shiftColumns (n : Nat) (h : Tiled line column u tokens) :
    Tiled line (column + n) u (tokens.map (Token.shiftColumns n)) := by
  induction h with
  | done => exact .done
  | blank hb _ ih =>
    rw [Nat.add_right_comm] at ih
    exact .blank hb ih
  | token hx hm _ ih =>
    rw [Nat.add_right_comm] at ih
    rw [List.map_cons, Token.shiftColumns, Nat.add_right_comm]
    exact .token hx hm ih

lemma split (h : Tiled line column (u ++ v) tokens)
    (hc : ∀ t ∈ tokens, ¬(t.span.start < column + u.length ∧ column + u.length < t.span.stop)) :
    ∃ before after, tokens = before ++ after ∧ Tiled line column u before ∧
      Tiled line (column + u.length) v after := by
  generalize hcs : u ++ v = cs at h
  induction h generalizing u with
  | done =>
    obtain ⟨rfl, rfl⟩ := List.append_eq_nil_iff.mp hcs
    exact ⟨[], [], rfl, .done, .done⟩
  | @blank column blanks rest tokens hb hrest ih =>
    -- the column may stand among the blanks
    rcases List.append_eq_append_iff.mp hcs with ⟨later, rfl, rfl⟩ | ⟨later, rfl, rfl⟩
    · obtain ⟨hu, hlater⟩ := List.forall_mem_append.mp hb
      refine ⟨[], tokens, rfl, ?_, .blank hlater ?_⟩
      · rw [← List.append_nil u]
        exact .blank hu .done
      · rwa [List.length_append, ← Nat.add_assoc] at hrest
    · rw [List.length_append, ← Nat.add_assoc] at hc ⊢
      obtain ⟨before, after, rfl, hu, hv⟩ := ih hc rfl
      exact ⟨before, after, rfl, .blank hb hu, hv⟩
  | @token column x rest kind tokens hx hm hrest ih =>
    obtain ⟨hfirst, hlater⟩ := List.forall_mem_cons.mp hc
    by_cases hle : x.text.length ≤ u.length
    · obtain ⟨later, rfl⟩ :=
        List.prefix_of_prefix_length_le ⟨rest, hcs.symm⟩ (List.prefix_append u v) hle
      rw [List.append_assoc] at hcs
      obtain rfl := List.append_cancel_left hcs
      have hcut : Munch (x.text ++ later) x :=
        hx.of_prefix ⟨v, List.append_assoc ..⟩ (List.prefix_append _ _)
      rw [List.length_append, ← Nat.add_assoc] at hlater ⊢
      obtain ⟨before, after, rfl, hu, hv⟩ := ih hlater rfl
      exact ⟨_, after, rfl, .token hcut hm hu, hv⟩
    · obtain rfl : u = [] := by
        refine List.length_eq_zero_iff.mp ?_
        dsimp only at hfirst
        omega
      rw [← hcs] at hx
      obtain rfl : v = x.text ++ rest := hcs
      exact ⟨[], _, rfl, .done, .token hx hm hrest⟩

end Tiled

namespace Text

lemma dropReturn_insert {raw u v w : List Char} (h : dropReturn raw = u ++ v)
    (hw : ∀ c ∈ w, isBlank c = true) :
    dropReturn (raw.take u.length ++ w ++ raw.drop u.length) = u ++ (w ++ v) := by
  rcases stripped_iff.mpr h with rfl | ⟨rfl, hlast⟩
  · rw [List.append_assoc u, List.take_left, List.drop_left, ← List.append_assoc,
      dropReturn_append_return, List.append_assoc]
  · rw [List.take_left, List.drop_left, List.append_assoc]
    refine dropReturn_eq_self fun hl => hlast (List.singleton_suffix_iff_getLast?_eq_some.mpr ?_)
    rw [List.getLast?_append, List.getLast?_append, Option.or_assoc] at hl
    rw [List.getLast?_append]
    cases hlw : w.getLast? with
    | none => simpa [hlw] using hl
    | some c =>
      have hcw := hw c (List.mem_of_getLast? hlw)
      cases hv : v.getLast? with
      | none =>
        obtain rfl : c = '\r' := by simpa [hlw, hv] using hl
        cases hcw
      | some d => simpa [hlw, hv] using hl

end Text

variable {line : Nat} {u v w : List Char} {own : List Token}

lemma scanLine_insert (h : scanLine line (u ++ v) = .ok own) (hn : '\n' ∉ u)
    (hc : ∀ t ∈ own, ¬(t.span.start < u.length ∧ u.length < t.span.stop))
    (hcomment : ∀ t ∈ own, t.isComment = true → u.length ≤ t.span.start)
    (hne : w ≠ []) (hw : ∀ c ∈ w, isBlank c = true) :
    scanLine line (u ++ (w ++ v)) = .ok (own.map (Token.movedFrom line u.length w.length)) := by
  obtain ⟨before, after, rfl, hu, hv⟩ := (tiled_of_scanLine h).split (by rwa [Nat.zero_add])
  rw [Nat.zero_add] at hv
  have hbefore : before.map (Token.movedFrom line u.length w.length) = before := by
    refine List.map_congr_left (g := id) (fun t ht => if_neg fun hm => ?_) |>.trans before.map_id
    obtain ⟨-, -, hlt, hstop⟩ := hu.bounds t ht
    omega
  have hafter : after.map (Token.movedFrom line u.length w.length) =
      after.map (Token.shiftColumns w.length) := by
    refine List.map_congr_left fun t ht => if_pos ?_
    obtain ⟨hl, hstart, -, -⟩ := hv.bounds t ht
    exact ⟨hl, hstart⟩
  have hslashes : ¬['/', '/'] <:+: u := by
    intro hi
    have hscan := scanLine_eq_iff.mpr (tiled_iff.mp hu)
    obtain ⟨t, ht, htc⟩ := (commentAtEnd_of_scanLine hscan hn).comment_iff.mpr hi
    obtain ⟨-, -, hlt, hstop⟩ := hu.bounds t ht
    have hstart := hcomment t (List.mem_append_left _ ht) htc
    omega
  have hhead : ∀ c ∈ (w ++ v).head?, isBlank c = true := by
    obtain ⟨b, t, rfl⟩ := List.exists_cons_of_ne_nil hne
    simpa using hw b List.mem_cons_self
  rw [List.map_append, hbefore, hafter]
  refine scanLine_eq_iff.mpr (tiled_iff.mp (hu.append (apart_blank hslashes hhead) ?_))
  rw [Nat.zero_add]
  exact .blank hw (hv.shiftColumns w.length)

lemma map_movedFrom_of_line_ne {i column n : Nat} (h : scanLine i u = .ok own) (hi : i ≠ line) :
    own.map (Token.movedFrom line column n) = own := by
  refine List.map_congr_left (g := id) (fun t ht => if_neg fun hm => ?_) |>.trans own.map_id
  exact hi (((tiled_of_scanLine h).bounds t ht).1.symm.trans hm.1)

variable {source : String} {tokens : List Token} {text : String}

lemma newline_not_mem_insert {raw : List Char} {column : Nat} (hraw : '\n' ∉ raw)
    (hw : ∀ c ∈ w, isBlank c = true) : '\n' ∉ raw.take column ++ w ++ raw.drop column := by
  simp only [List.mem_append, not_or]
  exact ⟨⟨fun h => hraw (List.mem_of_mem_take h), fun h => by cases hw _ h⟩,
    fun h => hraw (List.mem_of_mem_drop h)⟩

theorem tokenize_insertAt (h : tokenize source = .ok tokens) (ht : lineAt? source line = some text)
    (huv : text.toList = u ++ v) (hne : w ≠ []) (hw : ∀ c ∈ w, c ∈ blanks)
    (hc : ∀ t ∈ tokens, t.span.line = line → ¬(t.span.start < u.length ∧ u.length < t.span.stop))
    (hcomment : ∀ t ∈ tokens, t.span.line = line → t.isComment = true → u.length ≤ t.span.start) :
    tokenize (insertAt line u.length w source) =
      .ok (tokens.map (Token.movedFrom line u.length w.length)) := by
  have hblank : ∀ c ∈ w, isBlank c = true := fun c hc => mem_blanks_iff.mp (hw c hc)
  have hline := lineAt?_eq_some_iff.mp ht
  have hown := scanLine_of_tokenize h ht
  have hnu := newline_not_mem_of_lineAt? ht
  rw [huv] at hline hown hnu
  have hmoved := scanLine_insert hown (fun hn => hnu (List.mem_append_left v hn))
    (fun t ht => hc t (List.mem_of_mem_filter ht) (of_decide_eq_true (List.mem_filter.mp ht).2))
    (fun t ht => hcomment t (List.mem_of_mem_filter ht)
      (of_decide_eq_true (List.mem_filter.mp ht).2))
    hne hblank
  have hedit : tokenize (insertAt line u.length w source) =
      (tokenize source).map (List.filterMap (some ∘ Token.movedFrom line u.length w.length)) := by
    refine tokenize_editLines (fun i raw hraw => ?_) fun i raw hi => ?_
    · split
      · exact newline_not_mem_insert hraw hblank
      · exact hraw
    · rw [List.filterMap_eq_map]
      split
      next heq =>
        subst heq
        rw [lines, List.getElem?_map, hi] at hline
        have hraw : dropReturn raw = u ++ v := Option.some.inj hline
        rw [dropReturn_insert hraw hblank, hraw, hmoved, hown]
        rfl
      next hne =>
        cases hscan : scanLine i (dropReturn raw) with
        | error e => rfl
        | ok here => exact congrArg Except.ok (map_movedFrom_of_line_ne hscan hne).symm
  rw [hedit, h, List.filterMap_eq_map]
  rfl

theorem insertAt_of_float_and_comment :
    ∃ tokens, tokenize ";\nx:=.5//é\r\ny" = .ok tokens ∧ tokens.length = 6 ∧
      tokenize ";\nx:= \t.5//é\r\ny" = .ok (tokens.map (Token.movedFrom 1 3 2)) := by
  have h : tokenize ";\nx:=.5//é\r\ny" = .ok
      [⟨.operator .semicolon, ⟨0, 0, 1⟩⟩, ⟨.identifier "x", ⟨1, 0, 1⟩⟩, ⟨.operator .set, ⟨1, 1, 3⟩⟩,
        ⟨.float ⟨0x3fe0000000000000⟩, ⟨1, 3, 5⟩⟩, ⟨.comment "//é", ⟨1, 5, 8⟩⟩,
        ⟨.identifier "y", ⟨2, 0, 1⟩⟩] := by
    decide +kernel
  have hline : lineAt? ";\nx:=.5//é\r\ny" 1 = some "x:=.5//é" := by decide +kernel
  have hinsert : insertAt 1 3 [' ', '\t'] ";\nx:=.5//é\r\ny" = ";\nx:= \t.5//é\r\ny" := by
    decide +kernel
  have hmoved := tokenize_insertAt h hline (u := ['x', ':', '=']) (v := ['.', '5', '/', '/', 'é'])
    (w := [' ', '\t']) (by decide) (by decide) (by simp [blanks])
    (by decide +kernel) (by decide +kernel)
  rw [List.length_cons, List.length_cons, List.length_singleton] at hmoved
  rw [← hinsert]
  exact ⟨_, h, rfl, hmoved⟩

end LCode
