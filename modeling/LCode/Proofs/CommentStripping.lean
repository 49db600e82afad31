import LCode.Proofs.EditedLines
import LCode.Proofs.Juncture
import LCode.Proofs.SourceTiling

/-! The first two slashes of a line begin its comment, for no other lexeme goes on into them. -/

namespace LCode

open Lexeme Pattern Text

namespace Text

def beforeSlashes : List Char → List Char
  | [] => []
  | c :: cs => if ['/', '/'].isPrefixOf (c :: cs) then [] else c :: beforeSlashes cs

def withoutComments (source : String) : String := editLines (fun _ => beforeSlashes) source

def FirstSlashes (text : List Char) (column : Nat) : Prop :=
  ['/', '/'] <+: text.drop column ∧ ∀ i < column, ¬['/', '/'] <+: text.drop i

lemma slashes_prefix_append {s body : List Char} (hs : s ≠ [])
    (h : ['/', '/'] <+: s ++ '/' :: body) : ['/', '/'] <+: s ++ ['/'] := by
  refine List.prefix_of_prefix_length_le h ⟨body, by simp⟩ ?_
  have hpos := List.length_pos_iff.mpr hs
  rw [List.length_append]
  exact Nat.succ_le_succ hpos

lemma beforeSlashes_cases (cs : List Char) :
    ¬['/', '/'] <:+: cs ∧ beforeSlashes cs = cs ∨
      ∃ body, cs = beforeSlashes cs ++ '/' :: '/' :: body ∧
        ¬['/', '/'] <:+: beforeSlashes cs ++ ['/'] := by
  induction cs with
  | nil => exact Or.inl ⟨by simp, rfl⟩
  | cons c cs ih =>
    rw [beforeSlashes]
    split
    next h =>
      obtain ⟨body, hbody⟩ := List.isPrefixOf_iff_prefix.mp h
      exact Or.inr ⟨body, hbody.symm, fun hi => absurd hi.length_le (by simp)⟩
    next h =>
      rw [List.isPrefixOf_iff_prefix] at h
      rcases ih with ⟨hn, he⟩ | ⟨body, he, hn⟩
      · refine Or.inl ⟨fun hi => ?_, by rw [he]⟩
        exact (List.infix_cons_iff.mp hi).elim h hn
      · refine Or.inr ⟨body, by rw [List.cons_append, ← he], fun hi => ?_⟩
        refine (List.infix_cons_iff.mp hi).elim (fun hp => h ?_) hn
        rw [he]
        exact hp.trans ⟨'/' :: body, by simp⟩

lemma beforeSlashes_isPrefix (cs : List Char) : beforeSlashes cs <+: cs := by
  rcases beforeSlashes_cases cs with ⟨-, he⟩ | ⟨body, he, -⟩
  · rw [he]
  · exact ⟨_, he.symm⟩

lemma firstSlashes_length {front body : List Char} (h : ¬['/', '/'] <:+: front ++ ['/']) :
    FirstSlashes (front ++ '/' :: '/' :: body) front.length := by
  refine ⟨by simp, fun i hi hp => h ?_⟩
  rw [List.drop_append_of_le_length hi.le] at hp
  have hne : front.drop i ≠ [] := by simpa using hi
  have hsuffix : front.drop i ++ ['/'] <:+ front ++ ['/'] :=
    List.suffix_append_self_iff.mpr (List.drop_suffix i front)
  exact (slashes_prefix_append hne hp).isInfix.trans hsuffix.isInfix

lemma dropReturn_slashes (body : List Char) :
    ∃ rest, dropReturn ('/' :: '/' :: body) = '/' :: '/' :: rest := by
  by_cases h : body = []
  · exact ⟨[], by simp [h, dropReturn]⟩
  · have hrest : dropReturn (['/', '/'] ++ body) = ['/', '/'] ++ dropReturn body :=
      dropReturn_append h
    exact ⟨dropReturn body, hrest⟩

end Text

lemma Lexeme.apart_slashes {cs : List Char} (h : ¬['/', '/'] <:+: cs ++ ['/']) (body : List Char) :
    Apart cs ('/' :: '/' :: body) := by
  refine apart_of_not_goesOn ?_
  rintro s hs ⟨c, hc, -⟩ k b z hb hmem
  obtain rfl : '/' = b := Option.some.inj hb
  have hne : s ≠ [] := by
    rintro rfl
    cases hc
  have hallows := LexemeClass.allows_of_mem hmem '/' (by simp)
  rcases LexemeClass.comment_or_divide_of_allows hallows with rfl | rfl
  · have hp := slashes_prefix_append hne (LexemeClass.slashes_prefix_of_mem hmem)
    have hsuffix : s ++ ['/'] <:+ cs ++ ['/'] := List.suffix_append_self_iff.mpr hs
    exact h (hp.isInfix.trans hsuffix.isInfix)
  · have hone : s ++ '/' :: z = ['/'] := mem_language_text.mp hmem
    have hlen := congrArg List.length hone
    have hpos := List.length_pos_iff.mpr hne
    simp only [List.length_append, List.length_cons, List.length_nil] at hlen
    omega

variable {line column : Nat} {cs front body : List Char} {tokens : List Token}

lemma munched_comment (hn : '\n' ∉ body) : Munched line column ('/' :: '/' :: body)
    (.ok [⟨.comment (String.ofList ('/' :: '/' :: body)),
      ⟨line, column, column + ('/' :: '/' :: body).length⟩⟩]) :=
  munched_of_munch (x := ⟨.comment, '/' :: '/' :: body⟩)
    (munch_comment (by simp) (by simpa using hn)) rfl

lemma scanLine_of_slashes (h : ¬['/', '/'] <:+: front ++ ['/']) (hn : '\n' ∉ body) :
    scanLine line (front ++ '/' :: '/' :: body) = Result.followedBy (scanLine line front)
      (.ok [⟨.comment (String.ofList ('/' :: '/' :: body)),
        ⟨line, front.length, (front ++ '/' :: '/' :: body).length⟩⟩]) := by
  have hc : Munched line (0 + front.length) ('/' :: '/' :: body) _ := munched_comment hn
  rw [Nat.zero_add, ← List.length_append] at hc
  refine scanLine_eq_iff.mpr ((scanLine_eq_iff.mp rfl).append (apart_slashes h body) ?_)
  rwa [Nat.zero_add]

lemma Tiled.isComment_eq_false (h : Tiled line column cs tokens) (hs : ¬['/', '/'] <:+: cs) :
    ∀ t ∈ tokens, t.isComment = false := by
  induction h with
  | done => exact fun t ht => absurd ht List.not_mem_nil
  | blank _ _ ih => exact ih fun hi => hs (hi.trans (List.suffix_append _ _).isInfix)
  | @token column x rest kind tokens hx hm _ ih =>
    refine List.forall_mem_cons.mpr
      ⟨?_, ih fun hi => hs (hi.trans (List.suffix_append _ _).isInfix)⟩
    cases kind with
    | comment text =>
      have hmem := hx.mem
      rw [cls_of_meaning hm, TokenKind.cls] at hmem
      have hp := (LexemeClass.slashes_prefix_of_mem hmem).trans (List.prefix_append x.text rest)
      exact absurd hp.isInfix hs
    | _ => rfl

lemma isComment_eq_false_of_scanLine (h : scanLine line cs = .ok tokens)
    (hs : ¬['/', '/'] <:+: cs) : ∀ t ∈ tokens, t.isComment = false :=
  (tiled_of_scanLine h).isComment_eq_false hs

lemma filter_scanLine (hs : ¬['/', '/'] <:+: cs) :
    scanLine line cs = (scanLine line cs).map (List.filter fun t => !t.isComment) := by
  cases h : scanLine line cs with
  | error e => rfl
  | ok tokens =>
    refine congrArg Except.ok (List.filter_eq_self.mpr fun t ht => ?_).symm
    rw [isComment_eq_false_of_scanLine h hs t ht]
    rfl

theorem scanLine_beforeSlashes {raw : List Char} (hn : '\n' ∉ raw)
    (hr : ['/', '/'] <:+: raw → (beforeSlashes raw).getLast? ≠ some '\r') :
    scanLine line (dropReturn (beforeSlashes raw)) =
      (scanLine line (dropReturn raw)).map (List.filter fun t => !t.isComment) := by
  rcases beforeSlashes_cases raw with ⟨hs, he⟩ | ⟨body, he, hs⟩
  · rw [he]
    exact filter_scanLine fun hi => hs (hi.trans (dropReturn_isPrefix raw).isInfix)
  · have hi : ['/', '/'] <:+: raw := ⟨beforeSlashes raw, body, by simpa using he.symm⟩
    have hfront : ¬['/', '/'] <:+: beforeSlashes raw := fun h =>
      hs (h.trans (List.prefix_append _ _).isInfix)
    obtain ⟨rest, hrest⟩ := dropReturn_slashes body
    have hline : dropReturn raw = beforeSlashes raw ++ '/' :: '/' :: rest := by
      rw [← hrest, ← dropReturn_append (List.cons_ne_nil _ _), ← he]
    have hnrest : '\n' ∉ rest := by
      intro h
      refine hn ((dropReturn_isPrefix raw).subset ?_)
      simp [hline, h]
    rw [dropReturn_eq_self (hr hi), hline, scanLine_of_slashes hs hnrest]
    rw [filter_scanLine hfront]
    cases scanLine line (beforeSlashes raw) with
    | error e => rfl
    | ok tokens => simp [Result.followedBy, Except.map, Token.isComment]

/-- A line has a comment if it has two slashes, and then the comment is its last token and goes from
the first slashes to the end of the line. -/
structure CommentAtEnd (line : Nat) (text : List Char) (tokens : List Token) : Prop where
  comment_iff : (∃ t ∈ tokens, t.isComment = true) ↔ ['/', '/'] <:+: text
  single : tokens.countP Token.isComment ≤ 1
  last : ∀ t ∈ tokens, t.isComment = true → tokens.getLast? = some t
  extent : ∀ t ∈ tokens, t.isComment = true → FirstSlashes text t.span.start ∧
    t = ⟨.comment (String.ofList (text.drop t.span.start)), ⟨line, t.span.start, text.length⟩⟩

lemma commentAtEnd_of_not_slashes (hs : ¬['/', '/'] <:+: cs)
    (hnone : ∀ t ∈ tokens, t.isComment = false) : CommentAtEnd line cs tokens := by
  have hnone : ∀ t ∈ tokens, ¬t.isComment = true := fun t ht => by simp [hnone t ht]
  refine ⟨⟨fun ⟨t, ht, hc⟩ => absurd hc (hnone t ht), fun hi => absurd hi hs⟩, ?_, ?_, ?_⟩
  · rw [List.countP_eq_zero.mpr hnone]
    exact Nat.zero_le 1
  · exact fun t ht hc => absurd hc (hnone t ht)
  · exact fun t ht hc => absurd hc (hnone t ht)

lemma commentAtEnd_concat (hs : ¬['/', '/'] <:+: front ++ ['/'])
    (hnone : ∀ t ∈ tokens, t.isComment = false) :
    CommentAtEnd line (front ++ '/' :: '/' :: body) (tokens ++
      [⟨.comment (String.ofList ('/' :: '/' :: body)),
        ⟨line, front.length, (front ++ '/' :: '/' :: body).length⟩⟩]) := by
  have hnone : ∀ t ∈ tokens, ¬t.isComment = true := fun t ht => by simp [hnone t ht]
  refine ⟨⟨fun _ => ⟨front, body, by simp⟩, fun _ => ⟨_, List.mem_concat_self, rfl⟩⟩, ?_, ?_, ?_⟩
  · rw [List.countP_append, List.countP_eq_zero.mpr hnone]
    exact le_rfl
  · intro t ht hc
    rcases List.mem_append.mp ht with ht | ht
    · exact absurd hc (hnone t ht)
    · rw [List.mem_singleton.mp ht, List.getLast?_concat]
  · intro t ht hc
    rcases List.mem_append.mp ht with ht | ht
    · exact absurd hc (hnone t ht)
    · rw [List.mem_singleton.mp ht]
      refine ⟨firstSlashes_length hs, ?_⟩
      rw [List.drop_left]

theorem commentAtEnd_of_scanLine (h : scanLine line cs = .ok tokens) (hn : '\n' ∉ cs) :
    CommentAtEnd line cs tokens := by
  rcases beforeSlashes_cases cs with ⟨hs, -⟩ | ⟨body, he, hs⟩
  · exact commentAtEnd_of_not_slashes hs (isComment_eq_false_of_scanLine h hs)
  · generalize beforeSlashes cs = front at he hs
    subst he
    rw [scanLine_of_slashes hs fun hb => hn (by simp [hb])] at h
    cases hfront : scanLine line front with
    | error e =>
      rw [hfront] at h
      cases h
    | ok before =>
      rw [hfront] at h
      cases h
      have hi : ¬['/', '/'] <:+: front := fun hi => hs (hi.trans (List.prefix_append _ _).isInfix)
      exact commentAtEnd_concat hs (isComment_eq_false_of_scanLine hfront hi)

lemma scanLine_of_tokenize {source : String} (h : tokenize source = .ok tokens) {text : String}
    (ht : lineAt? source line = some text) :
    scanLine line text.toList = .ok (tokens.filter fun t => t.span.line = line) :=
  scanLine_eq_iff.mpr (tiled_iff.mp (tiled_of_tokenize h ht))

theorem tokenize_withoutComments (source : String) :
    ((∀ raw ∈ source.toList.splitOn '\n', ['/', '/'] <:+: raw →
        (beforeSlashes raw).getLast? ≠ some '\r') →
      tokenize (withoutComments source) =
        (tokenize source).map (List.filter fun t => !t.isComment)) ∧
    ∀ tokens, tokenize source = .ok tokens → ∀ line text, lineAt? source line = some text →
      CommentAtEnd line text.toList (tokens.filter fun t => t.span.line = line) := by
  refine ⟨fun hr => ?_, fun tokens h line text ht => ?_⟩
  · rw [withoutComments, ← List.filterMap_eq_filter]
    refine tokenize_editLines (fun i raw hn => ?_) fun i raw hi => ?_
    · exact fun h => hn ((beforeSlashes_isPrefix raw).subset h)
    · have hmem := List.mem_of_getElem? hi
      rw [List.filterMap_eq_filter]
      exact scanLine_beforeSlashes (newline_not_mem_splitOn hmem) (hr raw hmem)
  · exact commentAtEnd_of_scanLine (scanLine_of_tokenize h ht) (newline_not_mem_of_lineAt? ht)

theorem withoutComments_of_three_lines :
    ∃ tokens, tokenize "a/b///é//\r\n.5 //\n// x" = .ok tokens ∧ tokens.length = 7 ∧
      tokenize "a/b\n.5 \n" = .ok (tokens.filter fun t => !t.isComment) ∧
      CommentAtEnd 0 "a/b///é//".toList (tokens.filter fun t => t.span.line = 0) := by
  have h : tokenize "a/b///é//\r\n.5 //\n// x" = .ok
      [⟨.identifier "a", ⟨0, 0, 1⟩⟩, ⟨.operator .divide, ⟨0, 1, 2⟩⟩, ⟨.identifier "b", ⟨0, 2, 3⟩⟩,
        ⟨.comment "///é//", ⟨0, 3, 9⟩⟩, ⟨.float ⟨0x3fe0000000000000⟩, ⟨1, 0, 2⟩⟩,
        ⟨.comment "//", ⟨1, 3, 5⟩⟩, ⟨.comment "// x", ⟨2, 0, 4⟩⟩] := by
    decide +kernel
  have hcut : withoutComments "a/b///é//\r\n.5 //\n// x" = "a/b\n.5 \n" := by decide +kernel
  obtain ⟨hstripped, hcomment⟩ := tokenize_withoutComments "a/b///é//\r\n.5 //\n// x"
  have htokens := hstripped (by decide +kernel)
  rw [hcut, h] at htokens
  exact ⟨_, h, rfl, htokens, hcomment _ h 0 "a/b///é//" (by decide +kernel)⟩

end LCode
