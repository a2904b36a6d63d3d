import TreeWalk.Proofs.Token.Comment
import TreeWalk.Proofs.Token.Rereading

/-!
This module contains the scanning of a text that has the lexemes of given tokens and, between them,
anything that holds no token but comments. The tokens come out again, at other places.
-/

namespace TreeWalk

inductive Spacing : List Char → Prop
  | nil : Spacing []
  | blank {c : Char} {text : List Char} (hc : c ∈ [' ', '\t', '\r', '\n']) (h : Spacing text) :
    Spacing (c :: text)
  | blockComment {comment text : List Char} (hcomment : BlockComment comment) (h : Spacing text) :
    Spacing (comment ++ text)
  | lineComment {line text : List Char} (hline : '\n' ∉ line) (h : Spacing text) :
    Spacing ('/' :: '/' :: (line ++ '\n' :: text))

/--
The text has the lexemes of the tokens one after the other, with a line break and any spacing in
front of each of them and behind the last one.
-/
inductive Spread : List Token → List Char → Prop
  | nil {gap : List Char} (hgap : Spacing gap) : Spread [] ('\n' :: gap)
  | cons {gap text : List Char} {token : Token} {tokens : List Token} (hgap : Spacing gap)
    (h : Spread tokens text) :
    Spread (token :: tokens) ('\n' :: (gap ++ (token.lexeme.toList ++ text)))

namespace Lexeme

theorem read_lineComment {line : List Char} (h : '\n' ∉ line) (rest : List Char) :
    read '/' ('/' :: (line ++ '\n' :: rest)) = token (line.length + 1) .comment none := by
  have hline : (line ++ '\n' :: rest).takeWhile (· ≠ '\n') = line := by
    rw [takeWhile_append_of_stop (by decide), List.takeWhile_eq_self_iff]
    rintro c hc
    simpa using ne_of_mem_of_not_mem hc h
  rw [read_slash, slash, hline, Nat.add_comm]

end Lexeme

namespace ScanItem

variable {position : Position} {c : Char} {text : List Char}

theorem walk_separator (hc : Lexeme.isSeparator c) (position : Position) (text : List Char) :
    walk 0 position (c :: text) = walk 0 (position.after c) text := by
  rw [walk, if_pos hc]

theorem walk_of_read {more : Nat} {kind : TokenKind} {literal : Option Literal}
    (hc : ¬ Lexeme.isSeparator c) (hread : Lexeme.read c text = .token more kind literal)
    (position : Position) :
    walk 0 position (c :: text) =
      ⟨⟨kind, .ofList (c :: text.take more), literal, position⟩, none⟩ ::
        walk 0 (position.advance (c :: text.take more)) (text.drop more) := by
  rw [walk_lexeme hc, hread]
  rfl

theorem walk_spacing {gap : List Char} (h : Spacing gap) (position : Position) (text : List Char) :
    ∃ comments position', walk 0 position (gap ++ text) = comments ++ walk 0 position' text ∧
      ∀ item ∈ comments, item.token.isComment = true ∧ item.fault = none := by
  induction h generalizing position with
  | nil => exact ⟨[], position, rfl, List.forall_mem_nil _⟩
  | @blank c gap hc _ ih =>
    have hseparator : Lexeme.isSeparator c = true := by
      simpa [Lexeme.isSeparator, or_assoc] using hc
    rw [List.cons_append, walk_separator hseparator]
    exact ih _
  | @blockComment comment gap hcomment _ ih =>
    obtain ⟨htail⟩ := hcomment
    have hwalk := walk_of_read (by decide) (Lexeme.read_blockComment htail (gap ++ text)) position
    obtain ⟨comments, position', hrest, hcomments⟩ := ih _
    rw [List.drop_succ_cons, List.drop_left, hrest] at hwalk
    simp only [List.cons_append, List.append_assoc]
    exact ⟨_ :: comments, position', hwalk, List.forall_mem_cons.2 ⟨⟨rfl, rfl⟩, hcomments⟩⟩
  | @lineComment line gap hline _ ih =>
    have hwalk := walk_of_read (by decide) (Lexeme.read_lineComment hline (gap ++ text)) position
    have hbreak : Lexeme.isSeparator '\n' = true := by decide
    obtain ⟨comments, position', hrest, hcomments⟩ := ih _
    rw [List.drop_succ_cons, List.drop_left, walk_separator hbreak, hrest] at hwalk
    simp only [List.cons_append, List.append_assoc]
    exact ⟨_ :: comments, position', hwalk, List.forall_mem_cons.2 ⟨⟨rfl, rfl⟩, hcomments⟩⟩

theorem walk_of_rereads {token : Token} (h : token.Rereads) (position : Position)
    (rest : List Char) :
    walk 0 position (token.lexeme.toList ++ '\n' :: rest) =
      ⟨token.move fun _ => position, none⟩ ::
        walk 0 (position.advance token.lexeme.toList) ('\n' :: rest) := by
  obtain ⟨first, lexeme, hlexeme, hfirst, hread⟩ := h
  have hcontent : (Lexeme.read first lexeme).content = .ok (token.kind, token.literal) := by
    rw [hread]
    rfl
  rw [hlexeme, List.cons_append,
    walk_of_read hfirst ((Lexeme.read_append hcontent rest).1.trans hread), List.take_left,
    List.drop_left, ← hlexeme, String.ofList_toList]
  rfl

theorem walk_spread {tokens : List Token} (h : Spread tokens text)
    (hreads : ∀ token ∈ tokens, token.Rereads ∧ token.isComment = false) (position : Position) :
    (∀ item ∈ walk 0 position text, item.fault = none) ∧
      (((walk 0 position text).map ScanItem.token).filter (! ·.isComment)).map
          (Token.move fun _ => .start) =
        tokens.map (Token.move fun _ => .start) := by
  have hinvisible {comments : List ScanItem}
      (h : ∀ item ∈ comments, item.token.isComment = true ∧ item.fault = none) :
      (comments.map ScanItem.token).filter (! ·.isComment) = [] := by
    simpa using fun item hmem => (h item hmem).1
  induction h generalizing position with
  | @nil gap hgap =>
    have hgap : Spacing ('\n' :: gap) := .blank (by simp) hgap
    obtain ⟨comments, position', hwalk, hcomments⟩ := walk_spacing hgap position []
    rw [List.append_nil, walk, List.append_nil] at hwalk
    rw [hwalk, hinvisible hcomments]
    exact ⟨fun item hmem => (hcomments item hmem).2, rfl⟩
  | @cons gap text token tokens hgap h ih =>
    obtain ⟨⟨hread, hcomment⟩, hreads⟩ := List.forall_mem_cons.1 hreads
    obtain ⟨rest, rfl⟩ : ∃ rest, text = '\n' :: rest := by cases h <;> exact ⟨_, rfl⟩
    have hgap : Spacing ('\n' :: gap) := .blank (by simp) hgap
    obtain ⟨comments, position', hwalk, hcomments⟩ :=
      walk_spacing hgap position (token.lexeme.toList ++ '\n' :: rest)
    obtain ⟨hfaults, htokens⟩ := ih hreads (position'.advance token.lexeme.toList)
    rw [walk_of_rereads hread, List.cons_append] at hwalk
    rw [hwalk]
    constructor
    · rw [List.forall_mem_append, List.forall_mem_cons]
      exact ⟨fun item hmem => (hcomments item hmem).2, rfl, hfaults⟩
    · have hvisible : (! (ScanItem.mk (token.move fun _ => position') none).token.isComment) =
          true :=
        congrArg (! ·) hcomment
      rw [List.map_append, List.filter_append, hinvisible hcomments, List.nil_append, List.map_cons,
        List.filter_cons, if_pos hvisible, List.map_cons, htokens]
      rfl

end ScanItem
end TreeWalk
