import TreeWalk.Proofs.Token.Comment
import TreeWalk.Proofs.Token.Joining
import TreeWalk.Proofs.Token.Standing

/-!
This module contains the proof that block comments nest exactly: the scanner takes a comment where
the text begins with one, and else all that is left of the text.
-/

namespace TreeWalk

inductive CommentTails : Nat → List Char → Prop
  | nil : CommentTails 0 []
  | cons {count : Nat} {tail text : List Char} (htail : CommentTail tail)
    (h : CommentTails count text) :
    CommentTails (count + 1) (tail ++ text)

theorem CommentTail.cons_char {c : Char} {tail : List Char} (h : CommentTail tail)
    (rest : List Char) (hopen : ¬ ['/', '*'] <+: c :: (tail ++ rest))
    (hclose : ¬ ['*', '/'] <+: c :: (tail ++ rest)) :
    CommentTail (c :: tail) :=
  .char (fun hbegins => hopen (hbegins.trans (List.prefix_append (c :: tail) rest)))
    (fun hbegins => hclose (hbegins.trans (List.prefix_append (c :: tail) rest))) h

namespace Lexeme

variable {depth size : Nat} {text : List Char}

theorem commentTails_of_toCommentEnd? (h : toCommentEnd? depth text = some size) :
    ∃ front rest, text = front ++ rest ∧ front.length = size ∧ CommentTails (depth + 1) front := by
  fun_induction toCommentEnd? depth text generalizing size with
  | case1 => cases h
  | case2 depth text ih =>
    obtain ⟨size, hsize, rfl⟩ := Option.map_eq_some_iff.1 h
    obtain ⟨front, rest, rfl, rfl, htails⟩ := ih hsize
    -- what opens here ends first, and belongs to the comment around it
    obtain _ | @⟨_, inner, _, hinner, _ | @⟨_, tail, tails, htail, htails⟩⟩ := htails
    have hcomment := CommentTails.cons (.comment hinner htail) htails
    rw [List.cons_append, List.cons_append, List.append_assoc] at hcomment
    exact ⟨_, rest, rfl, rfl, hcomment⟩
  | case3 text =>
    cases h
    exact ⟨['*', '/'], text, rfl, rfl, .cons .close .nil⟩
  | case4 text depth ih =>
    obtain ⟨size, hsize, rfl⟩ := Option.map_eq_some_iff.1 h
    obtain ⟨front, rest, rfl, rfl, htails⟩ := ih hsize
    exact ⟨'*' :: '/' :: front, rest, rfl, rfl, .cons .close htails⟩
  | case5 depth c text hopen hclose hnested ih =>
    obtain ⟨size, hsize, rfl⟩ := Option.map_eq_some_iff.1 h
    obtain ⟨front, rest, rfl, rfl, htails⟩ := ih hsize
    obtain _ | @⟨_, tail, tails, htail, htails⟩ := htails
    refine ⟨c :: (tail ++ tails), rest, rfl, rfl,
      .cons (htail.cons_char (tails ++ rest) ?_ ?_) htails⟩
    · rintro ⟨text, hbegins⟩
      rw [← List.append_assoc] at hbegins
      obtain ⟨rfl, heq⟩ := List.cons.inj hbegins
      exact hopen text rfl heq.symm
    · rintro ⟨text, hbegins⟩
      rw [← List.append_assoc] at hbegins
      obtain ⟨rfl, heq⟩ := List.cons.inj hbegins
      cases depth with
      | zero => exact hclose text rfl rfl heq.symm
      | succ depth => exact hnested depth text rfl rfl heq.symm

theorem toCommentEnd?_eq_some_iff :
    toCommentEnd? 0 text = some size ↔
      ∃ tail rest, text = tail ++ rest ∧ tail.length = size ∧ CommentTail tail := by
  constructor
  · intro h
    obtain ⟨front, rest, rfl, rfl, htails⟩ := commentTails_of_toCommentEnd? h
    obtain _ | @⟨_, tail, _, htail, ⟨⟩⟩ := htails
    rw [List.append_nil]
    exact ⟨tail, rest, rfl, rfl, htail⟩
  · rintro ⟨tail, rest, rfl, rfl, htail⟩
    rw [htail.toCommentEnd?_append, behindClosing?, Option.map_some, Nat.zero_add]

theorem toCommentEnd?_eq_none_iff :
    toCommentEnd? 0 text = none ↔
      ∀ comment, comment <+: '/' :: '*' :: text → ¬ BlockComment comment := by
  rw [Option.eq_none_iff_forall_ne_some]
  constructor
  · rintro h _ ⟨rest, hbegins⟩ ⟨htail⟩
    have htext := (List.cons.inj (List.cons.inj hbegins).2).2
    exact h _ (toCommentEnd?_eq_some_iff.2 ⟨_, rest, htext.symm, rfl, htail⟩)
  · intro h size hsize
    obtain ⟨tail, rest, rfl, _, htail⟩ := toCommentEnd?_eq_some_iff.1 hsize
    exact h ('/' :: '*' :: tail) ⟨rest, rfl⟩ ⟨htail⟩

theorem slash_of_toCommentEnd?_eq_none (h : toCommentEnd? 0 text = none) :
    read '/' ('*' :: text) = fault ('*' :: text).length .unterminatedComment := by
  rw [read_slash, slash, h, List.length_cons, Nat.add_comm]

end Lexeme

theorem BlockComment.eq_of_prefix {text comment other : List Char} (h : BlockComment comment)
    (h' : BlockComment other) (hbegins : comment <+: text) (hbegins' : other <+: text) :
    other = comment := by
  obtain ⟨htail⟩ := h
  obtain ⟨htail'⟩ := h'
  obtain ⟨rest, rfl⟩ := hbegins
  obtain ⟨rest', heq⟩ := hbegins'
  have heq := (List.cons.inj (List.cons.inj heq).2).2
  have hsize := Lexeme.toCommentEnd?_eq_some_iff.2 ⟨_, rest, rfl, rfl, htail⟩
  have hsize' := Lexeme.toCommentEnd?_eq_some_iff.2 ⟨_, rest', heq.symm, rfl, htail'⟩
  rw [(List.append_inj heq (Option.some.inj (hsize'.symm.trans hsize))).1]

theorem scan_block_comment {source : String} {before after : List Token} {token : Token}
    {front rest : List Char} (htokens : (scan source).tokens = before ++ token :: after)
    (htext : source.toList = front ++ '/' :: '*' :: rest)
    (hplace : token.position = .behind front) :
    (∀ comment behind, '/' :: '*' :: rest = comment ++ behind → BlockComment comment →
      (∀ other, other <+: '/' :: '*' :: rest → BlockComment other → other = comment) ∧
      token = ⟨.comment, .ofList comment, none, .behind front⟩ ∧
      after = (ScanItem.walk 0 (.behind (front ++ comment)) behind).map ScanItem.token ++
        [.endOfText (.behind source.toList)]) ∧
    ((∀ comment, comment <+: '/' :: '*' :: rest → ¬ BlockComment comment) →
      token = ⟨.invalid, .ofList ('/' :: '*' :: rest), none, .behind front⟩ ∧
      after = [.endOfText (.behind source.toList)] ∧
      ∃ errors fault, (scan source).errors = errors ++ [⟨token, fault⟩] ∧
        fault.message = "Unterminated block comment.") := by
  constructor
  · intro comment behind hbegins hcomment
    refine ⟨fun other hother h => hcomment.eq_of_prefix h ⟨behind, hbegins.symm⟩ hother, ?_⟩
    obtain @⟨tail, htail⟩ := hcomment
    obtain rfl := (List.cons.inj (List.cons.inj hbegins).2).2
    obtain ⟨htoken, hafter⟩ :=
      eq_of_read_token (Lexeme.read_blockComment htail behind) htokens htext hplace
    rw [List.take_succ_cons, List.take_left] at htoken hafter
    rw [List.drop_succ_cons, List.drop_left] at hafter
    exact ⟨htoken, hafter⟩
  · intro hnone
    have hread := Lexeme.slash_of_toCommentEnd?_eq_none (Lexeme.toCommentEnd?_eq_none_iff.2 hnone)
    obtain ⟨htoken, hafter, errors, herrors⟩ := eq_of_read_fault hread htokens htext hplace
    exact ⟨htoken, hafter, errors, _, herrors, rfl⟩

theorem scan_block_comment_of_nested :
    let source := "a/*/**/*/\n/*/"
    let comment := ['/', '*', '/', '*', '*', '/', '*', '/']
    (scan source).tokens = [⟨.identifier, "a", some (.string "a"), ⟨1, 1⟩⟩,
      ⟨.comment, .ofList comment, none, ⟨1, 2⟩⟩, ⟨.invalid, "/*/", none, ⟨2, 1⟩⟩,
      .endOfText ⟨2, 4⟩] ∧
    (∀ other, other <+: comment ++ ['\n', '/', '*', '/'] → BlockComment other → other = comment) ∧
    ∃ errors fault, (scan source).errors = errors ++ [⟨⟨.invalid, "/*/", none, ⟨2, 1⟩⟩, fault⟩] ∧
      fault.message = "Unterminated block comment." := by
  intro source comment
  have htokens : (scan source).tokens = [⟨.identifier, "a", some (.string "a"), ⟨1, 1⟩⟩,
      ⟨.comment, .ofList comment, none, ⟨1, 2⟩⟩, ⟨.invalid, "/*/", none, ⟨2, 1⟩⟩,
      .endOfText ⟨2, 4⟩] := by
    decide +kernel
  have hcomment : BlockComment comment := ⟨.comment .close .close⟩
  have hnone : ∀ other, other <+: ['/', '*', '/'] → ¬ BlockComment other :=
    Lexeme.toCommentEnd?_eq_none_iff.1 rfl
  have htext : source.toList = ['a'] ++ comment ++ ['\n', '/', '*', '/'] := by decide +kernel
  have hfirst := @scan_block_comment source [_] _ _ ['a'] _ htokens htext rfl
  have hsecond :=
    @scan_block_comment source [_, _] _ _ ('a' :: (comment ++ ['\n'])) _ htokens htext rfl
  exact ⟨htokens, (hfirst.1 comment _ rfl hcomment).1, (hsecond.2 hnone).2.2⟩

end TreeWalk
