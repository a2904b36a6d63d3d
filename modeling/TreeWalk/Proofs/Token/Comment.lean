import TreeWalk.Proofs.Token.Skip

/-!
This module contains the grammar of block comments, and that the scanner finds the end of what it
derives.
-/

namespace TreeWalk

/--
What follows the opening of a block comment: comments and single characters up to a closing. At a
single character neither an opening nor a closing starts.
-/
inductive CommentTail : List Char → Prop
  | close : CommentTail ['*', '/']
  | comment {inner text : List Char} (hinner : CommentTail inner) (h : CommentTail text) :
    CommentTail ('/' :: '*' :: (inner ++ text))
  | char {c : Char} {text : List Char} (hopen : ¬ ['/', '*'] <+: c :: text)
    (hclose : ¬ ['*', '/'] <+: c :: text) (h : CommentTail text) : CommentTail (c :: text)

inductive BlockComment : List Char → Prop
  | mk {text : List Char} (h : CommentTail text) : BlockComment ('/' :: '*' :: text)

theorem CommentTail.ne_nil {text : List Char} (h : CommentTail text) : text ≠ [] := by
  cases h <;> exact List.cons_ne_nil _ _

def Lexeme.behindClosing? : Nat → List Char → Option Nat
  | 0, _ => some 0
  | depth + 1, text => toCommentEnd? depth text

theorem CommentTail.toCommentEnd?_append {text : List Char} (h : CommentTail text) (depth : Nat)
    (rest : List Char) :
    Lexeme.toCommentEnd? depth (text ++ rest) =
      (Lexeme.behindClosing? depth rest).map (· + text.length) := by
  induction h generalizing depth rest with
  | close => cases depth <;> rfl
  | @comment inner text _ _ ihinner ih =>
    rw [List.cons_append, List.cons_append, List.append_assoc, Lexeme.toCommentEnd?, ihinner,
      Lexeme.behindClosing?, ih, Option.map_map, Option.map_map]
    congr 1
    funext size
    simp only [Function.comp_apply, List.length_cons, List.length_append]
    omega
  | @char c text hopen hclose htail ih =>
    -- the character behind this one is in the comment, whatever follows
    obtain ⟨next, text, rfl⟩ := List.exists_cons_of_ne_nil htail.ne_nil
    rw [List.cons_append, Scanner.toCommentEnd?_cons, ih, Option.map_map]
    · rfl
    · rintro ⟨⟩ rfl
      exact hopen ⟨text, rfl⟩
    · rintro ⟨⟩ rfl
      exact hclose ⟨text, rfl⟩

namespace Lexeme

theorem read_slash (text : List Char) : read '/' text = slash text :=
  rfl

theorem read_blockComment {tail : List Char} (h : CommentTail tail) (rest : List Char) :
    read '/' ('*' :: (tail ++ rest)) = token (tail.length + 1) .comment none := by
  have hend : toCommentEnd? 0 (tail ++ rest) = some tail.length := by
    rw [h.toCommentEnd?_append, behindClosing?, Option.map_some, Nat.zero_add]
  rw [read_slash, slash, hend]
  simp only [Nat.add_comm]

end Lexeme
end TreeWalk
