import TreeWalk.Proofs.Token.Place
import TreeWalk.Proofs.Token.Scanner

/-!
This module contains what each part of the scanner comes to: moving past a number of characters at
once, and recording a token then.
-/

namespace TreeWalk.Scanner

theorem take_length_takeWhile {α : Type} (p : α → Bool) (items : List α) :
    items.take (items.takeWhile p).length = items.takeWhile p :=
  (List.prefix_iff_eq_take.1 (List.takeWhile_prefix p)).symm

theorem drop_length_takeWhile {α : Type} (p : α → Bool) (items : List α) :
    items.drop (items.takeWhile p).length = items.dropWhile p := by
  have h : (items.takeWhile p ++ items.dropWhile p).drop (items.takeWhile p).length =
      items.dropWhile p :=
    List.drop_left
  rwa [List.takeWhile_append_dropWhile] at h

@[simp]
theorem rest_skip (s : Scanner) (count : Nat) :
    (s.skip count).cursor.rest = s.cursor.rest.drop count :=
  Cursor.rest_forward s.cursor count

@[simp]
theorem skip_zero (s : Scanner) : s.skip 0 = s := by
  simp [skip]

@[simp]
theorem skip_skip (s : Scanner) (count count' : Nat) :
    (s.skip count).skip count' = s.skip (count + count') := by
  simp only [skip, Cursor.forward_forward, Cursor.rest_forward, List.take_add,
    Position.advance_append]

theorem skip_of_length_le {s : Scanner} {count : Nat} (h : s.cursor.rest.length ≤ count) :
    s.skip count = s.skip s.cursor.rest.length := by
  simp only [skip, Cursor.forward_of_length_le h, List.take_of_length_le h, List.take_length]

theorem nextIf_eq (s : Scanner) (expected : Char) :
    s.nextIf expected =
      if s.cursor.rest.head? = some expected then (true, s.skip 1) else (false, s) := by
  unfold nextIf Cursor.skipIf
  rw [Cursor.peek_eq, Cursor.advance_eq]
  cases hrest : s.cursor.rest with
  | nil => rfl
  | cons c rest =>
    by_cases h : c = expected
    · simp [h, skip, hrest]
    · simp [h]

theorem bumpWhile_eq (wanted : Char → Bool) (s : Scanner) :
    s.bumpWhile wanted = s.skip (s.cursor.rest.takeWhile wanted).length := by
  fun_induction bumpWhile wanted s with
  | case1 s hpeek =>
    rw [Cursor.peek_eq, List.head?_eq_none_iff] at hpeek
    simp [hpeek]
  | case2 s c hpeek hwanted ih =>
    rw [Cursor.peek_eq, List.head?_eq_some_iff] at hpeek
    obtain ⟨rest, hrest⟩ := hpeek
    rw [ih, bump_eq, rest_skip, skip_skip, hrest, List.takeWhile_cons_of_pos hwanted,
      List.length_cons, Nat.add_comm]
    rfl
  | case3 s c hpeek hwanted =>
    rw [Cursor.peek_eq, List.head?_eq_some_iff] at hpeek
    obtain ⟨rest, hrest⟩ := hpeek
    rw [hrest, List.takeWhile_cons_of_neg hwanted, List.length_nil, skip_zero]

theorem lineComment_eq (s : Scanner) :
    s.lineComment =
      (s.skip (s.cursor.rest.takeWhile (· ≠ '\n')).length).addToken .comment none := by
  have hpassed : s.cursor.rest.takeWhile (fun c => ! decide (c = '\n')) =
      s.cursor.rest.takeWhile (· ≠ '\n') := by
    simp only [ne_eq, decide_not]
  have hline : '\n' ∉ s.cursor.rest.takeWhile (· ≠ '\n') := by
    intro h
    have hall := List.all_eq_true.1 List.all_takeWhile _ h
    exact absurd hall (by decide)
  -- without a line break the characters that are passed only add to the column
  unfold lineComment skip
  rw [Cursor.advanceUntil_eq, hpassed, take_length_takeWhile, Position.advance_of_not_mem hline]

def close (s : Scanner) (kind : TokenKind) (fault : Fault) :
    Option (Nat × Option Literal) → Option Scanner
  | some (size, literal) => (s.skip size).addToken kind literal
  | none => (s.skip s.cursor.rest.length).addError fault

theorem close_skip {s : Scanner} {count : Nat} (h : count ≤ s.cursor.rest.length) (kind : TokenKind)
    (fault : Fault) (found : Option (Nat × Option Literal)) :
    (s.skip count).close kind fault found =
      s.close kind fault (found.map fun (size, literal) => (size + count, literal)) := by
  cases found with
  | some found => simp only [close, Option.map_some, skip_skip, Nat.add_comm]
  | none =>
    have hlength : count + (s.cursor.rest.length - count) = s.cursor.rest.length := by omega
    simp only [close, Option.map_none, rest_skip, List.length_drop, skip_skip, hlength]

theorem bump_bump (s : Scanner) : s.bump.2.bump.2 = s.skip 2 := by
  simp only [bump_eq, skip_skip]

theorem toCommentEnd?_cons {depth : Nat} {c : Char} {text : List Char}
    (hopen : text.head? = some '*' → c = '/' → False)
    (hclose : text.head? = some '/' → c = '*' → False) :
    Lexeme.toCommentEnd? depth (c :: text) = (Lexeme.toCommentEnd? depth text).map (· + 1) := by
  rw [Lexeme.toCommentEnd?]
  · rintro text rfl rfl
    exact hopen rfl rfl
  · rintro text rfl rfl rfl
    exact hclose rfl rfl
  · rintro depth' text rfl rfl rfl
    exact hclose rfl rfl

theorem blockComment_eq (depth : Nat) (s : Scanner) :
    s.blockComment depth =
      s.close .comment .unterminatedComment
        ((Lexeme.toCommentEnd? depth s.cursor.rest).map (·, none)) := by
  fun_induction blockComment depth s with
  | case1 depth s hpeek =>
    rw [Cursor.peek_eq, List.head?_eq_none_iff] at hpeek
    simp [hpeek, Lexeme.toCommentEnd?, close]
  | case2 depth s hpeek hnext ih =>
    obtain ⟨text, hrest⟩ := Cursor.rest_of_peek_peekAt hpeek hnext
    rw [ih, bump_bump, close_skip (by simp [hrest]), rest_skip, hrest, List.drop_succ_cons,
      List.drop_succ_cons, List.drop_zero, Lexeme.toCommentEnd?, Option.map_map, Option.map_map]
    rfl
  | case3 s hpeek hnext =>
    obtain ⟨text, hrest⟩ := Cursor.rest_of_peek_peekAt hpeek hnext
    rw [bump_bump, hrest]
    rfl
  | case4 s hpeek hnext depth ih =>
    obtain ⟨text, hrest⟩ := Cursor.rest_of_peek_peekAt hpeek hnext
    rw [ih, bump_bump, close_skip (by simp [hrest]), rest_skip, hrest, List.drop_succ_cons,
      List.drop_succ_cons, List.drop_zero, Lexeme.toCommentEnd?, Option.map_map, Option.map_map]
    rfl
  | case5 depth s c hpeek hopen hclose ih =>
    obtain ⟨text, hrest⟩ := Cursor.rest_of_peek hpeek
    rw [Cursor.peekAt_one, hrest, List.getElem?_cons_succ, ← List.head?_eq_getElem?] at hopen hclose
    rw [ih, bump_eq, close_skip (by simp [hrest]), rest_skip, hrest, List.drop_succ_cons,
      List.drop_zero, toCommentEnd?_cons hopen hclose, Option.map_map, Option.map_map]
    rfl

theorem toStringEnd?_cons {c : Char} {text : List Char} (hquote : c = '"' → False)
    (hbackslash : c = '\\' → False) :
    Lexeme.toStringEnd? (c :: text) =
      (Lexeme.toStringEnd? text).map fun (size, value) => (size + 1, c :: value) := by
  rw [Lexeme.toStringEnd?]
  · exact hquote
  · intro h _
    exact hbackslash h
  · intro _ _ h _
    exact hbackslash h

theorem string_eq (value : List Char) (s : Scanner) :
    s.string value = s.close .string .unterminatedString
      ((Lexeme.toStringEnd? s.cursor.rest).map fun (size, value') =>
        (size, some (.string (.ofList (value ++ value'))))) := by
  fun_induction string value s with
  | case1 value s hbump =>
    rw [bump_eq, List.head?_eq_none_iff] at hbump
    have hskip : s.skip 1 = s.skip 0 := by
      rw [skip_of_length_le (by simp [hbump]), hbump, List.length_nil]
    simp [hbump, Lexeme.toStringEnd?, close, bump_eq, hskip]
  | case2 value s hbump =>
    rw [bump_eq, List.head?_eq_some_iff] at hbump
    obtain ⟨text, hrest⟩ := hbump
    simp [hrest, Lexeme.toStringEnd?, close, bump_eq]
  | case3 value s hbump hbump' =>
    rw [bump_eq, List.head?_eq_some_iff] at hbump
    obtain ⟨text, hrest⟩ := hbump
    simp only [bump_eq, rest_skip, hrest, List.drop_succ_cons, List.drop_zero,
      List.head?_eq_none_iff] at hbump'
    subst hbump'
    -- the text ends behind the backslash, and the second move stays where it is
    have hskip : s.skip 2 = s.skip 1 := by
      rw [skip_of_length_le (by simp [hrest]), hrest, List.length_singleton]
    simp only [bump_bump, hskip, hrest, Lexeme.toStringEnd?, close, Option.map_none,
      List.length_singleton]
  | case4 value s hbump c hbump' ih =>
    rw [bump_eq, List.head?_eq_some_iff] at hbump
    obtain ⟨text, hrest⟩ := hbump
    simp only [bump_eq, rest_skip, hrest, List.drop_succ_cons, List.drop_zero] at hbump'
    obtain ⟨text, rfl⟩ := List.head?_eq_some_iff.1 hbump'
    rw [ih, bump_bump, close_skip (by simp [hrest]), rest_skip, hrest, List.drop_succ_cons,
      List.drop_succ_cons, List.drop_zero, Lexeme.toStringEnd?, Option.map_map, Option.map_map]
    simp only [Function.comp_def, List.append_assoc]
  | case5 value s c hquote hbackslash hbump ih =>
    rw [bump_eq, List.head?_eq_some_iff] at hbump
    obtain ⟨text, hrest⟩ := hbump
    rw [ih, bump_eq, close_skip (by simp [hrest]), rest_skip, hrest, List.drop_succ_cons,
      List.drop_zero, toStringEnd?_cons hquote hbackslash, Option.map_map, Option.map_map]
    simp only [Function.comp_def, List.append_assoc, List.singleton_append]

end TreeWalk.Scanner
