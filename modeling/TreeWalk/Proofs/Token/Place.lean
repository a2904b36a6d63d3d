import TreeWalk.Token

/-!
This module contains the place behind a text in terms of its line breaks, and tokens that are moved
to other places.
-/

namespace TreeWalk

def Token.move (place : Position → Position) (token : Token) : Token :=
  { token with position := place token.position }

@[simp]
theorem Token.kind_move (place : Position → Position) (token : Token) :
    (token.move place).kind = token.kind :=
  rfl

@[simp]
theorem Token.lexeme_move (place : Position → Position) (token : Token) :
    (token.move place).lexeme = token.lexeme :=
  rfl

@[simp]
theorem Token.literal_move (place : Position → Position) (token : Token) :
    (token.move place).literal = token.literal :=
  rfl

namespace Position

/--
The place behind a text: one more than the line breaks in it, and one more than the characters since
the last of them.
-/
def behind (text : List Char) : Position :=
  ⟨1 + text.count '\n', 1 + (text.reverse.takeWhile (· ≠ '\n')).length⟩

theorem after_behind (text : List Char) (c : Char) :
    (behind text).after c = behind (text ++ [c]) := by
  unfold behind after
  rw [List.count_append, List.reverse_append]
  by_cases h : c = '\n'
  · simp [h, Nat.add_assoc]
  · simp [h, Nat.add_assoc]

theorem advance_behind (text text' : List Char) :
    (behind text).advance text' = behind (text ++ text') := by
  induction text' generalizing text with
  | nil => rw [advance_nil, List.append_nil]
  | cons c text' ih => rw [advance_cons, after_behind, ih, List.append_assoc, List.singleton_append]

theorem advance_start (text : List Char) : start.advance text = behind text :=
  advance_behind [] text

theorem advance_of_not_mem {position : Position} {text : List Char} (h : '\n' ∉ text) :
    position.advance text = { position with column := position.column + text.length } := by
  induction text generalizing position with
  | nil => rfl
  | cons c text ih =>
    rw [List.mem_cons, not_or] at h
    rw [advance_cons, ih h.2, after, if_neg (Ne.symm h.1), List.length_cons, Nat.add_assoc,
      Nat.add_comm 1]

theorem eq_nil_of_behind_append {front between : List Char}
    (h : behind (front ++ between) = behind front) :
    between = [] := by
  by_cases hbreak : '\n' ∈ between
  · have hline := congrArg line h
    simp only [behind, List.count_append] at hline
    have hpos := List.count_pos_iff.2 hbreak
    omega
  · have hcolumn := congrArg column h
    rw [← advance_behind, advance_of_not_mem hbreak] at hcolumn
    exact List.length_eq_zero_iff.1 (Nat.add_eq_left.1 hcolumn)

theorem eq_of_behind_eq {text front front' : List Char} (hfront : front <+: text)
    (hfront' : front' <+: text) (h : behind front = behind front') : front = front' := by
  obtain ⟨between, rfl⟩ | ⟨between, rfl⟩ := List.prefix_or_prefix_of_prefix hfront hfront'
  · rw [eq_nil_of_behind_append h.symm, List.append_nil]
  · rw [eq_nil_of_behind_append h, List.append_nil]

def down (lines : Nat) (position : Position) : Position :=
  ⟨position.line + lines, position.column⟩

theorem after_down (lines : Nat) (position : Position) (c : Char) :
    (position.down lines).after c = (position.after c).down lines := by
  unfold after down
  split <;> simp [Nat.add_right_comm]

theorem advance_line_break (text : List Char) :
    start.advance (text ++ ['\n']) = start.down (1 + text.count '\n') := by
  rw [advance_start, behind, down, List.reverse_append]
  simp [start, Nat.add_comm, Nat.add_left_comm]

end Position
end TreeWalk
