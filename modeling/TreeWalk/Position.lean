/-!
This module contains positions in a text.
-/

namespace TreeWalk

/--
A place in a text. Lines and columns count from one, columns in characters.
-/
structure Position where
  line : Nat
  column : Nat
  deriving DecidableEq

namespace Position

def start : Position := ⟨1, 1⟩

def after (position : Position) (c : Char) : Position :=
  if c = '\n' then ⟨position.line + 1, 1⟩ else ⟨position.line, position.column + 1⟩

def advance (position : Position) (text : List Char) : Position :=
  text.foldl after position

@[simp]
theorem advance_nil (position : Position) : position.advance [] = position :=
  rfl

@[simp]
theorem advance_cons (position : Position) (c : Char) (text : List Char) :
    position.advance (c :: text) = (position.after c).advance text :=
  rfl

theorem advance_append (position : Position) (text text' : List Char) :
    position.advance (text ++ text') = (position.advance text).advance text' :=
  List.foldl_append

def label (position : Position) : String :=
  s!"[line {position.line}, column {position.column}]"

end Position
end TreeWalk
