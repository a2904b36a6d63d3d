import TreeWalk.Token.Lexeme

/-!
This module contains the cutting of a text into tokens. Nothing stops it: a piece that is no token
becomes a token of the kind `invalid`, with the fault beside it.
-/

namespace TreeWalk

structure ScanItem where
  token : Token
  fault : Option Fault

namespace ScanItem

def ofLexeme (position : Position) (first : Char) (text : List Char) (lexeme : Lexeme) : ScanItem :=
  let written := String.ofList (first :: text.take lexeme.more)
  match lexeme.content with
  | .ok (kind, literal) => ⟨⟨kind, written, literal, position⟩, none⟩
  | .error fault => ⟨⟨.invalid, written, none, position⟩, some fault⟩

/--
The items of a text that begins at a given place and whose first `inside` characters belong to a
lexeme that has been read already.
-/
def walk : Nat → Position → List Char → List ScanItem
  | _, _, [] => []
  | inside + 1, position, c :: text => walk inside (position.after c) text
  | 0, position, c :: text =>
    if Lexeme.isSeparator c then
      walk 0 (position.after c) text
    else
      let lexeme := Lexeme.read c text
      ofLexeme position c text lexeme :: walk lexeme.more (position.after c) text

theorem walk_eq (inside : Nat) (position : Position) (text : List Char) :
    walk inside position text =
      walk 0 (position.advance (text.take inside)) (text.drop inside) := by
  induction text generalizing inside position with
  | nil => cases inside <;> simp [walk]
  | cons c text ih =>
    cases inside with
    | zero => simp
    | succ inside => simp [walk, ih inside]

end ScanItem

structure ScanError where
  token : Token
  fault : Fault

def ScanError.text (error : ScanError) : String :=
  s!"{error.token.position.label} at '{error.token.lexeme}': {error.fault.message}"

structure Scanned where
  items : List ScanItem
  finish : Position

namespace Scanned

def tokens (scanned : Scanned) : List Token :=
  scanned.items.map ScanItem.token ++ [.endOfText scanned.finish]

def errors (scanned : Scanned) : List ScanError :=
  scanned.items.filterMap fun item => item.fault.map (⟨item.token, ·⟩)

def isValid (scanned : Scanned) : Bool :=
  scanned.errors.isEmpty

end Scanned

def scan (source : String) : Scanned :=
  ⟨ScanItem.walk 0 .start source.toList, Position.start.advance source.toList⟩

end TreeWalk
