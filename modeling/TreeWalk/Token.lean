import TreeWalk.Position
import TreeWalk.Token.Kind

/-!
This module contains tokens and the relation in which two tokens count as the same.
-/

namespace TreeWalk

inductive Literal
  | number (value : Float)
  | string (value : String)
  deriving DecidableEq

/--
Numbers are the same if they compare equal, so zero is the same with either sign and no number is
the same as what is not a number.
-/
def Literal.same : Literal → Literal → Bool
  | .number x, .number y => x == y
  | .string s, .string t => s = t
  | _, _ => false

structure Token where
  kind : TokenKind
  lexeme : String
  literal : Option Literal
  position : Position
  deriving DecidableEq

namespace Token

def endOfText (position : Position) : Token :=
  ⟨.eof, "", none, position⟩

/--
Tokens are the same if their kinds and literals are, wherever they were read.
-/
def same (a b : Token) : Bool :=
  a.kind = b.kind &&
    match a.literal, b.literal with
    | none, none => true
    | some x, some y => x.same y
    | _, _ => false

def isComment (token : Token) : Bool :=
  token.kind = .comment

/--
How messages show a token: as it was written, or by the name of its kind if nothing was written.
-/
def text (token : Token) : String :=
  if token.lexeme = "" then token.kind.name else token.lexeme

end Token
end TreeWalk
