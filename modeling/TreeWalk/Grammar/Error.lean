import TreeWalk.Token

/-!
This module contains the errors in a list of tokens that is no program, and their wording.
-/

namespace TreeWalk

/--
What stands at a place in a list of tokens: a token, or the end of the list. The end is reported at
the last token in front of it.
-/
inductive Found
  | token (token : Token)
  | endOfInput (last : Token)
  deriving DecidableEq

namespace Found

def blamed : Found → Token
  | token blamed | endOfInput blamed => blamed

def text : Found → String
  | token found => s!"'{found.text}'"
  | endOfInput _ => "end of input"

end Found

inductive ParseError
  | expected (kind : TokenKind) (found : Found)
  | expectedExpression (found : Found)
  | invalidTarget (equals : Token)
  deriving DecidableEq

namespace ParseError

def token : ParseError → Token
  | expected _ found | expectedExpression found => found.blamed
  | invalidTarget equals => equals

def message : ParseError → String
  | expected kind found => s!"Expected '{kind.spelling}' but found {found.text}"
  | expectedExpression found => s!"Expected expression but found {found.text}"
  | invalidTarget _ => "Invalid assignment target"

def place (error : ParseError) : String :=
  if error.token.kind = .eof then "at end" else s!"at '{error.token.lexeme}'"

def text (error : ParseError) : String :=
  s!"{error.token.position.label} {error.place}: {error.message}"

end ParseError
end TreeWalk
