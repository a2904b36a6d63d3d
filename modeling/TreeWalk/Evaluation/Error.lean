import TreeWalk.Sink
import TreeWalk.Token
import TreeWalk.Value

/-!
This module contains the errors of a running program, and their wording.
-/

namespace TreeWalk

/--
Why something cannot be evaluated. What it concerns is the token that the error refers to.
-/
inductive EvalError.Cause
  | undefinedName
  | expectedNumber (received : ValueType)
  | expectedNumbers (left right : ValueType)
  | expectedNumbersOrStrings (left right : ValueType)
  | zeroDivision
  | unknownOperator
  | strayBreak
  deriving DecidableEq

structure EvalError where
  token : Token
  cause : EvalError.Cause
  deriving DecidableEq

namespace EvalError

def detail (error : EvalError) : String :=
  match error.cause with
  | .undefinedName => s!"Undefined variable '{error.token.lexeme}'"
  | .expectedNumber received =>
    s!"{error.token.kind.name} was expecting (<number>) instead received (<{received.name}>)"
  | .expectedNumbers left right =>
    s!"{error.token.kind.name} was expecting (<number>, <number>) instead received (<{left.name}>, <{right.name}>)"
  | .expectedNumbersOrStrings left right =>
    s!"{error.token.kind.name} was expecting (<number>, <number>) or (<string>, <string>) " ++
      s!"instead received (<{left.name}>, <{right.name}>)"
  | .zeroDivision => "Zero division error"
  | .unknownOperator => s!"operator {error.token.kind.name} is not implemented"
  | .strayBreak => "break statement seen outside of a loop"

def text (error : EvalError) : String :=
  let position := error.token.position
  s!"Runtime error at evaluation of {error.token.kind.name} ({position.line}: {position.column}): {error.detail}"

end EvalError

inductive RuntimeError
  | evaluation (error : EvalError)
  | output
  deriving DecidableEq

def RuntimeError.text : RuntimeError → String
  | evaluation error => error.text
  | output => s!"failed to write program output: {Sink.fullMessage}"

end TreeWalk
