import TreeWalk.Environment
import TreeWalk.Evaluation.Operation
import TreeWalk.Tree

/-!
This module contains the evaluation of expressions. An expression may assign to names, also when it
fails later on.
-/

namespace TreeWalk

def Environment.read (environment : Environment) (name : Token) : Except EvalError Value :=
  match environment.get? name.lexeme with
  | some value => .ok value
  | none => .error ⟨name, .undefinedName⟩

def Environment.assign (environment : Environment) (name : Token) (value : Value) :
    Except EvalError Environment :=
  match environment.assign? name.lexeme value with
  | some environment => .ok environment
  | none => .error ⟨name, .undefinedName⟩

/--
Something that is computed in an environment and may change it.
-/
abbrev Evaluation := EStateM EvalError Environment

namespace Evaluation

def answer {α : Type} : Except EvalError α → Evaluation α
  | .ok result => pure result
  | .error error => throw error

def read (name : Token) : Evaluation Value := do
  answer ((← get).read name)

def assign (name : Token) (value : Value) : Evaluation Unit := do
  set (← answer ((← get).assign name value))

end Evaluation

def Expr.eval : Expr → Evaluation Value
  | .literal value => pure value
  | .group inner => inner.eval
  | .unary operator operand => do
    let value ← operand.eval
    Evaluation.answer (Operation.unary operator value)
  | .binary left operator right => do
    let a ← left.eval
    let b ← right.eval
    Evaluation.answer (Operation.binary operator a b)
  | .logical left operator right => do
    let a ← left.eval
    match ← Evaluation.answer (Operation.decided? operator a) with
    | some value => pure value
    | none => right.eval
  | .name token => Evaluation.read token
  | .assign target expr => do
    let value ← expr.eval
    Evaluation.assign target value
    pure value

end TreeWalk
