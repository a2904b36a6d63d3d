import TreeWalk.Token
import TreeWalk.Value

/-!
This module contains expressions and statements. They keep the tokens of their operators, names and
breaks, which errors refer to.
-/

namespace TreeWalk

inductive Expr
  | literal (value : Value)
  | group (inner : Expr)
  | unary (operator : Token) (operand : Expr)
  | binary (left : Expr) (operator : Token) (right : Expr)
  | logical (left : Expr) (operator : Token) (right : Expr)
  | name (token : Token)
  | assign (target : Token) (value : Expr)

inductive Stmt
  | print (value : Expr)
  | expr (value : Expr)
  | declare (name : Token) (initial : Option Expr)
  | block (body : List Stmt)
  | ifThen (condition : Expr) (body : Stmt)
  | ifElse (condition : Expr) (body alternative : Stmt)
  | whileLoop (condition : Expr) (body : Stmt)
  | breakLoop (keyword : Token)

namespace Stmt

/--
The loop with an initializer, a condition and an increment. It stands for a `while` loop: the
increment follows the body in a block of their own, a missing condition is true, and an initializer
opens a block around the loop.
-/
def forLoop (initializer : Option Stmt) (condition increment : Option Expr) (body : Stmt) : Stmt :=
  let body := match increment with
    | none => body
    | some increment => block [body, expr increment]
  let loop := whileLoop (condition.getD (.literal (.boolean true))) body
  match initializer with
  | none => loop
  | some initializer => block [initializer, loop]

end Stmt
end TreeWalk
