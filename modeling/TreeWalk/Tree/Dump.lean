import TreeWalk.Text.Quoted
import TreeWalk.Tree

/-!
This module contains the written form of expressions and statements that shows their structure: each
is a list in parentheses with its name or operator at the front.
-/

namespace TreeWalk

def form (head : String) (parts : List String) : String :=
  "(" ++ head ++ String.join (parts.map (" " ++ ·)) ++ ")"

def Value.dump : Value → String
  | .string s => Text.quote s
  | value => value.text

def Expr.dump : Expr → String
  | .literal value => value.dump
  | .group inner => form "group" [inner.dump]
  | .unary operator operand => form operator.lexeme [operand.dump]
  | .binary left operator right | .logical left operator right =>
    form operator.lexeme [left.dump, right.dump]
  | .name token => token.lexeme
  | .assign target value => form "assign" [target.lexeme, value.dump]

mutual

def Stmt.dump : Stmt → String
  | .print value => form "print" [value.dump]
  | .expr value => form ";" [value.dump]
  | .declare name none => form "var" [name.lexeme]
  | .declare name (some initial) => form "var" [name.lexeme, initial.dump]
  | .block body => form "block" (dumpAll body)
  | .ifThen condition body => form "if" [condition.dump, body.dump]
  | .ifElse condition body alternative => form "if" [condition.dump, body.dump, alternative.dump]
  | .whileLoop condition body => form "while" [condition.dump, body.dump]
  | .breakLoop _ => form "break" []

def Stmt.dumpAll : List Stmt → List String
  | [] => []
  | statement :: statements => statement.dump :: dumpAll statements

end

theorem Stmt.dumpAll_eq_map (statements : List Stmt) :
    dumpAll statements = statements.map dump := by
  induction statements with
  | nil => rfl
  | cons statement statements ih => simp [dumpAll, ih]

end TreeWalk
