import TreeWalk.Grammar.Error
import TreeWalk.Tree

/-!
This module contains trees and errors in which each token is exchanged for another one.
-/

namespace TreeWalk

def Expr.mapTokens (f : Token → Token) : Expr → Expr
  | literal value => literal value
  | group inner => group (inner.mapTokens f)
  | unary operator operand => unary (f operator) (operand.mapTokens f)
  | binary left operator right => binary (left.mapTokens f) (f operator) (right.mapTokens f)
  | logical left operator right => logical (left.mapTokens f) (f operator) (right.mapTokens f)
  | name token => name (f token)
  | assign target value => assign (f target) (value.mapTokens f)

theorem Expr.mapTokens_id (expr : Expr) : expr.mapTokens id = expr := by
  induction expr with
  | literal | name => rfl
  | group inner ih | unary operator inner ih | assign target inner ih =>
    simp only [mapTokens, ih, id_eq]
  | binary left operator right ihleft ihright | logical left operator right ihleft ihright =>
    simp only [mapTokens, ihleft, ihright, id_eq]

namespace Stmt

mutual

def mapTokens (f : Token → Token) : Stmt → Stmt
  | print value => print (value.mapTokens f)
  | expr value => expr (value.mapTokens f)
  | declare name initial => declare (f name) (initial.map (Expr.mapTokens f))
  | block body => block (mapAllTokens f body)
  | ifThen condition body => ifThen (condition.mapTokens f) (body.mapTokens f)
  | ifElse condition body alternative =>
    ifElse (condition.mapTokens f) (body.mapTokens f) (alternative.mapTokens f)
  | whileLoop condition body => whileLoop (condition.mapTokens f) (body.mapTokens f)
  | breakLoop keyword => breakLoop (f keyword)

def mapAllTokens (f : Token → Token) : List Stmt → List Stmt
  | [] => []
  | statement :: statements => statement.mapTokens f :: mapAllTokens f statements

end

theorem mapAllTokens_eq_map (f : Token → Token) (statements : List Stmt) :
    mapAllTokens f statements = statements.map (mapTokens f) := by
  induction statements with
  | nil => rfl
  | cons statement statements ih => rw [mapAllTokens, ih, List.map_cons]

mutual

theorem mapTokens_id (statement : Stmt) : statement.mapTokens id = statement := by
  cases statement with
  | print value | expr value => rw [mapTokens, value.mapTokens_id]
  | declare name initial => cases initial <;> simp [mapTokens, Expr.mapTokens_id]
  | block body => rw [mapTokens, mapAllTokens_id body]
  | ifThen condition body | whileLoop condition body =>
    rw [mapTokens, condition.mapTokens_id, mapTokens_id body]
  | ifElse condition body alternative =>
    rw [mapTokens, condition.mapTokens_id, mapTokens_id body, mapTokens_id alternative]
  | breakLoop keyword => rfl

theorem mapAllTokens_id (statements : List Stmt) : mapAllTokens id statements = statements := by
  cases statements with
  | nil => rfl
  | cons statement statements =>
    rw [mapAllTokens, mapTokens_id statement, mapAllTokens_id statements]

end

theorem mapTokens_forLoop (f : Token → Token) (initializer : Option Stmt)
    (condition increment : Option Expr) (body : Stmt) :
    (forLoop initializer condition increment body).mapTokens f =
      forLoop (initializer.map (mapTokens f)) (condition.map (Expr.mapTokens f))
        (increment.map (Expr.mapTokens f)) (body.mapTokens f) := by
  cases initializer <;> cases condition <;> cases increment <;> rfl

end Stmt

def ParseError.exchange (f : Token → Token) (g : Found → Found) : ParseError → ParseError
  | expected kind found => expected kind (g found)
  | expectedExpression found => expectedExpression (g found)
  | invalidTarget equals => invalidTarget (f equals)

theorem ParseError.exchange_id (error : ParseError) : error.exchange id id = error := by
  cases error <;> rfl

end TreeWalk
