import TreeWalk.Proofs.Tree.Form
import TreeWalk.Tree.Dump

/-!
This module contains the forms that trees are written in.
-/

namespace TreeWalk

def Value.toForm : Value → Form
  | .string s => .quoted s.toList
  | value => .atom value.text.toList

def Expr.toForm : Expr → Form
  | .literal value => value.toForm
  | .group inner => .node "group".toList [inner.toForm]
  | .unary operator operand => .node operator.lexeme.toList [operand.toForm]
  | .binary left operator right | .logical left operator right =>
    .node operator.lexeme.toList [left.toForm, right.toForm]
  | .name token => .atom token.lexeme.toList
  | .assign target value => .node "assign".toList [.atom target.lexeme.toList, value.toForm]

mutual

def Stmt.toForm : Stmt → Form
  | .print value => .node "print".toList [value.toForm]
  | .expr value => .node ";".toList [value.toForm]
  | .declare name none => .node "var".toList [.atom name.lexeme.toList]
  | .declare name (some initial) => .node "var".toList [.atom name.lexeme.toList, initial.toForm]
  | .block body => .node "block".toList (toForms body)
  | .ifThen condition body => .node "if".toList [condition.toForm, body.toForm]
  | .ifElse condition body alternative =>
    .node "if".toList [condition.toForm, body.toForm, alternative.toForm]
  | .whileLoop condition body => .node "while".toList [condition.toForm, body.toForm]
  | .breakLoop _ => .node "break".toList []

def Stmt.toForms : List Stmt → List Form
  | [] => []
  | statement :: statements => statement.toForm :: toForms statements

end

theorem Stmt.toForms_eq_map (statements : List Stmt) :
    toForms statements = statements.map toForm := by
  induction statements with
  | nil => rfl
  | cons statement statements ih => rw [toForms, ih, List.map_cons]

theorem toList_form {head : String} {parts : List String} {forms : List Form}
    (h : parts.map String.toList = forms.map Form.written) :
    (form head parts).toList = (Form.node head.toList forms).written := by
  have hparts : (String.join (parts.map (" " ++ ·))).toList =
      (parts.map String.toList).flatMap (' ' :: ·) := by
    rw [String.toList_join, List.flatMap_map, List.flatMap_map]
    simp only [String.toList_append]
    rfl
  rw [form, String.toList_append, String.toList_append, String.toList_append, hparts, h,
    Form.written, Form.writtenAll_eq]
  simp

theorem Value.toList_dump (value : Value) : value.dump.toList = value.toForm.written := by
  cases value with
  | string s => exact String.toList_ofList
  | nil | boolean | number => rfl

theorem Expr.toList_dump (expr : Expr) : expr.dump.toList = expr.toForm.written := by
  induction expr with
  | literal value => exact value.toList_dump
  | name => rfl
  | group inner ih | unary operator inner ih => exact toList_form (by simp [ih])
  | binary left operator right ihleft ihright | logical left operator right ihleft ihright =>
    exact toList_form (by simp [ihleft, ihright])
  | assign target value ih => exact toList_form (by simp [ih, Form.written])

mutual

theorem Stmt.toList_dump (statement : Stmt) : statement.dump.toList = statement.toForm.written := by
  cases statement with
  | print value | expr value => exact toList_form (by simp [value.toList_dump])
  | declare name initial =>
    cases initial with
    | none => exact toList_form (by simp [Form.written])
    | some initial => exact toList_form (by simp [Form.written, initial.toList_dump])
  | block body => exact toList_form (Stmt.map_toList_dumpAll body)
  | ifThen condition body | whileLoop condition body =>
    exact toList_form (by simp [condition.toList_dump, body.toList_dump])
  | ifElse condition body alternative =>
    exact toList_form (by simp [condition.toList_dump, body.toList_dump, alternative.toList_dump])
  | breakLoop keyword => exact toList_form rfl

theorem Stmt.map_toList_dumpAll (statements : List Stmt) :
    (Stmt.dumpAll statements).map String.toList = (Stmt.toForms statements).map Form.written := by
  cases statements with
  | nil => rfl
  | cons statement statements =>
    rw [Stmt.dumpAll, Stmt.toForms, List.map_cons, List.map_cons, Stmt.toList_dump statement,
      Stmt.map_toList_dumpAll statements]

end

end TreeWalk
