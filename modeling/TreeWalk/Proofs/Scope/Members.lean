import TreeWalk.Proofs.Execution.Frames
import TreeWalk.Proofs.Grammar.Parsing
import TreeWalk.Proofs.Scope.Site

/-!
This module contains the statements whose declarations are members of blocks, or of the program, and
of nothing else. All statements that are read from tokens are of this kind.
-/

namespace TreeWalk

inductive Stmt.Scoped : Stmt → Prop
  | print {value : Expr} : Scoped (.print value)
  | expr {value : Expr} : Scoped (.expr value)
  | declare {name : Token} {initial : Option Expr} : Scoped (.declare name initial)
  | block {body : List Stmt} (h : ∀ statement ∈ body, statement.Scoped) : Scoped (.block body)
  | ifThen {condition : Expr} {body : Stmt} (h : body.Scoped) (hown : body.ownName? = none) :
    Scoped (.ifThen condition body)
  | ifElse {condition : Expr} {body alternative : Stmt} (h : body.Scoped)
    (hown : body.ownName? = none) (h' : alternative.Scoped) (hown' : alternative.ownName? = none) :
    Scoped (.ifElse condition body alternative)
  | whileLoop {condition : Expr} {body : Stmt} (h : body.Scoped) (hown : body.ownName? = none) :
    Scoped (.whileLoop condition body)
  | breakLoop {keyword : Token} : Scoped (.breakLoop keyword)

def Task.Scoped : Task → Prop
  | one statement => statement.Scoped
  | all statements => ∀ statement ∈ statements, statement.Scoped
  | loop condition body _ => (Stmt.whileLoop condition body).Scoped

theorem Stmt.Scoped.declared_eq {statement : Stmt} (h : statement.Scoped) :
    statement.declared = statement.ownName?.toList := by
  induction h with
  | ifThen _ hown ih =>
    rw [declared, ih, hown]
    rfl
  | ifElse _ hown _ hown' ih ih' =>
    rw [declared, ih, ih', hown, hown']
    rfl
  | whileLoop _ hown ih =>
    rw [declared, ih, hown]
    rfl
  | _ => rfl

theorem Stmt.scoped_round {body : Stmt} (hbody : body.Scoped) (hown : body.ownName? = none)
    (increment : Option Expr) :
    let round := increment.elim body fun next => block [body, .expr next]
    round.Scoped ∧ round.ownName? = none := by
  cases increment with
  | none => exact ⟨hbody, hown⟩
  | some next =>
    refine ⟨.block ?_, rfl⟩
    simp only [List.forall_mem_cons]
    exact ⟨hbody, .expr, nofun⟩

theorem Stmt.scoped_initialized {initializer : Option Stmt} {loop : Stmt}
    (hinitializer : ∀ statement ∈ initializer, statement.Scoped) (hloop : loop.Scoped)
    (hown : loop.ownName? = none) :
    let whole := initializer.elim loop fun first => block [first, loop]
    whole.Scoped ∧ whole.ownName? = none := by
  cases initializer with
  | none => exact ⟨hloop, hown⟩
  | some first =>
    refine ⟨.block ?_, rfl⟩
    simp only [List.forall_mem_cons]
    exact ⟨hinitializer first rfl, hloop, nofun⟩

namespace Grammar

def Symbol.Scoped : (symbol : Symbol) → symbol.Tree → Prop
  | .declarations, tree => ∀ statement ∈ tree, statement.Scoped
  | .initializer, tree => ∀ statement ∈ tree, statement.Scoped
  | .declaration, tree => tree.Scoped
  | .varDeclaration, tree => tree.Scoped
  | .statement _, tree => tree.Scoped ∧ tree.ownName? = none
  | .expressionStatement, tree => tree.Scoped ∧ tree.ownName? = none

theorem phrase_scoped {nearest : Bool} {symbol : Symbol} {tokens : List Token} {tree : symbol.Tree}
    (h : Phrase nearest symbol tokens tree) : symbol.Scoped tree := by
  induction h with
  | nil => exact nofun
  | cons _ _ ih ih' => exact List.forall_mem_cons.2 ⟨ih, ih'⟩
  | varDeclaration _ ih => exact ih
  | statement _ ih => exact ih.1
  | declare => exact Stmt.Scoped.declare
  | define => exact Stmt.Scoped.declare
  | expressionStatement _ ih => exact ih
  | expression => exact ⟨.expr, rfl⟩
  | print => exact ⟨.print, rfl⟩
  | block _ _ _ ih => exact ⟨.block ih, rfl⟩
  | ifThen _ _ _ _ _ ih => exact ⟨.ifThen ih.1 ih.2, rfl⟩
  | ifElse _ _ _ _ _ _ _ _ ih ih' => exact ⟨.ifElse ih.1 ih.2 ih'.1 ih'.2, rfl⟩
  | whileLoop _ _ _ _ _ ih => exact ⟨.whileLoop ih.1 ih.2, rfl⟩
  | forLoop _ _ _ _ _ _ _ _ ih ih' =>
    obtain ⟨hround, hown⟩ := Stmt.scoped_round ih'.1 ih'.2 _
    exact Stmt.scoped_initialized ih (.whileLoop hround hown) rfl
  | breakLoop => exact ⟨.breakLoop, rfl⟩
  | noInitializer => exact nofun
  | varInitializer _ ih =>
    rintro _ ⟨⟩
    exact ih
  | expressionInitializer _ ih =>
    rintro _ ⟨⟩
    exact ih.1

end Grammar

theorem scoped_of_parse {tokens : List Token} (h : (parse tokens).isValid) :
    ∀ statement ∈ (parse tokens).statements, statement.Scoped :=
  Grammar.phrase_scoped (Grammar.parse_iff.1 ⟨h, rfl⟩)

end TreeWalk
