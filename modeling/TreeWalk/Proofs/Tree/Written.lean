import TreeWalk.Grammar.Expression

/-!
This module contains the trees that are written in given tokens: each of their tokens is one of
these, and its kind is one that may stand at its place. Each of their numbers is what one of these
tokens stands for.
-/

namespace TreeWalk

open Grammar (Level)

def Expr.logicalOperators : List TokenKind :=
  [Level.or, .and].flatMap Level.operators

def Expr.binaryOperators : List TokenKind :=
  [Level.equality, .comparison, .addition, .multiplication].flatMap Level.operators

variable (tokens : List Token)

inductive Expr.WrittenIn : Expr → Prop
  | literal {value : Value}
    (hnumber : ∀ x, value = .number x → ∃ token ∈ tokens, token.literal = some (.number x)) :
    WrittenIn (literal value)
  | group {inner : Expr} (hinner : inner.WrittenIn) : WrittenIn (group inner)
  | unary {operator : Token} {operand : Expr} (hmem : operator ∈ tokens)
    (hkind : operator.kind ∈ [.bang, .minus]) (hoperand : operand.WrittenIn) :
    WrittenIn (unary operator operand)
  | binary {left right : Expr} {operator : Token} (hmem : operator ∈ tokens)
    (hkind : operator.kind ∈ binaryOperators) (hleft : left.WrittenIn) (hright : right.WrittenIn) :
    WrittenIn (binary left operator right)
  | logical {left right : Expr} {operator : Token} (hmem : operator ∈ tokens)
    (hkind : operator.kind ∈ logicalOperators) (hleft : left.WrittenIn) (hright : right.WrittenIn) :
    WrittenIn (logical left operator right)
  | name {token : Token} (hmem : token ∈ tokens) (hkind : token.kind = .identifier) :
    WrittenIn (name token)
  | assign {target : Token} {value : Expr} (hmem : target ∈ tokens)
    (hkind : target.kind = .identifier) (hvalue : value.WrittenIn) : WrittenIn (assign target value)

inductive Stmt.WrittenIn : Stmt → Prop
  | print {value : Expr} (hvalue : value.WrittenIn tokens) : WrittenIn (print value)
  | expr {value : Expr} (hvalue : value.WrittenIn tokens) : WrittenIn (expr value)
  | declare {name : Token} {initial : Option Expr} (hmem : name ∈ tokens)
    (hkind : name.kind = .identifier) (hinitial : ∀ value ∈ initial, value.WrittenIn tokens) :
    WrittenIn (declare name initial)
  | block {body : List Stmt} (hbody : ∀ statement ∈ body, statement.WrittenIn) :
    WrittenIn (block body)
  | ifThen {condition : Expr} {body : Stmt} (hcondition : condition.WrittenIn tokens)
    (hbody : body.WrittenIn) :
    WrittenIn (ifThen condition body)
  | ifElse {condition : Expr} {body alternative : Stmt} (hcondition : condition.WrittenIn tokens)
    (hbody : body.WrittenIn) (halternative : alternative.WrittenIn) :
    WrittenIn (ifElse condition body alternative)
  | whileLoop {condition : Expr} {body : Stmt} (hcondition : condition.WrittenIn tokens)
    (hbody : body.WrittenIn) :
    WrittenIn (whileLoop condition body)
  | breakLoop {keyword : Token} (hmem : keyword ∈ tokens) (hkind : keyword.kind = .breakWord) :
    WrittenIn (breakLoop keyword)

variable {tokens}

theorem Expr.writtenIn_node {level : Level} {left right : Expr} {operator : Token}
    (hmem : operator ∈ tokens) (hkind : operator.kind ∈ level.operators)
    (hleft : left.WrittenIn tokens) (hright : right.WrittenIn tokens) :
    (level.node left operator right).WrittenIn tokens := by
  cases level with
  | or | and => exact .logical hmem (List.mem_flatMap_of_mem (by decide) hkind) hleft hright
  | equality | comparison | addition | multiplication =>
    exact .binary hmem (List.mem_flatMap_of_mem (by decide) hkind) hleft hright

theorem Stmt.writtenIn_block_pair {first second : Stmt} (hfirst : first.WrittenIn tokens)
    (hsecond : second.WrittenIn tokens) : (block [first, second]).WrittenIn tokens := by
  apply WrittenIn.block
  simp [hfirst, hsecond]

theorem Stmt.writtenIn_forLoop {initializer : Option Stmt} {condition increment : Option Expr}
    {body : Stmt} (hinitializer : ∀ statement ∈ initializer, statement.WrittenIn tokens)
    (hcondition : ∀ value ∈ condition, value.WrittenIn tokens)
    (hincrement : ∀ value ∈ increment, value.WrittenIn tokens) (hbody : body.WrittenIn tokens) :
    (forLoop initializer condition increment body).WrittenIn tokens := by
  have htest : (condition.getD (.literal (.boolean true))).WrittenIn tokens := by
    cases condition with
    | none => exact .literal nofun
    | some condition => exact hcondition condition rfl
  have hloop : (forLoop none condition increment body).WrittenIn tokens := by
    apply WrittenIn.whileLoop htest
    cases increment with
    | none => exact hbody
    | some increment => exact writtenIn_block_pair hbody (.expr (hincrement increment rfl))
  cases initializer with
  | none => exact hloop
  | some initializer => exact writtenIn_block_pair (hinitializer initializer rfl) hloop

end TreeWalk
