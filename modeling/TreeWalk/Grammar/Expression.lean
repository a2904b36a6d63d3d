import TreeWalk.Tree
import TreeWalk.Grammar.Reply

/-!
This module contains the reading of an expression at the front of a list of tokens.
-/

namespace TreeWalk.Grammar

inductive Level
  | or | and | equality | comparison | addition | multiplication
  deriving DecidableEq

namespace Level

def operators : Level → List TokenKind
  | or => [.orWord]
  | and => [.andWord]
  | equality => [.bangEqual, .equalEqual]
  | comparison => [.greater, .greaterEqual, .less, .lessEqual]
  | addition => [.minus, .plus]
  | multiplication => [.slash, .star]

def node (level : Level) (left : Expr) (operator : Token) (right : Expr) : Expr :=
  match level with
  | or | and => .logical left operator right
  | _ => .binary left operator right

def all : List Level :=
  [or, and, equality, comparison, addition, multiplication]

end Level

def literalValue : Option Literal → Value
  | none => .nil
  | some (.number x) => .number x
  | some (.string s) => .string s

variable (ending : Found)

mutual

/--
An expression: a name, an equals sign and an expression, or operands on the loosest level. An equals
sign behind anything else than a name is reported, and the expression behind it is read in place of
both.
-/
def assignment (tokens : List Token) : Reply Expr 1 tokens :=
  (level Level.all tokens).andThen fun left rest _ =>
    match rest with
    | [] => .done left []
    | token :: rest =>
      if token.kind = .equal then
        match left with
        | .name target => ((assignment rest).map (.assign target)).behind token |>.weaken
        -- what stands in front of the equals sign is dropped
        | _ => ((assignment rest).report (.invalidTarget token)).behind token |>.weaken
      else
        .done left (token :: rest)
termination_by (tokens.length, Level.all.length + 3)
decreasing_by
  · decreasing_tactic
  all_goals
    apply Prod.Lex.left
    simp only [List.length_cons] at *
    omega

/--
An operand on the first of some levels: operands of the other levels with operators of this one
between them.
-/
def level (levels : List Level) (tokens : List Token) : Reply Expr 1 tokens :=
  match levels with
  | [] => unary tokens
  | first :: tighter =>
    (level tighter tokens).andThen fun left rest _ => operations first tighter left rest
termination_by (tokens.length, levels.length + 2)

def operations (first : Level) (tighter : List Level) (left : Expr) (tokens : List Token) :
    Reply Expr 0 tokens :=
  match tokens with
  | [] => .done left []
  | token :: rest =>
    if token.kind ∈ first.operators then
      ((level tighter rest).andThen fun right rest _ =>
        operations first tighter (first.node left token right) rest).behind token |>.weaken
    else
      .done left (token :: rest)
termination_by (tokens.length, 0)

def unary (tokens : List Token) : Reply Expr 1 tokens :=
  match tokens with
  | [] => primary []
  | token :: rest =>
    if token.kind = .bang ∨ token.kind = .minus then
      ((unary rest).map (.unary token)).behind token
    else
      primary (token :: rest)
termination_by (tokens.length, 1)

def primary (tokens : List Token) : Reply Expr 1 tokens :=
  match tokens with
  | [] => .fail (.expectedExpression ending) []
  | token :: rest =>
    match token.kind with
    | .falseWord => .first (.literal (.boolean false)) token rest
    | .trueWord => .first (.literal (.boolean true)) token rest
    | .nilWord => .first (.literal .nil) token rest
    | .number | .string => .first (.literal (literalValue token.literal)) token rest
    | .identifier => .first (.name token) token rest
    | .leftParen =>
      ((assignment rest).andThen fun inner rest _ =>
        (Reply.expect ending .rightParen rest).map fun _ => .group inner).behind token
    | _ => .fail (.expectedExpression (.token token)) (token :: rest)
termination_by (tokens.length, 0)

end

end TreeWalk.Grammar
