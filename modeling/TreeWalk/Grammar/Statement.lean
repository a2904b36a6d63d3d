import TreeWalk.Grammar.Expression

/-!
This module contains the reading of a statement at the front of a list of tokens.
-/

namespace TreeWalk.Grammar

variable (ending : Found)

def expressionStatement (tokens : List Token) : Reply Stmt 1 tokens :=
  (assignment ending tokens).andThen fun value rest _ =>
    (Reply.expect ending .semicolon rest).map fun _ => .expr value

def printStatement (tokens : List Token) : Reply Stmt 1 tokens :=
  (assignment ending tokens).andThen fun value rest _ =>
    (Reply.expect ending .semicolon rest).map fun _ => .print value

def declarationOf (tokens : List Token) : Reply Stmt 1 tokens :=
  (Reply.expect ending .identifier tokens).andThen fun name rest _ =>
    (Reply.accept .equal rest).andThen fun equals rest _ =>
      match equals with
      | none => ((Reply.expect ending .semicolon rest).map fun _ => .declare name none).weaken
      | some _ =>
        ((assignment ending rest).andThen fun initial rest _ =>
          (Reply.expect ending .semicolon rest).map fun _ => .declare name (some initial)).weaken

def condition (tokens : List Token) : Reply Expr 1 tokens :=
  (Reply.expect ending .leftParen tokens).andThen fun _ rest _ =>
    (assignment ending rest).andThen fun value rest _ =>
      (Reply.expect ending .rightParen rest).map fun _ => value

def expressionUnless (closing : TokenKind) (tokens : List Token) : Reply (Option Expr) 0 tokens :=
  match tokens with
  | [] => ((assignment ending []).map some).weaken
  | token :: rest =>
    if token.kind = closing then
      .done none (token :: rest)
    else
      ((assignment ending (token :: rest)).map some).weaken

structure ForHeader where
  initializer : Option Stmt
  condition : Option Expr
  increment : Option Expr

def forInitializer (tokens : List Token) : Reply (Option Stmt) 1 tokens :=
  match tokens with
  | [] => (expressionStatement ending []).map some
  | token :: rest =>
    if token.kind = .semicolon then
      .first none token rest
    else if token.kind = .varWord then
      ((declarationOf ending rest).map some).behind token
    else
      (expressionStatement ending (token :: rest)).map some

def forHeader (tokens : List Token) : Reply ForHeader 1 tokens :=
  (Reply.expect ending .leftParen tokens).andThen fun _ rest _ =>
    (forInitializer ending rest).andThen fun initializer rest _ =>
      (expressionUnless ending .semicolon rest).andThen fun condition rest _ =>
        (Reply.expect ending .semicolon rest).andThen fun _ rest _ =>
          (expressionUnless ending .rightParen rest).andThen fun increment rest _ =>
            (Reply.expect ending .rightParen rest).map fun _ => ⟨initializer, condition, increment⟩

mutual

/--
A member of a block or program: a declaration or another statement. Only here a name can be
declared, so the body of a branch or loop cannot be a declaration.
-/
def declaration (tokens : List Token) : Reply Stmt 1 tokens :=
  match tokens with
  | [] => statement []
  | token :: rest =>
    if token.kind = .varWord then
      (declarationOf ending rest).behind token
    else
      statement (token :: rest)
termination_by (tokens.length, 1)

def statement (tokens : List Token) : Reply Stmt 1 tokens :=
  match tokens with
  | [] => expressionStatement ending []
  | token :: rest =>
    match token.kind with
    | .printWord => (printStatement ending rest).behind token
    | .leftBrace => ((members rest).map .block).behind token
    | .ifWord =>
      ((condition ending rest).andThen fun condition rest _ =>
        (statement rest).andThen fun body rest _ =>
          (Reply.accept .elseWord rest).andThen fun otherwise rest _ =>
            match otherwise with
            | none => .done (.ifThen condition body) rest
            | some _ => ((statement rest).map (.ifElse condition body)).weaken).behind token
    | .whileWord =>
      ((condition ending rest).andThen fun condition rest _ =>
        (statement rest).map (.whileLoop condition)).behind token
    | .forWord =>
      ((forHeader ending rest).andThen fun header rest _ =>
        (statement rest).map
          (.forLoop header.initializer header.condition header.increment)).behind token
    | .breakWord =>
      ((Reply.expect ending .semicolon rest).map fun _ => .breakLoop token).behind token
    | _ => expressionStatement ending (token :: rest)
termination_by (tokens.length, 0)

def members (tokens : List Token) : Reply (List Stmt) 1 tokens :=
  match tokens with
  | [] => .fail (.expected .rightBrace ending) []
  | token :: rest =>
    if token.kind = .rightBrace then
      .first [] token rest
    else
      (declaration (token :: rest)).andThen fun member rest _ =>
        (members rest).map (member :: ·)
termination_by (tokens.length, 2)

end

end TreeWalk.Grammar
