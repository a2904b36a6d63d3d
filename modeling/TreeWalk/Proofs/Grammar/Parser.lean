import TreeWalk.Grammar.Program
import TreeWalk.Proofs.Cursor.Rest

/-!
This module contains a parser that moves over a list of tokens one by one. It meets comments and the
end marker where they stand, and after an error its cursor looks for a place to go on at, without
regard to comments until it is there.
-/

namespace TreeWalk

namespace Cursor

def skipComments (cursor : Cursor Token) : Cursor Token :=
  match _ : cursor.skipIf (·.kind = .comment) with
  | (true, cursor') => skipComments cursor'
  | (false, cursor') => cursor'
termination_by cursor.rest.length
decreasing_by
  rename_i hskip
  obtain ⟨rfl, _, hpeek, _⟩ := of_skipIf_true hskip
  exact length_rest_advance_lt hpeek

/--
Pass tokens up to a place where a statement may begin: behind a semicolon, or in front of a keyword.
Comments have the same claim to be passed as all other tokens.
-/
def synchronize (cursor : Cursor Token) : Cursor Token :=
  match _ : cursor.peek with
  | none => cursor.skipComments
  | some token =>
    if token.kind = .eof then
      cursor.skipComments
    else
      match _ : cursor.skipIf (·.kind = .semicolon) with
      | (true, cursor) => cursor.skipComments
      | (false, cursor) =>
        match _ : cursor.skipIf (·.kind.startsStatement) with
        | (true, cursor) => (cursor.rewind 1).skipComments
        | (false, cursor) => synchronize cursor.advance
termination_by cursor.rest.length
decreasing_by
  rename_i hpeek _ _ hsemicolon hstart
  obtain ⟨rfl, _⟩ := of_skipIf_false hsemicolon
  obtain ⟨rfl, _⟩ := of_skipIf_false hstart
  exact length_rest_advance_lt hpeek

theorem skipComments_of_comment {cursor : Cursor Token} {token : Token}
    (hpeek : cursor.peek = some token) (hcomment : token.kind = .comment) :
    cursor.skipComments = cursor.advance.skipComments := by
  rw [skipComments]
  split
  · next hskip => rw [(of_skipIf_true hskip).1]
  · next hskip => simp [skipIf, hpeek, hcomment] at hskip

theorem skipComments_of_settled {cursor : Cursor Token}
    (h : ∀ token ∈ cursor.peek, token.kind ≠ .comment) :
    cursor.skipComments = cursor := by
  rw [skipComments]
  split
  · next hskip =>
    obtain ⟨_, token, hpeek, hcomment⟩ := of_skipIf_true hskip
    exact absurd (by simpa using hcomment) (h token hpeek)
  · next hskip => exact (of_skipIf_false hskip).1

theorem synchronize_of_eof {cursor : Cursor Token} (h : ∀ token ∈ cursor.peek, token.kind = .eof) :
    cursor.synchronize = cursor.skipComments := by
  rw [synchronize]
  split
  · rfl
  · next token hpeek => rw [if_pos (h token hpeek)]

theorem synchronize_of_ne_eof {cursor : Cursor Token} {token : Token}
    (hpeek : cursor.peek = some token) (heof : token.kind ≠ .eof) :
    cursor.synchronize =
      if token.kind = .semicolon then cursor.advance.skipComments
      else if token.kind.startsStatement then cursor.skipComments
      else cursor.advance.synchronize := by
  have hskip (wanted : Token → Bool) :
      cursor.skipIf wanted = if wanted token then (true, cursor.advance) else (false, cursor) := by
    rw [skipIf, hpeek]
    rfl
  rw [synchronize]
  split
  · next hnone => simp [hpeek] at hnone
  · next token' hpeek' =>
    obtain rfl : token = token' := Option.some.inj (hpeek.symm.trans hpeek')
    rw [if_neg heof]
    by_cases hsemicolon : token.kind = .semicolon
    · rw [if_pos hsemicolon]
      split
      · next h => rw [(of_skipIf_true h).1]
      · next h => simp [hskip, hsemicolon] at h
    rw [if_neg hsemicolon]
    split
    · next h => simp [hskip, hsemicolon] at h
    · next h =>
      obtain ⟨rfl, _⟩ := of_skipIf_false h
      split
      · next hstart =>
        obtain ⟨rfl, _, hpeek'', hstart⟩ := of_skipIf_true hstart
        obtain rfl := Option.some.inj (hpeek.symm.trans hpeek'')
        rw [if_pos hstart, rewind_advance hpeek]
      · next hstart =>
        obtain ⟨rfl, hstart⟩ := of_skipIf_false hstart
        rw [if_neg (by simp [hstart token hpeek])]

end Cursor

structure Parser where
  cursor : Cursor Token
  errors : List ParseError

abbrev Parsing := ExceptT ParseError (StateT Parser Option)

namespace Parser

def kind (p : Parser) : TokenKind :=
  match p.cursor.peek with
  | some token => token.kind
  | none => .eof

def found (p : Parser) : Found :=
  match p.cursor.peek with
  | some token => .token token
  | none => .endOfInput ((p.cursor.peekAt (-1)).getD (.endOfText .start))

def advance (p : Parser) : Option Token × Parser :=
  match p.cursor.consume with
  | (token, cursor) => (token, { p with cursor := cursor.skipComments })

def accept (kinds : List TokenKind) (p : Parser) : Option Token × Parser :=
  if p.kind ∈ kinds then p.advance else (none, p)

def report (error : ParseError) (p : Parser) : Unit × Parser :=
  ((), { p with errors := p.errors ++ [error] })

end Parser

namespace Parsing

def kind : Parsing TokenKind := do
  return (← get).kind

def advance : Parsing (Option Token) :=
  modifyGet Parser.advance

def accept (kinds : List TokenKind) : Parsing (Option Token) :=
  modifyGet (Parser.accept kinds)

def report (error : ParseError) : Parsing Unit :=
  modifyGet (Parser.report error)

def consume (kind : TokenKind) : Parsing Token := do
  let p ← get
  match p.cursor.peek with
  | some token =>
    if token.kind = kind then
      let _ ← advance
      return token
    else
      throw (.expected kind p.found)
  | none => throw (.expected kind p.found)

def exhausted {α : Type} : Parsing α := fun _ =>
  none

open Grammar (ForHeader Level literalValue)

mutual

def assignment : (bound : Nat) → Parsing Expr
  | 0 => exhausted
  | bound + 1 => do
    let left ← operation Level.all bound
    match ← accept [.equal] with
    | none => return left
    | some equals =>
      match left with
      | .name target =>
        let value ← assignment bound
        return .assign target value
      | _ =>
        report (.invalidTarget equals)
        assignment bound

def operation (levels : List Level) : (bound : Nat) → Parsing Expr
  | 0 => exhausted
  | bound + 1 =>
    match levels with
    | [] => unary bound
    | first :: tighter => do
      let left ← operation tighter bound
      operations first tighter left bound

def operations (first : Level) (tighter : List Level) (left : Expr) : (bound : Nat) → Parsing Expr
  | 0 => exhausted
  | bound + 1 => do
    match ← accept first.operators with
    | none => return left
    | some operator =>
      let right ← operation tighter bound
      operations first tighter (first.node left operator right) bound

def unary : (bound : Nat) → Parsing Expr
  | 0 => exhausted
  | bound + 1 => do
    match ← accept [.bang, .minus] with
    | some operator =>
      let operand ← unary bound
      return .unary operator operand
    | none => primary bound

def primary : (bound : Nat) → Parsing Expr
  | 0 => exhausted
  | bound + 1 => do
    let p ← get
    match p.cursor.peek with
    | none => throw (.expectedExpression p.found)
    | some token =>
      match token.kind with
      | .falseWord =>
        let _ ← advance
        return .literal (.boolean false)
      | .trueWord =>
        let _ ← advance
        return .literal (.boolean true)
      | .nilWord =>
        let _ ← advance
        return .literal .nil
      | .number | .string =>
        let _ ← advance
        return .literal (literalValue token.literal)
      | .identifier =>
        let _ ← advance
        return .name token
      | .leftParen =>
        let _ ← advance
        let inner ← assignment bound
        let _ ← consume .rightParen
        return .group inner
      | _ => throw (.expectedExpression p.found)

end

def expressionStatement (bound : Nat) : Parsing Stmt := do
  let value ← assignment bound
  let _ ← consume .semicolon
  return .expr value

def printStatement (bound : Nat) : Parsing Stmt := do
  let value ← assignment bound
  let _ ← consume .semicolon
  return .print value

def varDeclaration (bound : Nat) : Parsing Stmt := do
  let name ← consume .identifier
  match ← accept [.equal] with
  | some _ =>
    let initial ← assignment bound
    let _ ← consume .semicolon
    return .declare name (some initial)
  | none =>
    let _ ← consume .semicolon
    return .declare name none

def condition (bound : Nat) : Parsing Expr := do
  let _ ← consume .leftParen
  let value ← assignment bound
  let _ ← consume .rightParen
  return value

def forInitializer (bound : Nat) : Parsing (Option Stmt) := do
  match ← accept [.semicolon] with
  | some _ => return none
  | none =>
    match ← accept [.varWord] with
    | some _ => return some (← varDeclaration bound)
    | none => return some (← expressionStatement bound)

def expressionUnless (closing : TokenKind) (bound : Nat) : Parsing (Option Expr) := do
  if (← kind) = closing then
    return none
  else
    return some (← assignment bound)

def forHeader (bound : Nat) : Parsing ForHeader := do
  let _ ← consume .leftParen
  let initializer ← forInitializer bound
  let test ← expressionUnless .semicolon bound
  let _ ← consume .semicolon
  let increment ← expressionUnless .rightParen bound
  let _ ← consume .rightParen
  return ⟨initializer, test, increment⟩

mutual

def declaration : (bound : Nat) → Parsing Stmt
  | 0 => exhausted
  | bound + 1 => do
    match ← accept [.varWord] with
    | some _ => varDeclaration bound
    | none => statement bound

def statement : (bound : Nat) → Parsing Stmt
  | 0 => exhausted
  | bound + 1 => do
    match ← kind with
    | .printWord =>
      let _ ← advance
      printStatement bound
    | .leftBrace =>
      let _ ← advance
      return .block (← block bound)
    | .ifWord =>
      let _ ← advance
      let test ← condition bound
      let body ← statement bound
      match ← accept [.elseWord] with
      | some _ =>
        let alternative ← statement bound
        return .ifElse test body alternative
      | none => return .ifThen test body
    | .whileWord =>
      let _ ← advance
      let test ← condition bound
      let body ← statement bound
      return .whileLoop test body
    | .forWord =>
      let _ ← advance
      let header ← forHeader bound
      let body ← statement bound
      return .forLoop header.initializer header.condition header.increment body
    | .breakWord =>
      let keyword ← consume .breakWord
      let _ ← consume .semicolon
      return .breakLoop keyword
    | _ => expressionStatement bound

def block : (bound : Nat) → Parsing (List Stmt)
  | 0 => exhausted
  | bound + 1 => do
    let next ← kind
    if next = .rightBrace ∨ next = .eof then
      let _ ← consume .rightBrace
      return []
    else
      let member ← declaration bound
      let others ← block bound
      return member :: others

end

end Parsing

namespace Parser

/--
Read statements up to the end. Behind an error the parser goes on at the next place to do so, but
never where it began.
-/
def statements : (bound : Nat) → Parser → Option (List Stmt × Parser)
  | 0, _ => none
  | bound + 1, p =>
    if p.kind = .eof then
      some ([], p)
    else
      match Parsing.declaration bound p with
      | none => none
      | some (.ok statement, p) =>
        (statements bound p).map fun (others, p) => (statement :: others, p)
      | some (.error cause, p') =>
        let p' : Parser := ⟨p'.cursor.synchronize, p'.errors ++ [cause]⟩
        statements bound (if p'.cursor.head = p.cursor.head then p'.advance.2 else p')

/--
Parse a list of tokens. There is no answer if the calls of the parser nest deeper than the bound.
-/
def run (bound : Nat) (tokens : List Token) : Option Parsed :=
  (statements bound ⟨(Cursor.ofList tokens).skipComments, []⟩).map fun (statements, p) =>
    ⟨statements, p.errors⟩

end Parser

end TreeWalk
