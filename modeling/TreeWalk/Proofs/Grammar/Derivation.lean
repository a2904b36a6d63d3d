import TreeWalk.Grammar.Expression

/-!
This module contains the grammar of the language, written down on its own: which token lists are an
expression or a part of a program, and which tree they mean.
-/

namespace TreeWalk.Grammar

inductive Operator : Level → TokenKind → (Expr → Token → Expr → Expr) → Prop
  | or : Operator .or .orWord .logical
  | and : Operator .and .andWord .logical
  | notEqual : Operator .equality .bangEqual .binary
  | equal : Operator .equality .equalEqual .binary
  | less : Operator .comparison .less .binary
  | lessEqual : Operator .comparison .lessEqual .binary
  | greater : Operator .comparison .greater .binary
  | greaterEqual : Operator .comparison .greaterEqual .binary
  | plus : Operator .addition .plus .binary
  | minus : Operator .addition .minus .binary
  | slash : Operator .multiplication .slash .binary
  | star : Operator .multiplication .star .binary

inductive Precedence
  | assignment
  | operation (level : Level)
  | unary
  | primary

def Level.operand : Level → Precedence
  | or => .operation .and
  | and => .operation .equality
  | equality => .operation .comparison
  | comparison => .operation .addition
  | addition => .operation .multiplication
  | multiplication => .unary

inductive Atom (token : Token) : Expr → Prop
  | falseWord (htoken : token.kind = .falseWord) : Atom token (.literal (.boolean false))
  | trueWord (htoken : token.kind = .trueWord) : Atom token (.literal (.boolean true))
  | nilWord (htoken : token.kind = .nilWord) : Atom token (.literal .nil)
  | number {x : Float} (htoken : token.kind = .number ∨ token.kind = .string)
    (hliteral : token.literal = some (.number x)) : Atom token (.literal (.number x))
  | string {s : String} (htoken : token.kind = .number ∨ token.kind = .string)
    (hliteral : token.literal = some (.string s)) : Atom token (.literal (.string s))
  | blank (htoken : token.kind = .number ∨ token.kind = .string) (hliteral : token.literal = none) :
    Atom token (.literal .nil)
  | name (htoken : token.kind = .identifier) : Atom token (.name token)

/--
The tokens are an expression of a precedence. Operators of a level bind to the left: only the left
operand of one can be an operation of the same level.
-/
inductive Expression : Precedence → List Token → Expr → Prop
  | assign {target equals : Token} {tokens : List Token} {value : Expr}
    (htarget : target.kind = .identifier)
    (hequals : equals.kind = .equal) (hvalue : Expression .assignment tokens value) :
    Expression .assignment (target :: equals :: tokens) (.assign target value)
  | operation {tokens : List Token} {value : Expr}
    (hvalue : Expression (.operation .or) tokens value) :
    Expression .assignment tokens value
  | operand {level : Level} {tokens : List Token} {value : Expr}
    (hvalue : Expression level.operand tokens value) :
    Expression (.operation level) tokens value
  | operator {level : Level} {node : Expr → Token → Expr → Expr} {operator : Token}
    {tokens tokens' : List Token} {left right : Expr}
    (hleft : Expression (.operation level) tokens left)
    (hoperator : Operator level operator.kind node)
    (hright : Expression level.operand tokens' right) :
    Expression (.operation level) (tokens ++ operator :: tokens') (node left operator right)
  | unary {operator : Token} {tokens : List Token} {operand : Expr}
    (hoperator : operator.kind = .bang ∨ operator.kind = .minus)
    (hoperand : Expression .unary tokens operand) :
    Expression .unary (operator :: tokens) (.unary operator operand)
  | primary {tokens : List Token} {value : Expr} (hvalue : Expression .primary tokens value) :
    Expression .unary tokens value
  | atom {token : Token} {value : Expr} (hvalue : Atom token value) :
    Expression .primary [token] value
  | group {opening closing : Token} {tokens : List Token} {inner : Expr}
    (hopening : opening.kind = .leftParen) (hinner : Expression .assignment tokens inner)
    (hclosing : closing.kind = .rightParen) :
    Expression .primary (opening :: tokens ++ [closing]) (.group inner)

inductive OptionalExpression : List Token → Option Expr → Prop
  | absent : OptionalExpression [] none
  | present {tokens : List Token} {value : Expr} (hvalue : Expression .assignment tokens value) :
    OptionalExpression tokens (some value)

inductive Symbol
  | declarations
  | declaration
  | varDeclaration
  | statement (dangling : Bool)
  | expressionStatement
  | initializer

@[reducible]
def Symbol.Tree : Symbol → Type
  | declarations => List Stmt
  | initializer => Option Stmt
  | declaration | varDeclaration | statement _ | expressionStatement => Stmt

/--
The tokens are a phrase for the symbol. A statement is `dangling` if an `if` without an `else` ends
it. The rules leave open to which of several such `if`s an `else` belongs; with `nearest` it belongs
to the last one.
-/
inductive Phrase (nearest : Bool) : (symbol : Symbol) → List Token → symbol.Tree → Prop
  | nil : Phrase nearest .declarations [] []
  | cons {first rest : List Token} {statement : Stmt} {statements : List Stmt}
    (hfirst : Phrase nearest .declaration first statement)
    (hrest : Phrase nearest .declarations rest statements) :
    Phrase nearest .declarations (first ++ rest) (statement :: statements)
  | varDeclaration {tokens : List Token} {statement : Stmt}
    (h : Phrase nearest .varDeclaration tokens statement) :
    Phrase nearest .declaration tokens statement
  | statement {dangling : Bool} {tokens : List Token} {statement : Stmt}
    (h : Phrase nearest (.statement dangling) tokens statement) :
    Phrase nearest .declaration tokens statement
  | declare {keyword name semicolon : Token} (hkeyword : keyword.kind = .varWord)
    (hname : name.kind = .identifier) (hsemicolon : semicolon.kind = .semicolon) :
    Phrase nearest .varDeclaration [keyword, name, semicolon] (.declare name none)
  | define {keyword name equals semicolon : Token} {tokens : List Token} {initial : Expr}
    (hkeyword : keyword.kind = .varWord) (hname : name.kind = .identifier)
    (hequals : equals.kind = .equal) (hinitial : Expression .assignment tokens initial)
    (hsemicolon : semicolon.kind = .semicolon) :
    Phrase nearest .varDeclaration (keyword :: name :: equals :: tokens ++ [semicolon])
      (.declare name (some initial))
  | expressionStatement {tokens : List Token} {statement : Stmt}
    (h : Phrase nearest .expressionStatement tokens statement) :
    Phrase nearest (.statement false) tokens statement
  | expression {tokens : List Token} {semicolon : Token} {value : Expr}
    (hvalue : Expression .assignment tokens value) (hsemicolon : semicolon.kind = .semicolon) :
    Phrase nearest .expressionStatement (tokens ++ [semicolon]) (.expr value)
  | print {keyword semicolon : Token} {tokens : List Token} {value : Expr}
    (hkeyword : keyword.kind = .printWord) (hvalue : Expression .assignment tokens value)
    (hsemicolon : semicolon.kind = .semicolon) :
    Phrase nearest (.statement false) (keyword :: tokens ++ [semicolon]) (.print value)
  | block {opening closing : Token} {tokens : List Token} {body : List Stmt}
    (hopening : opening.kind = .leftBrace) (hbody : Phrase nearest .declarations tokens body)
    (hclosing : closing.kind = .rightBrace) :
    Phrase nearest (.statement false) (opening :: tokens ++ [closing]) (.block body)
  | ifThen {keyword opening closing : Token} {tokens tokens' : List Token} {condition : Expr}
    {body : Stmt} {dangling : Bool} (hkeyword : keyword.kind = .ifWord)
    (hopening : opening.kind = .leftParen) (hcondition : Expression .assignment tokens condition)
    (hclosing : closing.kind = .rightParen)
    (hbody : Phrase nearest (.statement dangling) tokens' body) :
    Phrase nearest (.statement true) (keyword :: opening :: tokens ++ closing :: tokens')
      (.ifThen condition body)
  | ifElse {keyword opening closing otherwise : Token} {tokens tokens' tokens'' : List Token}
    {condition : Expr} {body alternative : Stmt} {dangling dangling' : Bool}
    (hkeyword : keyword.kind = .ifWord) (hopening : opening.kind = .leftParen)
    (hcondition : Expression .assignment tokens condition) (hclosing : closing.kind = .rightParen)
    (hbody : Phrase nearest (.statement dangling) tokens' body)
    (hnearest : nearest = true → dangling = false) (hotherwise : otherwise.kind = .elseWord)
    (halternative : Phrase nearest (.statement dangling') tokens'' alternative) :
    Phrase nearest (.statement dangling')
      (keyword :: opening :: tokens ++ closing :: tokens' ++ otherwise :: tokens'')
      (.ifElse condition body alternative)
  | whileLoop {keyword opening closing : Token} {tokens tokens' : List Token} {condition : Expr}
    {body : Stmt} {dangling : Bool} (hkeyword : keyword.kind = .whileWord)
    (hopening : opening.kind = .leftParen) (hcondition : Expression .assignment tokens condition)
    (hclosing : closing.kind = .rightParen)
    (hbody : Phrase nearest (.statement dangling) tokens' body) :
    Phrase nearest (.statement dangling) (keyword :: opening :: tokens ++ closing :: tokens')
      (.whileLoop condition body)
  | forLoop {keyword opening semicolon closing : Token} {start test step tokens : List Token}
    {initializer : Option Stmt} {condition increment : Option Expr} {body : Stmt} {dangling : Bool}
    (hkeyword : keyword.kind = .forWord) (hopening : opening.kind = .leftParen)
    (hinitializer : Phrase nearest .initializer start initializer)
    (hcondition : OptionalExpression test condition) (hsemicolon : semicolon.kind = .semicolon)
    (hincrement : OptionalExpression step increment) (hclosing : closing.kind = .rightParen)
    (hbody : Phrase nearest (.statement dangling) tokens body) :
    Phrase nearest (.statement dangling)
      (keyword :: opening :: start ++ test ++ semicolon :: step ++ closing :: tokens)
      (let round := increment.elim body fun next => .block [body, .expr next]
      let loop := .whileLoop (condition.getD (.literal (.boolean true))) round
      initializer.elim loop fun first => .block [first, loop])
  | breakLoop {keyword semicolon : Token} (hkeyword : keyword.kind = .breakWord)
    (hsemicolon : semicolon.kind = .semicolon) :
    Phrase nearest (.statement false) [keyword, semicolon] (.breakLoop keyword)
  | noInitializer {semicolon : Token} (hsemicolon : semicolon.kind = .semicolon) :
    Phrase nearest .initializer [semicolon] none
  | varInitializer {tokens : List Token} {statement : Stmt}
    (h : Phrase nearest .varDeclaration tokens statement) :
    Phrase nearest .initializer tokens (some statement)
  | expressionInitializer {tokens : List Token} {statement : Stmt}
    (h : Phrase nearest .expressionStatement tokens statement) :
    Phrase nearest .initializer tokens (some statement)

end TreeWalk.Grammar
