/-!
This module contains the kinds of tokens, their names, and their spelling where a kind has only one.
-/

namespace TreeWalk

inductive TokenKind
  | leftParen | rightParen | leftBrace | rightBrace
  | comma | dot | minus | plus | semicolon | slash | star
  | bang | bangEqual | equal | equalEqual | greater | greaterEqual | less | lessEqual
  | identifier | string | number
  | andWord | classWord | elseWord | falseWord | forWord | funWord | ifWord | nilWord | orWord
  | printWord | returnWord | superWord | thisWord | trueWord | varWord | whileWord | breakWord
  | comment | invalid | eof
  deriving DecidableEq

namespace TokenKind

def name : TokenKind → String
  | leftParen => "LEFT_PAREN"
  | rightParen => "RIGHT_PAREN"
  | leftBrace => "LEFT_BRACE"
  | rightBrace => "RIGHT_BRACE"
  | comma => "COMMA"
  | dot => "DOT"
  | minus => "MINUS"
  | plus => "PLUS"
  | semicolon => "SEMICOLON"
  | slash => "SLASH"
  | star => "STAR"
  | bang => "BANG"
  | bangEqual => "BANG_EQUAL"
  | equal => "EQUAL"
  | equalEqual => "EQUAL_EQUAL"
  | greater => "GREATER"
  | greaterEqual => "GREATER_EQUAL"
  | less => "LESS"
  | lessEqual => "LESS_EQUAL"
  | identifier => "IDENTIFIER"
  | string => "STRING"
  | number => "NUMBER"
  | andWord => "AND"
  | classWord => "CLASS"
  | elseWord => "ELSE"
  | falseWord => "FALSE"
  | forWord => "FOR"
  | funWord => "FUN"
  | ifWord => "IF"
  | nilWord => "NIL"
  | orWord => "OR"
  | printWord => "PRINT"
  | returnWord => "RETURN"
  | superWord => "SUPER"
  | thisWord => "THIS"
  | trueWord => "TRUE"
  | varWord => "VAR"
  | whileWord => "WHILE"
  | breakWord => "BREAK"
  | comment => "COMMENT"
  | invalid => "INVALID"
  | eof => "EOF"

def all : List TokenKind := [
  leftParen, rightParen, leftBrace, rightBrace,
  comma, dot, minus, plus, semicolon, slash, star,
  bang, bangEqual, equal, equalEqual, greater, greaterEqual, less, lessEqual,
  identifier, string, number,
  andWord, classWord, elseWord, falseWord, forWord, funWord, ifWord, nilWord, orWord,
  printWord, returnWord, superWord, thisWord, trueWord, varWord, whileWord, breakWord,
  comment, invalid, eof]

theorem mem_all (kind : TokenKind) : kind ∈ all := by
  cases kind <;> decide

def ofName? (name : String) : Option TokenKind :=
  all.find? (·.name = name)

def marks : List (Char × TokenKind) := [
  ('(', leftParen), (')', rightParen), ('{', leftBrace), ('}', rightBrace),
  (',', comma), ('.', dot), ('-', minus), ('+', plus), (';', semicolon), ('*', star)]

/--
The characters that are a token on their own and another one together with an equals sign behind
them.
-/
def relations : List (Char × TokenKind × TokenKind) := [
  ('!', bang, bangEqual), ('=', equal, equalEqual), ('<', less, lessEqual),
  ('>', greater, greaterEqual)]

def words : List (String × TokenKind) := [
  ("and", andWord), ("class", classWord), ("else", elseWord), ("false", falseWord),
  ("for", forWord), ("fun", funWord), ("if", ifWord), ("nil", nilWord), ("or", orWord),
  ("print", printWord), ("return", returnWord), ("super", superWord), ("this", thisWord),
  ("true", trueWord), ("var", varWord), ("while", whileWord), ("break", breakWord)]

def spelling (kind : TokenKind) : String :=
  if let some (c, _) := marks.find? (·.2 = kind) then String.singleton c
  else if let some (c, _) := relations.find? (·.2.1 = kind) then String.singleton c
  else if let some (c, _) := relations.find? (·.2.2 = kind) then String.ofList [c, '=']
  else if let some (word, _) := words.find? (·.2 = kind) then word
  else if kind = slash then "/"
  else kind.name

/--
Whether a statement that is not an expression begins with this kind, which makes it a place to go on
after an error.
-/
def startsStatement : TokenKind → Bool
  | classWord | funWord | forWord | varWord | ifWord | whileWord | printWord | returnWord => true
  | _ => false

end TokenKind
end TreeWalk
