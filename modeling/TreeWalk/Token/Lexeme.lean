import TreeWalk.Number.Text
import TreeWalk.Text.Alphabetic
import TreeWalk.Text.Numeric
import TreeWalk.Token

/-!
This module contains the reading of one lexeme at the front of a text: how far it reaches and what
it stands for.
-/

namespace TreeWalk

inductive Fault
  | unexpectedCharacter
  | unterminatedString
  | unterminatedComment
  | invalidNumber
  deriving DecidableEq

def Fault.message : Fault → String
  | unexpectedCharacter => "Unexpected character."
  | unterminatedString => "Unterminated string."
  | unterminatedComment => "Unterminated block comment."
  | invalidNumber => "Invalid number literal."

/--
A piece at the front of a text: the number of characters behind its first one, and the kind and
literal of the token that it is, if it is one.
-/
structure Lexeme where
  more : Nat
  content : Except Fault (TokenKind × Option Literal)

namespace Lexeme

def token (more : Nat) (kind : TokenKind) (literal : Option Literal) : Lexeme :=
  ⟨more, .ok (kind, literal)⟩

def fault (more : Nat) (fault : Fault) : Lexeme :=
  ⟨more, .error fault⟩

def isSeparator (c : Char) : Bool :=
  c = ' ' || c = '\t' || c = '\r' || c = '\n'

def isWordStart (c : Char) : Bool :=
  Text.isAlphabetic c || c = '_'

def isWordPart (c : Char) : Bool :=
  Text.isAlphabetic c || Text.isNumeric c || c = '_'

/--
The number of characters up to the end of a block comment, inside which `depth` further comments are
open.
-/
def toCommentEnd? : Nat → List Char → Option Nat
  | _, [] => none
  | depth, '/' :: '*' :: text => (toCommentEnd? (depth + 1) text).map (· + 2)
  | 0, '*' :: '/' :: _ => some 2
  | depth + 1, '*' :: '/' :: text => (toCommentEnd? depth text).map (· + 2)
  | depth, _ :: text => (toCommentEnd? depth text).map (· + 1)

/--
A comment, or a slash. A line comment ends in front of the line break.
-/
def slash : List Char → Lexeme
  | '/' :: text => token (1 + (text.takeWhile (· ≠ '\n')).length) .comment none
  | '*' :: text =>
    match toCommentEnd? 0 text with
    | some size => token (1 + size) .comment none
    | none => fault (1 + text.length) .unterminatedComment
  | _ => token 0 .slash none

/--
What a backslash and the character behind it stand for. With a character that has no meaning of its
own there the backslash is a backslash.
-/
def unescape : Char → List Char
  | 'n' => ['\n']
  | 't' => ['\t']
  | '"' => ['"']
  | '\\' => ['\\']
  | c => ['\\', c]

def toStringEnd? : List Char → Option (Nat × List Char)
  | [] => none
  | '"' :: _ => some (1, [])
  -- behind the last backslash there is nothing to escape
  | ['\\'] => none
  | '\\' :: c :: text =>
    (toStringEnd? text).map fun (size, value) => (size + 2, unescape c ++ value)
  | c :: text => (toStringEnd? text).map fun (size, value) => (size + 1, c :: value)

def string (text : List Char) : Lexeme :=
  match toStringEnd? text with
  | some (size, value) => token size .string (some (.string (.ofList value)))
  | none => fault text.length .unterminatedString

/--
A number. The point belongs to it only if a digit follows.
-/
def number (first : Char) (text : List Char) : Lexeme :=
  let whole := text.takeWhile Char.isDigit
  let fraction := match text.dropWhile Char.isDigit with
    | '.' :: text => text.takeWhile Char.isDigit
    | _ => []
  let more := if fraction = [] then whole.length else whole.length + 1 + fraction.length
  token more .number (some (.number (Number.ofDigits (first :: whole) fraction)))

def word (first : Char) (text : List Char) : Lexeme :=
  let tail := text.takeWhile isWordPart
  let name := String.ofList (first :: tail)
  match TokenKind.words.lookup name with
  | some kind => token tail.length kind none
  | none => token tail.length .identifier (some (.string name))

def read (first : Char) (text : List Char) : Lexeme :=
  if let some kind := TokenKind.marks.lookup first then
    token 0 kind none
  else if let some (alone, extended) := TokenKind.relations.lookup first then
    if text.head? = some '=' then token 1 extended none else token 0 alone none
  else if first = '/' then
    slash text
  else if first = '"' then
    string text
  else if first.isDigit then
    number first text
  else if isWordStart first then
    word first text
  else
    fault 0 .unexpectedCharacter

end Lexeme
end TreeWalk
