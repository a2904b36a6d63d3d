import TreeWalk.Proofs.Cursor.Rest
import TreeWalk.Token.Scan

/-!
This module contains a scanner that moves over a text character by character. It keeps account of
lines and columns as it goes, and takes the text of a token from a recording of its cursor, which
fails if none has been started.
-/

namespace TreeWalk

structure Scanner where
  cursor : Cursor Char
  position : Position
  start : Position
  tokens : List Token
  errors : List ScanError

namespace Scanner

def ofSource (source : String) : Scanner :=
  ⟨.ofList source.toList, .start, .start, [], []⟩

def bump (s : Scanner) : Option Char × Scanner :=
  match s.cursor.consume with
  | (some c, cursor) => (some c, { s with cursor, position := s.position.after c })
  | (none, cursor) => (none, { s with cursor })

def nextIf (expected : Char) (s : Scanner) : Bool × Scanner :=
  match s.cursor.skipIf (· = expected) with
  | (true, cursor) => (true, { s with cursor, position := s.position.after expected })
  | (false, cursor) => (false, { s with cursor })

def skip (count : Nat) (s : Scanner) : Scanner :=
  { s with
    cursor := s.cursor.forward count,
    position := s.position.advance (s.cursor.rest.take count) }

theorem bump_eq (s : Scanner) : s.bump = (s.cursor.rest.head?, s.skip 1) := by
  unfold bump skip Cursor.consume
  rw [Cursor.peek_eq, Cursor.advance_eq]
  cases s.cursor.rest <;> rfl

theorem length_rest_bump_le (s : Scanner) : s.bump.2.cursor.rest.length ≤ s.cursor.rest.length := by
  rw [bump_eq, skip, Cursor.rest_forward, List.length_drop]
  omega

theorem length_rest_bump_lt {s : Scanner} {c : Char} (h : s.cursor.rest.head? = some c) :
    s.bump.2.cursor.rest.length < s.cursor.rest.length := by
  obtain ⟨rest, hrest⟩ := List.head?_eq_some_iff.1 h
  rw [bump_eq, skip, Cursor.rest_forward, hrest, List.length_drop, List.length_cons]
  omega

theorem length_rest_bump_bump_lt {s : Scanner} {c : Char} (h : s.cursor.rest.head? = some c) :
    s.bump.2.bump.2.cursor.rest.length < s.cursor.rest.length :=
  Nat.lt_of_le_of_lt (length_rest_bump_le _) (length_rest_bump_lt h)

def bumpWhile (wanted : Char → Bool) (s : Scanner) : Scanner :=
  match _ : s.cursor.peek with
  | none => s
  | some c => if wanted c then bumpWhile wanted s.bump.2 else s
termination_by s.cursor.rest.length
decreasing_by
  rename_i hpeek _
  rw [Cursor.peek_eq] at hpeek
  exact length_rest_bump_lt hpeek

def lexeme (reset : Bool) (s : Scanner) : Option (String × Scanner) :=
  (s.cursor.stopRecording reset).map fun (written, cursor) => (.ofList written, { s with cursor })

def addToken (kind : TokenKind) (literal : Option Literal) (s : Scanner) : Option Scanner :=
  (s.lexeme true).map fun (written, s) =>
    { s with tokens := s.tokens ++ [⟨kind, written, literal, s.start⟩] }

def addError (fault : Fault) (s : Scanner) : Option Scanner :=
  (s.lexeme true).map fun (written, s) =>
    let token : Token := ⟨.invalid, written, none, s.start⟩
    { s with tokens := s.tokens ++ [token], errors := s.errors ++ [⟨token, fault⟩] }

def lineComment (s : Scanner) : Option Scanner :=
  let (steps, cursor) := s.cursor.advanceUntil (· = '\n')
  let position := { s.position with column := s.position.column + steps }
  addToken .comment none { s with cursor, position }

def blockComment (depth : Nat) (s : Scanner) : Option Scanner :=
  match hpeek : s.cursor.peek, s.cursor.peekAt 1 with
  | none, _ => s.addError .unterminatedComment
  | some '/', some '*' => blockComment (depth + 1) s.bump.2.bump.2
  | some '*', some '/' =>
    match depth with
    | 0 => s.bump.2.bump.2.addToken .comment none
    | depth + 1 => blockComment depth s.bump.2.bump.2
  | some _, _ => blockComment depth s.bump.2
termination_by s.cursor.rest.length
decreasing_by
  all_goals rw [Cursor.peek_eq] at hpeek
  · exact length_rest_bump_bump_lt hpeek
  · exact length_rest_bump_bump_lt hpeek
  · exact length_rest_bump_lt hpeek

def string (value : List Char) (s : Scanner) : Option Scanner :=
  match _ : s.bump.1 with
  | none => s.bump.2.addError .unterminatedString
  | some '"' => s.bump.2.addToken .string (some (.string (.ofList value)))
  | some '\\' =>
    match s.bump.2.bump.1 with
    | none => s.bump.2.bump.2.addError .unterminatedString
    | some c => string (value ++ Lexeme.unescape c) s.bump.2.bump.2
  | some c => string (value ++ [c]) s.bump.2
termination_by s.cursor.rest.length
decreasing_by
  · rename_i hbump
    rw [bump_eq] at hbump
    exact length_rest_bump_bump_lt hbump
  · rename_i hbump
    rw [bump_eq] at hbump
    exact length_rest_bump_lt hbump

def number (s : Scanner) : Option Scanner :=
  let s := s.bumpWhile Char.isDigit
  let s :=
    if s.cursor.peek = some '.' ∧ (s.cursor.peekAt 1).any Char.isDigit then
      s.bump.2.bumpWhile Char.isDigit
    else s
  match s.lexeme false with
  | none => none
  | some (written, s) =>
    match Number.read? written with
    | some value => s.addToken .number (some (.number value))
    | none => s.addError .invalidNumber

def identifier (s : Scanner) : Option Scanner :=
  match (s.bumpWhile Lexeme.isWordPart).lexeme false with
  | none => none
  | some (name, s) =>
    match TokenKind.words.lookup name with
    | some kind => s.addToken kind none
    | none => s.addToken .identifier (some (.string name))

def startLexeme (s : Scanner) : Scanner :=
  { s with cursor := s.cursor.startRecording, start := s.position }

def scanBehind (first : Char) (s : Scanner) : Option Scanner :=
  if let some kind := TokenKind.marks.lookup first then
    s.addToken kind none
  else if let some (alone, extended) := TokenKind.relations.lookup first then
    match s.nextIf '=' with
    | (true, s) => s.addToken extended none
    | (false, s) => s.addToken alone none
  else if first = '/' then
    match s.nextIf '/' with
    | (true, s) => s.lineComment
    | (false, s) =>
      match s.nextIf '*' with
      | (true, s) => s.blockComment 0
      | (false, s) => s.addToken .slash none
  else if first = '"' then
    s.string []
  else if first.isDigit then
    s.number
  else if Lexeme.isWordStart first then
    s.identifier
  else
    s.addError .unexpectedCharacter

def scanToken (s : Scanner) : Option Scanner :=
  match s.startLexeme.bump with
  | (some first, s) => s.scanBehind first
  | (none, s) => some s

end Scanner
end TreeWalk
