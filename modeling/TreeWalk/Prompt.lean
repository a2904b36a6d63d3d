import TreeWalk.Session
import TreeWalk.Text.Blank

/-!
This module contains the prompt: a session that is fed with the lines of its input, one after the
other.
-/

namespace TreeWalk

inductive ReadError
  | notFound
  | notDirectory
  | isDirectory
  | denied
  | nameTooLong
  | notText
  | other (reason : String)
  deriving DecidableEq

def ReadError.text : ReadError → String
  | notFound => "No such file or directory (os error 2)"
  | notDirectory => "Not a directory (os error 20)"
  | isDirectory => "Is a directory (os error 21)"
  | denied => "Permission denied (os error 13)"
  | nameTooLong => "File name too long (os error 36)"
  | notText => "stream did not contain valid UTF-8"
  | other reason => reason

def decode (bytes : ByteArray) : Except ReadError String :=
  match String.fromUTF8? bytes with
  | some text => .ok text
  | none => .error .notText

structure Transcript where
  code : Nat
  stdout : ByteArray
  stderr : ByteArray

namespace Transcript

def behind (transcript : Transcript) (stdout stderr : ByteArray) : Transcript :=
  { transcript with stdout := stdout ++ transcript.stdout, stderr := stderr ++ transcript.stderr }

def success : Nat := 0

def dataError : Nat := 65

def softwareError : Nat := 70

def ioError : Nat := 74

end Transcript

namespace Prompt

def mark : ByteArray :=
  "> ".toUTF8

/--
What one line has led to: the end of the prompt, or the session for the next line. The line wrote
something in both cases.
-/
inductive Step
  | stop (transcript : Transcript)
  | next (session : Session) (stdout stderr : ByteArray)

def lines (texts : List String) : ByteArray :=
  (String.join (texts.map (· ++ "\n"))).toUTF8

/--
Take one line, with its line break if it has one. A line that is no text ends the prompt, and so
does the word `exit`; any other line is run as a source, and its values are printed.
-/
def step (bound : Nat) (session : Session) (line : ByteArray) : Option Step :=
  match decode line with
  | .error error =>
    some (.stop ⟨Transcript.ioError, .empty, lines [s!"Failed to read line: {error.text}"]⟩)
  | .ok source =>
    if Text.strip source.toList = "exit".toList then
      some (.stop ⟨Transcript.success, .empty, .empty⟩)
    else
      match session.run bound source .unlimited with
      | none => none
      | some run =>
        -- the session keeps its names, but nothing of what it has printed
        let (printed, session) := run.session.drain
        let values := match run.result with
          | .ok values => values
          | .error _ => []
        some (.next session (printed ++ lines (values.map Value.text)) run.diagnostics.written)

def run (bound : Nat) : Session → List ByteArray → Option Transcript
  | _, [] => some ⟨Transcript.success, mark, .empty⟩
  | session, line :: input =>
    match step bound session line with
    | none => none
    | some (.stop transcript) => some (transcript.behind mark .empty)
    | some (.next session stdout stderr) =>
      (run bound session input).map (·.behind (mark ++ stdout) stderr)

def splitLines : List UInt8 → List (List UInt8)
  | [] => []
  | byte :: bytes =>
    if byte = 10 then
      [byte] :: splitLines bytes
    else
      match splitLines bytes with
      | [] => [[byte]]
      | line :: lines => (byte :: line) :: lines

theorem flatten_splitLines (bytes : List UInt8) : (splitLines bytes).flatten = bytes := by
  induction bytes with
  | nil => rfl
  | cons byte bytes ih =>
    unfold splitLines
    split
    · simp [ih]
    · split
      · next h => simpa [h] using ih
      · next h => simpa [h] using ih

end Prompt
end TreeWalk
