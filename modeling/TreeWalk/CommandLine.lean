import TreeWalk.Prompt

/-!
This module contains the command line: what its arguments ask for, and running a file.
-/

namespace TreeWalk

structure Options where
  script : Option String
  showTrees : Bool
  deriving DecidableEq

inductive Request
  | run (options : Options)
  | version
  | help
  | misuse (reason : String)
  deriving DecidableEq

namespace Request

def unexpected (argument : String) : Request :=
  misuse s!"unexpected argument '{argument}' found"

def withScript (options : Options) (argument : String) : Except Request Options :=
  match options.script with
  | some _ => .error (unexpected argument)
  | none =>
    if argument.isEmpty then
      .error (misuse "a value is required for '[SCRIPT]' but none was supplied")
    else
      .ok { options with script := some argument }

def ofOperands (options : Options) : List String → Request
  | [] => run options
  | argument :: arguments =>
    match withScript options argument with
    | .ok options => ofOperands options arguments
    | .error request => request

/--
Arguments from the first to the last, where the first that decides the request wins.
-/
def ofArguments (options : Options) : List String → Request
  | [] => run options
  | argument :: arguments =>
    match argument.toList with
    | ['-', '-'] => ofOperands options arguments
    | '-' :: '-' :: name =>
      if name = "print-ast".toList then
        if options.showTrees then
          misuse "the argument '--print-ast' cannot be used multiple times"
        else
          ofArguments { options with showTrees := true } arguments
      else if name = "version".toList then version
      else if name = "help".toList then help
      else unexpected argument
    | '-' :: letter :: _ =>
      if letter = 'V' then version
      else if letter = 'h' then help
      else unexpected (String.ofList ['-', letter])
    | _ =>
      match withScript options argument with
      | .ok options => ofArguments options arguments
      | .error request => request

end Request

namespace CommandLine

/--
A bound on the rounds of a loop that no loop reaches in practice.
-/
def rounds : Nat := 0x4000000000000000

def versionText : String := "plox 0.1.0"

def usageText : String := "Usage: plox [OPTIONS] [SCRIPT]"

def helpText : List String := [
  "Runs a script, or starts an interactive prompt when no script is given",
  "",
  usageText,
  "",
  "Arguments:",
  "  [SCRIPT]  Script to run",
  "",
  "Options:",
  "      --print-ast  Print each parsed statement to stderr before running it",
  "  -h, --help       Print help",
  "  -V, --version    Print version"]

def misuseText (reason : String) : List String := [
  s!"error: {reason}",
  "",
  usageText,
  "",
  "For more information, try '--help'."]

def usageError : Nat := 2

def codeOf : Except RunError (List Value) → Nat
  | .ok _ => Transcript.success
  | .error (.scan _) | .error (.parse _) => Transcript.dataError
  | .error (.runtime _) => Transcript.softwareError
  | .error .diagnostics => Transcript.ioError

def runFile (bound : Nat) (showTrees : Bool) (path : String)
    (contents : Except ReadError ByteArray) : Option Transcript :=
  match contents.bind decode with
  | .error error =>
    some ⟨Transcript.ioError, .empty, Prompt.lines [s!"Could not read {path}: {error.text}"]⟩
  | .ok source =>
    match (Session.new .unlimited showTrees).run bound source .unlimited with
    | none => none
    | some run =>
      some ⟨codeOf run.result, run.session.machine.output.written, run.diagnostics.written⟩

def run (bound : Nat) (arguments : List String) (readFile : String → Except ReadError ByteArray)
    (input : List UInt8) : Option Transcript :=
  match Request.ofArguments ⟨none, false⟩ arguments with
  | .version => some ⟨Transcript.success, Prompt.lines [versionText], .empty⟩
  | .help => some ⟨Transcript.success, Prompt.lines helpText, .empty⟩
  | .misuse reason => some ⟨usageError, .empty, Prompt.lines (misuseText reason)⟩
  | .run ⟨some path, showTrees⟩ => runFile bound showTrees path (readFile path)
  | .run ⟨none, showTrees⟩ =>
    Prompt.run bound (.new .unlimited showTrees) ((Prompt.splitLines input).map (.mk ·.toArray))

end CommandLine
end TreeWalk
