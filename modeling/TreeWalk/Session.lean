import TreeWalk.Execution
import TreeWalk.Grammar.Program
import TreeWalk.Token.Scan
import TreeWalk.Tree.Dump

/-!
This module contains sessions, in which sources run one after the other and each finds the names
that the ones before it have left.
-/

namespace TreeWalk

/--
The machine that the sources of a session share, and whether statements are shown before they run.
-/
structure Session where
  machine : Machine
  showTrees : Bool

inductive RunError
  | scan (count : Nat)
  | parse (count : Nat)
  | runtime (error : RuntimeError)
  | diagnostics
  deriving DecidableEq

def RunError.text : RunError → String
  | scan count => s!"source rejected with {count} scan error(s)"
  | parse count => s!"source rejected with {count} syntax error(s)"
  | runtime error => error.text
  | diagnostics => s!"failed to write diagnostics: {Sink.fullMessage}"

structure Run where
  result : Except RunError (List Value)
  session : Session
  diagnostics : Sink

namespace Session

def new (output : Sink) (showTrees : Bool) : Session :=
  ⟨.ofSink output, showTrees⟩

def reject (session : Session) (errors : List String) (cause : RunError)
    (diagnostics : Sink) : Run :=
  match diagnostics.writeLines errors with
  | (true, diagnostics) => ⟨.error cause, session, diagnostics⟩
  | (false, diagnostics) => ⟨.error .diagnostics, session, diagnostics⟩

def runProgram (bound : Nat) (session : Session) (program : List Stmt) (diagnostics : Sink) :
    Option Run :=
  match session with
  | ⟨machine, showTrees⟩ =>
    match Stmt.interpretAll bound program machine with
    | none => none
    | some (.ok values machine) => some ⟨.ok values, ⟨machine, showTrees⟩, diagnostics⟩
    | some (.error error machine) =>
      some (reject ⟨machine, showTrees⟩ [error.text] (.runtime error) diagnostics)

/--
Run a source. Nothing of it is executed if it has a scan error or a syntax error, or if its
statements cannot be shown.
-/
def run (bound : Nat) (session : Session) (source : String) (diagnostics : Sink) : Option Run :=
  let scanned := scan source
  if !scanned.isValid then
    some
      (session.reject (scanned.errors.map ScanError.text) (.scan scanned.errors.length) diagnostics)
  else
    let parsed := parse scanned.tokens
    if !parsed.isValid then
      some (session.reject (parsed.errors.map ParseError.text)
        (.parse parsed.errors.length) diagnostics)
    else
      let trees := if session.showTrees then parsed.statements.map Stmt.dump else []
      -- trees are diagnostics, so where they do not fit nothing is run
      match diagnostics.writeLines trees with
      | (true, diagnostics) => session.runProgram bound parsed.statements diagnostics
      | (false, diagnostics) => some ⟨.error .diagnostics, session, diagnostics⟩

def drain : Session → ByteArray × Session
  | ⟨⟨environment, output⟩, showTrees⟩ =>
    let (printed, output) := output.drain
    (printed, ⟨⟨environment, output⟩, showTrees⟩)

end Session
end TreeWalk
