import TreeWalk.Evaluation

/-!
This module contains the execution of statements. A statement need not end, so execution is given a
bound on the number of rounds that a single loop may take, and answers `none` if some loop would
take more; a larger bound never changes another answer.
-/

namespace TreeWalk

structure Machine where
  environment : Environment
  output : Sink

/--
How a statement ends. A break ends all statements around it up to a loop.
-/
inductive Completion
  | normal (value : Option Value)
  | broken (keyword : Token)
  deriving DecidableEq

inductive Outcome (α : Type)
  | ok (result : α) (machine : Machine)
  | error (error : RuntimeError) (machine : Machine)

namespace Outcome

def machine {α : Type} : Outcome α → Machine
  | ok _ machine | error _ machine => machine

def andThen {α β : Type} (outcome : Outcome α) (next : α → Machine → Option (Outcome β)) :
    Option (Outcome β) :=
  match outcome with
  | ok result machine => next result machine
  | error cause machine => some (.error cause machine)

def mapMachine {α : Type} (f : Machine → Machine) : Outcome α → Outcome α
  | ok result machine => ok result (f machine)
  | error cause machine => error cause (f machine)

/--
What comes out of a statement that no loop surrounds: a break has nothing to end there.
-/
def atTopLevel : Outcome Completion → Outcome (Option Value)
  | ok (.normal value) machine => ok value machine
  | ok (.broken keyword) machine => error (.evaluation ⟨keyword, .strayBreak⟩) machine
  | error cause machine => error cause machine

end Outcome

namespace Machine

def ofSink (output : Sink) : Machine :=
  ⟨.empty, output⟩

def openBlock (machine : Machine) : Machine :=
  { machine with environment := machine.environment.openBlock }

def closeBlock (machine : Machine) : Machine :=
  { machine with environment := machine.environment.closeBlock }

def define (machine : Machine) (name : Token) (value : Value) : Machine :=
  { machine with environment := machine.environment.define name.lexeme value }

def evaluate : Machine → Expr → Outcome Value
  | ⟨environment, output⟩, expr =>
    match expr.eval environment with
    | .ok value environment => .ok value ⟨environment, output⟩
    | .error error environment => .error (.evaluation error) ⟨environment, output⟩

def print : Machine → Value → Outcome Completion
  | ⟨environment, output⟩, value =>
    match output.writeLine value.text with
    | (true, output) => .ok (.normal none) ⟨environment, output⟩
    | (false, output) => .error .output ⟨environment, output⟩

/--
Take rounds of a loop while the condition holds, at most `bound` of them. The loop ends with the
value that its last complete round ended with, to begin with `last`.
-/
def loop (condition : Machine → Outcome Value) (body : Machine → Option (Outcome Completion)) :
    (bound : Nat) → (last : Option Value) → Machine → Option (Outcome Completion)
  | 0, _, _ => none
  | bound + 1, last, machine =>
    match condition machine with
    | .error cause machine => some (.error cause machine)
    | .ok value machine =>
      if value.isTruthy then
        match body machine with
        | none => none
        | some (.error cause machine) => some (.error cause machine)
        -- a round that is broken off has no value, and the one before it counts
        | some (.ok (.broken _) machine) => some (.ok (.normal last) machine)
        | some (.ok (.normal value) machine) => loop condition body bound value machine
      else
        some (.ok (.normal last) machine)

end Machine

namespace Stmt

mutual

def exec (bound : Nat) : Stmt → Machine → Option (Outcome Completion)
  | .print value, machine =>
    (machine.evaluate value).andThen fun value machine => some (machine.print value)
  | .expr value, machine =>
    (machine.evaluate value).andThen fun value machine => some (.ok (.normal (some value)) machine)
  | .declare name none, machine => some (.ok (.normal none) (machine.define name .nil))
  | .declare name (some initial), machine =>
    (machine.evaluate initial).andThen fun value machine =>
      some (.ok (.normal none) (machine.define name value))
  | .block body, machine =>
    (execAll bound body machine.openBlock).map (·.mapMachine Machine.closeBlock)
  | .ifThen condition body, machine =>
    (machine.evaluate condition).andThen fun value machine =>
      if value.isTruthy then body.exec bound machine else some (.ok (.normal none) machine)
  | .ifElse condition body alternative, machine =>
    (machine.evaluate condition).andThen fun value machine =>
      if value.isTruthy then body.exec bound machine else alternative.exec bound machine
  | .whileLoop condition body, machine =>
    Machine.loop (·.evaluate condition) (body.exec bound) bound none machine
  | .breakLoop keyword, machine => some (.ok (.broken keyword) machine)

def execAll (bound : Nat) : List Stmt → Machine → Option (Outcome Completion)
  | [], machine => some (.ok (.normal none) machine)
  | statement :: statements, machine =>
    match statement.exec bound machine with
    | some (.ok (.normal _) machine) => execAll bound statements machine
    | stopped => stopped

end

def interpret (bound : Nat) (statement : Stmt) (machine : Machine) :
    Option (Outcome (Option Value)) :=
  (statement.exec bound machine).map Outcome.atTopLevel

/--
Interpret the statements of a program up to the first error. The answer is the values other than
`nil`.
-/
def interpretAll (bound : Nat) : List Stmt → Machine → Option (Outcome (List Value))
  | [], machine => some (.ok [] machine)
  | statement :: statements, machine =>
    match statement.interpret bound machine with
    | none => none
    | some (.error cause machine) => some (.error cause machine)
    | some (.ok value machine) =>
      match interpretAll bound statements machine with
      | some (.ok values machine) => some (.ok (shown value ++ values) machine)
      | stopped => stopped
where
  shown : Option Value → List Value
    | none | some .nil => []
    | some value => [value]

end Stmt
end TreeWalk
