import TreeWalk.Proofs.Execution.Truncation

/-!
This module contains machines whose output has taken some bytes before. No statement sees what has
been printed, so it prints and does the same on them.
-/

namespace TreeWalk

def Sink.after (printed : ByteArray) (sink : Sink) : Sink :=
  { sink with written := printed ++ sink.written }

theorem Sink.writeLine_after (printed : ByteArray) (sink : Sink) (line : String) :
    (sink.after printed).writeLine line = (sink.writeLine line).map id (after printed) := by
  obtain ⟨written, room⟩ := sink
  cases room with
  | none => simp only [writeLine, after, write, Prod.map, id_eq, ByteArray.append_assoc]
  | some room =>
    simp only [writeLine, after, write]
    split <;> simp only [Prod.map, id_eq, after, ByteArray.append_assoc]

namespace Machine

variable (printed : ByteArray)

def after (machine : Machine) : Machine :=
  { machine with output := machine.output.after printed }

theorem evaluate_after (machine : Machine) (expr : Expr) :
    (machine.after printed).evaluate expr = (machine.evaluate expr).mapMachine (after printed) := by
  obtain ⟨environment, output⟩ := machine
  simp only [after, evaluate]
  cases expr.eval environment <;> rfl

theorem print_after (machine : Machine) (value : Value) :
    (machine.after printed).print value = (machine.print value).mapMachine (after printed) := by
  obtain ⟨environment, output⟩ := machine
  simp only [after, print, Sink.writeLine_after]
  cases output.writeLine value.text with
  | mk written output => cases written <;> rfl

end Machine

theorem Outcome.andThen_after {α β : Type} {printed : ByteArray} {outcome : Outcome α}
    {next : α → Machine → Option (Outcome β)}
    (hnext : ∀ result machine,
      next result (machine.after printed) =
        (next result machine).map (mapMachine (Machine.after printed))) :
    (outcome.mapMachine (Machine.after printed)).andThen next =
      (outcome.andThen next).map (mapMachine (Machine.after printed)) := by
  cases outcome with
  | ok result machine => exact hnext result machine
  | error => rfl

theorem Machine.loop_after {printed : ByteArray} {body : Machine → Option (Outcome Completion)}
    (hbody : ∀ machine, body (after printed machine) =
      (body machine).map (Outcome.mapMachine (after printed)))
    (condition : Expr) (bound : Nat) (last : Option Value) (machine : Machine) :
    loop (·.evaluate condition) body bound last (machine.after printed) =
      (loop (·.evaluate condition) body bound last machine).map
        (Outcome.mapMachine (after printed)) := by
  induction bound generalizing last machine with
  | zero => rfl
  | succ bound ih =>
    rw [loop, loop, evaluate_after]
    cases machine.evaluate condition with
    | error => rfl
    | ok value machine =>
      simp only [Outcome.mapMachine]
      split
      · rw [hbody]
        cases body machine with
        | none => rfl
        | some outcome =>
          cases outcome with
          | error => rfl
          | ok completion machine =>
            cases completion with
            | broken keyword => rfl
            | normal value => exact ih value machine
      · rfl

namespace Stmt

variable (printed : ByteArray)

mutual

theorem exec_after (bound : Nat) (statement : Stmt) (machine : Machine) :
    statement.exec bound (machine.after printed) =
      (statement.exec bound machine).map (Outcome.mapMachine (Machine.after printed)) := by
  cases statement with
  | print value =>
    rw [exec, exec, Machine.evaluate_after]
    apply Outcome.andThen_after
    intro value machine
    rw [Option.map_some, Machine.print_after]
  | expr value =>
    rw [exec, exec, Machine.evaluate_after]
    exact Outcome.andThen_after fun _ _ => rfl
  | declare name initial =>
    cases initial with
    | none => rfl
    | some initial =>
      rw [exec, exec, Machine.evaluate_after]
      exact Outcome.andThen_after fun _ _ => rfl
  | block body =>
    have hbody := execAll_after bound body machine.openBlock
    rw [exec, exec, Option.map_map]
    show (execAll bound body (machine.openBlock.after printed)).map _ = _
    rw [hbody, Option.map_map]
    congr 1
    funext outcome
    cases outcome <;> rfl
  | ifThen condition body =>
    rw [exec, exec, Machine.evaluate_after]
    apply Outcome.andThen_after
    intro value machine
    split
    · exact exec_after bound body machine
    · rfl
  | ifElse condition body alternative =>
    rw [exec, exec, Machine.evaluate_after]
    apply Outcome.andThen_after
    intro value machine
    split
    · exact exec_after bound body machine
    · exact exec_after bound alternative machine
  | whileLoop condition body =>
    rw [exec, exec]
    exact Machine.loop_after (exec_after bound body) condition bound none machine
  | breakLoop keyword => rfl

theorem execAll_after (bound : Nat) (statements : List Stmt) (machine : Machine) :
    execAll bound statements (machine.after printed) =
      (execAll bound statements machine).map (Outcome.mapMachine (Machine.after printed)) := by
  cases statements with
  | nil => rfl
  | cons statement statements =>
    rw [execAll, execAll, exec_after bound statement]
    cases statement.exec bound machine with
    | none => rfl
    | some outcome =>
      cases outcome with
      | error => rfl
      | ok completion machine =>
        cases completion with
        | broken keyword => rfl
        | normal value => exact execAll_after bound statements machine

end

theorem interpret_after (bound : Nat) (statement : Stmt) (machine : Machine) :
    statement.interpret bound (machine.after printed) =
      (statement.interpret bound machine).map (Outcome.mapMachine (Machine.after printed)) := by
  rw [interpret, interpret, exec_after, Option.map_map, Option.map_map]
  congr 1
  funext outcome
  exact Outcome.atTopLevel_mapMachine _ outcome

theorem interpretAll_after (bound : Nat) (statements : List Stmt) (machine : Machine) :
    interpretAll bound statements (machine.after printed) =
      (interpretAll bound statements machine).map (Outcome.mapMachine (Machine.after printed)) := by
  induction statements generalizing machine with
  | nil => rfl
  | cons statement statements ih =>
    rw [interpretAll, interpretAll, interpret_after]
    cases statement.interpret bound machine with
    | none => rfl
    | some outcome =>
      cases outcome with
      | error => rfl
      | ok value machine =>
        simp only [Option.map_some, Outcome.mapMachine, ih]
        cases interpretAll bound statements machine with
        | none => rfl
        | some outcome => cases outcome <;> rfl

end Stmt
end TreeWalk
