import TreeWalk.Proofs.Environment.Arena
import TreeWalk.Proofs.Evaluation.Effect
import TreeWalk.Proofs.Execution.Runs

/-!
This module contains the frames that a run leaves: those that it found, however it ends. Only the
innermost one may bind more names, and only names that are declared outside the blocks of what was
run.
-/

namespace TreeWalk

open Environment (Grows)

/--
The names that a statement declares outside the blocks in it.
-/
def Stmt.declared : Stmt → List String
  | declare name _ => [name.lexeme]
  | ifThen _ body | whileLoop _ body => body.declared
  | ifElse _ body alternative => body.declared ++ alternative.declared
  | print _ | expr _ | block _ | breakLoop _ => []

def Task.declared : Task → List String
  | one statement => statement.declared
  | all statements => statements.flatMap Stmt.declared
  | loop _ body _ => body.declared

theorem Expr.names_eval (expr : Expr) (environment : Environment) :
    (Evaluation.left (expr.eval environment)).names = environment.names := by
  apply expr.eval_induction (R := fun before after => after.names = before.names)
  · intro _
    rfl
  · intro a b c hab hbc
    exact hbc.trans hab
  · intro target _ value before after h
    exact Environment.names_assign? h

namespace Machine

variable {machine machine' : Machine} {expr : Expr}

theorem names_evaluate (machine : Machine) (expr : Expr) :
    (machine.evaluate expr).machine.environment.names = machine.environment.names := by
  rw [environment_evaluate, Expr.names_eval]

theorem names_of_value {value : Value} (h : machine.evaluate expr = .ok value machine') :
    machine'.environment.names = machine.environment.names := by
  have hnames := names_evaluate machine expr
  rw [h] at hnames
  exact hnames

theorem names_of_fault {cause : RuntimeError} (h : machine.evaluate expr = .error cause machine') :
    machine'.environment.names = machine.environment.names := by
  have hnames := names_evaluate machine expr
  rw [h] at hnames
  exact hnames

theorem grows_of_value {added : List String} {value : Value}
    (h : machine.evaluate expr = .ok value machine') :
    Grows added machine.environment machine'.environment :=
  .of_names_eq (names_of_value h)

theorem grows_of_fault {added : List String} {cause : RuntimeError}
    (h : machine.evaluate expr = .error cause machine') :
    Grows added machine.environment machine'.environment :=
  .of_names_eq (names_of_fault h)

@[simp]
theorem environment_print (machine : Machine) (value : Value) :
    (machine.print value).machine.environment = machine.environment := by
  obtain ⟨environment, output⟩ := machine
  simp only [print]
  split <;> rfl

end Machine

@[simp]
theorem Outcome.machine_mapMachine {α : Type} (f : Machine → Machine) (outcome : Outcome α) :
    (outcome.mapMachine f).machine = f outcome.machine := by
  cases outcome <;> rfl

@[simp]
theorem Outcome.machine_atTopLevel (outcome : Outcome Completion) :
    outcome.atTopLevel.machine = outcome.machine := by
  cases outcome with
  | ok completion machine => cases completion <;> rfl
  | error => rfl

theorem Runs.grows {task : Task} {machine : Machine} {outcome : Outcome Completion}
    (h : Runs task machine outcome) :
    Grows task.declared machine.environment outcome.machine.environment := by
  -- what a part declares is declared in the whole, so each rule adds up what its parts add
  induction h with
  | fault _ hfault => exact Machine.grows_of_fault hfault
  | print hvalue =>
    rw [Machine.environment_print]
    exact Machine.grows_of_value hvalue
  | expr hvalue => exact Machine.grows_of_value hvalue
  | declare => exact Grows.define _ _ _
  | define hvalue => exact (Machine.grows_of_value hvalue).trans (Grows.define _ _ _)
  | block _ ih =>
    -- the block is closed on every outcome, so what its frame has gained is gone
    apply Grows.of_names_eq
    rw [Outcome.machine_mapMachine]
    exact ih.closeBlock
  | ifTrue hvalue _ _ ih => exact (Machine.grows_of_value hvalue).trans ih
  | ifFalse hvalue _ => exact Machine.grows_of_value hvalue
  | ifElseTrue hvalue _ _ ih =>
    exact (Machine.grows_of_value hvalue).trans (ih.mono (List.subset_append_left _ _))
  | ifElseFalse hvalue _ _ ih =>
    exact (Machine.grows_of_value hvalue).trans (ih.mono (List.subset_append_right _ _))
  | whileLoop _ ih => exact ih
  | breakLoop => exact Grows.refl _ _
  | nil => exact Grows.refl _ _
  | next _ _ ih ih' =>
    exact (ih.mono (List.subset_append_left _ _)).trans (ih'.mono (List.subset_append_right _ _))
  | stop _ _ ih => exact ih.mono (List.subset_append_left _ _)
  | loopFault hfault => exact Machine.grows_of_fault hfault
  | loopDone hvalue _ => exact Machine.grows_of_value hvalue
  | loopRound hvalue _ _ _ ih ih' => exact (Machine.grows_of_value hvalue).trans (ih.trans ih')
  | loopBreak hvalue _ _ ih => exact (Machine.grows_of_value hvalue).trans ih
  | loopStop hvalue _ _ ih => exact (Machine.grows_of_value hvalue).trans ih

namespace Stmt

theorem grows_of_exec {statement : Stmt} {bound : Nat} {machine : Machine}
    {outcome : Outcome Completion} (h : statement.exec bound machine = some outcome) :
    Grows statement.declared machine.environment outcome.machine.environment :=
  (runs_of_exec statement h).grows

theorem depth_of_interpret {statement : Stmt} {bound : Nat} {machine : Machine}
    {outcome : Outcome (Option Value)} (h : statement.interpret bound machine = some outcome) :
    outcome.machine.environment.depth = machine.environment.depth := by
  obtain ⟨outcome, hexec, rfl⟩ := Option.map_eq_some_iff.1 h
  rw [Outcome.machine_atTopLevel]
  exact (grows_of_exec hexec).depth_eq

theorem depth_of_interpretAll {statements : List Stmt} {bound : Nat} {machine : Machine}
    {outcome : Outcome (List Value)} (h : interpretAll bound statements machine = some outcome) :
    outcome.machine.environment.depth = machine.environment.depth := by
  induction statements generalizing machine outcome with
  | nil =>
    cases h
    rfl
  | cons statement statements ih =>
    unfold interpretAll at h
    split at h
    · cases h
    · next cause machine' hstatement =>
      cases h
      exact depth_of_interpret hstatement
    · next value machine' hstatement =>
      have hfirst : machine'.environment.depth = machine.environment.depth :=
        depth_of_interpret hstatement
      rw [← hfirst]
      split at h
      · next values machine'' hstatements =>
        cases h
        have hrest := ih hstatements
        exact hrest
      · exact ih h

end Stmt
end TreeWalk
