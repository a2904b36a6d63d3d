import TreeWalk.Execution

/-!
This module contains the runs of statements without a bound: a relation with one rule for each way
in which a statement, a list of statements or a loop can go. Whatever execution answers is such a
run, so what holds of all runs is shown by induction on them.
-/

namespace TreeWalk

/--
What there is to run. A loop that is under way has the value that its last round ended with.
-/
inductive Task
  | one (statement : Stmt)
  | all (statements : List Stmt)
  | loop (condition : Expr) (body : Stmt) (last : Option Value)

def Stmt.subject? : Stmt → Option Expr
  | print value | expr value | declare _ (some value) | ifThen value _ | ifElse value _ _ =>
    some value
  | declare _ none | block _ | whileLoop _ _ | breakLoop _ => none

inductive Runs : Task → Machine → Outcome Completion → Prop
  | fault {statement : Stmt} {subject : Expr} {machine machine' : Machine} {cause : RuntimeError}
    (hsubject : statement.subject? = some subject)
    (hfault : machine.evaluate subject = .error cause machine') :
    Runs (.one statement) machine (.error cause machine')
  | print {subject : Expr} {value : Value} {machine machine' : Machine}
    (hvalue : machine.evaluate subject = .ok value machine') :
    Runs (.one (.print subject)) machine (machine'.print value)
  | expr {subject : Expr} {value : Value} {machine machine' : Machine}
    (hvalue : machine.evaluate subject = .ok value machine') :
    Runs (.one (.expr subject)) machine (.ok (.normal (some value)) machine')
  | declare {name : Token} {machine : Machine} :
    Runs (.one (.declare name none)) machine (.ok (.normal none) (machine.define name .nil))
  | define {name : Token} {subject : Expr} {value : Value} {machine machine' : Machine}
    (hvalue : machine.evaluate subject = .ok value machine') :
    Runs (.one (.declare name (some subject))) machine
      (.ok (.normal none) (machine'.define name value))
  | block {body : List Stmt} {machine : Machine} {outcome : Outcome Completion}
    (hbody : Runs (.all body) machine.openBlock outcome) :
    Runs (.one (.block body)) machine (outcome.mapMachine Machine.closeBlock)
  | ifTrue {condition : Expr} {body : Stmt} {value : Value} {machine machine' : Machine}
    {outcome : Outcome Completion} (hvalue : machine.evaluate condition = .ok value machine')
    (htrue : value.isTruthy = true) (hbody : Runs (.one body) machine' outcome) :
    Runs (.one (.ifThen condition body)) machine outcome
  | ifFalse {condition : Expr} {body : Stmt} {value : Value} {machine machine' : Machine}
    (hvalue : machine.evaluate condition = .ok value machine') (hfalse : value.isTruthy = false) :
    Runs (.one (.ifThen condition body)) machine (.ok (.normal none) machine')
  | ifElseTrue {condition : Expr} {body alternative : Stmt} {value : Value}
    {machine machine' : Machine} {outcome : Outcome Completion}
    (hvalue : machine.evaluate condition = .ok value machine') (htrue : value.isTruthy = true)
    (hbody : Runs (.one body) machine' outcome) :
    Runs (.one (.ifElse condition body alternative)) machine outcome
  | ifElseFalse {condition : Expr} {body alternative : Stmt} {value : Value}
    {machine machine' : Machine} {outcome : Outcome Completion}
    (hvalue : machine.evaluate condition = .ok value machine') (hfalse : value.isTruthy = false)
    (halternative : Runs (.one alternative) machine' outcome) :
    Runs (.one (.ifElse condition body alternative)) machine outcome
  | whileLoop {condition : Expr} {body : Stmt} {machine : Machine} {outcome : Outcome Completion}
    (hloop : Runs (.loop condition body none) machine outcome) :
    Runs (.one (.whileLoop condition body)) machine outcome
  | breakLoop {keyword : Token} {machine : Machine} :
    Runs (.one (.breakLoop keyword)) machine (.ok (.broken keyword) machine)
  | nil {machine : Machine} : Runs (.all []) machine (.ok (.normal none) machine)
  | next {statement : Stmt} {statements : List Stmt} {value : Option Value}
    {machine machine' : Machine} {outcome : Outcome Completion}
    (hstatement : Runs (.one statement) machine (.ok (.normal value) machine'))
    (hstatements : Runs (.all statements) machine' outcome) :
    Runs (.all (statement :: statements)) machine outcome
  | stop {statement : Stmt} {statements : List Stmt} {machine : Machine}
    {outcome : Outcome Completion} (hstatement : Runs (.one statement) machine outcome)
    (hstop : ∀ value machine', outcome ≠ .ok (.normal value) machine') :
    Runs (.all (statement :: statements)) machine outcome
  | loopFault {condition : Expr} {body : Stmt} {last : Option Value} {machine machine' : Machine}
    {cause : RuntimeError} (hfault : machine.evaluate condition = .error cause machine') :
    Runs (.loop condition body last) machine (.error cause machine')
  | loopDone {condition : Expr} {body : Stmt} {last : Option Value} {value : Value}
    {machine machine' : Machine} (hvalue : machine.evaluate condition = .ok value machine')
    (hfalse : value.isTruthy = false) :
    Runs (.loop condition body last) machine (.ok (.normal last) machine')
  | loopRound {condition : Expr} {body : Stmt} {last value' : Option Value} {value : Value}
    {machine machine' machine'' : Machine} {outcome : Outcome Completion}
    (hvalue : machine.evaluate condition = .ok value machine') (htrue : value.isTruthy = true)
    (hbody : Runs (.one body) machine' (.ok (.normal value') machine''))
    (hloop : Runs (.loop condition body value') machine'' outcome) :
    Runs (.loop condition body last) machine outcome
  | loopBreak {condition : Expr} {body : Stmt} {last : Option Value} {value : Value}
    {keyword : Token} {machine machine' machine'' : Machine}
    (hvalue : machine.evaluate condition = .ok value machine') (htrue : value.isTruthy = true)
    (hbody : Runs (.one body) machine' (.ok (.broken keyword) machine'')) :
    Runs (.loop condition body last) machine (.ok (.normal last) machine'')
  | loopStop {condition : Expr} {body : Stmt} {last : Option Value} {value : Value}
    {cause : RuntimeError} {machine machine' machine'' : Machine}
    (hvalue : machine.evaluate condition = .ok value machine') (htrue : value.isTruthy = true)
    (hbody : Runs (.one body) machine' (.error cause machine'')) :
    Runs (.loop condition body last) machine (.error cause machine'')

theorem runs_of_loop {condition : Expr} {body : Stmt} {exec : Machine → Option (Outcome Completion)}
    (hbody : ∀ machine outcome, exec machine = some outcome → Runs (.one body) machine outcome)
    {bound : Nat} {last : Option Value} {machine : Machine} {outcome : Outcome Completion}
    (h : Machine.loop (·.evaluate condition) exec bound last machine = some outcome) :
    Runs (.loop condition body last) machine outcome := by
  induction bound generalizing last machine with
  | zero => cases h
  | succ bound ih =>
    unfold Machine.loop at h
    split at h
    · next cause machine' hfault =>
      cases h
      exact .loopFault hfault
    · next value machine' hvalue =>
      split at h
      · next htrue =>
        split at h
        · cases h
        · next cause machine'' hexec =>
          cases h
          exact .loopStop hvalue htrue (hbody _ _ hexec)
        · next keyword machine'' hexec =>
          cases h
          exact .loopBreak hvalue htrue (hbody _ _ hexec)
        · next value' machine'' hexec =>
          exact .loopRound hvalue htrue (hbody _ _ hexec) (ih h)
      · next hfalse =>
        cases h
        exact .loopDone hvalue (by simpa using hfalse)

theorem runs_of_evaluate {statement : Stmt} {subject : Expr} {machine : Machine}
    {next : Value → Machine → Option (Outcome Completion)} {outcome : Outcome Completion}
    (hsubject : statement.subject? = some subject)
    (hnext : ∀ value machine', machine.evaluate subject = .ok value machine' →
      next value machine' = some outcome →
      Runs (.one statement) machine outcome)
    (h : (machine.evaluate subject).andThen next = some outcome) :
    Runs (.one statement) machine outcome := by
  cases hvalue : machine.evaluate subject with
  | error cause machine' =>
    rw [hvalue] at h
    cases h
    exact .fault hsubject hvalue
  | ok value machine' =>
    rw [hvalue] at h
    exact hnext value machine' hvalue h

mutual

theorem runs_of_exec {bound : Nat} (statement : Stmt) {machine : Machine}
    {outcome : Outcome Completion} (h : statement.exec bound machine = some outcome) :
    Runs (.one statement) machine outcome := by
  cases statement with
  | print value =>
    apply runs_of_evaluate rfl _ h
    intro value machine' hvalue h
    cases h
    exact .print hvalue
  | expr value =>
    apply runs_of_evaluate rfl _ h
    intro value machine' hvalue h
    cases h
    exact .expr hvalue
  | declare name initial =>
    cases initial with
    | none =>
      cases h
      exact .declare
    | some initial =>
      apply runs_of_evaluate rfl _ h
      intro value machine' hvalue h
      cases h
      exact .define hvalue
  | block body =>
    obtain ⟨outcome, hbody, rfl⟩ := Option.map_eq_some_iff.1 h
    exact .block (runs_of_execAll body hbody)
  | ifThen condition body =>
    apply runs_of_evaluate rfl _ h
    intro value machine' hvalue h
    split at h
    · next htrue => exact .ifTrue hvalue htrue (runs_of_exec body h)
    · next hfalse =>
      cases h
      exact .ifFalse hvalue (by simpa using hfalse)
  | ifElse condition body alternative =>
    apply runs_of_evaluate rfl _ h
    intro value machine' hvalue h
    split at h
    · next htrue => exact .ifElseTrue hvalue htrue (runs_of_exec body h)
    · next hfalse => exact .ifElseFalse hvalue (by simpa using hfalse) (runs_of_exec alternative h)
  | whileLoop condition body =>
    apply Runs.whileLoop
    exact runs_of_loop (fun _ _ => runs_of_exec body) h
  | breakLoop keyword =>
    cases h
    exact .breakLoop

theorem runs_of_execAll {bound : Nat} (statements : List Stmt) {machine : Machine}
    {outcome : Outcome Completion} (h : Stmt.execAll bound statements machine = some outcome) :
    Runs (.all statements) machine outcome := by
  cases statements with
  | nil =>
    cases h
    exact .nil
  | cons statement statements =>
    unfold Stmt.execAll at h
    split at h
    · next value machine' hstatement =>
        exact .next (runs_of_exec statement hstatement) (runs_of_execAll statements h)
    · next hstop =>
      apply Runs.stop (runs_of_exec statement h)
      rintro value machine' rfl
      exact hstop _ _ h

end

end TreeWalk
