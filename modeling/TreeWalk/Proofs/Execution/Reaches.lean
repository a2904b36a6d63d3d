import TreeWalk.Proofs.Execution.Bounds
import TreeWalk.Proofs.Execution.Frames
import TreeWalk.Proofs.Scope.Site

/-!
This module contains the statements that a run comes to, each with the machine that it finds, and
what becomes of a run that a statement on the way does not let go on: it ends with what the
statement ends with, less the frames of the blocks that it leaves. Errors get out of everything, and
breaks out of everything but loops.
-/

namespace TreeWalk

namespace Environment

variable {environment : Environment} {depth : Nat}

def unwind (depth : Nat) (environment : Environment) : Environment :=
  { environment with blocks := environment.blocks.drop (environment.depth - depth) }

theorem unwind_depth (environment : Environment) :
    environment.unwind environment.depth = environment := by
  rw [unwind, Nat.sub_self, List.drop_zero]

theorem closeBlock_unwind (h : depth < environment.depth) :
    (environment.unwind (depth + 1)).closeBlock = environment.unwind depth := by
  have hdepth : environment.depth - depth = environment.depth - (depth + 1) + 1 := by omega
  simp only [closeBlock, unwind, List.tail_drop, hdepth]

end Environment

namespace Machine

def unwind (depth : Nat) (machine : Machine) : Machine :=
  { machine with environment := machine.environment.unwind depth }

theorem depth_of_value {machine machine' : Machine} {expr : Expr} {value : Value}
    (h : machine.evaluate expr = .ok value machine') :
    machine'.environment.depth = machine.environment.depth := by
  have hgrows : Environment.Grows [] machine.environment machine'.environment := grows_of_value h
  exact hgrows.depth_eq

theorem print_ne_broken {machine machine' : Machine} {value : Value} {keyword : Token} :
    machine.print value ≠ .ok (.broken keyword) machine' := by
  simp only [print]
  intro h
  split at h <;> cases h

end Machine

namespace Outcome

theorem mapMachine_unwind {α : Type} {outcome : Outcome α} {depth : Nat}
    (h : outcome.machine.environment.depth = depth) :
    outcome.mapMachine (Machine.unwind depth) = outcome := by
  subst h
  cases outcome <;> simp only [mapMachine, machine, Machine.unwind, Environment.unwind_depth]

theorem mapMachine_closeBlock {α : Type} {outcome : Outcome α} {depth : Nat}
    (h : depth < outcome.machine.environment.depth) :
    (outcome.mapMachine (Machine.unwind (depth + 1))).mapMachine Machine.closeBlock =
      outcome.mapMachine (Machine.unwind depth) := by
  have hclose := Environment.closeBlock_unwind h
  cases outcome with
  | ok result machine =>
    exact congrArg (fun environment => ok result ⟨environment, machine.output⟩) hclose
  | error cause machine =>
    exact congrArg (fun environment => error cause ⟨environment, machine.output⟩) hclose

end Outcome

/--
A run comes to a statement at the end of a path, in a machine. Only what stands before the statement
has to end.
-/
inductive Reaches : Task → Machine → Path → Stmt → Machine → Prop
  | start {statement : Stmt} {machine : Machine} :
    Reaches (.one statement) machine [] statement machine
  | block {body : List Stmt} {machine reached : Machine} {path : Path} {statement : Stmt}
    (h : Reaches (.all body) machine.openBlock path statement reached) :
    Reaches (.one (.block body)) machine path statement reached
  | ifTrue {condition : Expr} {body statement : Stmt} {value : Value}
    {machine machine' reached : Machine} {path : Path}
    (hvalue : machine.evaluate condition = .ok value machine') (htrue : value.isTruthy = true)
    (h : Reaches (.one body) machine' path statement reached) :
    Reaches (.one (.ifThen condition body)) machine (.body :: path) statement reached
  | ifElseTrue {condition : Expr} {body alternative statement : Stmt} {value : Value}
    {machine machine' reached : Machine} {path : Path}
    (hvalue : machine.evaluate condition = .ok value machine') (htrue : value.isTruthy = true)
    (h : Reaches (.one body) machine' path statement reached) :
    Reaches (.one (.ifElse condition body alternative)) machine (.body :: path) statement reached
  | ifElseFalse {condition : Expr} {body alternative statement : Stmt} {value : Value}
    {machine machine' reached : Machine} {path : Path}
    (hvalue : machine.evaluate condition = .ok value machine') (hfalse : value.isTruthy = false)
    (h : Reaches (.one alternative) machine' path statement reached) :
    Reaches (.one (.ifElse condition body alternative)) machine
      (.alternative :: path) statement reached
  | whileLoop {condition : Expr} {body statement : Stmt} {machine reached : Machine} {path : Path}
    (h : Reaches (.loop condition body none) machine path statement reached) :
    Reaches (.one (.whileLoop condition body)) machine path statement reached
  | first {member statement : Stmt} {statements : List Stmt} {machine reached : Machine}
    {path : Path} (h : Reaches (.one member) machine path statement reached) :
    Reaches (.all (member :: statements)) machine (.member 0 :: path) statement reached
  | later {member statement : Stmt} {statements : List Stmt} {value : Option Value}
    {machine machine' reached : Machine} {index : Nat} {path : Path}
    (hmember : Runs (.one member) machine (.ok (.normal value) machine'))
    (h : Reaches (.all statements) machine' (.member index :: path) statement reached) :
    Reaches (.all (member :: statements)) machine (.member (index + 1) :: path) statement reached
  | round {condition : Expr} {body statement : Stmt} {last : Option Value} {value : Value}
    {machine machine' reached : Machine} {path : Path}
    (hvalue : machine.evaluate condition = .ok value machine') (htrue : value.isTruthy = true)
    (h : Reaches (.one body) machine' path statement reached) :
    Reaches (.loop condition body last) machine (.body :: path) statement reached
  | rounds {condition : Expr} {body statement : Stmt} {last value' : Option Value} {value : Value}
    {machine machine' machine'' reached : Machine} {path : Path}
    (hvalue : machine.evaluate condition = .ok value machine') (htrue : value.isTruthy = true)
    (hbody : Runs (.one body) machine' (.ok (.normal value') machine''))
    (h : Reaches (.loop condition body value') machine'' path statement reached) :
    Reaches (.loop condition body last) machine path statement reached

/--
At the end of a path stands a break with this keyword, and no loop around it.
-/
inductive Task.StrayAt (keyword : Token) : Task → Path → Prop
  | here : StrayAt keyword (.one (.breakLoop keyword)) []
  | block {body : List Stmt} {path : Path} (h : StrayAt keyword (.all body) path) :
    StrayAt keyword (.one (.block body)) path
  | ifThen {condition : Expr} {body : Stmt} {path : Path} (h : StrayAt keyword (.one body) path) :
    StrayAt keyword (.one (.ifThen condition body)) (.body :: path)
  | ifElseBody {condition : Expr} {body alternative : Stmt} {path : Path}
    (h : StrayAt keyword (.one body) path) :
    StrayAt keyword (.one (.ifElse condition body alternative)) (.body :: path)
  | ifElseAlternative {condition : Expr} {body alternative : Stmt} {path : Path}
    (h : StrayAt keyword (.one alternative) path) :
    StrayAt keyword (.one (.ifElse condition body alternative)) (.alternative :: path)
  | member {statement : Stmt} {statements : List Stmt} {index : Nat} {path : Path}
    (hmember : statements[index]? = some statement) (h : StrayAt keyword (.one statement) path) :
    StrayAt keyword (.all statements) (.member index :: path)

namespace Task

variable {keyword : Token} {statement : Stmt} {statements : List Stmt} {path : Path} {index : Nat}

theorem strayAt_of_cons_zero
    (h : StrayAt keyword (.all (statement :: statements)) (.member 0 :: path)) :
    StrayAt keyword (.one statement) path := by
  cases h with
  | member hmember h =>
    cases hmember
    exact h

theorem strayAt_of_cons_succ
    (h : StrayAt keyword (.all (statement :: statements)) (.member (index + 1) :: path)) :
    StrayAt keyword (.all statements) (.member index :: path) := by
  cases h with
  | member hmember h => exact .member hmember h

theorem not_strayAt_whileLoop {condition : Expr} {body : Stmt} :
    ¬ StrayAt keyword (.one (.whileLoop condition body)) path := by
  intro h
  cases h

theorem not_strayAt_loop {condition : Expr} {body : Stmt} {last : Option Value} :
    ¬ StrayAt keyword (.loop condition body last) path := by
  intro h
  cases h

end Task

def Outcome.Leaves (task : Task) (path : Path) : Outcome Completion → Prop
  | ok (.normal _) _ => False
  | ok (.broken keyword) _ => task.StrayAt keyword path
  | error _ _ => True

namespace Outcome.Leaves

variable {task task' : Task} {path path' : Path} {outcome : Outcome Completion}

theorem imp (h : outcome.Leaves task path)
    (hstray : ∀ keyword, task.StrayAt keyword path → task'.StrayAt keyword path') :
    outcome.Leaves task' path' := by
  cases outcome with
  | ok completion =>
    cases completion with
    | normal => exact h
    | broken keyword => exact hstray keyword h
  | error => trivial

theorem mapMachine_ne_normal (h : outcome.Leaves task path) (f : Machine → Machine)
    (value : Option Value) (machine : Machine) :
    outcome.mapMachine f ≠ .ok (.normal value) machine := by
  rintro heq
  cases outcome with
  | ok completion =>
    cases heq
    exact h
  | error => cases heq

end Outcome.Leaves

theorem Runs.depth_of_normal {task : Task} {machine machine' : Machine} {value : Option Value}
    (h : Runs task machine (.ok (.normal value) machine')) :
    machine'.environment.depth = machine.environment.depth :=
  h.grows.depth_eq

section

variable {task : Task} {machine reached : Machine} {path : Path} {statement : Stmt}

theorem Reaches.le_depth (h : Reaches task machine path statement reached) :
    machine.environment.depth ≤ reached.environment.depth := by
  induction h with
  | start => exact Nat.le_refl _
  | block _ ih => exact Nat.le_of_succ_le ih
  | ifTrue hvalue _ _ ih | ifElseTrue hvalue _ _ ih | ifElseFalse hvalue _ _ ih
  | round hvalue _ _ ih =>
    rwa [Machine.depth_of_value hvalue] at ih
  | whileLoop _ ih | first _ ih => exact ih
  | later hmember _ ih => rwa [hmember.depth_of_normal] at ih
  | rounds hvalue _ hbody _ ih => rwa [hbody.depth_of_normal, Machine.depth_of_value hvalue] at ih

theorem Reaches.runs {outcome : Outcome Completion}
    (h : Reaches task machine path statement reached)
    (hruns : Runs (.one statement) reached outcome) (hleaves : outcome.Leaves task path) :
    Runs task machine (outcome.mapMachine (Machine.unwind machine.environment.depth)) := by
  have hreached := hruns.grows.depth_eq
  induction h with
  | start =>
    rw [Outcome.mapMachine_unwind hreached]
    exact hruns
  | @block _ machine _ _ _ h ih =>
    have hdepth : machine.environment.depth < outcome.machine.environment.depth := by
      rw [hreached]
      exact h.le_depth
    rw [← Outcome.mapMachine_closeBlock hdepth]
    exact .block (ih hruns (hleaves.imp fun _ (.block h) => h) hreached)
  | ifTrue hvalue htrue _ ih =>
    rw [← Machine.depth_of_value hvalue]
    exact .ifTrue hvalue htrue (ih hruns (hleaves.imp fun _ (.ifThen h) => h) hreached)
  | ifElseTrue hvalue htrue _ ih =>
    rw [← Machine.depth_of_value hvalue]
    exact .ifElseTrue hvalue htrue (ih hruns (hleaves.imp fun _ (.ifElseBody h) => h) hreached)
  | ifElseFalse hvalue hfalse _ ih =>
    rw [← Machine.depth_of_value hvalue]
    exact .ifElseFalse hvalue hfalse
      (ih hruns (hleaves.imp fun _ (.ifElseAlternative h) => h) hreached)
  | whileLoop _ ih =>
    exact .whileLoop
      (ih hruns (hleaves.imp fun _ h => absurd h Task.not_strayAt_whileLoop) hreached)
  | first _ ih =>
    have hfirst := ih hruns (hleaves.imp fun _ => Task.strayAt_of_cons_zero) hreached
    exact .stop hfirst (hleaves.mapMachine_ne_normal _)
  | later hmember _ ih =>
    rw [← hmember.depth_of_normal]
    exact .next hmember (ih hruns (hleaves.imp fun _ => Task.strayAt_of_cons_succ) hreached)
  | round hvalue htrue _ ih =>
    cases outcome with
    | ok completion =>
      cases completion with
      | normal => cases hleaves
      | broken keyword => cases hleaves
    | error =>
      rw [← Machine.depth_of_value hvalue]
      exact .loopStop hvalue htrue (ih hruns trivial hreached)
  | rounds hvalue htrue hbody _ ih =>
    rw [← Machine.depth_of_value hvalue, ← hbody.depth_of_normal]
    exact .loopRound hvalue htrue hbody
      (ih hruns (hleaves.imp fun _ h => absurd h Task.not_strayAt_loop) hreached)

theorem Runs.exists_stray {keyword : Token} {outcome : Outcome Completion} {machine' : Machine}
    (h : Runs task machine outcome) (houtcome : outcome = .ok (.broken keyword) machine') :
    ∃ path reached, task.StrayAt keyword path ∧
      Reaches task machine path (.breakLoop keyword) reached := by
  induction h generalizing machine' with
  | fault | expr | declare | define | ifFalse | nil | loopFault | loopDone | loopBreak | loopStop =>
    cases houtcome
  | print => exact absurd houtcome Machine.print_ne_broken
  | @block _ _ outcome _ ih =>
    cases outcome with
    | ok =>
      cases houtcome
      obtain ⟨path, reached, hstray, hreaches⟩ := ih rfl
      exact ⟨path, reached, .block hstray, .block hreaches⟩
    | error => cases houtcome
  | ifTrue hvalue htrue _ ih =>
    obtain ⟨path, reached, hstray, hreaches⟩ := ih houtcome
    exact ⟨_, reached, .ifThen hstray, .ifTrue hvalue htrue hreaches⟩
  | ifElseTrue hvalue htrue _ ih =>
    obtain ⟨path, reached, hstray, hreaches⟩ := ih houtcome
    exact ⟨_, reached, .ifElseBody hstray, .ifElseTrue hvalue htrue hreaches⟩
  | ifElseFalse hvalue hfalse _ ih =>
    obtain ⟨path, reached, hstray, hreaches⟩ := ih houtcome
    exact ⟨_, reached, .ifElseAlternative hstray, .ifElseFalse hvalue hfalse hreaches⟩
  | whileLoop _ ih =>
    obtain ⟨path, reached, hstray, _⟩ := ih houtcome
    exact absurd hstray Task.not_strayAt_loop
  | breakLoop =>
    cases houtcome
    exact ⟨[], _, .here, .start⟩
  | next hstatement _ _ ih =>
    obtain ⟨path, reached, hstray, hreaches⟩ := ih houtcome
    cases hstray with
    | member hmember hstray =>
      exact ⟨_, reached, .member hmember hstray, .later hstatement hreaches⟩
  | stop _ _ ih =>
    obtain ⟨path, reached, hstray, hreaches⟩ := ih houtcome
    exact ⟨_, reached, .member rfl hstray, .first hreaches⟩
  | loopRound _ _ _ _ _ ih =>
    obtain ⟨path, reached, hstray, _⟩ := ih houtcome
    exact absurd hstray Task.not_strayAt_loop

end
end TreeWalk
