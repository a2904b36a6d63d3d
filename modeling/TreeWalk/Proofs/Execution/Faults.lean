import TreeWalk.Proofs.Execution.Bounds
import TreeWalk.Proofs.Execution.Events

/-!
This module contains the faults that no operator causes, which are those of names that are not
bound: a run ends with one exactly if it comes to an event that cannot be carried out.
-/

namespace TreeWalk

def Event.name? : Event → Option Token
  | start _ => none
  | read name | assign name _ => some name

def Event.error? (environment : Environment) : Event → Option EvalError
  | start _ => none
  | read name =>
    match environment.read name with
    | .ok _ => none
    | .error error => some error
  | assign target value =>
    match environment.assign target value with
    | .ok _ => none
    | .error error => some error

theorem Event.eq_of_error? {event : Event} {environment : Environment} {error : EvalError}
    (h : event.error? environment = some error) :
    ∃ name ∈ event.name?, error = ⟨name, .undefinedName⟩ := by
  cases event with
  | start => cases h
  | read name =>
    simp only [error?, Environment.read] at h
    cases hvalue : environment.get? name.lexeme <;> rw [hvalue] at h <;> cases h
    exact ⟨name, rfl, rfl⟩
  | assign target value =>
    simp only [error?, Environment.assign] at h
    cases hafter : environment.assign? target.lexeme value <;> rw [hafter] at h <;> cases h
    exact ⟨target, rfl, rfl⟩

def EvalError.Cause.ofOperator : EvalError.Cause → Bool
  | undefinedName | strayBreak => false
  | expectedNumber _ | expectedNumbers _ _ | expectedNumbersOrStrings _ _ | zeroDivision
  | unknownOperator => true

namespace Operation

variable {operator : Token} {error : EvalError}

theorem ofOperator_of_unary {operand : Value} (h : unary operator operand = .error error) :
    error.cause.ofOperator = true := by
  unfold unary negate at h
  split at h
  · split at h <;> cases h
    rfl
  · cases h
  · cases h
    rfl

theorem ofOperator_of_binary {left right : Value} (h : binary operator left right = .error error) :
    error.cause.ofOperator = true := by
  unfold binary add onNumbers divide at h
  split at h <;> (try split at h) <;> (try split at h) <;> cases h <;> rfl

theorem ofOperator_of_decided? {left : Value} (h : decided? operator left = .error error) :
    error.cause.ofOperator = true := by
  unfold decided? at h
  split at h <;> cases h
  rfl

end Operation

namespace Evaluation

variable {α β : Type} {environment environment' : Environment} {error : EvalError}

theorem answer_eq_error_iff {result : Except EvalError α} :
    answer result environment = .error error environment' ↔
      result = .error error ∧ environment = environment' := by
  cases result with
  | ok => exact ⟨nofun, nofun⟩
  | error cause =>
    show EStateM.Result.error cause environment = _ ↔ _
    simp

theorem answer_eq_ok_iff {result : Except EvalError α} {value : α} :
    answer result environment = .ok value environment' ↔
      result = .ok value ∧ environment = environment' := by
  cases result with
  | ok value =>
    show EStateM.Result.ok value environment = _ ↔ _
    simp
  | error => exact ⟨nofun, nofun⟩

theorem bind_eq_error_iff {x : Evaluation α} {f : α → Evaluation β} :
    (x >>= f) environment = .error error environment' ↔ x environment = .error error environment' ∨
      ∃ result middle, x environment = .ok result middle ∧
        f result middle = .error error environment' := by
  show EStateM.bind x f environment = _ ↔ _
  unfold EStateM.bind
  cases x environment with
  | error => simp
  | ok result middle =>
    constructor
    · intro h
      exact .inr ⟨result, middle, rfl, h⟩
    · rintro (h | ⟨_, _, ⟨⟩, h⟩)
      · cases h
      · exact h

theorem read_eq_error_iff {name : Token} :
    read name environment = .error error environment' ↔
      (Event.read name).error? environment = some error ∧ environment = environment' := by
  show answer (environment.read name) environment = _ ↔ _
  rw [answer_eq_error_iff, Event.error?]
  cases environment.read name <;> simp

theorem assign_eq_error_iff {target : Token} {value : Value} :
    assign target value environment = .error error environment' ↔
      (Event.assign target value).error? environment = some error ∧ environment = environment' := by
  show EStateM.bind (answer (environment.assign target value)) _ environment = _ ↔ _
  simp only [Event.error?]
  cases environment.assign target value with
  | ok =>
    constructor
    · exact nofun
    · rintro ⟨⟨⟩, _⟩
  | error cause =>
    show EStateM.Result.error cause environment = _ ↔ _
    simp

end Evaluation

namespace Expr

variable {expr : Expr} {event : Event} {error : EvalError} {environment environment' : Environment}

theorem Performs.eval_eq_error (h : expr.Performs environment event environment')
    (herror : event.error? environment' = some error) :
    expr.eval environment = .error error environment' := by
  induction h with
  | name => exact Evaluation.read_eq_error_iff.2 ⟨herror, rfl⟩
  | group _ ih => exact ih herror
  | unary _ ih | binaryLeft _ ih | logicalLeft _ ih | assigned _ ih =>
    exact Evaluation.bind_eq_error_iff.2 (.inl (ih herror))
  | binaryRight hleft _ ih =>
    apply Evaluation.bind_eq_error_iff.2
    exact .inr ⟨_, _, hleft, Evaluation.bind_eq_error_iff.2 (.inl (ih herror))⟩
  | logicalRight hleft hundecided _ ih =>
    apply Evaluation.bind_eq_error_iff.2
    refine .inr ⟨_, _, hleft, Evaluation.bind_eq_error_iff.2 (.inr ⟨none, _, ?_, ih herror⟩)⟩
    rw [hundecided]
    rfl
  | assign hvalue =>
    apply Evaluation.bind_eq_error_iff.2
    refine .inr ⟨_, _, hvalue, Evaluation.bind_eq_error_iff.2 (.inl ?_)⟩
    exact Evaluation.assign_eq_error_iff.2 ⟨herror, rfl⟩

theorem exists_performs (hcause : error.cause.ofOperator = false)
    (h : expr.eval environment = .error error environment') :
    ∃ event, expr.Performs environment event environment' ∧
      event.error? environment' = some error := by
  -- operators fault in other ways only, so the error comes from the first operand that has one
  induction expr generalizing environment with
  | literal value => cases h
  | group inner ih =>
    obtain ⟨event, hevent, herror⟩ := ih h
    exact ⟨event, .group hevent, herror⟩
  | unary operator operand ih =>
    obtain h | ⟨value, middle, _, h⟩ := Evaluation.bind_eq_error_iff.1 h
    · obtain ⟨event, hevent, herror⟩ := ih h
      exact ⟨event, .unary hevent, herror⟩
    · have hoperator := Operation.ofOperator_of_unary (Evaluation.answer_eq_error_iff.1 h).1
      simp [hcause] at hoperator
  | binary left operator right ihleft ihright =>
    obtain h | ⟨a, middle, hleft, h⟩ := Evaluation.bind_eq_error_iff.1 h
    · obtain ⟨event, hevent, herror⟩ := ihleft h
      exact ⟨event, .binaryLeft hevent, herror⟩
    obtain h | ⟨b, middle', _, h⟩ := Evaluation.bind_eq_error_iff.1 h
    · obtain ⟨event, hevent, herror⟩ := ihright h
      exact ⟨event, .binaryRight hleft hevent, herror⟩
    · have hoperator := Operation.ofOperator_of_binary (Evaluation.answer_eq_error_iff.1 h).1
      simp [hcause] at hoperator
  | logical left operator right ihleft ihright =>
    obtain h | ⟨a, middle, hleft, h⟩ := Evaluation.bind_eq_error_iff.1 h
    · obtain ⟨event, hevent, herror⟩ := ihleft h
      exact ⟨event, .logicalLeft hevent, herror⟩
    obtain h | ⟨decided, middle', hdecided, h⟩ := Evaluation.bind_eq_error_iff.1 h
    · have hoperator := Operation.ofOperator_of_decided? (Evaluation.answer_eq_error_iff.1 h).1
      simp [hcause] at hoperator
    · cases decided with
      | some value => cases h
      | none =>
        obtain ⟨hundecided, rfl⟩ := Evaluation.answer_eq_ok_iff.1 hdecided
        obtain ⟨event, hevent, herror⟩ := ihright h
        exact ⟨event, .logicalRight hleft hundecided hevent, herror⟩
  | name token' =>
    obtain ⟨herror, rfl⟩ := Evaluation.read_eq_error_iff.1 h
    exact ⟨_, .name, herror⟩
  | assign target value ih =>
    obtain h | ⟨result, middle, hvalue, h⟩ := Evaluation.bind_eq_error_iff.1 h
    · obtain ⟨event, hevent, herror⟩ := ih h
      exact ⟨event, .assigned hevent, herror⟩
    obtain h | ⟨_, _, _, h⟩ := Evaluation.bind_eq_error_iff.1 h
    · obtain ⟨herror, rfl⟩ := Evaluation.assign_eq_error_iff.1 h
      exact ⟨_, .assign hvalue, herror⟩
    · cases h

end Expr

namespace Machine

theorem evaluate_eq_error_iff {machine machine' : Machine} {expr : Expr} {error : EvalError} :
    machine.evaluate expr = .error (.evaluation error) machine' ↔
      expr.eval machine.environment = .error error machine'.environment ∧
      machine.output = machine'.output := by
  obtain ⟨environment, output⟩ := machine
  obtain ⟨environment', output'⟩ := machine'
  cases hresult : expr.eval environment <;> simp [evaluate, hresult, and_assoc]

theorem print_ne_evaluation {machine machine' : Machine} {value : Value} {error : EvalError} :
    machine.print value ≠ .error (.evaluation error) machine' := by
  obtain ⟨environment, output⟩ := machine
  simp only [print]
  split <;> exact nofun

end Machine

section

variable {task : Task} {machine machine' : Machine} {error : EvalError}

theorem Occurs.exists_runs {path : Path} {event : Event} {environment : Environment}
    (h : Occurs task machine path event environment)
    (herror : event.error? environment = some error) :
    ∃ machine', Runs task machine (.error (.evaluation error) machine') := by
  have hfault : ∀ {expr : Expr} {machine : Machine} {event : Event} {environment : Environment},
      expr.Performs machine.environment event environment → event.error? environment = some error →
      machine.evaluate expr = .error (.evaluation error) ⟨environment, machine.output⟩ := by
    intro expr machine event environment h herror
    exact Machine.evaluate_eq_error_iff.2 ⟨h.eval_eq_error herror, rfl⟩
  -- nothing that stands around the event goes on behind an error, so each rule hands it outward
  induction h with
  | start => cases herror
  | subject hsubject h => exact ⟨_, .fault hsubject (hfault h herror)⟩
  | block _ ih =>
    obtain ⟨machine', hbody⟩ := ih herror
    exact ⟨machine'.closeBlock, .block hbody⟩
  | ifTrue hvalue htrue _ ih =>
    obtain ⟨machine', hbody⟩ := ih herror
    exact ⟨machine', .ifTrue hvalue htrue hbody⟩
  | ifElseTrue hvalue htrue _ ih =>
    obtain ⟨machine', hbody⟩ := ih herror
    exact ⟨machine', .ifElseTrue hvalue htrue hbody⟩
  | ifElseFalse hvalue hfalse _ ih =>
    obtain ⟨machine', halternative⟩ := ih herror
    exact ⟨machine', .ifElseFalse hvalue hfalse halternative⟩
  | whileLoop _ ih =>
    obtain ⟨machine', hloop⟩ := ih herror
    exact ⟨machine', .whileLoop hloop⟩
  | first _ ih =>
    obtain ⟨machine', hstatement⟩ := ih herror
    exact ⟨machine', .stop hstatement nofun⟩
  | later hstatement _ ih =>
    obtain ⟨machine', hstatements⟩ := ih herror
    exact ⟨machine', .next (runs_of_exec _ hstatement) hstatements⟩
  | condition h => exact ⟨_, .loopFault (hfault h herror)⟩
  | round hvalue htrue _ ih =>
    obtain ⟨machine', hbody⟩ := ih herror
    exact ⟨machine', .loopStop hvalue htrue hbody⟩
  | rounds hvalue htrue hbody _ ih =>
    obtain ⟨machine', hloop⟩ := ih herror
    exact ⟨machine', .loopRound hvalue htrue (runs_of_exec _ hbody) hloop⟩

theorem Runs.exists_occurs {outcome : Outcome Completion} (h : Runs task machine outcome)
    (hcause : error.cause.ofOperator = false)
    (houtcome : outcome = .error (.evaluation error) machine') :
    ∃ path event environment, Occurs task machine path event environment ∧
      event.error? environment = some error := by
  induction h generalizing machine' with
  | fault hsubject hfault =>
    cases houtcome
    obtain ⟨event, hevent, herror⟩ :=
      Expr.exists_performs hcause (Machine.evaluate_eq_error_iff.1 hfault).1
    exact ⟨[], event, _, .subject hsubject hevent, herror⟩
  | print => exact absurd houtcome Machine.print_ne_evaluation
  | expr | declare | define | ifFalse | breakLoop | nil | loopDone | loopBreak => cases houtcome
  | @block _ _ outcome _ ih =>
    cases outcome with
    | ok => cases houtcome
    | error cause machine =>
      cases houtcome
      obtain ⟨path, event, environment, hbody, herror⟩ := ih rfl
      exact ⟨path, event, environment, .block hbody, herror⟩
  | ifTrue hvalue htrue _ ih =>
    obtain ⟨path, event, environment, hbody, herror⟩ := ih houtcome
    exact ⟨_, event, environment, .ifTrue hvalue htrue hbody, herror⟩
  | ifElseTrue hvalue htrue _ ih =>
    obtain ⟨path, event, environment, hbody, herror⟩ := ih houtcome
    exact ⟨_, event, environment, .ifElseTrue hvalue htrue hbody, herror⟩
  | ifElseFalse hvalue hfalse _ ih =>
    obtain ⟨path, event, environment, halternative, herror⟩ := ih houtcome
    exact ⟨_, event, environment, .ifElseFalse hvalue hfalse halternative, herror⟩
  | whileLoop _ ih =>
    obtain ⟨path, event, environment, hloop, herror⟩ := ih houtcome
    exact ⟨path, event, environment, .whileLoop hloop, herror⟩
  | next hstatement _ _ ih =>
    obtain ⟨bound, hstatement⟩ := hstatement.exists_bound
    obtain ⟨path, event, environment, hstatements, herror⟩ := ih houtcome
    -- the members behind the first one are counted from one on
    cases hstatements with
    | first h => exact ⟨_, event, environment, .later hstatement (.first h), herror⟩
    | later h h' => exact ⟨_, event, environment, .later hstatement (.later h h'), herror⟩
  | stop _ _ ih =>
    obtain ⟨path, event, environment, hstatement, herror⟩ := ih houtcome
    exact ⟨_, event, environment, .first hstatement, herror⟩
  | loopFault hfault =>
    cases houtcome
    obtain ⟨event, hevent, herror⟩ :=
      Expr.exists_performs hcause (Machine.evaluate_eq_error_iff.1 hfault).1
    exact ⟨[], event, _, .condition hevent, herror⟩
  | loopRound hvalue htrue hbody _ _ ih =>
    obtain ⟨bound, hbody⟩ := hbody.exists_bound
    obtain ⟨path, event, environment, hloop, herror⟩ := ih houtcome
    exact ⟨path, event, environment, .rounds hvalue htrue hbody hloop, herror⟩
  | loopStop hvalue htrue _ ih =>
    cases houtcome
    obtain ⟨path, event, environment, hbody, herror⟩ := ih rfl
    exact ⟨_, event, environment, .round hvalue htrue hbody, herror⟩

end
end TreeWalk
