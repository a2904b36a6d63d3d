import TreeWalk.Execution
import TreeWalk.Proofs.Token.Place
import TreeWalk.Proofs.Tree.Exchange

/-!
This module contains the execution of trees whose tokens are moved to other places. The effects are
the same, and only errors and breaks show the places.
-/

namespace TreeWalk

def EvalError.move (place : Position → Position) (error : EvalError) : EvalError :=
  { error with token := error.token.move place }

def RuntimeError.move (place : Position → Position) : RuntimeError → RuntimeError
  | evaluation error => evaluation (error.move place)
  | output => output

def Completion.move (place : Position → Position) : Completion → Completion
  | normal value => normal value
  | broken keyword => broken (keyword.move place)

def Outcome.move {α β : Type} (place : Position → Position) (onResult : α → β) :
    Outcome α → Outcome β
  | ok result machine => ok (onResult result) machine
  | error cause machine => error (cause.move place) machine

variable {place : Position → Position}

namespace Evaluation

def move {α : Type} (place : Position → Position) (evaluation : Evaluation α) : Evaluation α :=
  fun environment => match evaluation environment with
  | .ok result environment => .ok result environment
  | .error error environment => .error (error.move place) environment

variable {α β : Type}

theorem move_pure (result : α) : move place (pure result) = pure result :=
  rfl

theorem move_get : move place get = get :=
  rfl

theorem move_set (environment : Environment) : move place (set environment) = set environment :=
  rfl

theorem move_answer (result : Except EvalError α) :
    move place (answer result) = answer (result.mapError (EvalError.move place)) := by
  cases result <;> rfl

theorem move_bind (x : Evaluation α) (next : α → Evaluation β) :
    move place (x >>= next) = move place x >>= fun result => move place (next result) := by
  funext environment
  show move place (EStateM.bind x next) environment = EStateM.bind (move place x) _ environment
  simp only [move, EStateM.bind]
  cases x environment <;> rfl

end Evaluation

namespace Operation

theorem unary_move (operator : Token) (operand : Value) :
    unary (operator.move place) operand =
      (unary operator operand).mapError (EvalError.move place) := by
  unfold unary
  rw [Token.kind_move]
  split
  · cases operand <;> rfl
  · rfl
  · rfl

theorem onNumbers_move (operator : Token) (left right : Value)
    {operation operation' : Float → Float → Except EvalError Value}
    (h : ∀ x y, operation' x y = (operation x y).mapError (EvalError.move place)) :
    onNumbers (operator.move place) left right operation' =
      (onNumbers operator left right operation).mapError (EvalError.move place) := by
  unfold onNumbers
  split
  · exact h _ _
  · rfl

theorem binary_move (operator : Token) (left right : Value) :
    binary (operator.move place) left right =
      (binary operator left right).mapError (EvalError.move place) := by
  unfold binary
  rw [Token.kind_move]
  split
  case h_1 =>
    unfold add
    split <;> rfl
  case h_4 =>
    apply onNumbers_move
    intro x y
    unfold divide
    split <;> rfl
  case h_9 | h_10 | h_11 => rfl
  all_goals exact onNumbers_move _ _ _ fun _ _ => rfl

theorem decided?_move (operator : Token) (left : Value) :
    decided? (operator.move place) left =
      (decided? operator left).mapError (EvalError.move place) := by
  unfold decided?
  rw [Token.kind_move]
  split <;> rfl

end Operation

theorem Environment.read_move (environment : Environment) (name : Token) :
    environment.read (name.move place) =
      (environment.read name).mapError (EvalError.move place) := by
  unfold read
  rw [Token.lexeme_move]
  split <;> rfl

theorem Environment.assign_move (environment : Environment) (target : Token) (value : Value) :
    environment.assign (target.move place) value =
      (environment.assign target value).mapError (EvalError.move place) := by
  unfold assign
  rw [Token.lexeme_move]
  split <;> rfl

theorem Evaluation.read_move (name : Token) : read (name.move place) = move place (read name) := by
  simp only [read, move_bind, move_get, move_answer, Environment.read_move]

theorem Evaluation.assign_move (target : Token) (value : Value) :
    assign (target.move place) value = move place (assign target value) := by
  simp only [assign, move_bind, move_get, move_answer, move_set, Environment.assign_move]

theorem Expr.eval_move (expr : Expr) :
    (expr.mapTokens (Token.move place)).eval = Evaluation.move place expr.eval := by
  induction expr with
  | literal value => rfl
  | group inner ih => exact ih
  | unary operator operand ih =>
    simp only [mapTokens, eval, ih, Evaluation.move_bind, Evaluation.move_answer,
      Operation.unary_move]
  | binary left operator right ihleft ihright =>
    simp only [mapTokens, eval, ihleft, ihright, Evaluation.move_bind, Evaluation.move_answer,
      Operation.binary_move]
  | logical left operator right ihleft ihright =>
    simp only [mapTokens, eval, ihleft, ihright, Evaluation.move_bind, Evaluation.move_answer,
      Operation.decided?_move]
    congr
    funext a
    congr
    funext decided
    cases decided <;> rfl
  | name token => exact Evaluation.read_move token
  | assign target value ih =>
    simp only [mapTokens, eval, ih, Evaluation.move_bind, Evaluation.move_pure,
      Evaluation.assign_move]

theorem Machine.evaluate_move (machine : Machine) (expr : Expr) :
    machine.evaluate (expr.mapTokens (Token.move place)) =
      (machine.evaluate expr).move place id := by
  obtain ⟨environment, output⟩ := machine
  simp only [evaluate, Expr.eval_move, Evaluation.move]
  cases expr.eval environment <;> rfl

theorem Outcome.andThen_move {α β γ : Type} {g : β → γ} {outcome : Outcome α}
    {next : α → Machine → Option (Outcome β)} {next' : α → Machine → Option (Outcome γ)}
    (h : ∀ result machine, next' result machine = (next result machine).map (move place g)) :
    (outcome.move place id).andThen next' = (outcome.andThen next).map (move place g) := by
  cases outcome with
  | ok result machine => exact h result machine
  | error => rfl

theorem Machine.move_print (machine : Machine) (value : Value) :
    (machine.print value).move place (Completion.move place) = machine.print value := by
  simp only [print]
  split <;> rfl

theorem Outcome.mapMachine_move {α β : Type} {g : α → β} (onMachine : Machine → Machine)
    (outcome : Outcome α) :
    (outcome.move place g).mapMachine onMachine = (outcome.mapMachine onMachine).move place g := by
  cases outcome <;> rfl

theorem Outcome.atTopLevel_move (outcome : Outcome Completion) :
    (outcome.move place (Completion.move place)).atTopLevel = outcome.atTopLevel.move place id := by
  cases outcome with
  | ok completion machine => cases completion <;> rfl
  | error => rfl

theorem Machine.loop_move {condition condition' : Machine → Outcome Value}
    {body body' : Machine → Option (Outcome Completion)}
    (hcondition : ∀ machine, condition' machine = (condition machine).move place id)
    (hbody : ∀ machine,
      body' machine = (body machine).map (Outcome.move place (Completion.move place)))
    (bound : Nat) (last : Option Value) (machine : Machine) :
    loop condition' body' bound last machine =
      (loop condition body bound last machine).map
        (Outcome.move place (Completion.move place)) := by
  induction bound generalizing last machine with
  | zero => rfl
  | succ bound ih =>
    rw [loop, loop, hcondition]
    cases condition machine with
    | error => rfl
    | ok value machine =>
      simp only [Outcome.move, id_eq]
      split
      · rw [hbody]
        cases body machine with
        | none => rfl
        | some outcome =>
          cases outcome with
          | error => rfl
          | ok completion machine =>
            cases completion with
            | broken keyword => rfl
            | normal value => exact ih value machine
      · rfl

namespace Stmt

mutual

theorem exec_move (bound : Nat) (statement : Stmt) (machine : Machine) :
    (statement.mapTokens (Token.move place)).exec bound machine =
      (statement.exec bound machine).map (Outcome.move place (Completion.move place)) := by
  cases statement with
  | print value =>
    rw [mapTokens, exec, exec, Machine.evaluate_move]
    apply Outcome.andThen_move
    intro value machine
    rw [Option.map_some, Machine.move_print]
  | expr value =>
    rw [mapTokens, exec, exec, Machine.evaluate_move]
    exact Outcome.andThen_move fun _ _ => rfl
  | declare name initial =>
    cases initial with
    | none => rfl
    | some initial =>
      rw [mapTokens, Option.map_some, exec, exec, Machine.evaluate_move]
      exact Outcome.andThen_move fun _ _ => rfl
  | block body =>
    rw [mapTokens, exec, exec, execAll_move bound body, Option.map_map, Option.map_map]
    congr 1
    funext outcome
    exact Outcome.mapMachine_move _ outcome
  | ifThen condition body =>
    rw [mapTokens, exec, exec, Machine.evaluate_move]
    apply Outcome.andThen_move
    intro value machine
    split
    · exact exec_move bound body machine
    · rfl
  | ifElse condition body alternative =>
    rw [mapTokens, exec, exec, Machine.evaluate_move]
    apply Outcome.andThen_move
    intro value machine
    split
    · exact exec_move bound body machine
    · exact exec_move bound alternative machine
  | whileLoop condition body =>
    rw [mapTokens, exec, exec]
    apply Machine.loop_move
    · exact fun machine => Machine.evaluate_move machine condition
    · exact exec_move bound body
  | breakLoop keyword => rfl

theorem execAll_move (bound : Nat) (statements : List Stmt) (machine : Machine) :
    execAll bound (mapAllTokens (Token.move place) statements) machine =
      (execAll bound statements machine).map (Outcome.move place (Completion.move place)) := by
  cases statements with
  | nil => rfl
  | cons statement statements =>
    rw [mapAllTokens, execAll, execAll, exec_move bound statement]
    cases statement.exec bound machine with
    | none => rfl
    | some outcome =>
      cases outcome with
      | error => rfl
      | ok completion machine =>
        cases completion with
        | broken keyword => rfl
        | normal value => exact execAll_move bound statements machine

end

theorem interpret_move (bound : Nat) (statement : Stmt) (machine : Machine) :
    (statement.mapTokens (Token.move place)).interpret bound machine =
      (statement.interpret bound machine).map (Outcome.move place id) := by
  rw [interpret, interpret, exec_move, Option.map_map, Option.map_map]
  congr 1
  funext outcome
  exact Outcome.atTopLevel_move outcome

theorem interpretAll_move (bound : Nat) (statements : List Stmt) (machine : Machine) :
    interpretAll bound (statements.map (mapTokens (Token.move place))) machine =
      (interpretAll bound statements machine).map (Outcome.move place id) := by
  induction statements generalizing machine with
  | nil => rfl
  | cons statement statements ih =>
    rw [List.map_cons, interpretAll, interpretAll, interpret_move]
    cases statement.interpret bound machine with
    | none => rfl
    | some outcome =>
      cases outcome with
      | error => rfl
      | ok value machine =>
        simp only [Option.map_some, Outcome.move, ih, id_eq]
        cases interpretAll bound statements machine with
        | none => rfl
        | some outcome => cases outcome <;> rfl

end Stmt

theorem Stmt.interpretAll_append (bound : Nat) (first second : List Stmt) (machine : Machine) :
    interpretAll bound (first ++ second) machine =
      (interpretAll bound first machine).bind fun outcome => outcome.andThen fun values machine =>
        (interpretAll bound second machine).bind fun outcome =>
          outcome.andThen fun values' machine =>
            some (.ok (values ++ values') machine) := by
  induction first generalizing machine with
  | nil =>
    show interpretAll bound second machine = (interpretAll bound second machine).bind _
    cases interpretAll bound second machine with
    | none => rfl
    | some outcome => cases outcome <;> rfl
  | cons statement first ih =>
    rw [List.cons_append, interpretAll, interpretAll]
    cases statement.interpret bound machine with
    | none => rfl
    | some outcome =>
      cases outcome with
      | error => rfl
      | ok value machine =>
        simp only [ih]
        cases interpretAll bound first machine with
        | none => rfl
        | some outcome =>
          cases outcome with
          | error => rfl
          | ok values machine =>
            simp only [Option.bind_some, Outcome.andThen]
            cases interpretAll bound second machine with
            | none => rfl
            | some outcome =>
              cases outcome with
              | error => rfl
              | ok values' machine => simp only [Option.bind_some, List.append_assoc]

end TreeWalk
