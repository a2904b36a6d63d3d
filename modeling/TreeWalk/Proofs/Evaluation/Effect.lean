import TreeWalk.Execution

/-!
This module contains the one thing that evaluating an expression does to an environment: it assigns
to the targets in the expression, one after the other, whether it comes to a value or not.
-/

namespace TreeWalk

def Expr.targets : Expr → List Token
  | literal _ | name _ => []
  | group inner | unary _ inner => inner.targets
  | binary left _ right | logical left _ right => left.targets ++ right.targets
  | assign target value => value.targets ++ [target]

def Evaluation.left {α : Type} : EStateM.Result EvalError Environment α → Environment
  | .ok _ environment | .error _ environment => environment

namespace Evaluation

variable {α β : Type} {environment : Environment}

@[simp]
theorem left_answer (result : Except EvalError α) :
    left (answer result environment) = environment := by
  cases result <;> rfl

@[simp]
theorem left_read (name : Token) : left (read name environment) = environment :=
  left_answer (environment.read name)

theorem left_assign (target : Token) (value : Value) :
    left (assign target value environment) =
      (environment.assign? target.lexeme value).getD environment := by
  show left (EStateM.bind (answer (environment.assign target value)) _ environment) = _
  unfold Environment.assign
  cases environment.assign? target.lexeme value <;> rfl

theorem left_bind (R : Environment → Environment → Prop) {x : Evaluation α} {f : α → Evaluation β}
    (htrans : ∀ a b c, R a b → R b c → R a c) (hx : R environment (left (x environment)))
    (hf : ∀ result environment', x environment = .ok result environment' →
      R environment' (left (f result environment'))) :
    R environment (left ((x >>= f) environment)) := by
  show R environment (left (EStateM.bind x f environment))
  unfold EStateM.bind
  cases hresult : x environment with
  | error cause environment' =>
    rw [hresult] at hx
    exact hx
  | ok result environment' =>
    rw [hresult] at hx
    exact htrans _ _ _ hx (hf result environment' hresult)

end Evaluation

theorem Expr.eval_induction {R : Environment → Environment → Prop} (hrefl : ∀ a, R a a)
    (htrans : ∀ a b c, R a b → R b c → R a c) (expr : Expr)
    (hassign : ∀ target ∈ expr.targets, ∀ value before after, before.assign? target.lexeme value =
      some after →
      R before after) (environment : Environment) :
    R environment (Evaluation.left (expr.eval environment)) := by
  induction expr generalizing environment with
  | literal value => exact hrefl environment
  | group inner ih => exact ih hassign environment
  | unary operator operand ih =>
    rw [eval]
    apply Evaluation.left_bind R htrans
    · exact ih hassign environment
    · intro value environment' _
      rw [Evaluation.left_answer]
      exact hrefl environment'
  | binary left operator right ihleft ihright =>
    rw [eval]
    apply Evaluation.left_bind R htrans
    · exact ihleft (fun target h => hassign target (List.mem_append_left _ h)) environment
    · intro a environment' _
      apply Evaluation.left_bind R htrans
      · exact ihright (fun target h => hassign target (List.mem_append_right _ h)) environment'
      · intro b environment'' _
        rw [Evaluation.left_answer]
        exact hrefl environment''
  | logical left operator right ihleft ihright =>
    rw [eval]
    apply Evaluation.left_bind R htrans
    · exact ihleft (fun target h => hassign target (List.mem_append_left _ h)) environment
    · intro a environment' _
      apply Evaluation.left_bind R htrans
      · rw [Evaluation.left_answer]
        exact hrefl environment'
      · intro decided environment'' _
        cases decided with
        | some value => exact hrefl environment''
        | none =>
          exact ihright (fun target h => hassign target (List.mem_append_right _ h)) environment''
  | name token =>
    rw [eval, Evaluation.left_read]
    exact hrefl environment
  | assign target value ih =>
    rw [eval]
    apply Evaluation.left_bind R htrans
    · exact ih (fun target h => hassign target (List.mem_append_left _ h)) environment
    · intro result environment' _
      apply Evaluation.left_bind R htrans
      · rw [Evaluation.left_assign]
        cases hafter : environment'.assign? target.lexeme result with
        | none => exact hrefl environment'
        | some after => exact hassign target (by simp [targets]) result environment' after hafter
      · intro _ environment'' _
        exact hrefl environment''

theorem Machine.environment_evaluate (machine : Machine) (expr : Expr) :
    (machine.evaluate expr).machine.environment =
      Evaluation.left (expr.eval machine.environment) := by
  obtain ⟨environment, output⟩ := machine
  cases hresult : expr.eval environment <;>
    simp [evaluate, hresult, Evaluation.left, Outcome.machine]

theorem Machine.output_evaluate (machine : Machine) (expr : Expr) :
    (machine.evaluate expr).machine.output = machine.output := by
  obtain ⟨environment, output⟩ := machine
  cases hresult : expr.eval environment <;> simp [evaluate, hresult, Outcome.machine]

end TreeWalk
