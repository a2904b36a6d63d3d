import TreeWalk.Proofs.Execution.Frames

/-!
This module contains pairs of environments that no statement can tell apart: whatever runs in both
comes to the same end, and leaves two environments of this kind.
-/

namespace TreeWalk

/--
A relation between environments in which names are looked up, assigned to and declared alike. It
keeps account of the blocks that both have opened since they were first related; outside of these
only the given names may be declared.
-/
structure Simulation (Own : String → Prop) where
  Related : Nat → Environment → Environment → Prop
  get? {depth : Nat} {a b : Environment} (h : Related depth a b) (name : String) :
    b.get? name = a.get? name
  assign? {depth : Nat} {a b : Environment} (h : Related depth a b) (name : String)
    (value : Value) :
    Option.Rel (Related depth) (a.assign? name value) (b.assign? name value)
  define {depth : Nat} {a b : Environment} (h : Related depth a b) {name : String}
    (hown : depth = 0 → Own name) (value : Value) :
    Related depth (a.define name value) (b.define name value)
  openBlock {depth : Nat} {a b : Environment} (h : Related depth a b) :
    Related (depth + 1) a.openBlock b.openBlock
  closeBlock {depth : Nat} {a b : Environment} (h : Related (depth + 1) a b) :
    Related depth a.closeBlock b.closeBlock

namespace Evaluation

variable {α β : Type} {R : Environment → Environment → Prop}

inductive Alike (R : Environment → Environment → Prop) :
    EStateM.Result EvalError Environment α → EStateM.Result EvalError Environment α → Prop
  | ok {a b : Environment} (result : α) (h : R a b) : Alike R (.ok result a) (.ok result b)
  | error {a b : Environment} (error : EvalError) (h : R a b) :
    Alike R (.error error a) (.error error b)

def Respects (R : Environment → Environment → Prop) (x : Evaluation α) : Prop :=
  ∀ a b, R a b → Alike R (x a) (x b)

theorem respects_pure (result : α) : Respects R (pure result) :=
  fun _ _ => .ok result

theorem respects_answer (result : Except EvalError α) : Respects R (answer result) := by
  intro a b h
  cases result with
  | ok result => exact .ok result h
  | error error => exact .error error h

theorem Respects.bind {x : Evaluation α} {f : α → Evaluation β} (hx : Respects R x)
    (hf : ∀ result, Respects R (f result)) : Respects R (x >>= f) := by
  intro a b h
  have hresult := hx a b h
  show Alike R (EStateM.bind x f a) (EStateM.bind x f b)
  unfold EStateM.bind
  generalize x a = first at hresult
  generalize x b = second at hresult
  cases hresult with
  | ok result h => exact hf result _ _ h
  | error error h => exact .error error h

end Evaluation

namespace Outcome

variable {α β : Type} {R : Environment → Environment → Prop}

inductive Alike (R : Environment → Environment → Prop) : Outcome α → Outcome α → Prop
  | ok {a b : Environment} {output : Sink} (result : α) (h : R a b) :
    Alike R (ok result ⟨a, output⟩) (ok result ⟨b, output⟩)
  | error {a b : Environment} {output : Sink} (cause : RuntimeError) (h : R a b) :
    Alike R (error cause ⟨a, output⟩) (error cause ⟨b, output⟩)

theorem Alike.andThen {first second : Outcome α} {next : α → Machine → Option (Outcome β)}
    (h : Alike R first second) (hnext : ∀ result a b output, R a b →
      Option.Rel (Alike R) (next result ⟨a, output⟩) (next result ⟨b, output⟩)) :
    Option.Rel (Alike R) (first.andThen next) (second.andThen next) := by
  cases h with
  | ok result h => exact hnext result _ _ _ h
  | error cause h => exact .some (.error cause h)

end Outcome

namespace Simulation

open Evaluation (Respects)

variable {Own : String → Prop} (sim : Simulation Own) {depth : Nat} {a b : Environment}

theorem respects_read (name : Token) : Respects (sim.Related depth) (Evaluation.read name) := by
  intro a b h
  have hread : b.read name = a.read name := by rw [Environment.read, Environment.read, sim.get? h]
  show Evaluation.Alike _ (Evaluation.answer (a.read name) a) (Evaluation.answer (b.read name) b)
  rw [hread]
  exact Evaluation.respects_answer _ a b h

theorem respects_assign (target : Token) (value : Value) :
    Respects (sim.Related depth) (Evaluation.assign target value) := by
  intro a b h
  have hassign := sim.assign? h target.lexeme value
  show Evaluation.Alike _ (EStateM.bind (Evaluation.answer (a.assign target value)) _ a)
    (EStateM.bind (Evaluation.answer (b.assign target value)) _ b)
  unfold Environment.assign
  generalize a.assign? target.lexeme value = first at hassign
  generalize b.assign? target.lexeme value = second at hassign
  cases hassign with
  | none => exact .error _ h
  | some h => exact .ok () h

theorem respects_eval (expr : Expr) : Respects (sim.Related depth) expr.eval := by
  induction expr with
  | literal value => exact Evaluation.respects_pure value
  | group inner ih => exact ih
  | unary operator operand ih => exact ih.bind fun _ => Evaluation.respects_answer _
  | binary left operator right ihl ihr =>
    exact ihl.bind fun _ => ihr.bind fun _ => Evaluation.respects_answer _
  | logical left operator right ihl ihr =>
    apply ihl.bind
    intro value
    apply (Evaluation.respects_answer _).bind
    intro decided
    cases decided with
    | none => exact ihr
    | some value => exact Evaluation.respects_pure value
  | name token => exact sim.respects_read token
  | assign target expr ih =>
    exact ih.bind fun value => (sim.respects_assign target value).bind fun _ =>
      Evaluation.respects_pure value

theorem alike_evaluate (h : sim.Related depth a b) (output : Sink) (expr : Expr) :
    Outcome.Alike (sim.Related depth) (Machine.evaluate ⟨a, output⟩ expr)
      (Machine.evaluate ⟨b, output⟩ expr) := by
  have hresult := sim.respects_eval expr a b h
  simp only [Machine.evaluate]
  generalize expr.eval a = first at hresult
  generalize expr.eval b = second at hresult
  cases hresult with
  | ok value h => exact .ok value h
  | error error h => exact .error _ h

theorem alike_print (h : sim.Related depth a b) (output : Sink) (value : Value) :
    Outcome.Alike (sim.Related depth) (Machine.print ⟨a, output⟩ value)
      (Machine.print ⟨b, output⟩ value) := by
  simp only [Machine.print]
  split
  · exact .ok _ h
  · exact .error _ h

theorem alike_evaluate_andThen {α : Type} (h : sim.Related depth a b) (output : Sink) (expr : Expr)
    {next : Value → Machine → Option (Outcome α)}
    (hnext : ∀ value a b output, sim.Related depth a b →
      Option.Rel (Outcome.Alike (sim.Related depth)) (next value ⟨a, output⟩)
        (next value ⟨b, output⟩)) :
    Option.Rel (Outcome.Alike (sim.Related depth))
      ((Machine.evaluate ⟨a, output⟩ expr).andThen next)
      ((Machine.evaluate ⟨b, output⟩ expr).andThen next) :=
  (sim.alike_evaluate h output expr).andThen hnext

theorem alike_loop {body : Machine → Option (Outcome Completion)}
    (hbody : ∀ a b output, sim.Related depth a b →
      Option.Rel (Outcome.Alike (sim.Related depth)) (body ⟨a, output⟩) (body ⟨b, output⟩))
    (condition : Expr) (bound : Nat) (last : Option Value) (h : sim.Related depth a b)
    (output : Sink) :
    Option.Rel (Outcome.Alike (sim.Related depth))
      (Machine.loop (·.evaluate condition) body bound last ⟨a, output⟩)
      (Machine.loop (·.evaluate condition) body bound last ⟨b, output⟩) := by
  induction bound generalizing last a b output with
  | zero => exact .none
  | succ bound ih =>
    have hcondition := sim.alike_evaluate h output condition
    simp only [Machine.loop]
    generalize Machine.evaluate ⟨a, output⟩ condition = first at hcondition
    generalize Machine.evaluate ⟨b, output⟩ condition = second at hcondition
    cases hcondition with
    | error cause h => exact .some (.error cause h)
    | @ok a b output value h =>
      by_cases htrue : value.isTruthy = true
      · have hround := hbody a b output h
        simp only [if_pos htrue]
        generalize body ⟨a, output⟩ = first at hround
        generalize body ⟨b, output⟩ = second at hround
        cases hround with
        | none => exact .none
        | some hround =>
          cases hround with
          | error cause h => exact .some (.error cause h)
          | @ok a b output completion h =>
            cases completion with
            | normal value => exact ih value h output
            | broken keyword => exact .some (.ok _ h)
      · simp only [if_neg htrue]
        exact .some (.ok _ h)

mutual

theorem alike_exec (bound : Nat) (statement : Stmt) {depth : Nat} {a b : Environment}
    (h : sim.Related depth a b) (hown : depth = 0 → ∀ name ∈ statement.declared, Own name)
    (output : Sink) :
    Option.Rel (Outcome.Alike (sim.Related depth)) (statement.exec bound ⟨a, output⟩)
      (statement.exec bound ⟨b, output⟩) := by
  cases statement with
  | print value =>
    apply sim.alike_evaluate_andThen h
    intro value a b output h
    exact .some (sim.alike_print h output value)
  | expr value =>
    apply sim.alike_evaluate_andThen h
    intro value a b output h
    exact .some (.ok _ h)
  | declare name initial =>
    have hname : depth = 0 → Own name.lexeme :=
      fun hdepth => hown hdepth _ (List.mem_singleton_self _)
    cases initial with
    | none => exact .some (.ok _ (sim.define h hname .nil))
    | some initial =>
      apply sim.alike_evaluate_andThen h
      intro value a b output h
      exact .some (.ok _ (sim.define h hname value))
  | block body =>
    have hbody :=
      alike_execAll bound body (sim.openBlock h) (absurd · (Nat.succ_ne_zero depth)) output
    simp only [Stmt.exec, Machine.openBlock]
    generalize Stmt.execAll bound body ⟨a.openBlock, output⟩ = first at hbody
    generalize Stmt.execAll bound body ⟨b.openBlock, output⟩ = second at hbody
    cases hbody with
    | none => exact .none
    | some hbody =>
      cases hbody with
      | ok completion h => exact .some (.ok completion (sim.closeBlock h))
      | error cause h => exact .some (.error cause (sim.closeBlock h))
  | ifThen condition body =>
    apply sim.alike_evaluate_andThen h
    intro value a b output h
    by_cases htrue : value.isTruthy = true
    · simp only [if_pos htrue]
      exact alike_exec bound body h hown output
    · simp only [if_neg htrue]
      exact .some (.ok _ h)
  | ifElse condition body alternative =>
    apply sim.alike_evaluate_andThen h
    intro value a b output h
    by_cases htrue : value.isTruthy = true
    · simp only [if_pos htrue]
      exact alike_exec bound body h
        (fun hdepth name hname => hown hdepth name (List.mem_append_left _ hname)) output
    · simp only [if_neg htrue]
      exact alike_exec bound alternative h
        (fun hdepth name hname => hown hdepth name (List.mem_append_right _ hname)) output
  | whileLoop condition body =>
    apply sim.alike_loop _ condition bound none h
    intro a b output h
    exact alike_exec bound body h hown output
  | breakLoop keyword => exact .some (.ok _ h)

theorem alike_execAll (bound : Nat) (statements : List Stmt) {depth : Nat} {a b : Environment}
    (h : sim.Related depth a b)
    (hown : depth = 0 → ∀ name ∈ statements.flatMap Stmt.declared, Own name) (output : Sink) :
    Option.Rel (Outcome.Alike (sim.Related depth)) (Stmt.execAll bound statements ⟨a, output⟩)
      (Stmt.execAll bound statements ⟨b, output⟩) := by
  cases statements with
  | nil => exact .some (.ok _ h)
  | cons statement statements =>
    rw [List.flatMap_cons] at hown
    have hfirst := alike_exec bound statement h
      (fun hdepth name hname => hown hdepth name (List.mem_append_left _ hname)) output
    simp only [Stmt.execAll]
    generalize statement.exec bound ⟨a, output⟩ = first at hfirst
    generalize statement.exec bound ⟨b, output⟩ = second at hfirst
    cases hfirst with
    | none => exact .none
    | some hfirst =>
      cases hfirst with
      | error cause h => exact .some (.error cause h)
      | @ok a b output completion h =>
        cases completion with
        | broken keyword => exact .some (.ok _ h)
        | normal value =>
          exact alike_execAll bound statements h
            (fun hdepth name hname => hown hdepth name (List.mem_append_right _ hname)) output

end

end Simulation

end TreeWalk
