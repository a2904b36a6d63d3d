import TreeWalk.Proofs.Environment.Stack
import TreeWalk.Proofs.Execution.Frames

/-!
This module contains the bindings that a run can change. Evaluating an expression changes none but
those of the names that it assigns to; a statement may also bind the names that it declares outside
its blocks, in the current frame only.
-/

namespace TreeWalk

namespace Environment

/--
Both environments have the same frames with the same bindings, but that the assigned names may have
other values, and in the innermost frame the declared ones may be bound anew.
-/
structure Keeps (assigned declared : List String) (before after : Environment) : Prop where
  depth_eq : after.depth = before.depth
  binding_eq : ∀ index name, name ∉ assigned → (index = 0 → name ∉ declared) →
    after.maps.binding? index name = before.maps.binding? index name

namespace Keeps

variable {assigned declared declared' : List String} {before middle after : Environment}
  {name : String} {value : Value}

theorem refl (assigned declared : List String) (environment : Environment) :
    Keeps assigned declared environment environment where
  depth_eq := rfl
  binding_eq _ _ _ _ := rfl

theorem trans (h : Keeps assigned declared before middle)
    (h' : Keeps assigned declared middle after) :
    Keeps assigned declared before after where
  depth_eq := h'.depth_eq.trans h.depth_eq
  binding_eq index name hassigned hdeclared :=
    (h'.binding_eq index name hassigned hdeclared).trans
      (h.binding_eq index name hassigned hdeclared)

theorem mono (h : Keeps assigned declared before after) (hdeclared : declared ⊆ declared') :
    Keeps assigned declared' before after where
  depth_eq := h.depth_eq
  binding_eq index name hname hdeclared' :=
    h.binding_eq index name hname fun hindex hmem => hdeclared' hindex (hdeclared hmem)

theorem assign (hname : name ∈ assigned) (h : before.assign? name value = some after) :
    Keeps assigned declared before after where
  depth_eq := by
    rw [← length_names, names_assign? h, length_names]
  binding_eq index name' hassigned _ := by
    have hassign : before.assign ⟨.identifier, name, none, .start⟩ value = .ok after := by
      simp only [Environment.assign, h]
    obtain ⟨_, _, _, _, _, _, hbindings⟩ := exists_overwritten hassign
    rw [hbindings, if_neg]
    rintro ⟨_, rfl⟩
    exact hassigned hname

theorem define (environment : Environment) (name : String) (value : Value) :
    Keeps assigned [name] environment (environment.define name value) where
  depth_eq := (Grows.define environment name value).depth_eq
  binding_eq index name' _ hdeclared := by
    have hpos : 0 < environment.maps.length := by
      rw [length_maps]
      exact Nat.succ_pos _
    rw [maps_define]
    show MapStack.binding? (environment.maps.modify 0 (·.insert name value)) index name' = _
    rw [MapStack.binding?_modify hpos, if_neg]
    rintro ⟨rfl, rfl⟩
    exact hdeclared rfl (List.mem_singleton_self _)

theorem closeBlock (h : Keeps assigned declared before.openBlock after) :
    Keeps assigned declared' before after.closeBlock := by
  have hdepth : after.depth = before.depth + 1 := h.depth_eq
  obtain ⟨_ | ⟨frame, blocks⟩, globals⟩ := after
  · have hpos : before.depth = 0 := (Nat.succ.inj hdepth).symm
    cases hpos
  · exact ⟨Nat.succ.inj hdepth,
      fun index name hassigned _ => h.binding_eq (index + 1) name hassigned nofun⟩

end Keeps
end Environment

open Environment (Keeps)

namespace Stmt

mutual

def targets : Stmt → List Token
  | print value | expr value => value.targets
  | declare _ none | breakLoop _ => []
  | declare _ (some initial) => initial.targets
  | block body => targetsAll body
  | ifThen condition body | whileLoop condition body => condition.targets ++ body.targets
  | ifElse condition body alternative => condition.targets ++ (body.targets ++ alternative.targets)

def targetsAll : List Stmt → List Token
  | [] => []
  | statement :: statements => statement.targets ++ targetsAll statements

end

theorem targets_subset_of_subject {statement : Stmt} {subject : Expr}
    (h : statement.subject? = some subject) :
    subject.targets ⊆ statement.targets := by
  cases statement with
  | print | expr => cases h; exact List.Subset.refl _
  | declare name initial => cases initial <;> cases h; exact List.Subset.refl _
  | ifThen | ifElse => cases h; exact List.subset_append_left _ _
  | block | whileLoop | breakLoop => cases h

end Stmt

def Task.targets : Task → List Token
  | one statement => statement.targets
  | all statements => Stmt.targetsAll statements
  | loop condition body _ => condition.targets ++ body.targets

namespace Machine

variable {assigned declared : List String} {machine machine' : Machine} {expr : Expr}

theorem keeps_evaluate (declared : List String)
    (h : ∀ target ∈ expr.targets, target.lexeme ∈ assigned) (machine : Machine) :
    Keeps assigned declared machine.environment (machine.evaluate expr).machine.environment := by
  rw [environment_evaluate]
  apply expr.eval_induction (R := Keeps assigned declared)
  · exact Keeps.refl assigned declared
  · exact fun _ _ _ => Keeps.trans
  · exact fun target htarget _ _ _ => Keeps.assign (h target htarget)

theorem keeps_of_value {value : Value} (hvalue : machine.evaluate expr = .ok value machine')
    (h : ∀ target ∈ expr.targets, target.lexeme ∈ assigned) :
    Keeps assigned declared machine.environment machine'.environment := by
  have hkeeps := keeps_evaluate declared h machine
  rw [hvalue] at hkeeps
  exact hkeeps

theorem keeps_of_fault {cause : RuntimeError}
    (hfault : machine.evaluate expr = .error cause machine')
    (h : ∀ target ∈ expr.targets, target.lexeme ∈ assigned) :
    Keeps assigned declared machine.environment machine'.environment := by
  have hkeeps := keeps_evaluate declared h machine
  rw [hfault] at hkeeps
  exact hkeeps

end Machine

theorem Runs.keeps {assigned : List String} {task : Task} {machine : Machine}
    {outcome : Outcome Completion} (h : Runs task machine outcome)
    (hassigned : ∀ target ∈ task.targets, target.lexeme ∈ assigned) :
    Keeps assigned task.declared machine.environment outcome.machine.environment := by
  -- the targets of a part are among those of the whole, and what is declared in a block goes with
  -- its frame
  induction h with
  | fault hsubject hfault =>
    exact Machine.keeps_of_fault hfault fun target h =>
      hassigned target (Stmt.targets_subset_of_subject hsubject h)
  | print hvalue =>
    rw [Machine.environment_print]
    exact Machine.keeps_of_value hvalue hassigned
  | expr hvalue => exact Machine.keeps_of_value hvalue hassigned
  | declare => exact Keeps.define _ _ _
  | define hvalue => exact (Machine.keeps_of_value hvalue hassigned).trans (Keeps.define _ _ _)
  | block _ ih =>
    rw [Outcome.machine_mapMachine]
    exact (ih hassigned).closeBlock
  | ifTrue hvalue _ _ ih =>
    obtain ⟨hcondition, hbody⟩ := List.forall_mem_append.1 hassigned
    exact (Machine.keeps_of_value hvalue hcondition).trans (ih hbody)
  | ifFalse hvalue _ => exact Machine.keeps_of_value hvalue (List.forall_mem_append.1 hassigned).1
  | ifElseTrue hvalue _ _ ih =>
    obtain ⟨hcondition, hbranches⟩ := List.forall_mem_append.1 hassigned
    have hbody := ih (List.forall_mem_append.1 hbranches).1
    exact (Machine.keeps_of_value hvalue hcondition).trans
      (hbody.mono (List.subset_append_left _ _))
  | ifElseFalse hvalue _ _ ih =>
    obtain ⟨hcondition, hbranches⟩ := List.forall_mem_append.1 hassigned
    have halternative := ih (List.forall_mem_append.1 hbranches).2
    exact (Machine.keeps_of_value hvalue hcondition).trans
      (halternative.mono (List.subset_append_right _ _))
  | whileLoop _ ih => exact ih hassigned
  | breakLoop => exact Keeps.refl _ _ _
  | nil => exact Keeps.refl _ _ _
  | next _ _ ih ih' =>
    obtain ⟨hfirst, hrest⟩ := List.forall_mem_append.1 hassigned
    exact ((ih hfirst).mono (List.subset_append_left _ _)).trans
      ((ih' hrest).mono (List.subset_append_right _ _))
  | stop _ _ ih =>
    exact (ih (List.forall_mem_append.1 hassigned).1).mono (List.subset_append_left _ _)
  | loopFault hfault => exact Machine.keeps_of_fault hfault (List.forall_mem_append.1 hassigned).1
  | loopDone hvalue _ => exact Machine.keeps_of_value hvalue (List.forall_mem_append.1 hassigned).1
  | loopRound hvalue _ _ _ ih ih' =>
    obtain ⟨hcondition, hbody⟩ := List.forall_mem_append.1 hassigned
    exact (Machine.keeps_of_value hvalue hcondition).trans ((ih hbody).trans (ih' hassigned))
  | loopBreak hvalue _ _ ih | loopStop hvalue _ _ ih =>
    obtain ⟨hcondition, hbody⟩ := List.forall_mem_append.1 hassigned
    exact (Machine.keeps_of_value hvalue hcondition).trans (ih hbody)

/--
An evaluation writes nothing and changes no binding but those of the names that it assigns to, also
if it fails. However a statement ends, the bindings that it leaves changed are of such names or, in
the current frame, of names that it declares outside its blocks.
-/
theorem run_changes_only_targets :
    (∀ (expr : Expr) (machine : Machine),
      let after := (machine.evaluate expr).machine
      after.output = machine.output ∧ after.environment.names = machine.environment.names ∧
        ∀ index name, name ∉ expr.targets.map Token.lexeme →
          after.environment.maps.binding? index name =
            machine.environment.maps.binding? index name) ∧
    ∀ (bound : Nat) (statement : Stmt) (machine : Machine) (outcome : Outcome Completion),
      statement.exec bound machine = some outcome →
        let after := outcome.machine.environment
        after.depth = machine.environment.depth ∧
          ∀ index name, name ∉ statement.targets.map Token.lexeme →
            (index = 0 → name ∉ statement.declared) →
            after.maps.binding? index name = machine.environment.maps.binding? index name := by
  constructor
  · intro expr machine after
    have hkeeps : Keeps (expr.targets.map Token.lexeme) [] machine.environment after.environment :=
      Machine.keeps_evaluate [] (fun _ => List.mem_map_of_mem) machine
    refine ⟨machine.output_evaluate expr, machine.names_evaluate expr, ?_⟩
    exact fun index name hname => hkeeps.binding_eq index name hname fun _ => List.not_mem_nil
  · intro bound statement machine outcome hexec after
    have hkeeps :
        Keeps (statement.targets.map Token.lexeme) statement.declared machine.environment after :=
      (runs_of_exec statement hexec).keeps fun _ => List.mem_map_of_mem
    exact ⟨hkeeps.depth_eq, hkeeps.binding_eq⟩

theorem run_changes_only_targets_of_shadowing :
    let name (lexeme : String) : Token := ⟨.identifier, lexeme, none, .start⟩
    let minus : Token := ⟨.minus, "-", none, .start⟩
    let machine : Machine := ⟨⟨[], ⟨[("a", .boolean true), ("b", .nil)]⟩⟩, .unlimited⟩
    let after : Machine := ⟨⟨[], ⟨[("a", .boolean true), ("b", .boolean false)]⟩⟩, .unlimited⟩
    let shadow : Stmt := .declare (name "a") (some (.assign (name "b") (.literal (.boolean false))))
    let statement : Stmt := .block [shadow, .expr (.unary minus (.name (name "a")))]
    statement.exec 1 machine = some (.error (.evaluation ⟨minus, .expectedNumber .boolean⟩) after) ∧
      "a" ∉ statement.targets.map Token.lexeme ∧ "a" ∉ statement.declared ∧
      after.environment.maps.binding? 0 "a" = machine.environment.maps.binding? 0 "a" := by
  intro name minus machine after shadow statement
  have hexec : statement.exec 1 machine =
      some (.error (.evaluation ⟨minus, .expectedNumber .boolean⟩) after) := rfl
  have htargets : "a" ∉ statement.targets.map Token.lexeme := by decide
  have hdeclared : "a" ∉ statement.declared := List.not_mem_nil
  obtain ⟨_, hkept⟩ := run_changes_only_targets.2 1 statement machine _ hexec
  exact ⟨hexec, htargets, hdeclared, hkept 0 "a" htargets fun _ => hdeclared⟩

end TreeWalk
