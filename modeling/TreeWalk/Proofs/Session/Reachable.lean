import TreeWalk.Proofs.Environment.Stack
import TreeWalk.Proofs.Execution.Frames
import TreeWalk.Session

/-!
This module contains the sessions that sources can lead to, and the frames of their environments.
-/

namespace TreeWalk
namespace Session

/--
The sessions that come up between sources, whatever has become of the sources so far.
-/
inductive Reachable : Session → Prop
  | new (output : Sink) (showTrees : Bool) : Reachable (.new output showTrees)
  | run {session : Session} {bound : Nat} {source : String} {diagnostics : Sink} {run : Run}
    (h : Reachable session) (hrun : session.run bound source diagnostics = some run) :
    Reachable run.session
  | drain {session : Session} (h : Reachable session) : Reachable session.drain.2

@[simp]
theorem session_reject (session : Session) (errors : List String) (cause : RunError)
    (diagnostics : Sink) :
    (session.reject errors cause diagnostics).session = session := by
  unfold reject
  split <;> rfl

theorem depth_of_runProgram {bound : Nat} {session : Session} {program : List Stmt}
    {diagnostics : Sink} {run : Run} (h : session.runProgram bound program diagnostics = some run) :
    run.session.machine.environment.depth = session.machine.environment.depth := by
  obtain ⟨machine, showTrees⟩ := session
  simp only [runProgram] at h
  split at h
  · cases h
  · next values machine' hprogram =>
    cases h
    have hdepth := Stmt.depth_of_interpretAll hprogram
    exact hdepth
  · next cause machine' hprogram =>
    cases h
    rw [session_reject]
    have hdepth := Stmt.depth_of_interpretAll hprogram
    exact hdepth

theorem depth_of_run {bound : Nat} {session : Session} {source : String} {diagnostics : Sink}
    {run : Run} (h : session.run bound source diagnostics = some run) :
    run.session.machine.environment.depth = session.machine.environment.depth := by
  simp only [Session.run] at h
  split at h
  · cases h
    rw [session_reject]
  · split at h
    · cases h
      rw [session_reject]
    · split at h
      · exact depth_of_runProgram h
      · cases h
        rfl

theorem Reachable.depth_eq_one {session : Session} (h : session.Reachable) :
    session.machine.environment.depth = 1 := by
  induction h with
  | new output showTrees => rfl
  | run _ hrun ih => rw [depth_of_run hrun, ih]
  | drain _ ih => exact ih

end Session

/--
However a statement ends, it leaves the arena as it found it but for the names that it declares
outside its blocks, which the current frame may have gained; and between sources there is no frame
but the global one. The arena is the one that the accesses of the run build.
-/
theorem exec_grows_arena :
    (∀ (bound : Nat) (statement : Stmt) (machine : Machine) (outcome : Outcome Completion),
      statement.exec bound machine = some outcome →
        Arena.Grows statement.declared machine.environment.arena
          outcome.machine.environment.arena) ∧
    (∀ session : Session, session.Reachable → session.machine.environment.depth = 1) ∧
    (∀ environment : Environment, environment.openBlock.arena = environment.arena.openBlock) ∧
    (∀ environment : Environment, environment.closeBlock.arena = environment.arena.closeBlock) ∧
    (∀ (environment : Environment) (name : String) (value : Value),
      (environment.define name value).arena = environment.arena.define name value) ∧
    ∀ (access : Access) (environment : Environment),
      environment.arena.access access =
        some ((environment.access access).map id Environment.arena) := by
  refine ⟨?_, ?_, Environment.arena_openBlock, Environment.arena_closeBlock,
    Environment.arena_define, Environment.access_arena⟩
  · intro bound statement machine outcome h
    exact (Stmt.grows_of_exec h).arena
  · intro session h
    exact h.depth_eq_one

theorem exec_grows_arena_of_failures :
    let machine := (Machine.ofSink .unlimited).openBlock
    let name : Token := ⟨.identifier, "a", none, .start⟩
    let minus : Token := ⟨.minus, "-", none, .start⟩
    let block : Stmt := .block [.declare name none, .expr (.unary minus (.name name))]
    let statement : Stmt := .ifThen (.literal (.boolean true)) block
    (statement.exec 1 machine = some (.error (.evaluation ⟨minus, .expectedNumber .nil⟩) machine) ∧
      Arena.Grows statement.declared machine.environment.arena machine.environment.arena) ∧
    ∃ run, (Session.new .unlimited false).run 1 "@" .unlimited = some run ∧
      run.session.Reachable ∧ run.session.machine.environment.depth = 1 := by
  intro machine name minus block statement
  have hexec : statement.exec 1 machine =
      some (.error (.evaluation ⟨minus, .expectedNumber .nil⟩) machine) := rfl
  have hsome : ((Session.new .unlimited false).run 1 "@" .unlimited).isSome := by decide +kernel
  obtain ⟨run, hrun⟩ := Option.isSome_iff_exists.1 hsome
  have hreachable : run.session.Reachable := .run (.new .unlimited false) hrun
  exact ⟨⟨hexec, exec_grows_arena.1 1 statement machine _ hexec⟩, run, hrun, hreachable,
    exec_grows_arena.2.1 run.session hreachable⟩

end TreeWalk
