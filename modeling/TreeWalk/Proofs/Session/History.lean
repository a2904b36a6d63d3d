import TreeWalk.Proofs.Execution.Printing
import TreeWalk.Proofs.Session.Joining

/-!
This module contains the histories of sessions: how they are put together, that they are the same
for all bounds that are large enough, and that they do not depend on what has been printed before.
-/

namespace TreeWalk

namespace Session

def after (printed : ByteArray) (session : Session) : Session :=
  { session with machine := session.machine.after printed }

theorem after_drain (session : Session) : session.drain.2.after session.drain.1 = session := by
  obtain ⟨⟨environment, written, room⟩, showTrees⟩ := session
  simp [drain, Sink.drain, after, Machine.after, Sink.after]

theorem after_after (printed printed' : ByteArray) (session : Session) :
    (session.after printed').after printed = session.after (printed ++ printed') := by
  simp [after, Machine.after, Sink.after, ByteArray.append_assoc]

end Session

def Run.after (printed : ByteArray) (run : Run) : Run :=
  { run with session := run.session.after printed }

namespace Session

variable {bound bound' : Nat} {session final : Session} {source : String} {diagnostics : Sink}
  {run : Run}

theorem reject_after (printed : ByteArray) (session : Session) (errors : List String)
    (cause : RunError) (diagnostics : Sink) :
    (session.after printed).reject errors cause diagnostics =
      (session.reject errors cause diagnostics).after printed := by
  simp only [reject]
  cases diagnostics.writeLines errors with
  | mk written diagnostics => cases written <;> rfl

theorem conclude_after (printed : ByteArray) (session : Session) (diagnostics : Sink)
    (outcome : Outcome (List Value)) :
    (session.after printed).conclude diagnostics (outcome.mapMachine (Machine.after printed)) =
      (session.conclude diagnostics outcome).after printed := by
  cases outcome with
  | ok => rfl
  | error cause machine => exact reject_after printed { session with machine } _ _ _

theorem run_after (printed : ByteArray) (bound : Nat) (session : Session) (source : String)
    (diagnostics : Sink) :
    (session.after printed).run bound source diagnostics =
      (session.run bound source diagnostics).map (Run.after printed) := by
  have hmachine : (session.after printed).machine = session.machine.after printed := rfl
  have hshow : (session.after printed).showTrees = session.showTrees := rfl
  simp only [run, runProgram_eq_map, hmachine, hshow, Stmt.interpretAll_after, reject_after,
    Option.map_map]
  split
  · rfl
  · split
    · rfl
    · split
      · rw [Option.map_map]
        congr 1
        funext outcome
        exact conclude_after printed session _ outcome
      · rfl

theorem exists_written (h : session.run bound source diagnostics = some run) :
    ∃ printed, run.session.machine.output.written = session.machine.output.written ++ printed := by
  rw [← after_drain session, run_after] at h
  obtain ⟨run', _, rfl⟩ := Option.map_eq_some_iff.1 h
  exact ⟨run'.session.machine.output.written, rfl⟩

theorem run_mono (hbound : bound ≤ bound') (h : session.run bound source diagnostics = some run) :
    session.run bound' source diagnostics = some run := by
  cases hscan : (scan source).isValid with
  | false =>
    rw [run_of_scan_errors hscan] at h ⊢
    exact h
  | true =>
    cases hparse : (parse (scan source).tokens).isValid with
    | false =>
      rw [run_of_parse_errors hscan hparse] at h ⊢
      exact h
    | true =>
      obtain ⟨diagnostics', _, hruns⟩ | ⟨_, diagnostics', hruns⟩ :=
        runs_or_unreported hscan hparse session diagnostics
      · rw [hruns] at h ⊢
        obtain ⟨outcome, hprogram, rfl⟩ := Option.map_eq_some_iff.1 h
        rw [Stmt.interpretAll_mono hbound hprogram, Option.map_some]
      · rw [hruns] at h ⊢
        exact h

def Step.printed (step : Step) : ByteArray :=
  let before := step.before.machine.output.written
  let written := step.run.session.machine.output.written
  written.extract before.size written.size

theorem Step.printed_eq {step : Step} {bytes : ByteArray}
    (h : step.run.session.machine.output.written = step.before.machine.output.written ++ bytes) :
    step.printed = bytes := by
  rw [printed, h]
  exact ByteArray.extract_append_eq_right rfl ByteArray.size_append

variable {submission : Submission} {submissions submissions' : List Submission} {steps : List Step}

theorem history_cons_iff :
    session.history bound (submission :: submissions) = some (steps, final) ↔
      ∃ run rest, session.run bound submission.source submission.diagnostics = some run ∧
        run.session.history bound submissions = some (rest, final) ∧
        steps = ⟨submission, session, run⟩ :: rest := by
  rw [history]
  constructor
  · intro h
    obtain ⟨run, hrun, h⟩ := Option.bind_eq_some_iff.1 h
    obtain ⟨⟨rest, final⟩, hrest, heq⟩ := Option.map_eq_some_iff.1 h
    cases heq
    exact ⟨run, rest, hrun, hrest, rfl⟩
  · rintro ⟨run, rest, hrun, hrest, rfl⟩
    rw [hrun, Option.bind_some, hrest, Option.map_some]

theorem history_append_iff :
    session.history bound (submissions ++ submissions') = some (steps, final) ↔
      ∃ steps₁ steps₂ middle, session.history bound submissions = some (steps₁, middle) ∧
        middle.history bound submissions' = some (steps₂, final) ∧ steps = steps₁ ++ steps₂ := by
  induction submissions generalizing session steps with
  | nil =>
    constructor
    · exact fun h => ⟨[], steps, session, rfl, h, rfl⟩
    · rintro ⟨_, _, _, ⟨⟩, h, rfl⟩
      exact h
  | cons submission submissions ih =>
    rw [List.cons_append, history_cons_iff]
    constructor
    · rintro ⟨run, rest, hrun, hrest, rfl⟩
      obtain ⟨steps₁, steps₂, middle, h₁, h₂, rfl⟩ := ih.1 hrest
      exact ⟨_, steps₂, middle, history_cons_iff.2 ⟨run, steps₁, hrun, h₁, rfl⟩, h₂, rfl⟩
    · rintro ⟨_, steps₂, middle, h₁, h₂, rfl⟩
      obtain ⟨run, rest, hrun, hrest, rfl⟩ := history_cons_iff.1 h₁
      exact ⟨run, rest ++ steps₂, hrun, ih.2 ⟨rest, steps₂, middle, hrest, h₂, rfl⟩, rfl⟩

theorem history_mono (hbound : bound ≤ bound')
    (h : session.history bound submissions = some (steps, final)) :
    session.history bound' submissions = some (steps, final) := by
  induction submissions generalizing session steps with
  | nil => exact h
  | cons submission submissions ih =>
    obtain ⟨run, rest, hrun, hrest, rfl⟩ := history_cons_iff.1 h
    exact history_cons_iff.2 ⟨run, rest, run_mono hbound hrun, ih hrest, rfl⟩

def EachEnds (session : Session) (submissions : List Submission) : Prop :=
  ∀ earlier submission later, submissions = earlier ++ submission :: later →
    ∀ bound steps middle, session.history bound earlier = some (steps, middle) →
      ∃ bound' run, middle.run bound' submission.source submission.diagnostics = some run

theorem exists_history (hends : session.EachEnds submissions) :
    ∃ bound steps final, ∀ bound', bound ≤ bound' →
      session.history bound' submissions = some (steps, final) := by
  suffices ∃ bound steps final, session.history bound submissions = some (steps, final) by
    obtain ⟨bound, steps, final, h⟩ := this
    exact ⟨bound, steps, final, fun bound' hbound => history_mono hbound h⟩
  induction submissions generalizing session with
  | nil => exact ⟨0, [], session, rfl⟩
  | cons submission submissions ih =>
    obtain ⟨bound, run, hrun⟩ := hends [] submission submissions rfl 0 [] session rfl
    have hrun' {bound' : Nat} := run_mono (Nat.le_max_left bound bound') hrun
    obtain ⟨bound', rest, final, hrest⟩ := @ih run.session <| by
      intro earlier submission' later heq bound' steps middle hearlier
      -- the first source needs one bound and those between it and the last one another
      have hearlier' := history_mono (Nat.le_max_right bound bound') hearlier
      exact hends (submission :: earlier) submission' later (by rw [heq]; rfl)
        (max bound bound') _ middle (history_cons_iff.2 ⟨run, steps, hrun', hearlier', rfl⟩)
    exact ⟨max bound bound', _, final,
      history_cons_iff.2 ⟨run, rest, hrun', history_mono (Nat.le_max_right _ _) hrest, rfl⟩⟩

theorem written_of_history (h : session.history bound submissions = some (steps, final))
    {step : Step} (hstep : step ∈ steps) :
    step.run.session.machine.output.written =
      step.before.machine.output.written ++ step.printed := by
  induction submissions generalizing session steps with
  | nil =>
    cases h
    cases hstep
  | cons submission submissions ih =>
    obtain ⟨run, rest, hrun, hrest, rfl⟩ := history_cons_iff.1 h
    cases hstep with
    | head =>
      obtain ⟨printed, hprinted⟩ := exists_written hrun
      rw [Step.printed_eq hprinted]
      exact hprinted
    | tail _ hstep => exact ih hrest hstep

end Session
end TreeWalk
