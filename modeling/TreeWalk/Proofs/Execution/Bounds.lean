import TreeWalk.Proofs.Execution.Runs

/-!
This module contains the role of the bound of an execution: a larger one changes no answer, and
every run is the answer for all bounds that are large enough.
-/

namespace TreeWalk

theorem Outcome.andThen_mono {α β : Type} {result : Outcome α}
    {next next' : α → Machine → Option (Outcome β)} {outcome : Outcome β}
    (h : result.andThen next = some outcome)
    (hnext : ∀ value machine, next value machine = some outcome →
      next' value machine = some outcome) :
    result.andThen next' = some outcome := by
  cases result with
  | ok value machine => exact hnext value machine h
  | error => exact h

theorem Machine.loop_mono {condition : Machine → Outcome Value}
    {body body' : Machine → Option (Outcome Completion)}
    (hbody : ∀ machine outcome, body machine = some outcome → body' machine = some outcome)
    {bound bound' : Nat} (hbound : bound ≤ bound') {last : Option Value} {machine : Machine}
    {outcome : Outcome Completion} (h : loop condition body bound last machine = some outcome) :
    loop condition body' bound' last machine = some outcome := by
  induction bound generalizing bound' last machine with
  | zero => cases h
  | succ bound ih =>
    obtain ⟨bound', rfl⟩ : ∃ n, bound' = n + 1 := ⟨bound' - 1, by omega⟩
    unfold loop at h ⊢
    split at h
    · exact h
    · split at h
      · next htrue =>
        rw [if_pos htrue]
        split at h
        · cases h
        · next hstop => rw [hbody _ _ hstop]; exact h
        · next hbreak => rw [hbody _ _ hbreak]; exact h
        · next hround => rw [hbody _ _ hround]; exact ih (by omega) h
      · next hfalse =>
        rw [if_neg hfalse]
        exact h

namespace Stmt

mutual

theorem exec_mono {bound bound' : Nat} (hbound : bound ≤ bound') (statement : Stmt)
    {machine : Machine} {outcome : Outcome Completion}
    (h : statement.exec bound machine = some outcome) :
    statement.exec bound' machine = some outcome := by
  cases statement with
  | print | expr | breakLoop => exact h
  | declare name initial => cases initial <;> exact h
  | block body =>
    obtain ⟨outcome, hbody, rfl⟩ := Option.map_eq_some_iff.1 h
    exact Option.map_eq_some_iff.2 ⟨outcome, execAll_mono hbound body hbody, rfl⟩
  | ifThen condition body =>
    apply Outcome.andThen_mono h
    intro value machine h
    split at h
    · next htrue => rw [if_pos htrue]; exact exec_mono hbound body h
    · next hfalse => rw [if_neg hfalse]; exact h
  | ifElse condition body alternative =>
    apply Outcome.andThen_mono h
    intro value machine h
    split at h
    · next htrue => rw [if_pos htrue]; exact exec_mono hbound body h
    · next hfalse => rw [if_neg hfalse]; exact exec_mono hbound alternative h
  | whileLoop condition body => exact Machine.loop_mono (fun _ _ => exec_mono hbound body) hbound h

theorem execAll_mono {bound bound' : Nat} (hbound : bound ≤ bound') (statements : List Stmt)
    {machine : Machine} {outcome : Outcome Completion}
    (h : execAll bound statements machine = some outcome) :
    execAll bound' statements machine = some outcome := by
  cases statements with
  | nil => exact h
  | cons statement statements =>
    unfold execAll at h ⊢
    split at h
    · next hnormal =>
      rw [exec_mono hbound statement hnormal]
      exact execAll_mono hbound statements h
    · next hstop =>
      rw [exec_mono hbound statement h]
      split
      · next heq => exact absurd (h.trans heq) (hstop _ _)
      · rfl

end

end Stmt

def Task.exec (bound : Nat) : Task → Machine → Option (Outcome Completion)
  | one statement, machine => statement.exec bound machine
  | all statements, machine => Stmt.execAll bound statements machine
  | loop condition body last, machine =>
    Machine.loop (·.evaluate condition) (body.exec bound) bound last machine

theorem Task.exec_mono {task : Task} {bound bound' : Nat} (hbound : bound ≤ bound')
    {machine : Machine} {outcome : Outcome Completion}
    (h : task.exec bound machine = some outcome) :
    task.exec bound' machine = some outcome := by
  cases task with
  | one statement => exact Stmt.exec_mono hbound statement h
  | all statements => exact Stmt.execAll_mono hbound statements h
  | loop condition body last =>
    exact Machine.loop_mono (fun _ _ => Stmt.exec_mono hbound body) hbound h

theorem Stmt.exec_of_fault {statement : Stmt} {subject : Expr} {machine machine' : Machine}
    {cause : RuntimeError} (hsubject : statement.subject? = some subject)
    (hfault : machine.evaluate subject = .error cause machine') (bound : Nat) :
    statement.exec bound machine = some (.error cause machine') := by
  cases statement with
  | declare name initial =>
    cases initial <;> cases hsubject
    rw [exec, hfault]
    rfl
  | print | expr | ifThen | ifElse =>
    cases hsubject
    rw [exec, hfault]
    rfl
  | block | whileLoop | breakLoop => cases hsubject

theorem Runs.exists_bound {task : Task} {machine : Machine} {outcome : Outcome Completion}
    (h : Runs task machine outcome) :
    ∃ bound, task.exec bound machine = some outcome := by
  induction h with
  | fault hsubject hfault => exact ⟨0, Stmt.exec_of_fault hsubject hfault 0⟩
  | print hvalue | expr hvalue =>
    refine ⟨0, ?_⟩
    rw [Task.exec, Stmt.exec, hvalue]
    rfl
  | declare => exact ⟨0, rfl⟩
  | define hvalue =>
    refine ⟨0, ?_⟩
    rw [Task.exec, Stmt.exec, hvalue]
    rfl
  | block _ ih =>
    obtain ⟨bound, hbody⟩ := ih
    exact ⟨bound, Option.map_eq_some_iff.2 ⟨_, hbody, rfl⟩⟩
  | ifFalse hvalue hfalse =>
    refine ⟨0, ?_⟩
    rw [Task.exec, Stmt.exec, hvalue, Outcome.andThen, if_neg (by simp [hfalse])]
  | ifTrue hvalue htrue _ ih | ifElseTrue hvalue htrue _ ih =>
    obtain ⟨bound, hbody⟩ := ih
    refine ⟨bound, ?_⟩
    rw [Task.exec, Stmt.exec, hvalue, Outcome.andThen, if_pos htrue]
    exact hbody
  | ifElseFalse hvalue hfalse _ ih =>
    obtain ⟨bound, hbody⟩ := ih
    refine ⟨bound, ?_⟩
    rw [Task.exec, Stmt.exec, hvalue, Outcome.andThen, if_neg (by simp [hfalse])]
    exact hbody
  | whileLoop _ ih => exact ih
  | breakLoop => exact ⟨0, rfl⟩
  | nil => exact ⟨0, rfl⟩
  | next _ _ ih ih' =>
    -- the larger bound does for both parts
    obtain ⟨bound, hstatement⟩ := ih
    obtain ⟨bound', hstatements⟩ := ih'
    refine ⟨max bound bound', ?_⟩
    have hstatement := Task.exec_mono (Nat.le_max_left bound bound') hstatement
    rw [Task.exec] at hstatement
    rw [Task.exec, Stmt.execAll, hstatement]
    exact Task.exec_mono (Nat.le_max_right bound bound') hstatements
  | stop _ hstop ih =>
    obtain ⟨bound, hstatement⟩ := ih
    refine ⟨bound, ?_⟩
    rw [Task.exec] at hstatement
    rw [Task.exec, Stmt.execAll, hstatement]
    split
    · next heq => exact absurd (Option.some.inj heq) (hstop _ _)
    · rfl
  | loopFault hfault =>
    refine ⟨1, ?_⟩
    rw [Task.exec, Machine.loop, hfault]
  | loopDone hvalue hfalse =>
    refine ⟨1, ?_⟩
    rw [Task.exec, Machine.loop, hvalue]
    exact if_neg (by simp [hfalse])
  | loopRound hvalue htrue _ _ ih ih' =>
    obtain ⟨bound, hbody⟩ := ih
    obtain ⟨bound', hloop⟩ := ih'
    -- one round more than the loop behind this one takes
    refine ⟨max bound bound' + 1, ?_⟩
    have hbody := Task.exec_mono (Nat.le_succ_of_le (Nat.le_max_left bound bound')) hbody
    rw [Task.exec] at hbody
    rw [Task.exec, Machine.loop, hvalue]
    simp only [htrue, if_true, hbody]
    apply Machine.loop_mono _ (Nat.le_max_right bound bound') hloop
    exact fun _ _ => Stmt.exec_mono (Nat.le_succ_of_le (Nat.le_max_right bound bound')) _
  | loopBreak hvalue htrue _ ih | loopStop hvalue htrue _ ih =>
    obtain ⟨bound, hbody⟩ := ih
    refine ⟨bound + 1, ?_⟩
    have hbody := Task.exec_mono (Nat.le_succ bound) hbody
    rw [Task.exec] at hbody
    rw [Task.exec, Machine.loop, hvalue]
    simp only [htrue, if_true, hbody]

theorem runs_iff {task : Task} {machine : Machine} {outcome : Outcome Completion} :
    Runs task machine outcome ↔ ∃ bound, task.exec bound machine = some outcome := by
  constructor
  · exact Runs.exists_bound
  · rintro ⟨bound, h⟩
    cases task with
    | one statement => exact runs_of_exec statement h
    | all statements => exact runs_of_execAll statements h
    | loop condition body last => exact runs_of_loop (fun _ _ => runs_of_exec body) h

theorem Runs.unique {task : Task} {machine : Machine} {outcome outcome' : Outcome Completion}
    (h : Runs task machine outcome) (h' : Runs task machine outcome') : outcome = outcome' := by
  obtain ⟨bound, h⟩ := h.exists_bound
  obtain ⟨bound', h'⟩ := h'.exists_bound
  have h := Task.exec_mono (Nat.le_max_left bound bound') h
  have h' := Task.exec_mono (Nat.le_max_right bound bound') h'
  exact Option.some.inj (h.symm.trans h')

end TreeWalk
