import TreeWalk.Proofs.Execution.Bounds

/-!
This module contains the runs of whole programs. But for the values that it collects and for a
break, which is an error there, a program runs like any list of statements.
-/

namespace TreeWalk

def Outcome.ending {α : Type} : Outcome α → Option RuntimeError × Machine
  | ok _ machine => (none, machine)
  | error cause machine => (some cause, machine)

namespace Stmt

theorem interpret_mono {bound bound' : Nat} (hbound : bound ≤ bound') {statement : Stmt}
    {machine : Machine} {outcome : Outcome (Option Value)}
    (h : statement.interpret bound machine = some outcome) :
    statement.interpret bound' machine = some outcome := by
  obtain ⟨outcome, hexec, rfl⟩ := Option.map_eq_some_iff.1 h
  exact Option.map_eq_some_iff.2 ⟨outcome, exec_mono hbound statement hexec, rfl⟩

theorem interpretAll_mono {bound bound' : Nat} (hbound : bound ≤ bound') {statements : List Stmt}
    {machine : Machine} {outcome : Outcome (List Value)}
    (h : interpretAll bound statements machine = some outcome) :
    interpretAll bound' statements machine = some outcome := by
  induction statements generalizing machine outcome with
  | nil => exact h
  | cons statement statements ih =>
    unfold interpretAll at h ⊢
    split at h
    · cases h
    · next hstatement =>
      rw [interpret_mono hbound hstatement]
      exact h
    · next hstatement =>
      rw [interpret_mono hbound hstatement]
      split at h
      · next hstatements =>
        simp only [ih hstatements]
        exact h
      · next hstop =>
        simp only [ih h]
        split
        · next heq => exact absurd (h.trans heq) (hstop _ _)
        · rfl

theorem interpret_of_runs {statement : Stmt} {machine : Machine} {outcome : Outcome Completion}
    (h : Runs (.one statement) machine outcome) :
    ∃ bound, statement.interpret bound machine = some outcome.atTopLevel := by
  obtain ⟨bound, hexec⟩ := h.exists_bound
  exact ⟨bound, Option.map_eq_some_iff.2 ⟨outcome, hexec, rfl⟩⟩

theorem runs_of_interpret {bound : Nat} {statement : Stmt} {machine machine' : Machine}
    {value : Option Value} (h : statement.interpret bound machine = some (.ok value machine')) :
    Runs (.one statement) machine (.ok (.normal value) machine') := by
  obtain ⟨outcome, hexec, houtcome⟩ := Option.map_eq_some_iff.1 h
  cases outcome with
  | ok completion =>
    cases completion <;> cases houtcome
    exact runs_of_exec statement hexec
  | error => cases houtcome

end Stmt

theorem Runs.of_interpretAll {bound : Nat} {statements : List Stmt} {machine : Machine}
    {outcome : Outcome (List Value)}
    (h : Stmt.interpretAll bound statements machine = some outcome) :
    ∃ completion, Runs (.all statements) machine completion ∧
      completion.atTopLevel.ending = outcome.ending := by
  induction statements generalizing machine outcome with
  | nil =>
    cases h
    exact ⟨_, .nil, rfl⟩
  | cons statement statements ih =>
    unfold Stmt.interpretAll at h
    split at h
    · cases h
    · next cause machine' hstatement =>
      cases h
      obtain ⟨completion, hexec, houtcome⟩ := Option.map_eq_some_iff.1 hstatement
      refine ⟨completion, .stop (runs_of_exec statement hexec) ?_, by rw [houtcome]; rfl⟩
      rintro value machine'' rfl
      cases houtcome
    · next value machine' hstatement =>
      have hruns := Stmt.runs_of_interpret hstatement
      split at h
      · next values machine'' hstatements =>
        cases h
        obtain ⟨completion, hrest, hending⟩ := ih hstatements
        exact ⟨completion, .next hruns hrest, hending⟩
      · obtain ⟨completion, hrest, hending⟩ := ih h
        exact ⟨completion, .next hruns hrest, hending⟩

theorem Runs.exists_interpretAll {statements : List Stmt} {machine : Machine}
    {completion : Outcome Completion} (h : Runs (.all statements) machine completion) :
    ∃ bound outcome, Stmt.interpretAll bound statements machine = some outcome ∧
      outcome.ending = completion.atTopLevel.ending := by
  induction statements generalizing machine with
  | nil =>
    cases h
    exact ⟨0, _, rfl, rfl⟩
  | cons statement statements ih =>
    cases h with
    | @next _ _ value _ machine' _ hstatement hstatements =>
      obtain ⟨bound, hstatement⟩ := Stmt.interpret_of_runs hstatement
      obtain ⟨bound', outcome, hstatements, hending⟩ := ih hstatements
      have hstatement := Stmt.interpret_mono (Nat.le_max_left bound bound') hstatement
      have hstatements := Stmt.interpretAll_mono (Nat.le_max_right bound bound') hstatements
      cases outcome with
      | ok values machine'' =>
        refine ⟨max bound bound', .ok (Stmt.interpretAll.shown value ++ values) machine'',
          ?_, hending⟩
        rw [Stmt.interpretAll, hstatement]
        simp only [Outcome.atTopLevel, hstatements]
      | error cause machine'' =>
        refine ⟨max bound bound', .error cause machine'', ?_, hending⟩
        rw [Stmt.interpretAll, hstatement]
        simp only [Outcome.atTopLevel, hstatements]
    | stop hstatement hstop =>
      obtain ⟨bound, hstatement⟩ := Stmt.interpret_of_runs hstatement
      obtain ⟨cause, machine', herror⟩ : ∃ cause machine',
          completion.atTopLevel = .error cause machine' := by
        cases completion with
        | ok completion machine' =>
          cases completion with
          | normal value => exact absurd rfl (hstop value machine')
          | broken keyword => exact ⟨_, _, rfl⟩
        | error cause machine' => exact ⟨_, _, rfl⟩
      rw [herror] at hstatement ⊢
      refine ⟨bound, .error cause machine', ?_, rfl⟩
      rw [Stmt.interpretAll, hstatement]

theorem exists_interpretAll_error_iff {statements : List Stmt} {machine machine' : Machine}
    {cause : RuntimeError} (hcause : ∀ keyword, cause ≠ .evaluation ⟨keyword, .strayBreak⟩) :
    (∃ bound, Stmt.interpretAll bound statements machine = some (.error cause machine')) ↔
      Runs (.all statements) machine (.error cause machine') := by
  constructor
  · rintro ⟨bound, h⟩
    obtain ⟨completion, hruns, hending⟩ := Runs.of_interpretAll h
    cases completion with
    | ok completion =>
      cases completion with
      | normal => cases hending
      | broken keyword =>
        cases hending
        exact absurd rfl (hcause keyword)
    | error =>
      cases hending
      exact hruns
  · intro h
    obtain ⟨bound, outcome, h, hending⟩ := h.exists_interpretAll
    cases outcome with
    | ok => cases hending
    | error =>
      cases hending
      exact ⟨bound, h⟩

end TreeWalk
