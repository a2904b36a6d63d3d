import TreeWalk.Proofs.Session.Reachable

/-!
This module contains what the run of a source comes to for the session. The source is rejected,
whatever the machine is like, or its statements run; and diagnostics that have no limit take all
that is to be reported. With a limit they may fail, and then nothing else is reported.
-/

namespace TreeWalk

namespace Sink

theorem writeLine_of_unlimited {sink : Sink} (h : sink.room = none) (line : String) :
    sink.writeLine line = (true, ⟨sink.written ++ (line ++ "\n").toUTF8, none⟩) := by
  obtain ⟨written, room⟩ := sink
  subst h
  rfl

theorem writeLines_of_unlimited {sink : Sink} (h : sink.room = none) (lines : List String) :
    sink.writeLines lines = (true,
      ⟨sink.written ++ (String.join (lines.map (· ++ "\n"))).toUTF8, none⟩) := by
  induction lines generalizing sink with
  | nil =>
    obtain ⟨written, room⟩ := sink
    subst h
    simp [writeLines]
  | cons line lines ih =>
    have hroom : (Sink.mk (sink.written ++ (line ++ "\n").toUTF8) none).room = none := rfl
    rw [writeLines, writeLine_of_unlimited h]
    simp only [ih hroom]
    simp only [List.map_cons, String.join_cons, String.toUTF8_eq_toByteArray,
      String.toByteArray_append, ByteArray.append_assoc]

end Sink

def Outcome.result : Outcome (List Value) → Except RunError (List Value)
  | ok values _ => .ok values
  | error cause _ => .error (.runtime cause)

def Outcome.report (diagnostics : Sink) : Outcome (List Value) → Sink
  | ok _ _ => diagnostics
  | error cause _ => ⟨diagnostics.written ++ (cause.text ++ "\n").toUTF8, none⟩

namespace Session

def conclude (session : Session) (diagnostics : Sink) : Outcome (List Value) → Run
  | .ok values machine => ⟨.ok values, { session with machine }, diagnostics⟩
  | .error cause machine =>
    { session with machine }.reject [cause.text] (.runtime cause) diagnostics

def Unreported (diagnostics : Sink) (result : Except RunError (List Value)) : Prop :=
  diagnostics.room ≠ none ∧ result = .error .diagnostics

variable {bound : Nat} {session final : Session} {source : String} {diagnostics : Sink}
  {result : Except RunError (List Value)}

theorem run_of_scan_errors (h : (scan source).isValid = false) :
    session.run bound source diagnostics =
      some (session.reject ((scan source).errors.map ScanError.text)
        (.scan (scan source).errors.length) diagnostics) := by
  simp [Session.run, h]

theorem run_of_parse_errors (hscan : (scan source).isValid = true)
    (hparse : (parse (scan source).tokens).isValid = false) :
    session.run bound source diagnostics =
      some (session.reject ((parse (scan source).tokens).errors.map ParseError.text)
        (.parse (parse (scan source).tokens).errors.length) diagnostics) := by
  simp [Session.run, hscan, hparse]

theorem run_of_isValid (hscan : (scan source).isValid = true)
    (hparse : (parse (scan source).tokens).isValid = true) :
    session.run bound source diagnostics =
      match diagnostics.writeLines
        (if session.showTrees then (parse (scan source).tokens).statements.map Stmt.dump else [])
          with
      | (true, diagnostics) =>
        session.runProgram bound (parse (scan source).tokens).statements diagnostics
      | (false, diagnostics) => some ⟨.error .diagnostics, session, diagnostics⟩ :=
  (if_neg (by simp [hscan])).trans (if_neg (by simp [hparse]))

theorem reject_of_unlimited (errors : List String) (cause : RunError)
    (h : diagnostics.room = none) :
    session.reject errors cause diagnostics =
      ⟨.error cause, session,
        ⟨diagnostics.written ++ (String.join (errors.map (· ++ "\n"))).toUTF8, none⟩⟩ := by
  rw [reject, Sink.writeLines_of_unlimited h]

theorem runProgram_eq_map (bound : Nat) (session : Session) (program : List Stmt)
    (diagnostics : Sink) :
    session.runProgram bound program diagnostics =
      (Stmt.interpretAll bound program session.machine).map (session.conclude diagnostics) := by
  obtain ⟨machine, showTrees⟩ := session
  simp only [runProgram]
  rcases Stmt.interpretAll bound program machine with _ | ⟨_ | _⟩ <;> rfl

theorem session_conclude (session : Session) (diagnostics : Sink) (outcome : Outcome (List Value)) :
    (session.conclude diagnostics outcome).session =
      { session with machine := outcome.machine } := by
  cases outcome with
  | ok => rfl
  | error => exact session_reject _ _ _ _

theorem result_conclude (session : Session) (diagnostics : Sink) (outcome : Outcome (List Value)) :
    (session.conclude diagnostics outcome).result = outcome.result ∨
      Unreported diagnostics (session.conclude diagnostics outcome).result := by
  cases outcome with
  | ok => exact .inl rfl
  | error cause machine =>
    simp only [conclude, reject]
    cases hwrite : diagnostics.writeLines [cause.text] with
    | mk written left =>
      cases written with
      | true => exact .inl rfl
      | false =>
        refine .inr ⟨fun hroom => ?_, rfl⟩
        rw [Sink.writeLines_of_unlimited hroom] at hwrite
        cases hwrite

theorem conclude_of_unlimited (hroom : diagnostics.room = none) (session : Session)
    (outcome : Outcome (List Value)) :
    session.conclude diagnostics outcome =
      ⟨outcome.result, { session with machine := outcome.machine },
        outcome.report diagnostics⟩ := by
  cases outcome with
  | ok => rfl
  | error =>
    simp [conclude, Outcome.result, Outcome.machine, Outcome.report, reject_of_unlimited _ _ hroom]

theorem runProgram_of_unlimited (hroom : diagnostics.room = none) (bound : Nat)
    (program : List Stmt) :
    session.runProgram bound program diagnostics =
      (Stmt.interpretAll bound program session.machine).map fun outcome =>
        ⟨outcome.result, { session with machine := outcome.machine },
          outcome.report diagnostics⟩ := by
  rw [runProgram_eq_map]
  exact congrArg (Option.map · _) (funext (conclude_of_unlimited hroom session))

theorem exists_runProgram (hroom : diagnostics.room = none) (bound : Nat) (program : List Stmt) :
    (∃ diagnostics', session.runProgram bound program diagnostics =
        some ⟨result, final, diagnostics'⟩) ↔
      ∃ outcome, Stmt.interpretAll bound program session.machine = some outcome ∧
        outcome.result = result ∧
        { session with machine := outcome.machine } = final := by
  rw [runProgram_of_unlimited hroom]
  constructor
  · rintro ⟨diagnostics', h⟩
    obtain ⟨outcome, hprogram, hrun⟩ := Option.map_eq_some_iff.1 h
    cases hrun
    exact ⟨outcome, hprogram, rfl, rfl⟩
  · rintro ⟨outcome, hprogram, rfl, rfl⟩
    exact ⟨_, Option.map_eq_some_iff.2 ⟨outcome, hprogram, rfl⟩⟩

theorem rejects_or_runs (source : String) (showTrees : Bool) (hroom : diagnostics.room = none) :
    (∃ cause diagnostics', ∀ bound machine,
      Session.run bound ⟨machine, showTrees⟩ source diagnostics =
        some ⟨.error cause, ⟨machine, showTrees⟩, diagnostics'⟩) ∨
    ∃ diagnostics', diagnostics'.room = none ∧
      ∀ bound machine, Session.run bound ⟨machine, showTrees⟩ source diagnostics =
        runProgram bound ⟨machine, showTrees⟩ (parse (scan source).tokens).statements
          diagnostics' := by
  have hreject (errors : List String) (cause : RunError) (machine : Machine) :
      some (reject ⟨machine, showTrees⟩ errors cause diagnostics) = _ :=
    congrArg some (reject_of_unlimited errors cause hroom)
  cases hscan : (scan source).isValid with
  | false => exact .inl ⟨_, _, fun _ _ => (run_of_scan_errors hscan).trans (hreject _ _ _)⟩
  | true =>
    cases hparse : (parse (scan source).tokens).isValid with
    | false =>
      exact .inl ⟨_, _, fun _ _ => (run_of_parse_errors hscan hparse).trans (hreject _ _ _)⟩
    | true =>
      obtain ⟨shown, hroom', hshown⟩ : ∃ shown : Sink, shown.room = none ∧ diagnostics.writeLines
          (if showTrees then (parse (scan source).tokens).statements.map Stmt.dump else []) =
            (true, shown) :=
        ⟨⟨_, none⟩, rfl, Sink.writeLines_of_unlimited hroom _⟩
      refine .inr ⟨shown, hroom', fun bound machine => (run_of_isValid hscan hparse).trans ?_⟩
      rw [hshown]

theorem runs_or_unreported (hscan : (scan source).isValid = true)
    (hparse : (parse (scan source).tokens).isValid = true) (session : Session)
    (diagnostics : Sink) :
    (∃ diagnostics', (diagnostics.room = none → diagnostics'.room = none) ∧ ∀ bound,
      session.run bound source diagnostics =
        (Stmt.interpretAll bound (parse (scan source).tokens).statements session.machine).map
          (session.conclude diagnostics')) ∨
    diagnostics.room ≠ none ∧ ∃ diagnostics', ∀ bound,
      session.run bound source diagnostics = some ⟨.error .diagnostics, session, diagnostics'⟩ := by
  simp only [run_of_isValid hscan hparse, runProgram_eq_map]
  generalize (if session.showTrees then _ else []) = trees
  cases hwrite : diagnostics.writeLines trees with
  | mk written diagnostics' =>
    have hroom (h : diagnostics.room = none) : written = true ∧ diagnostics'.room = none := by
      rw [Sink.writeLines_of_unlimited h] at hwrite
      cases hwrite
      exact ⟨rfl, rfl⟩
    cases written with
    | true => exact .inl ⟨diagnostics', fun h => (hroom h).2, fun _ => rfl⟩
    | false =>
      exact .inr ⟨fun h => absurd (hroom h).1 Bool.false_ne_true, diagnostics', fun _ => rfl⟩

end Session
end TreeWalk
