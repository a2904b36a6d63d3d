import TreeWalk.Proofs.Session.Joining

/-!
This module contains the values that the run of a source answers with. The value of a statement
comes from an expression statement that is the statement itself, or a branch or the body of a loop
in it; what is in a block does not get out.
-/

namespace TreeWalk

namespace Stmt

def isExpression : Stmt → Bool
  | expr _ => true
  | print _ | declare _ _ | block _ | ifThen _ _ | ifElse _ _ _ | whileLoop _ _
  | breakLoop _ => false

/--
An expression statement can be reached in the statement without going into a block.
-/
def surfaces : Stmt → Bool
  | expr _ => true
  | ifThen _ body | whileLoop _ body => body.surfaces
  | ifElse _ body alternative => body.surfaces || alternative.surfaces
  | print _ | declare _ _ | block _ | breakLoop _ => false

theorem surfaces_of_isExpression {statement : Stmt} (h : statement.isExpression = true) :
    statement.surfaces = true := by
  cases statement <;> first | rfl | cases h

end Stmt

def Task.surfaces : Task → Bool
  | one statement => statement.surfaces
  | all _ => false
  | loop _ body last => body.surfaces || last.isSome

theorem Machine.print_ne_value {machine machine' : Machine} {value value' : Value} :
    machine.print value ≠ .ok (.normal (some value')) machine' := by
  obtain ⟨environment, output⟩ := machine
  simp only [print]
  split <;> simp

theorem Runs.surfaces {task : Task} {machine : Machine} {outcome : Outcome Completion}
    (h : Runs task machine outcome) {value : Value} {machine' : Machine}
    (hvalue : outcome = .ok (.normal (some value)) machine') :
    task.surfaces = true := by
  -- a loop has the value of its last complete round, so a loop under way may have one already
  induction h generalizing value machine' with
  | fault | breakLoop | declare | define | ifFalse | nil | loopFault | loopStop => cases hvalue
  | print => exact absurd hvalue Machine.print_ne_value
  | expr => rfl
  | @block body machine outcome hbody ih =>
    cases outcome with
    | error => cases hvalue
    | ok completion machine'' =>
      cases hvalue
      exact ih rfl
  | ifTrue _ _ _ ih => exact ih hvalue
  | ifElseTrue _ _ _ ih => exact Bool.or_eq_true_iff.2 (.inl (ih hvalue))
  | ifElseFalse _ _ _ ih => exact Bool.or_eq_true_iff.2 (.inr (ih hvalue))
  | whileLoop _ ih => simpa [Task.surfaces, Stmt.surfaces] using ih hvalue
  | next _ _ _ ih => exact ih hvalue
  | stop _ hstop => exact absurd hvalue (hstop _ _)
  | loopDone | loopBreak =>
    cases hvalue
    exact Bool.or_true _
  | @loopRound _ body _ value' _ _ _ _ _ _ _ _ _ ihbody ihloop =>
    cases value' with
    | none => exact Bool.or_eq_true_iff.2 (.inl (by simpa [Task.surfaces] using ihloop hvalue))
    | some => exact Bool.or_eq_true_iff.2 (.inl (ihbody rfl))

/--
A program runs to its end, with the values other than `nil` of those of its statements that count,
in their order.
-/
inductive Answers (counts : Stmt → Bool) : List Stmt → Machine → List Value → Machine → Prop
  | nil {machine : Machine} : Answers counts [] machine [] machine
  | counted {statement : Stmt} {statements : List Stmt} {value : Option Value} {values : List Value}
    {machine machine' machine'' : Machine} (hcounts : counts statement = true)
    (hstatement : Runs (.one statement) machine (.ok (.normal value) machine'))
    (hstatements : Answers counts statements machine' values machine'') :
    Answers counts (statement :: statements) machine
      (value.toList.filter (· ≠ .nil) ++ values) machine''
  | passed {statement : Stmt} {statements : List Stmt} {value : Option Value} {values : List Value}
    {machine machine' machine'' : Machine} (hcounts : counts statement = false)
    (hstatement : Runs (.one statement) machine (.ok (.normal value) machine'))
    (hstatements : Answers counts statements machine' values machine'') :
    Answers counts (statement :: statements) machine values machine''

namespace Answers

variable {counts counts' : Stmt → Bool} {statements : List Stmt} {values values' : List Value}
  {machine machine' machine'' : Machine}

theorem unique (h : Answers counts statements machine values machine')
    (h' : Answers counts statements machine values' machine'') :
    values = values' ∧ machine' = machine'' := by
  induction h generalizing values' machine'' with
  | nil =>
    cases h'
    exact ⟨rfl, rfl⟩
  | counted hcounts hstatement _ ih =>
    cases h' with
    | counted _ hstatement' hstatements' =>
      cases hstatement.unique hstatement'
      obtain ⟨rfl, rfl⟩ := ih hstatements'
      exact ⟨rfl, rfl⟩
    | passed hcounts' => cases hcounts.symm.trans hcounts'
  | passed hcounts hstatement _ ih =>
    cases h' with
    | counted hcounts' => cases hcounts.symm.trans hcounts'
    | passed _ hstatement' hstatements' =>
      cases hstatement.unique hstatement'
      exact ih hstatements'

theorem congr (hcounts : ∀ statement ∈ statements, counts statement = counts' statement)
    (h : Answers counts statements machine values machine') :
    Answers counts' statements machine values machine' := by
  induction h with
  | nil => exact .nil
  | counted hstatement hruns _ ih =>
    rw [List.forall_mem_cons] at hcounts
    exact .counted (hcounts.1 ▸ hstatement) hruns (ih hcounts.2)
  | passed hstatement hruns _ ih =>
    rw [List.forall_mem_cons] at hcounts
    exact .passed (hcounts.1 ▸ hstatement) hruns (ih hcounts.2)

theorem exists_sublist (hfewer : ∀ statement, counts' statement = true → counts statement = true)
    (h : Answers counts statements machine values machine') :
    ∃ values', Answers counts' statements machine values' machine' ∧ values'.Sublist values := by
  induction h with
  | nil => exact ⟨[], .nil, .slnil⟩
  | @counted statement _ value _ _ _ _ _ hruns _ ih =>
    obtain ⟨values', hstatements, hsublist⟩ := ih
    cases hcounts : counts' statement with
    | true => exact ⟨_, .counted hcounts hruns hstatements, hsublist.append_left _⟩
    | false =>
      exact ⟨values', .passed hcounts hruns hstatements,
        hsublist.trans (List.sublist_append_right _ _)⟩
  | @passed statement _ _ _ _ _ _ hcounts hruns _ ih =>
    obtain ⟨values', hstatements, hsublist⟩ := ih
    have hcounts' : counts' statement = false := by
      rw [← Bool.not_eq_true]
      intro hcounts'
      cases hcounts.symm.trans (hfewer statement hcounts')
    exact ⟨values', .passed hcounts' hruns hstatements, hsublist⟩

theorem shown_eq (value : Option Value) :
    Stmt.interpretAll.shown value = value.toList.filter (· ≠ .nil) := by
  unfold Stmt.interpretAll.shown
  split
  · rfl
  · rfl
  · next value hvalue =>
    have hne : value ≠ .nil := hvalue
    simp [hne]

end Answers

theorem answers_of_interpretAll {bound : Nat} {statements : List Stmt} {values : List Value}
    {machine machine' : Machine}
    (h : Stmt.interpretAll bound statements machine = some (.ok values machine')) :
    Answers Stmt.surfaces statements machine values machine' := by
  induction statements generalizing machine values with
  | nil =>
    cases h
    exact .nil
  | cons statement statements ih =>
    unfold Stmt.interpretAll at h
    split at h
    · cases h
    · cases h
    · next value machine'' hstatement =>
      have hruns := Stmt.runs_of_interpret hstatement
      split at h
      · next values hstatements =>
        cases h
        have hrest := ih hstatements
        cases hsurfaces : statement.surfaces with
        | true =>
          rw [Answers.shown_eq]
          exact .counted hsurfaces hruns hrest
        | false =>
          cases value with
          | none => exact .passed hsurfaces hruns hrest
          | some value => cases hsurfaces.symm.trans (hruns.surfaces rfl)
      · next hstop => exact absurd h (hstop _ _)

/--
The run of a source answers with the values of the statements that an expression statement surfaces
in. If there are none but the expression statements of the program itself, it answers with their
values alone, and else with those among others.
-/
theorem session_run_values {bound : Nat} {session final : Session} {source : String}
    {diagnostics diagnostics' : Sink} {values : List Value} (hsource : isAccepted source = true)
    (hrun : session.run bound source diagnostics = some ⟨.ok values, final, diagnostics'⟩) :
    let program := (parse (scan source).tokens).statements
    Answers Stmt.surfaces program session.machine values final.machine ∧
    ∃ documented, Answers Stmt.isExpression program session.machine documented final.machine ∧
      documented.Sublist values ∧
      ((∀ statement ∈ program, statement.surfaces = statement.isExpression) →
        values = documented) := by
  intro program
  have hanswers : Answers Stmt.surfaces program session.machine values final.machine := by
    obtain ⟨hscan, hparse⟩ := Bool.and_eq_true_iff.1 hsource
    obtain ⟨diagnostics'', _, hruns⟩ | ⟨_, diagnostics'', hruns⟩ :=
      Session.runs_or_unreported hscan hparse session diagnostics
    · rw [hruns] at hrun
      obtain ⟨outcome, hprogram, hconclude⟩ := Option.map_eq_some_iff.1 hrun
      have hresult := Session.result_conclude session diagnostics'' outcome
      rw [hconclude] at hresult
      obtain hresult | ⟨_, hresult⟩ := hresult
      · cases outcome with
        | ok =>
          cases hconclude
          exact answers_of_interpretAll hprogram
        | error => cases hresult
      · cases hresult
    · rw [hruns] at hrun
      cases hrun
  obtain ⟨documented, hdocumented, hsublist⟩ :=
    hanswers.exists_sublist fun _ => Stmt.surfaces_of_isExpression
  refine ⟨hanswers, documented, hdocumented, hsublist, fun hsurfaces => ?_⟩
  exact ((hanswers.congr hsurfaces).unique hdocumented).1

theorem session_run_values_of_block :
    let session := Session.new .unlimited false
    let source := "true;nil;\x7bfalse;\x7d"
    (isAccepted source = true ∧
      session.run 0 source .unlimited = some ⟨.ok [.boolean true], session, .unlimited⟩) ∧
    Answers Stmt.isExpression (parse (scan source).tokens).statements session.machine
      [.boolean true] session.machine := by
  intro session source
  have htokens : (scan source).tokens =
      [⟨.trueWord, "true", none, .start⟩, ⟨.semicolon, ";", none, ⟨1, 5⟩⟩,
      ⟨.nilWord, "nil", none, ⟨1, 6⟩⟩, ⟨.semicolon, ";", none, ⟨1, 9⟩⟩,
      ⟨.leftBrace, "\x7b", none, ⟨1, 10⟩⟩, ⟨.falseWord, "false", none, ⟨1, 11⟩⟩,
      ⟨.semicolon, ";", none, ⟨1, 16⟩⟩, ⟨.rightBrace, "\x7d", none, ⟨1, 17⟩⟩,
      .endOfText ⟨1, 18⟩] := by
    decide +kernel
  have hparse : parse (scan source).tokens =
      ⟨[.expr (.literal (.boolean true)), .expr (.literal .nil),
      .block [.expr (.literal (.boolean false))]], []⟩ := by
    rw [htokens]
    cbv
  have hscan : (scan source).isValid = true := by decide +kernel
  have hsource : isAccepted source = true := by
    rw [isAccepted, hscan, hparse]
    rfl
  have hrun : session.run 0 source .unlimited =
      some ⟨.ok [.boolean true], session, .unlimited⟩ := by
    rw [Session.run_of_isValid hscan (by rw [hparse]; rfl), hparse]
    rfl
  obtain ⟨_, documented, hdocumented, _, hvalues⟩ := session_run_values hsource hrun
  rw [hparse] at hdocumented hvalues ⊢
  have hdocumented' : [.boolean true] = documented :=
    hvalues (by simp [Stmt.surfaces, Stmt.isExpression])
  exact ⟨⟨hsource, hrun⟩, hdocumented'.symm ▸ hdocumented⟩

theorem session_run_answers_branch :
    let session := Session.new .unlimited false
    let source := "if (true) true;"
    isAccepted source = true ∧
    session.run 0 source .unlimited = some ⟨.ok [.boolean true], session, .unlimited⟩ ∧
    ∀ documented final,
      Answers Stmt.isExpression
        (parse (scan source).tokens).statements session.machine documented final →
      documented = [] := by
  intro session source
  have htokens : (scan source).tokens =
      [⟨.ifWord, "if", none, .start⟩, ⟨.leftParen, "(", none, ⟨1, 4⟩⟩,
      ⟨.trueWord, "true", none, ⟨1, 5⟩⟩, ⟨.rightParen, ")", none, ⟨1, 9⟩⟩,
      ⟨.trueWord, "true", none, ⟨1, 11⟩⟩, ⟨.semicolon, ";", none, ⟨1, 15⟩⟩,
      .endOfText ⟨1, 16⟩] := by
    decide +kernel
  have hparse : parse (scan source).tokens =
      ⟨[.ifThen (.literal (.boolean true)) (.expr (.literal (.boolean true)))], []⟩ := by
    rw [htokens]
    cbv
  have hscan : (scan source).isValid = true := by decide +kernel
  refine ⟨?_, ?_, ?_⟩
  · rw [isAccepted, hscan, hparse]
    rfl
  · rw [Session.run_of_isValid hscan (by rw [hparse]; rfl), hparse]
    rfl
  · rw [hparse]
    intro documented final h
    cases h with
    | counted hcounts => cases hcounts
    | passed _ _ hstatements =>
      cases hstatements
      rfl

end TreeWalk
