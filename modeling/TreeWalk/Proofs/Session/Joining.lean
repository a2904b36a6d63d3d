import TreeWalk.Proofs.Execution.Movement
import TreeWalk.Proofs.Execution.Program
import TreeWalk.Proofs.Grammar.Movement
import TreeWalk.Proofs.Grammar.Parsing
import TreeWalk.Proofs.Grammar.Visible
import TreeWalk.Proofs.Session.Rejection
import TreeWalk.Proofs.Token.Joining

/-!
This module contains the proof that it makes no difference whether two sources are given to a
session one after the other or as one source with a line break between them.
-/

namespace TreeWalk

open Grammar

def isAccepted (source : String) : Bool :=
  (scan source).isValid && (parse (scan source).tokens).isValid

theorem Grammar.phrase_append {nearest : Bool} {tokens tokens' : List Token}
    {statements statements' : List Stmt} (h : Phrase nearest .declarations tokens statements)
    (h' : Phrase nearest .declarations tokens' statements') :
    Phrase nearest .declarations (tokens ++ tokens') (statements ++ statements') := by
  induction statements generalizing tokens with
  | nil =>
    cases h
    exact h'
  | cons statement statements ih =>
    cases h with
    | cons hfirst hrest =>
      rw [List.append_assoc]
      exact .cons hfirst (ih hrest)

theorem isAccepted_iff {source : String} {statements : List Stmt} :
    isAccepted source = true ∧ (parse (scan source).tokens).statements = statements ↔
      (scan source).isValid = true ∧
        Phrase true .declarations (Sentence.ofTokens (scan source).tokens).tokens statements := by
  rw [← parse_iff, isAccepted, Bool.and_eq_true, and_assoc]

theorem Grammar.phrase_move {tokens : List Token} {statements : List Stmt}
    (place : Position → Position) (h : Phrase true .declarations tokens statements) :
    Phrase true .declarations (tokens.map (Token.move place))
      (statements.map (Stmt.mapTokens (Token.move place))) := by
  let ending : Found := .endOfInput (.endOfText .start)
  have hprogram : program (ending.move place) (tokens.map (Token.move place)) =
      ⟨statements.map (Stmt.mapTokens (Token.move place)), []⟩ := by
    rw [program_move, program_eq_iff.2 h]
    rfl
  exact program_eq_iff.1 hprogram

theorem tokens_scan_append {first : String} (h : (scan first).isValid = true) (second : String) :
    let place := Position.down (1 + first.toList.count '\n')
    (Sentence.ofTokens (scan (first ++ "\n" ++ second)).tokens).tokens =
      (Sentence.ofTokens (scan first).tokens).tokens ++
        (Sentence.ofTokens (scan second).tokens).tokens.map (Token.move place) := by
  intro place
  have hmoved :
      ((scan second).items.map (ScanItem.down (1 + first.toList.count '\n'))).map ScanItem.token =
      ((scan second).items.map ScanItem.token).map (Token.move place) := by
    rw [List.map_map, List.map_map]
    rfl
  simp only [Sentence.tokens_scan, items_scan_append h, List.map_append, List.filter_append, hmoved,
    List.filter_map]
  rfl

theorem isAccepted_append {first second : String} (hfirst : isAccepted first = true)
    (hsecond : isAccepted second = true) :
    let place := Position.down (1 + first.toList.count '\n')
    isAccepted (first ++ "\n" ++ second) = true ∧
      (parse (scan (first ++ "\n" ++ second)).tokens).statements =
        (parse (scan first).tokens).statements ++
        (parse (scan second).tokens).statements.map (Stmt.mapTokens (Token.move place)) := by
  intro place
  obtain ⟨hscan, hphrase⟩ := isAccepted_iff.1 ⟨hfirst, rfl⟩
  obtain ⟨hscan', hphrase'⟩ := isAccepted_iff.1 ⟨hsecond, rfl⟩
  rw [isAccepted_iff, tokens_scan_append hscan]
  exact ⟨isValid_scan_append hscan hscan', phrase_append hphrase (phrase_move place hphrase')⟩

namespace Stmt

variable {first second : List Stmt} {machine machine' : Machine} {bound bound' : Nat}

theorem interpretAll_append_of_error {cause : RuntimeError}
    (h : interpretAll bound first machine = some (.error cause machine')) (second : List Stmt) :
    interpretAll bound (first ++ second) machine = some (.error cause machine') := by
  rw [interpretAll_append, h]
  rfl

theorem interpretAll_append_of_ok {values : List Value} {outcome : Outcome (List Value)}
    (place : Position → Position)
    (h : interpretAll bound first machine = some (.ok values machine'))
    (h' : interpretAll bound' second machine' = some outcome) :
    interpretAll (max bound bound') (first ++ second.map (mapTokens (Token.move place))) machine =
      some (outcome.move place (values ++ ·)) := by
  rw [interpretAll_append, interpretAll_mono (Nat.le_max_left bound bound') h]
  simp only [Option.bind_some, Outcome.andThen]
  rw [interpretAll_move, interpretAll_mono (Nat.le_max_right bound bound') h']
  cases outcome <;> rfl

end Stmt

namespace Session

def Ends (session : Session) (source : String) (diagnostics : Sink)
    (result : Except RunError (List Value)) (final : Session) : Prop :=
  ∃ bound, ∀ bound', bound ≤ bound' →
    ∃ diagnostics', session.run bound' source diagnostics = some ⟨result, final, diagnostics'⟩

variable {session final : Session} {source : String} {diagnostics : Sink}
  {result : Except RunError (List Value)}

theorem run_of_isAccepted (hsource : isAccepted source = true) (hshow : session.showTrees = false)
    (bound : Nat) :
    session.run bound source diagnostics =
      session.runProgram bound (parse (scan source).tokens).statements diagnostics := by
  obtain ⟨hscan, hparse⟩ := Bool.and_eq_true_iff.1 hsource
  rw [run_of_isValid hscan hparse, hshow]
  rfl

theorem ends_iff (hsource : isAccepted source = true) (hshow : session.showTrees = false)
    (hroom : diagnostics.room = none) :
    session.Ends source diagnostics result final ↔
      ∃ bound outcome, Stmt.interpretAll bound
        (parse (scan source).tokens).statements session.machine = some outcome ∧
        outcome.result = result ∧ { session with machine := outcome.machine } = final := by
  simp only [Ends, run_of_isAccepted hsource hshow, exists_runProgram hroom]
  constructor
  · rintro ⟨bound, h⟩
    exact ⟨bound, h bound (Nat.le_refl bound)⟩
  · rintro ⟨bound, outcome, h, hresult⟩
    exact ⟨bound, fun bound' hle => ⟨outcome, Stmt.interpretAll_mono hle h, hresult⟩⟩

end Session

theorem session_run_append {session : Session} {first second : String}
    {diagnostics diagnostics' diagnostics'' : Sink} (hshow : session.showTrees = false)
    (hfirst : isAccepted first = true) (hsecond : isAccepted second = true)
    (hroom : diagnostics.room = none) (hroom' : diagnostics'.room = none)
    (hroom'' : diagnostics''.room = none) :
    let whole := first ++ "\n" ++ second
    let place := Position.down (1 + first.toList.count '\n')
    isAccepted whole = true ∧
      (∀ values middle, session.Ends first diagnostics (.ok values) middle →
        (∀ values' final, middle.Ends second diagnostics' (.ok values') final →
          session.Ends whole diagnostics'' (.ok (values ++ values')) final) ∧
        ∀ error final, middle.Ends second diagnostics' (.error (.runtime error)) final →
          session.Ends whole diagnostics'' (.error (.runtime (error.move place))) final) ∧
      ∀ error final, session.Ends first diagnostics (.error (.runtime error)) final →
        session.Ends whole diagnostics'' (.error (.runtime error)) final := by
  intro whole place
  obtain ⟨hwhole, hstatements⟩ := isAccepted_append hfirst hsecond
  have hends {result : Except RunError (List Value)} {final : Session} :
      session.Ends whole diagnostics'' result final ↔ _ :=
    Session.ends_iff hwhole hshow hroom''
  rw [hstatements] at hends
  refine ⟨hwhole, ?_, ?_⟩
  · intro values middle hmiddle
    obtain ⟨bound, outcome, hprogram, hresult, rfl⟩ :=
      (Session.ends_iff hfirst hshow hroom).1 hmiddle
    cases outcome with
    | error => cases hresult
    | ok values machine =>
      cases hresult
      have hcontinue {result : Except RunError (List Value)} {final : Session} :
          Session.Ends { session with machine } second diagnostics' result final ↔ _ :=
        Session.ends_iff hsecond hshow hroom'
      constructor
      · intro values' final hfinal
        obtain ⟨bound', outcome, hprogram', hresult, rfl⟩ := hcontinue.1 hfinal
        refine hends.2 ⟨_, _, Stmt.interpretAll_append_of_ok place hprogram hprogram', ?_⟩
        cases outcome <;> cases hresult
        exact ⟨rfl, rfl⟩
      · intro error final hfinal
        obtain ⟨bound', outcome, hprogram', hresult, rfl⟩ := hcontinue.1 hfinal
        refine hends.2 ⟨_, _, Stmt.interpretAll_append_of_ok place hprogram hprogram', ?_⟩
        cases outcome <;> cases hresult
        exact ⟨rfl, rfl⟩
  · intro error final hfinal
    obtain ⟨bound, outcome, hprogram, hresult, rfl⟩ :=
      (Session.ends_iff hfirst hshow hroom).1 hfinal
    cases outcome <;> cases hresult
    exact hends.2 ⟨_, _, Stmt.interpretAll_append_of_error hprogram _, rfl, rfl⟩

theorem session_run_append_of_comment :
    let session := Session.new .unlimited false
    let first := "nil;// print"
    let second := "-nil;"
    let minus (line : Nat) : Token := ⟨.minus, "-", none, ⟨line, 1⟩⟩
    (session.showTrees = false ∧ isAccepted first = true ∧ isAccepted second = true ∧
      Sink.unlimited.room = none) ∧
      session.Ends first .unlimited (.ok []) session ∧
      session.Ends second .unlimited
        (.error (.runtime (.evaluation ⟨minus 1, .expectedNumber .nil⟩))) session ∧
      isAccepted (first ++ "\n" ++ second) = true ∧
      session.Ends (first ++ "\n" ++ second) .unlimited
        (.error (.runtime (.evaluation ⟨minus 2, .expectedNumber .nil⟩))) session := by
  intro session first second minus
  have htokens : (scan first).tokens =
      [⟨.nilWord, "nil", none, .start⟩, ⟨.semicolon, ";", none, ⟨1, 4⟩⟩,
      ⟨.comment, "// print", none, ⟨1, 5⟩⟩, .endOfText ⟨1, 13⟩] := by
    decide +kernel
  have htokens' : (scan second).tokens =
      [minus 1, ⟨.nilWord, "nil", none, ⟨1, 2⟩⟩, ⟨.semicolon, ";", none, ⟨1, 5⟩⟩,
      .endOfText ⟨1, 6⟩] := by
    decide +kernel
  have hparse : parse (scan first).tokens = ⟨[.expr (.literal .nil)], []⟩ := by
    rw [htokens]
    cbv
  have hparse' : parse (scan second).tokens = ⟨[.expr (.unary (minus 1) (.literal .nil))], []⟩ := by
    rw [htokens']
    cbv
  have hfirst : isAccepted first = true := by
    rw [isAccepted, hparse]
    decide +kernel
  have hsecond : isAccepted second = true := by
    rw [isAccepted, hparse']
    decide +kernel
  have hends : session.Ends first .unlimited (.ok []) session := by
    rw [Session.ends_iff hfirst rfl rfl, hparse]
    exact ⟨0, _, rfl, rfl, rfl⟩
  have hends' : session.Ends second .unlimited
      (.error (.runtime (.evaluation ⟨minus 1, .expectedNumber .nil⟩))) session := by
    rw [Session.ends_iff hsecond rfl rfl, hparse']
    exact ⟨0, _, rfl, rfl, rfl⟩
  have hshow : session.showTrees = false := rfl
  have hroom : Sink.unlimited.room = none := rfl
  obtain ⟨hwhole, hok, _⟩ := session_run_append hshow hfirst hsecond hroom hroom hroom
  have hline : first.toList.count '\n' = 0 := by decide +kernel
  have hfails := (hok [] session hends).2 _ session hends'
  rw [hline] at hfails
  exact ⟨⟨hshow, hfirst, hsecond, hroom⟩, hends, hends', hwhole, hfails⟩

end TreeWalk
