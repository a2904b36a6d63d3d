import TreeWalk.Proofs.Execution.Enclosing
import TreeWalk.Proofs.Session.Joining

/-!
This module contains the runs of a source with a block around it. They print what the source alone
prints and come to the same end, one line further down, and they leave no names behind.
-/

namespace TreeWalk

open Grammar

def enclosed (source : String) : String :=
  "\x7b\n" ++ source ++ "\n\x7d"

theorem isAccepted_enclosed {source : String} (h : isAccepted source = true) :
    isAccepted (enclosed source) = true ∧ (parse (scan (enclosed source)).tokens).statements =
      [.block
        ((parse (scan source).tokens).statements.map (Stmt.mapTokens (Token.move (.down 1))))] := by
  obtain ⟨hscan, hphrase⟩ := isAccepted_iff.1 ⟨h, rfl⟩
  have hopening : (scan "\x7b").isValid = true := by decide +kernel
  have hclosing : (scan "\x7d").isValid = true := by decide +kernel
  have htext : enclosed source = "\x7b" ++ "\n" ++ (source ++ "\n" ++ "\x7d") := by
    simp only [enclosed, String.append_assoc]
    rfl
  have hopened : (Sentence.ofTokens (scan "\x7b").tokens).tokens =
      [⟨.leftBrace, "\x7b", none, .start⟩] := by
    decide +kernel
  have hclosed : (Sentence.ofTokens (scan "\x7d").tokens).tokens =
      [⟨.rightBrace, "\x7d", none, .start⟩] := by
    decide +kernel
  have hline : "\x7b".toList.count '\n' = 0 := by decide +kernel
  rw [isAccepted_iff, htext, tokens_scan_append hopening, tokens_scan_append hscan, hopened,
    hclosed, hline, List.map_append, ← List.append_nil (List.map _ _ ++ _), ← List.append_assoc]
  refine ⟨isValid_scan_append hopening (isValid_scan_append hscan hclosing), ?_⟩
  exact .cons (.statement (.block rfl (phrase_move _ hphrase) rfl)) .nil

namespace Session

variable {bound : Nat} {session final : Session} {source : String} {diagnostics diagnostics' : Sink}
  {result : Except RunError (List Value)} {outcome : Outcome (List Value)}

theorem Ends.unique {result' : Except RunError (List Value)} {final' : Session}
    (h : session.Ends source diagnostics result final)
    (h' : session.Ends source diagnostics result' final') :
    result = result' ∧ final = final' := by
  obtain ⟨bound, h⟩ := h
  obtain ⟨bound', h'⟩ := h'
  obtain ⟨_, hrun⟩ := h _ (Nat.le_max_left bound bound')
  obtain ⟨_, hrun'⟩ := h' _ (Nat.le_max_right bound bound')
  cases hrun.symm.trans hrun'
  exact ⟨rfl, rfl⟩

theorem exists_interpretAll_of_ends (hsource : isAccepted source = true)
    (h : session.Ends source diagnostics result final) :
    (Unreported diagnostics result ∧ final = session) ∨ ∃ bound outcome,
      Stmt.interpretAll bound (parse (scan source).tokens).statements session.machine =
        some outcome ∧
        final = { session with machine := outcome.machine } ∧
        (result = outcome.result ∨ Unreported diagnostics result) := by
  obtain ⟨bound, hends⟩ := h
  obtain ⟨left, hrun⟩ := hends bound (Nat.le_refl bound)
  obtain ⟨hscan, hparse⟩ := Bool.and_eq_true_iff.1 hsource
  obtain ⟨diagnostics', hroom, hruns⟩ | ⟨hroom, diagnostics', hruns⟩ :=
    runs_or_unreported hscan hparse session diagnostics
  · rw [hruns] at hrun
    obtain ⟨outcome, hprogram, hconclude⟩ := Option.map_eq_some_iff.1 hrun
    have hsession := session_conclude session diagnostics' outcome
    have hresult := result_conclude session diagnostics' outcome
    rw [hconclude] at hsession hresult
    exact .inr ⟨bound, outcome, hprogram, hsession, hresult.imp_right fun h => ⟨mt hroom h.1, h.2⟩⟩
  · rw [hruns] at hrun
    cases hrun
    exact .inl ⟨⟨hroom, rfl⟩, rfl⟩

theorem exists_ends_of_interpretAll (hsource : isAccepted source = true)
    (h : Stmt.interpretAll bound (parse (scan source).tokens).statements session.machine =
      some outcome)
    (diagnostics : Sink) :
    ∃ result final, session.Ends source diagnostics result final ∧ (Unreported diagnostics result ∨
      result = outcome.result ∧ final = { session with machine := outcome.machine }) := by
  obtain ⟨hscan, hparse⟩ := Bool.and_eq_true_iff.1 hsource
  obtain ⟨diagnostics', hroom, hruns⟩ | ⟨hroom, diagnostics', hruns⟩ :=
    runs_or_unreported hscan hparse session diagnostics
  · let run := session.conclude diagnostics' outcome
    refine ⟨run.result, run.session, ⟨bound, fun bound' hle => ⟨run.diagnostics, ?_⟩⟩, ?_⟩
    · rw [hruns, Stmt.interpretAll_mono hle h]
      rfl
    · obtain hresult | hresult := result_conclude session diagnostics' outcome
      · exact .inr ⟨hresult, session_conclude session diagnostics' outcome⟩
      · exact .inl ⟨mt hroom hresult.1, hresult.2⟩
  · exact ⟨_, session, ⟨bound, fun bound' _ => ⟨diagnostics', hruns bound'⟩⟩, .inl ⟨hroom, rfl⟩⟩

end Session

/--
Both runs succeed, or the second one fails as the first one does, at the other place.
-/
inductive SameEnd (place : Position → Position) :
    Except RunError (List Value) → Except RunError (List Value) → Prop
  | ok (values values' : List Value) : SameEnd place (.ok values) (.ok values')
  | error (cause : RuntimeError) :
    SameEnd place (.error (.runtime cause)) (.error (.runtime (cause.move place)))

theorem SameEnd.of_seen {place : Position → Position} {outcome outcome' : Outcome (List Value)}
    (h : outcome'.seen = (outcome.move place id).seen) :
    outcome'.machine.output = outcome.machine.output ∧
    SameEnd place outcome.result outcome'.result := by
  cases outcome with
  | ok values machine =>
    cases outcome' with
    | ok values' machine' => exact ⟨congrArg Prod.snd h, .ok values values'⟩
    | error => cases congrArg Prod.fst h
  | error cause machine =>
    cases outcome' with
    | ok => cases congrArg Prod.fst h
    | error cause' machine' =>
      obtain rfl : cause' = cause.move place := Option.some.inj (congrArg Prod.fst h)
      exact ⟨congrArg Prod.snd h, .error cause⟩

theorem map_seen_interpretAll_enclosed {source : String} {machine : Machine}
    (hsource : isAccepted source = true) (hdepth : machine.environment.depth = 1) (bound : Nat) :
    (Stmt.interpretAll bound (parse (scan (enclosed source)).tokens).statements machine).map
        Outcome.seen =
      (Stmt.interpretAll bound (parse (scan source).tokens).statements machine).map fun outcome =>
        (outcome.move (.down 1) id).seen := by
  rw [(isAccepted_enclosed hsource).2, Stmt.map_seen_interpretAll_block hdepth,
    Stmt.interpretAll_move, Option.map_map]
  rfl

/--
A source with a block around it prints what the source alone prints, fails as it does if it does,
one line further down, and leaves the names that it found. Only where the diagnostics of a run do
not fit there is nothing to compare.
-/
theorem session_run_enclosed {session : Session} {source : String} (hsession : session.Reachable)
    (hsource : isAccepted source = true) :
    isAccepted (enclosed source) = true ∧ ∀ diagnostics diagnostics' : Sink,
      (∀ result' final', session.Ends (enclosed source) diagnostics' result' final' →
        final'.machine.environment.names = session.machine.environment.names ∧
          (Session.Unreported diagnostics' result' ∨
            ∃ result final, session.Ends source diagnostics result final ∧
            (Session.Unreported diagnostics result ∨
              final'.machine.output = final.machine.output ∧ SameEnd (.down 1) result result'))) ∧
      ∀ result final, session.Ends source diagnostics result final →
        Session.Unreported diagnostics result ∨
          ∃ result' final', session.Ends (enclosed source) diagnostics' result' final' := by
  obtain ⟨henclosed, hstatements⟩ := isAccepted_enclosed hsource
  have hprograms := map_seen_interpretAll_enclosed hsource hsession.depth_eq_one
  refine ⟨henclosed, fun diagnostics diagnostics' => ⟨?_, ?_⟩⟩
  · intro result' final' hends'
    obtain ⟨hunreported, rfl⟩ | ⟨bound, outcome', hprogram', rfl, hresult'⟩ :=
      Session.exists_interpretAll_of_ends henclosed hends'
    · exact ⟨rfl, .inl hunreported⟩
    have hseen := hprograms bound
    rw [hprogram', Option.map_some, eq_comm, Option.map_eq_some_iff] at hseen
    obtain ⟨outcome, hprogram, hseen⟩ := hseen
    obtain ⟨houtput, hsame⟩ := SameEnd.of_seen hseen.symm
    rw [hstatements] at hprogram'
    refine ⟨Stmt.names_of_interpretAll_block hprogram', ?_⟩
    obtain rfl | hunreported := hresult'
    · obtain ⟨result, final, hends, hresult⟩ :=
        Session.exists_ends_of_interpretAll hsource hprogram diagnostics
      refine .inr ⟨result, final, hends, hresult.imp_right ?_⟩
      rintro ⟨rfl, rfl⟩
      exact ⟨houtput, hsame⟩
    · exact .inl hunreported
  · intro result final hends
    obtain ⟨hunreported, _⟩ | ⟨bound, outcome, hprogram, _⟩ :=
      Session.exists_interpretAll_of_ends hsource hends
    · exact .inl hunreported
    · have hseen := hprograms bound
      rw [hprogram, Option.map_some, Option.map_eq_some_iff] at hseen
      obtain ⟨outcome', hprogram', _⟩ := hseen
      obtain ⟨result', final', hends', _⟩ :=
        Session.exists_ends_of_interpretAll henclosed hprogram' diagnostics'
      exact .inr ⟨result', final', hends'⟩

theorem session_run_enclosed_of_stray_break :
    let session := Session.new .unlimited false
    let source := "var a;break;"
    let name : Token := ⟨.identifier, "a", some (.string "a"), ⟨1, 5⟩⟩
    let keyword : Token := ⟨.breakWord, "break", none, ⟨1, 7⟩⟩
    let strays (keyword : Token) : RunError := .runtime (.evaluation ⟨keyword, .strayBreak⟩)
    let final := { session with machine := session.machine.define name .nil }
    (session.Reachable ∧ isAccepted source = true) ∧
      session.Ends source .unlimited (.error (strays keyword)) final ∧
      final.machine.environment.names = [["a"]] ∧
      ∃ final', session.Ends (enclosed source) .unlimited
          (.error (strays { keyword with position := ⟨2, 7⟩ })) final' ∧
        final'.machine.output = .unlimited ∧ final'.machine.environment.names = [[]] := by
  intro session source name keyword strays final
  have htokens : (scan source).tokens =
      [⟨.varWord, "var", none, .start⟩, name, ⟨.semicolon, ";", none, ⟨1, 6⟩⟩,
      keyword, ⟨.semicolon, ";", none, ⟨1, 12⟩⟩, .endOfText ⟨1, 13⟩] := by
    decide +kernel
  have hparse : parse (scan source).tokens = ⟨[.declare name none, .breakLoop keyword], []⟩ := by
    rw [htokens]
    cbv
  have hsource : isAccepted source = true := by
    rw [isAccepted, hparse]
    decide +kernel
  have hends : session.Ends source .unlimited (.error (strays keyword)) final := by
    rw [Session.ends_iff hsource rfl rfl, hparse]
    exact ⟨0, _, rfl, rfl, rfl⟩
  have hreported {result : Except RunError (List Value)} : ¬ Session.Unreported .unlimited result :=
    fun h => h.1 rfl
  have hsession : session.Reachable := .new .unlimited false
  obtain ⟨_, hruns⟩ := session_run_enclosed hsession hsource
  obtain ⟨hagree, hexists⟩ := hruns .unlimited .unlimited
  obtain ⟨result', final', hends'⟩ := (hexists _ _ hends).resolve_left hreported
  obtain ⟨hnames, hsame⟩ := hagree _ _ hends'
  obtain ⟨_, _, hends'', hsame⟩ := hsame.resolve_left hreported
  obtain ⟨rfl, rfl⟩ := hends''.unique hends
  obtain ⟨houtput, hsame⟩ := hsame.resolve_left hreported
  cases hsame
  exact ⟨⟨hsession, hsource⟩, hends, rfl, final', hends', houtput, hnames⟩

end TreeWalk
