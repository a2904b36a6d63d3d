import TreeWalk.Proofs.Session.Running

/-!
This module contains the sources that a session rejects. They have no effect but on the diagnostics,
so a session goes on as if they had never been given to it.
-/

namespace TreeWalk

structure Submission where
  source : String
  diagnostics : Sink

def Submission.isRejected (showTrees : Bool) (submission : Submission) : Bool :=
  let scanned := scan submission.source
  let parsed := parse scanned.tokens
  !scanned.isValid || !parsed.isValid ||
    showTrees && !(submission.diagnostics.writeLines (parsed.statements.map Stmt.dump)).1

namespace Session

variable {bound : Nat} {session : Session} {source : String} {diagnostics : Sink}

theorem exists_reject (session : Session) (errors : List String) (cause : RunError)
    (diagnostics : Sink) :
    ∃ cause' diagnostics', session.reject errors cause diagnostics =
      ⟨.error cause', session, diagnostics'⟩ := by
  unfold reject
  split
  · next diagnostics' _ => exact ⟨cause, diagnostics', rfl⟩
  · next diagnostics' _ => exact ⟨.diagnostics, diagnostics', rfl⟩

theorem run_of_isRejected (bound : Nat)
    (h : Submission.isRejected session.showTrees ⟨source, diagnostics⟩ = true) :
    ∃ cause diagnostics', session.run bound source diagnostics =
      some ⟨.error cause, session, diagnostics'⟩ := by
  simp only [Submission.isRejected] at h
  cases hscan : (scan source).isValid with
  | false =>
    rw [run_of_scan_errors hscan]
    obtain ⟨cause, diagnostics', hreject⟩ := exists_reject session _ _ _
    exact ⟨cause, diagnostics', congrArg some hreject⟩
  | true =>
    cases hparse : (parse (scan source).tokens).isValid with
    | false =>
      rw [run_of_parse_errors hscan hparse]
      obtain ⟨cause, diagnostics', hreject⟩ := exists_reject session _ _ _
      exact ⟨cause, diagnostics', congrArg some hreject⟩
    | true =>
      obtain ⟨hshow, hwrite⟩ : session.showTrees = true ∧
          (diagnostics.writeLines ((parse (scan source).tokens).statements.map Stmt.dump)).1 =
            false := by
        simpa [hscan, hparse] using h
      rw [run_of_isValid hscan hparse, if_pos hshow]
      generalize diagnostics.writeLines _ = shown at hwrite
      obtain ⟨_, diagnostics'⟩ := shown
      cases hwrite
      exact ⟨.diagnostics, diagnostics', rfl⟩

theorem showTrees_of_run {run : Run} (h : session.run bound source diagnostics = some run) :
    run.session.showTrees = session.showTrees := by
  simp only [Session.run] at h
  split at h
  · cases h
    rw [session_reject]
  · split at h
    · cases h
      rw [session_reject]
    · split at h
      · simp only [runProgram] at h
        split at h
        · cases h
        · cases h
          rfl
        · cases h
          rw [session_reject]
      · cases h
        rfl

structure Step where
  submission : Submission
  before : Session
  run : Run

def history (bound : Nat) (session : Session) : List Submission → Option (List Step × Session)
  | [] => some ([], session)
  | submission :: submissions =>
    (session.run bound submission.source submission.diagnostics).bind fun run =>
      (run.session.history bound submissions).map fun (steps, final) =>
        (⟨submission, session, run⟩ :: steps, final)

theorem history_filter (bound : Nat) (session : Session) (submissions : List Submission) :
    session.history bound (submissions.filter (! ·.isRejected session.showTrees)) =
      (session.history bound submissions).map fun (steps, final) =>
        (steps.filter (! ·.submission.isRejected session.showTrees), final) := by
  induction submissions generalizing session with
  | nil => rfl
  | cons submission submissions ih =>
    cases hrejected : submission.isRejected session.showTrees with
    | true =>
      obtain ⟨cause, diagnostics, hrun⟩ := run_of_isRejected bound hrejected
      have hskip : (submission :: submissions).filter (! ·.isRejected session.showTrees) =
          submissions.filter (! ·.isRejected session.showTrees) := by
        simp [hrejected]
      rw [hskip, ih, history, hrun]
      simp only [Option.bind_some, Option.map_map]
      congr 1
      funext ⟨steps, final⟩
      simp [hrejected]
    | false =>
      have hkeep : (submission :: submissions).filter (! ·.isRejected session.showTrees) =
          submission :: submissions.filter (! ·.isRejected session.showTrees) := by
        simp [hrejected]
      rw [hkeep, history, history]
      cases hrun : session.run bound submission.source submission.diagnostics with
      | none => rfl
      | some run =>
        have hshow := showTrees_of_run hrun
        simp only [Option.bind_some, ← hshow, ih, Option.map_map]
        congr 1
        funext ⟨steps, final⟩
        simp [hshow, hrejected]

end Session

/--
A rejected source leaves the session as it was. So the history of a session without its rejected
sources is its history with the steps of these left out. A sink that never fails gets all errors of
the scan, or else all syntax errors.
-/
theorem rejected_source_has_no_effect (bound : Nat) :
    (∀ (session : Session) (source : String) (diagnostics : Sink),
      Submission.isRejected session.showTrees ⟨source, diagnostics⟩ = true →
        ∃ cause diagnostics', session.run bound source diagnostics =
          some ⟨.error cause, session, diagnostics'⟩) ∧
    (∀ (session : Session) (submissions : List Submission),
      session.history bound (submissions.filter (! ·.isRejected session.showTrees)) =
        (session.history bound submissions).map fun (steps, final) =>
          (steps.filter (! ·.submission.isRejected session.showTrees), final)) ∧
    ∀ (session : Session) (source : String) (written : ByteArray),
      let scanErrors := (scan source).errors
      let parseErrors := (parse (scan source).tokens).errors
      let report (texts : List String) : Sink :=
        ⟨written ++ (String.join (texts.map (· ++ "\n"))).toUTF8, none⟩
      (scanErrors ≠ [] → session.run bound source ⟨written, none⟩ =
        some ⟨.error (.scan scanErrors.length), session, report (scanErrors.map ScanError.text)⟩) ∧
      (scanErrors = [] → parseErrors ≠ [] → session.run bound source ⟨written, none⟩ =
        some ⟨.error (.parse parseErrors.length), session,
          report (parseErrors.map ParseError.text)⟩) := by
  refine ⟨fun _ _ _ => Session.run_of_isRejected bound,
    fun _ _ => Session.history_filter bound _ _, ?_⟩
  intro session source written scanErrors parseErrors report
  constructor
  · intro hscan
    have hinvalid : (scan source).isValid = false := by simpa [Scanned.isValid] using hscan
    rw [Session.run_of_scan_errors hinvalid, Session.reject_of_unlimited _ _ rfl]
  · intro hscan hparse
    have hvalid : (scan source).isValid = true := by simpa [Scanned.isValid] using hscan
    have hinvalid : (parse (scan source).tokens).isValid = false := by
      simpa [Parsed.isValid] using hparse
    rw [Session.run_of_parse_errors hvalid hinvalid, Session.reject_of_unlimited _ _ rfl]

theorem rejected_source_has_no_effect_of_full_sink :
    let session := Session.new .unlimited true
    let diagnostics := Sink.ofRoom (some 3)
    let submissions : List Submission := [⟨"@", diagnostics⟩, ⟨"", .unlimited⟩]
    Submission.isRejected session.showTrees ⟨"@", diagnostics⟩ = true ∧
      (∃ cause diagnostics', session.run 1 "@" diagnostics =
        some ⟨.error cause, session, diagnostics'⟩) ∧
      (session.history 1 submissions).map (fun (steps, final) =>
          (steps.filter (! ·.submission.isRejected session.showTrees), final)) =
        some ([⟨⟨"", .unlimited⟩, session, ⟨.ok [], session, .unlimited⟩⟩], session) ∧
      (scan "@").errors ≠ [] ∧
      (session.run 1 "@" .unlimited).map Run.result = some (.error (.scan 1)) := by
  intro session diagnostics submissions
  have hrejected : Submission.isRejected session.showTrees ⟨"@", diagnostics⟩ = true := by
    decide +kernel
  have hcount : (scan "@").errors.length = 1 := by decide +kernel
  have herrors : (scan "@").errors ≠ [] := List.ne_nil_of_length_eq_add_one hcount
  have hscan : (scan "").isValid = true := by decide +kernel
  have htokens : (scan "").tokens = [.endOfText .start] := by decide +kernel
  have hparse : parse (scan "").tokens = ⟨[], []⟩ := by
    rw [htokens]
    cbv
  have hvalid : (parse (scan "").tokens).isValid = true := by rw [hparse]; rfl
  have haccepted : Submission.isRejected session.showTrees ⟨"", .unlimited⟩ = false := by
    simp only [Submission.isRejected, hscan, hparse]
    rfl
  have hempty : session.run 1 "" .unlimited = some ⟨.ok [], session, .unlimited⟩ := by
    rw [Session.run_of_isValid hscan hvalid, hparse]
    rfl
  have hkept : submissions.filter (! ·.isRejected session.showTrees) = [⟨"", .unlimited⟩] := by
    simp [submissions, hrejected, haccepted]
  obtain ⟨hrun, hhistory, hreport⟩ := rejected_source_has_no_effect 1
  refine ⟨hrejected, hrun session "@" diagnostics hrejected, ?_, herrors, ?_⟩
  · rw [← hhistory session submissions, hkept, Session.history, hempty]
    rfl
  · have hreported : session.run 1 "@" .unlimited = _ := (hreport session "@" .empty).1 herrors
    rw [hreported, Option.map_some, hcount]

end TreeWalk
