import TreeWalk.Proofs.Prompt.Lines
import TreeWalk.Proofs.Session.History

/-!
This module contains the proof that the prompt is a session that is fed with the lines of the input,
up to the line that ends it, and that a line that is rejected leaves nothing but its mark and its
errors.
-/

namespace TreeWalk

namespace Prompt

def submissions (sources : List String) : List Submission :=
  sources.map (⟨·, .unlimited⟩)

def answers (step : Session.Step) : List String :=
  match step.run.result with
  | .ok values => values.map Value.text
  | .error _ => []

def shown (step : Session.Step) : ByteArray :=
  mark ++ step.printed ++ lines (answers step)

def join (parts : List ByteArray) : ByteArray :=
  parts.foldr (· ++ ·) .empty

/--
What the sources of a history look like on the prompt. One more mark stands for the line that ends
the prompt, or for the end of the input.
-/
def transcript (steps : List Session.Step) (ending : Ending) : Transcript where
  code := ending.code
  stdout := join (steps.map shown) ++ mark
  stderr := join (steps.map (·.run.diagnostics.written)) ++ lines ending.messages

def complaints (source : String) : List String :=
  let scanned := scan source
  if scanned.isValid then
    (parse scanned.tokens).errors.map ParseError.text
  else
    scanned.errors.map ScanError.text

variable {bound : Nat} {session final : Session} {source : String} {sources : List String}
  {ending : Ending} {given : List (List UInt8)} {steps : List Session.Step}

theorem submissions_append (sources sources' : List String) :
    submissions (sources ++ sources') = submissions sources ++ submissions sources' :=
  List.map_append

theorem lines_nil : lines [] = .empty :=
  rfl

theorem join_append (parts parts' : List ByteArray) :
    join (parts ++ parts') = join parts ++ join parts' := by
  induction parts with
  | nil => simp [join]
  | cons part parts ih =>
    simp only [join, List.cons_append, List.foldr_cons, ByteArray.append_assoc] at ih ⊢
    rw [ih]

theorem step_of_leaves (h : Leaves source) (bound : Nat) (session : Session) :
    step bound session ⟨(encode source).toArray⟩ =
      some (.stop ⟨Transcript.success, .empty, .empty⟩) := by
  rw [step, decode_encode]
  exact if_pos (strip_eq_exit_iff.2 h)

theorem step_of_notText {line : List UInt8} (h : ∀ text, encode text ≠ line) (bound : Nat)
    (session : Session) :
    step bound session ⟨line.toArray⟩ =
      some (.stop ⟨Transcript.ioError, .empty, lines (Ending.messages .notText)⟩) := by
  rw [step, decode_of_not_encode h]
  rfl

theorem step_of_not_leaves (h : ¬ Leaves source) (bound : Nat) (session : Session) :
    step bound session ⟨(encode source).toArray⟩ =
      (session.run bound source .unlimited).map fun run =>
        .next run.session.drain.2
          (run.session.drain.1 ++ lines (answers ⟨⟨source, .unlimited⟩, session, run⟩))
          run.diagnostics.written := by
  rw [step, decode_encode]
  refine (if_neg (mt strip_eq_exit_iff.1 h)).trans ?_
  cases session.run bound source .unlimited with
  | none => rfl
  | some run =>
    obtain ⟨result, session', diagnostics⟩ := run
    cases result <;> rfl

theorem transcript_append (steps steps' : List Session.Step) (ending : Ending) :
    transcript (steps ++ steps') ending =
      (transcript steps' ending).behind (join (steps.map shown))
        (join (steps.map (·.run.diagnostics.written))) := by
  simp only [transcript, Transcript.behind, List.map_append, join_append, ByteArray.append_assoc]

theorem transcript_cons (step : Session.Step) (steps : List Session.Step) (ending : Ending) :
    transcript (step :: steps) ending =
      (transcript steps ending).behind (shown step) step.run.diagnostics.written := by
  simp only [transcript, Transcript.behind, List.map_cons, join, List.foldr_cons,
    ByteArray.append_assoc]

/--
The prompt forgets what it has printed, a history keeps it. That makes no difference, as no run sees
it.
-/
theorem run_eq_history (hscript : Script given sources ending) (bound : Nat)
    (hdrained : session.machine.output.written = .empty) (printed : ByteArray) :
    run bound session (given.map (.mk ·.toArray)) =
      ((session.after printed).history bound (submissions sources)).map
        (transcript ·.1 ending) := by
  induction hscript generalizing session printed with
  | endOfInput => rfl
  | leave htext =>
    rw [List.map_cons, run, step_of_leaves htext]
    rfl
  | notText hline =>
    rw [List.map_cons, run, step_of_notText hline]
    rfl
  | @source source _ sources _ hsource _ ih =>
    rw [List.map_cons, run, step_of_not_leaves hsource, submissions, List.map_cons, Session.history,
      Session.run_after]
    cases session.run bound source .unlimited with
    | none => rfl
    | some run =>
      -- the prompt goes on with a session that is drained, and the history with the same one that
      -- has printed more
      let step : Session.Step := ⟨⟨source, .unlimited⟩, session.after printed, run.after printed⟩
      have hprinted : step.printed = run.session.drain.1 := by
        apply Session.Step.printed_eq
        show printed ++ run.session.machine.output.written =
            (printed ++ session.machine.output.written) ++ _
        rw [hdrained, ByteArray.append_empty]
        rfl
      have hsession : (run.after printed).session =
          run.session.drain.2.after (printed ++ run.session.drain.1) := by
        rw [← Session.after_after, Session.after_drain]
        rfl
      simp only [Option.map_some, Option.bind_some]
      rw [ih rfl (printed ++ run.session.drain.1), ← hsession, Option.map_map, Option.map_map]
      congr 1
      funext found
      show (transcript found.1 _).behind _ _ = transcript (step :: found.1) _
      rw [transcript_cons, shown, hprinted, ByteArray.append_assoc]
      rfl

theorem run_new_eq_history {input : List UInt8} (showTrees : Bool) (hlines : Splits input given)
    (hscript : Script given sources ending) (bound : Nat) :
    let session := Session.new .unlimited showTrees
    run bound session ((splitLines input).map (.mk ·.toArray)) =
      (session.history bound (submissions sources)).map (transcript ·.1 ending) := by
  intro session
  have hdrained : session.machine.output.written = .empty := rfl
  have hafter : session.after .empty = session := rfl
  rw [← hlines.eq_splitLines, run_eq_history hscript bound hdrained .empty, hafter]

theorem run_of_not_isAccepted (h : isAccepted source = false) (bound : Nat) (session : Session) :
    ∃ cause, session.run bound source .unlimited =
      some ⟨.error cause, session, ⟨lines (complaints source), none⟩⟩ := by
  have hempty (texts : List String) : ByteArray.empty ++ lines texts = lines texts :=
    ByteArray.empty_append
  cases hscan : (scan source).isValid with
  | false =>
    rw [Session.run_of_scan_errors hscan, Session.reject_of_unlimited _ _ rfl, complaints,
      hscan, ← hempty]
    exact ⟨_, rfl⟩
  | true =>
    have hparse : (parse (scan source).tokens).isValid = false := by
      simpa [isAccepted, hscan] using h
    rw [Session.run_of_parse_errors hscan hparse, Session.reject_of_unlimited _ _ rfl, complaints,
      hscan, ← hempty]
    exact ⟨_, rfl⟩

theorem exists_history_of_not_isAccepted (hrejected : isAccepted source = false)
    (h : session.history bound (submissions (source :: sources)) = some (steps, final)) :
    ∃ step rest, session.history bound (submissions sources) = some (rest, final) ∧
      steps = step :: rest ∧
      shown step = mark ∧ step.run.diagnostics.written = lines (complaints source) := by
  obtain ⟨cause, hrejection⟩ := run_of_not_isAccepted hrejected bound session
  obtain ⟨run, rest, hrun, hrest, rfl⟩ := Session.history_cons_iff.1 h
  cases hrejection.symm.trans hrun
  refine ⟨_, rest, hrest, rfl, ?_, rfl⟩
  rw [shown, Session.Step.printed_eq ByteArray.append_empty.symm, answers, lines_nil,
    ByteArray.append_empty, ByteArray.append_empty]

theorem exists_transcript_of_not_isAccepted {earlier later : List String} {whole : Transcript}
    (hrejected : isAccepted source = false)
    (h : (session.history bound (submissions (earlier ++ source :: later))).map
      (transcript ·.1 ending) = some whole) :
    ∃ stdout stdout' stderr stderr',
      (session.history bound (submissions earlier)).map (transcript ·.1 .endOfInput) =
        some ⟨Transcript.success, stdout ++ mark, stderr⟩ ∧
      whole = ⟨ending.code, stdout ++ mark ++ stdout',
        stderr ++ lines (complaints source) ++ stderr'⟩ ∧
      (session.history bound (submissions (earlier ++ later))).map (transcript ·.1 ending) =
        some ⟨ending.code, stdout ++ stdout', stderr ++ stderr'⟩ := by
  obtain ⟨⟨_, final⟩, hhistory, rfl⟩ := Option.map_eq_some_iff.1 h
  rw [submissions_append] at hhistory ⊢
  obtain ⟨steps, _, middle, hearlier, hrest, rfl⟩ := Session.history_append_iff.1 hhistory
  obtain ⟨step, steps', hlater, rfl, hshown, hdiagnostics⟩ :=
    exists_history_of_not_isAccepted hrejected hrest
  let printed (steps : List Session.Step) := join (steps.map shown)
  let reported (steps : List Session.Step) := join (steps.map (·.run.diagnostics.written))
  refine ⟨printed steps, printed steps' ++ mark, reported steps,
    reported steps' ++ lines ending.messages, ?_, ?_, ?_⟩
  · refine Option.map_eq_some_iff.2 ⟨(steps, middle), hearlier, ?_⟩
    show Transcript.mk _ _ (reported steps ++ lines []) = _
    rw [lines_nil, ByteArray.append_empty]
    rfl
  · show transcript (steps ++ step :: steps') ending = _
    rw [transcript_append, transcript_cons, hshown, hdiagnostics, ByteArray.append_assoc,
      ByteArray.append_assoc]
    rfl
  · have hhistory := Session.history_append_iff.2 ⟨steps, steps', middle, hearlier, hlater, rfl⟩
    exact Option.map_eq_some_iff.2 ⟨(steps ++ steps', final), hhistory,
      transcript_append steps steps' ending⟩

/--
The lines of an input up to the one that ends the prompt are the sources of a history, whose steps
make up the transcript; the runs of the sources decide neither where the prompt ends nor its code.
Without a line that is rejected the transcript lacks the mark and the errors of this line, and
nothing else.
-/
theorem feeds_session (showTrees : Bool) :
    (∀ input, ∃ lines sources ending, Splits input lines ∧ Script lines sources ending) ∧
    let session := Session.new .unlimited showTrees
    let run (bound : Nat) (input : List UInt8) :=
      Prompt.run bound session ((splitLines input).map (.mk ·.toArray))
    (∀ input lines sources ending, Splits input lines → Script lines sources ending →
      (∀ bound, run bound input =
        (session.history bound (submissions sources)).map (transcript ·.1 ending)) ∧
      (session.EachEnds (submissions sources) → ∃ bound steps final, ∀ bound', bound ≤ bound' →
        session.history bound' (submissions sources) = some (steps, final) ∧
        run bound' input = some (transcript steps ending))) ∧
    (∀ bound sources steps final, session.history bound (submissions sources) =
      some (steps, final) →
      ∀ step ∈ steps,
        step.run.session.machine.output.written =
          step.before.machine.output.written ++ step.printed) ∧
    (∀ input before source after earlier later ending,
      Splits input (before ++ encode source :: after) →
      Script before earlier .endOfInput → ¬ Leaves source → isAccepted source = false →
      Script after later ending →
      ∀ bound whole, run bound input = some whole →
        ∃ stdout stdout' stderr stderr',
          run bound before.flatten = some ⟨Transcript.success, stdout ++ mark, stderr⟩ ∧
          whole = ⟨ending.code, stdout ++ mark ++ stdout',
            stderr ++ lines (complaints source) ++ stderr'⟩ ∧
          run bound (before ++ after).flatten =
            some ⟨ending.code, stdout ++ stdout', stderr ++ stderr'⟩) := by
  constructor
  · intro input
    obtain ⟨sources, ending, hscript⟩ := exists_script (splitLines input)
    exact ⟨_, sources, ending, splits_splitLines input, hscript⟩
  intro session run
  have hrun {input lines sources ending} (hlines : Splits input lines)
      (hscript : Script lines sources ending) (bound : Nat) :
      run bound input = (session.history bound (submissions sources)).map (transcript ·.1 ending) :=
    run_new_eq_history showTrees hlines hscript bound
  refine ⟨?_, fun _ _ _ _ h _ => Session.written_of_history h, ?_⟩
  · intro input lines sources ending hlines hscript
    refine ⟨hrun hlines hscript, fun hends => ?_⟩
    obtain ⟨bound, steps, final, hhistory⟩ := Session.exists_history hends
    refine ⟨bound, steps, final, fun bound' hbound => ⟨hhistory bound' hbound, ?_⟩⟩
    rw [hrun hlines hscript, hhistory bound' hbound]
    rfl
  · intro input before source after earlier later ending hlines hbefore hleaves hrejected
      hafter bound whole hwhole
    rw [hrun hlines (hbefore.append (.source hleaves hafter))] at hwhole
    have hskip := (List.sublist_cons_self (encode source) after).append_left before
    rw [hrun (hlines.sublist (List.sublist_append_left _ _)) hbefore,
      hrun (hlines.sublist hskip) (hbefore.append hafter)]
    exact exists_transcript_of_not_isAccepted hrejected hwhole

theorem feeds_session_of_rejected_line :
    let session := Session.new .unlimited false
    let run (input : List UInt8) := Prompt.run 0 session ((splitLines input).map (.mk ·.toArray))
    let source := encode "print true;false;\n"
    let error := "[line 1, column 1] at '@': Unexpected character."
    let failure := "Failed to read line: stream did not contain valid UTF-8"
    let whole : Transcript := ⟨74, "> true\nfalse\n> > ".toUTF8, lines [error, failure]⟩
    run (source ++ encode "@\n" ++ [0xFF]) = some whole ∧
      ∃ stdout stdout' stderr stderr',
        run source = some ⟨0, stdout ++ mark, stderr⟩ ∧
        whole = ⟨74, stdout ++ mark ++ stdout', stderr ++ lines [error] ++ stderr'⟩ ∧
        run (source ++ [0xFF]) = some ⟨74, stdout ++ stdout', stderr ++ stderr'⟩ := by
  intro session run source error failure whole
  have hscan : (scan "@\n").isValid = false := by decide +kernel
  have hrejected : isAccepted "@\n" = false := by rw [isAccepted, hscan, Bool.false_and]
  have hcomplaints : complaints "@\n" = [error] := by decide +kernel
  have htokens : (scan "print true;false;\n").tokens = [⟨.printWord, "print", none, .start⟩,
      ⟨.trueWord, "true", none, ⟨1, 7⟩⟩, ⟨.semicolon, ";", none, ⟨1, 11⟩⟩,
      ⟨.falseWord, "false", none, ⟨1, 12⟩⟩, ⟨.semicolon, ";", none, ⟨1, 17⟩⟩,
      .endOfText ⟨2, 1⟩] := by
    decide +kernel
  have hparse : parse (scan "print true;false;\n").tokens =
      ⟨[.print (.literal (.boolean true)), .expr (.literal (.boolean false))], []⟩ := by
    rw [htokens]
    cbv
  have hrun : session.run 0 "print true;false;\n" .unlimited =
      some ⟨.ok [.boolean false], .new ⟨"true\n".toUTF8, none⟩ false, .unlimited⟩ := by
    rw [Session.run_of_isValid (by decide +kernel) (by rw [hparse]; rfl), hparse]
    rfl
  have hnotText : ∀ text, encode text ≠ [0xFF] := by
    intro text h
    have hdecode : decode ⟨#[0xFF]⟩ = .error .notText := by decide +kernel
    cases hdecode.symm.trans (decode_eq_ok_iff.2 h)
  have hstays {text : String} (h : Text.strip text.toList ≠ "exit".toList) : ¬ Leaves text :=
    mt strip_eq_exit_iff.2 h
  have hbefore : Script [source] ["print true;false;\n"] .endOfInput :=
    .source (hstays (by decide +kernel)) .endOfInput
  have hleaves : ¬ Leaves "@\n" := hstays (by decide +kernel)
  have hlines : Splits (source ++ encode "@\n" ++ [0xFF])
      ([source] ++ encode "@\n" :: [[0xFF]]) := by
    have hsplit : splitLines (source ++ encode "@\n" ++ [0xFF]) =
        [source, encode "@\n", [0xFF]] := by decide +kernel
    have hsplits := splits_splitLines (source ++ encode "@\n" ++ [0xFF])
    rwa [hsplit] at hsplits
  obtain ⟨_, hruns, _, hdelete⟩ := feeds_session false
  have hwhole : run (source ++ encode "@\n" ++ [0xFF]) = some whole := by
    have hlater : Script (encode "@\n" :: [[0xFF]]) ["@\n"] .notText :=
      .source hleaves (.notText hnotText)
    refine ((hruns _ _ _ _ hlines (hbefore.append hlater)).1 0).trans ?_
    let printed := Session.new ⟨"true\n".toUTF8, none⟩ false
    obtain ⟨cause, hrejection⟩ := run_of_not_isAccepted hrejected 0 printed
    rw [hcomplaints] at hrejection
    have hrest : printed.history 0 (submissions ["@\n"]) = _ :=
      Session.history_cons_iff.2 ⟨_, [], hrejection, rfl, rfl⟩
    refine Option.map_eq_some_iff.2 ⟨_, Session.history_cons_iff.2 ⟨_, _, hrun, hrest, rfl⟩, ?_⟩
    rfl
  obtain ⟨stdout, stdout', stderr, stderr', hstart, hparts, hrest⟩ :=
    hdelete _ _ _ _ _ _ _ hlines hbefore hleaves hrejected (.notText hnotText) 0 whole hwhole
  exact ⟨hwhole, stdout, stdout', stderr, stderr', hstart, hcomplaints ▸ hparts, hrest⟩

end Prompt
end TreeWalk
