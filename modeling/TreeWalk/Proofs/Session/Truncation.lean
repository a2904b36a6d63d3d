import TreeWalk.Proofs.Execution.Truncation
import TreeWalk.Proofs.Session.Running

/-!
This module contains the proof that a sink with a limit does nothing but cut a run off, at the line
that does not fit.
-/

namespace TreeWalk

variable {environment : Environment} {written : ByteArray}

theorem Machine.capped_add_room (room : Nat) :
    Machine.capped (written.size + room) ⟨environment, ⟨written, none⟩⟩ =
      ⟨environment, ⟨written, some room⟩⟩ := by
  simp only [capped, Sink.capped, Nat.add_sub_cancel_left]

theorem Stmt.interpretAll_truncates {bound : Nat} {program : List Stmt}
    {outcome : Outcome (List Value)}
    (h : interpretAll bound program ⟨environment, ⟨written, none⟩⟩ = some outcome) :
    ∃ printed, outcome.machine.output = ⟨written ++ printed, none⟩ ∧ ∀ room,
      (printed.size ≤ room → ∃ bound',
        interpretAll bound' program ⟨environment, ⟨written, some room⟩⟩ =
          some (outcome.mapMachine fun machine =>
            { machine with output := ⟨written ++ printed, some (room - printed.size)⟩ })) ∧
      (room < printed.size → ∃ path statement reached value writing,
        Reaches (.all program) ⟨environment, ⟨written, none⟩⟩ path statement reached ∧
        statement.Overflows (written.size + room) reached value writing ∧
        (writing.environment.unwind environment.depth).depth = environment.depth ∧
        ∃ bound', interpretAll bound' program ⟨environment, ⟨written, some room⟩⟩ =
          some (.error .output ⟨writing.environment.unwind environment.depth,
            ⟨written ++ printed.extract 0 room, some 0⟩⟩)) := by
  obtain ⟨printed, houtput⟩ := extends_interpretAll h rfl
  refine ⟨printed, houtput, fun room => ⟨fun hfits => ?_, fun hover => ?_⟩⟩
  · have hsize : outcome.machine.output.written.size ≤ written.size + room := by
      rw [houtput, ByteArray.size_append]
      exact Nat.add_le_add_left hfits _
    obtain ⟨bound', hcapped⟩ := interpretAll_capped h rfl hsize
    have hroom : written.size + room - outcome.machine.output.written.size =
        room - printed.size := by
      rw [houtput, ByteArray.size_append]
      exact Nat.add_sub_add_left _ _ _
    rw [Machine.capped_add_room] at hcapped
    refine ⟨bound', hcapped.trans ?_⟩
    rw [← hroom]
    cases outcome <;> simp_all [Outcome.machine, Outcome.mapMachine, Machine.capped, Sink.capped]
  · have hsize : written.size + room < outcome.machine.output.written.size := by
      rw [houtput, ByteArray.size_append]
      exact Nat.add_lt_add_left hover _
    obtain ⟨path, statement, reached, value, writing, hreaches, hoverflows, bound', hcut⟩ :=
      interpretAll_cut h rfl (Nat.le_add_right _ _) hsize
    have hprinted : outcome.machine.output.written.extract 0 (written.size + room) =
        written ++ printed.extract 0 room := by
      rw [houtput, Sink.extract_append_of_size_le (Nat.le_add_right _ _), Nat.add_sub_cancel_left]
    rw [Machine.capped_add_room, hprinted] at hcut
    have hdepth := depth_of_interpretAll hcut
    exact ⟨path, statement, reached, value, writing, hreaches, hoverflows, hdepth, bound', hcut⟩

theorem full_sink_truncates (environment : Environment) (written : ByteArray) :
    (∀ bound program outcome,
      Stmt.interpretAll bound program ⟨environment, ⟨written, none⟩⟩ = some outcome →
      ∃ printed, outcome.machine.output = ⟨written ++ printed, none⟩ ∧ ∀ room,
        (printed.size ≤ room → ∃ bound',
          Stmt.interpretAll bound' program ⟨environment, ⟨written, some room⟩⟩ =
            some (outcome.mapMachine fun machine =>
              { machine with output := ⟨written ++ printed, some (room - printed.size)⟩ })) ∧
        (room < printed.size → ∃ path statement reached value writing,
          Reaches (.all program) ⟨environment, ⟨written, none⟩⟩ path statement reached ∧
          statement.Overflows (written.size + room) reached value writing ∧
          (writing.environment.unwind environment.depth).depth = environment.depth ∧
          ∃ bound', Stmt.interpretAll bound' program ⟨environment, ⟨written, some room⟩⟩ =
            some (.error .output ⟨writing.environment.unwind environment.depth,
              ⟨written ++ printed.extract 0 room, some 0⟩⟩))) ∧
    ∀ bound source showTrees diagnostics run, diagnostics.room = none →
      Session.run bound ⟨⟨environment, ⟨written, none⟩⟩, showTrees⟩ source diagnostics = some run →
      ∃ printed, run.session.machine.output = ⟨written ++ printed, none⟩ ∧ ∀ room,
        let session : Session := ⟨⟨environment, ⟨written, some room⟩⟩, showTrees⟩
        (printed.size ≤ room → ∃ bound', session.run bound' source diagnostics =
          some ⟨run.result,
            ⟨⟨run.session.machine.environment, ⟨written ++ printed, some (room - printed.size)⟩⟩,
              showTrees⟩,
            run.diagnostics⟩) ∧
        (room < printed.size → ∃ path statement reached value writing,
          Reaches (.all (parse (scan source).tokens).statements)
            ⟨environment, ⟨written, none⟩⟩ path statement reached ∧
          statement.Overflows (written.size + room) reached value writing ∧
          (writing.environment.unwind environment.depth).depth = environment.depth ∧
          ∃ bound' diagnostics', session.run bound' source diagnostics =
            some ⟨.error (.runtime .output),
              ⟨⟨writing.environment.unwind environment.depth,
                ⟨written ++ printed.extract 0 room, some 0⟩⟩, showTrees⟩,
              diagnostics'⟩) := by
  refine ⟨fun _ _ _ => Stmt.interpretAll_truncates, ?_⟩
  intro bound source showTrees diagnostics run hroom hrun
  obtain ⟨cause, diagnostics', hrejects⟩ | ⟨diagnostics', hroom', hruns⟩ :=
    Session.rejects_or_runs source showTrees hroom
  · rw [hrejects] at hrun
    cases hrun
    refine ⟨.empty, by rw [ByteArray.append_empty], fun room =>
      ⟨fun _ => ⟨bound, ?_⟩, fun hover => ?_⟩⟩
    · rw [hrejects, ByteArray.append_empty]
      rfl
    · cases hover
  · rw [hruns, Session.runProgram_of_unlimited hroom'] at hrun
    obtain ⟨outcome, hprogram, rfl⟩ := Option.map_eq_some_iff.1 hrun
    obtain ⟨printed, houtput, hrooms⟩ := Stmt.interpretAll_truncates hprogram
    refine ⟨printed, houtput, fun room => ?_⟩
    obtain ⟨hfits, hover⟩ := hrooms room
    simp only [hruns]
    constructor
    · intro h
      obtain ⟨bound', hprogram'⟩ := hfits h
      refine ⟨bound', ?_⟩
      rw [Session.runProgram_of_unlimited hroom', hprogram']
      cases outcome <;> rfl
    · intro h
      obtain ⟨path, statement, reached, value, writing, hreaches, hoverflows, hdepth, bound',
        hprogram'⟩ := hover h
      refine ⟨path, statement, reached, value, writing, hreaches, hoverflows, hdepth, bound', ?_⟩
      exact (Session.exists_runProgram hroom' bound' _).2 ⟨_, hprogram', rfl, rfl⟩

theorem full_sink_truncates_of_block :
    let print : Stmt := .print (.literal .nil)
    let program : List Stmt := [.block [print, print]]
    let source := "print nil;"
    let line := Value.nil.line
    let machine := Machine.ofSink .unlimited
    (Stmt.interpretAll 1 program machine = some (.ok [] ⟨.empty, ⟨line ++ line, none⟩⟩) ∧
      5 < (line ++ line).size ∧
        ∃ bound environment, Stmt.interpretAll bound program ⟨.empty, .ofRoom (some 5)⟩ =
          some (.error .output ⟨environment, ⟨"nil\nn".toUTF8, some 0⟩⟩) ∧ environment.depth = 1) ∧
      Sink.unlimited.room = none ∧
      Session.run 1 ⟨machine, false⟩ source .unlimited =
        some ⟨.ok [], ⟨⟨.empty, ⟨line, none⟩⟩, false⟩, .unlimited⟩ ∧
      line.size ≤ 4 ∧
      ∃ bound, Session.run bound ⟨⟨.empty, .ofRoom (some 4)⟩, false⟩ source .unlimited =
        some ⟨.ok [], ⟨⟨.empty, ⟨line, some 0⟩⟩, false⟩, .unlimited⟩ := by
  intro print program source line machine
  have hsize : line.size = 4 := by decide +kernel
  have hover : 5 < (line ++ line).size := by rw [ByteArray.size_append]; omega
  have hcut : (line ++ line).extract 0 5 = "nil\nn".toUTF8 := by decide +kernel
  have hprogram : Stmt.interpretAll 1 program machine =
      some (.ok [] ⟨.empty, ⟨line ++ line, none⟩⟩) := by
    have hlines : ByteArray.empty ++ line ++ line = line ++ line := by rw [ByteArray.empty_append]
    rw [← hlines]
    rfl
  have htokens : (scan source).tokens =
      [⟨.printWord, "print", none, .start⟩, ⟨.nilWord, "nil", none, ⟨1, 7⟩⟩,
      ⟨.semicolon, ";", none, ⟨1, 10⟩⟩, .endOfText ⟨1, 11⟩] := by
    decide +kernel
  have hscan : (scan source).isValid = true := by decide +kernel
  have hparse : parse (scan source).tokens = ⟨[print], []⟩ := by
    rw [htokens]
    cbv
  have hvalid : (parse (scan source).tokens).isValid = true := by
    rw [hparse]
    rfl
  have hrun : Session.run 1 ⟨machine, false⟩ source .unlimited =
      some ⟨.ok [], ⟨⟨.empty, ⟨line, none⟩⟩, false⟩, .unlimited⟩ := by
    rw [Session.run_of_isValid hscan hvalid, hparse, ← @ByteArray.empty_append line]
    rfl
  obtain ⟨hprograms, hsessions⟩ := full_sink_truncates .empty .empty
  obtain ⟨printed, hprinted, hrooms⟩ := hprograms 1 program _ hprogram
  obtain ⟨printed', hprinted', hrooms'⟩ := hsessions 1 source false .unlimited _ rfl hrun
  rw [ByteArray.empty_append] at hprinted hprinted'
  cases hprinted
  cases hprinted'
  obtain ⟨_, _, _, _, writing, _, _, hdepth, bound, hfull⟩ := (hrooms 5).2 hover
  obtain ⟨bound', hfits⟩ := (hrooms' 4).1 (Nat.le_of_eq hsize)
  rw [ByteArray.empty_append, hcut] at hfull
  rw [ByteArray.empty_append, hsize] at hfits
  exact ⟨⟨hprogram, hover, bound, _, hfull, hdepth⟩, rfl, hrun, Nat.le_of_eq hsize, bound', hfits⟩

end TreeWalk
