import TreeWalk.Proofs.Execution.Program
import TreeWalk.Proofs.Execution.Reaches

/-!
This module contains the runs that write to a sink with a limit. As long as everything fits they go
side by side with the run on a sink without one, and the first line that does not fit ends them.
-/

namespace TreeWalk

def Value.line (value : Value) : ByteArray :=
  (value.text ++ "\n").toUTF8

namespace Sink

def Extends (before after : Sink) : Prop :=
  before.room = none → ∃ bytes, after = ⟨before.written ++ bytes, none⟩

variable {before between after : Sink} {limit : Nat}

theorem Extends.refl (sink : Sink) : sink.Extends sink := by
  obtain ⟨written, room⟩ := sink
  rintro ⟨⟩
  exact ⟨.empty, by rw [ByteArray.append_empty]⟩

theorem Extends.trans (h : before.Extends between) (h' : between.Extends after) :
    before.Extends after := by
  intro hroom
  obtain ⟨bytes, rfl⟩ := h hroom
  obtain ⟨bytes', rfl⟩ := h' rfl
  exact ⟨bytes ++ bytes', by rw [ByteArray.append_assoc]⟩

theorem Extends.of_eq (h : after = before) : before.Extends after :=
  h ▸ .refl after

theorem Extends.room_eq_none (h : before.Extends after) (hroom : before.room = none) :
    after.room = none := by
  obtain ⟨bytes, rfl⟩ := h hroom
  rfl

theorem Extends.size_le (h : before.Extends after) (hroom : before.room = none) :
    before.written.size ≤ after.written.size := by
  obtain ⟨bytes, rfl⟩ := h hroom
  rw [ByteArray.size_append]
  exact Nat.le_add_right _ _

def capped (limit : Nat) (sink : Sink) : Sink :=
  ⟨sink.written, some (limit - sink.written.size)⟩

theorem extract_append_of_size_le {written bytes : ByteArray} (h : written.size ≤ limit) :
    (written ++ bytes).extract 0 limit = written ++ bytes.extract 0 (limit - written.size) := by
  have hwritten := @ByteArray.extract_zero_max_size written limit
  rw [Nat.max_eq_left h] at hwritten
  rw [ByteArray.extract_append, hwritten, Nat.zero_sub]

theorem writeLine_capped {sink : Sink} {line : String}
    (hfits : (sink.written ++ (line ++ "\n").toUTF8).size ≤ limit) :
    (sink.capped limit).writeLine line =
      (true, Sink.capped limit ⟨sink.written ++ (line ++ "\n").toUTF8, none⟩) := by
  rw [ByteArray.size_append] at hfits
  have hsize : limit - (sink.written.size + (line ++ "\n").toUTF8.size) =
      limit - sink.written.size - (line ++ "\n").toUTF8.size := by
    omega
  rw [writeLine, capped, write, if_pos (by omega), capped, ByteArray.size_append, hsize]

theorem writeLine_capped_of_lt {sink : Sink} {line : String} (hfits : sink.written.size ≤ limit)
    (hover : limit < (sink.written ++ (line ++ "\n").toUTF8).size) :
    (sink.capped limit).writeLine line =
      (false, ⟨(sink.written ++ (line ++ "\n").toUTF8).extract 0 limit, some 0⟩) := by
  rw [ByteArray.size_append] at hover
  rw [writeLine, capped, write, if_neg (by omega), extract_append_of_size_le hfits]

end Sink

namespace Machine

variable {machine machine' : Machine} {expr : Expr} {value : Value} {limit : Nat}

def capped (limit : Nat) (machine : Machine) : Machine :=
  { machine with output := machine.output.capped limit }

theorem output_of_value (h : machine.evaluate expr = .ok value machine') :
    machine'.output = machine.output := by
  have houtput := output_evaluate machine expr
  rw [h] at houtput
  exact houtput

theorem output_of_fault {cause : RuntimeError} (h : machine.evaluate expr = .error cause machine') :
    machine'.output = machine.output := by
  have houtput := output_evaluate machine expr
  rw [h] at houtput
  exact houtput

theorem evaluate_capped (limit : Nat) (machine : Machine) (expr : Expr) :
    (machine.capped limit).evaluate expr = (machine.evaluate expr).mapMachine (capped limit) := by
  obtain ⟨environment, output⟩ := machine
  cases hresult : expr.eval environment <;> simp [evaluate, capped, hresult, Outcome.mapMachine]

theorem value_capped (limit : Nat) (h : machine.evaluate expr = .ok value machine') :
    (machine.capped limit).evaluate expr = .ok value (machine'.capped limit) := by
  rw [evaluate_capped, h]
  rfl

theorem fault_capped {cause : RuntimeError} (limit : Nat)
    (h : machine.evaluate expr = .error cause machine') :
    (machine.capped limit).evaluate expr = .error cause (machine'.capped limit) := by
  rw [evaluate_capped, h]
  rfl

theorem print_of_unlimited (hroom : machine.output.room = none) (value : Value) :
    machine.print value =
      .ok (.normal none) ⟨machine.environment, ⟨machine.output.written ++ value.line, none⟩⟩ := by
  obtain ⟨environment, written, room⟩ := machine
  cases hroom
  rfl

theorem extends_print (machine : Machine) (value : Value) :
    machine.output.Extends (machine.print value).machine.output := by
  intro hroom
  rw [print_of_unlimited hroom]
  exact ⟨value.line, rfl⟩

theorem print_capped (hroom : machine.output.room = none)
    (hfits : (machine.print value).machine.output.written.size ≤ limit) :
    (machine.capped limit).print value = (machine.print value).mapMachine (capped limit) := by
  rw [print_of_unlimited hroom] at hfits ⊢
  simp only [print, capped, Sink.writeLine_capped hfits]
  rfl

theorem print_capped_of_lt (hfits : machine.output.written.size ≤ limit)
    (hover : limit < (machine.output.written ++ value.line).size) :
    (machine.capped limit).print value =
      .error .output ⟨machine.environment,
        ⟨(machine.output.written ++ value.line).extract 0 limit, some 0⟩⟩ := by
  simp only [print, capped, Sink.writeLine_capped_of_lt hfits hover]
  rfl

end Machine

section

variable {task : Task} {machine : Machine} {limit : Nat}

theorem Runs.extends_output {outcome : Outcome Completion} (h : Runs task machine outcome) :
    machine.output.Extends outcome.machine.output := by
  induction h with
  | fault _ hfault | loopFault hfault => exact .of_eq (Machine.output_of_fault hfault)
  | print hvalue =>
    exact .trans (.of_eq (Machine.output_of_value hvalue)) (Machine.extends_print _ _)
  | expr hvalue | define hvalue | ifFalse hvalue | loopDone hvalue =>
    have houtput := Machine.output_of_value hvalue
    exact .of_eq houtput
  | declare | breakLoop | nil => exact .refl _
  | block _ ih =>
    rw [Outcome.machine_mapMachine]
    exact ih
  | ifTrue hvalue _ _ ih | ifElseTrue hvalue _ _ ih | ifElseFalse hvalue _ _ ih
  | loopBreak hvalue _ _ ih
  | loopStop hvalue _ _ ih =>
    exact .trans (.of_eq (Machine.output_of_value hvalue)) ih
  | whileLoop _ ih | stop _ _ ih => exact ih
  | next _ _ ih ih' => exact ih.trans ih'
  | loopRound hvalue _ _ _ ih ih' =>
    exact .trans (.of_eq (Machine.output_of_value hvalue)) (ih.trans ih')

theorem Reaches.extends_output {path : Path} {statement : Stmt} {reached : Machine}
    (h : Reaches task machine path statement reached) : machine.output.Extends reached.output := by
  induction h with
  | start => exact .refl _
  | ifTrue hvalue _ _ ih | ifElseTrue hvalue _ _ ih | ifElseFalse hvalue _ _ ih
  | round hvalue _ _ ih =>
    exact .trans (.of_eq (Machine.output_of_value hvalue)) ih
  | block _ ih | whileLoop _ ih | first _ ih => exact ih
  | later hmember _ ih => exact hmember.extends_output.trans ih
  | rounds hvalue _ hbody _ ih =>
    exact .trans (.of_eq (Machine.output_of_value hvalue)) (hbody.extends_output.trans ih)

theorem Runs.capped {outcome : Outcome Completion} (h : Runs task machine outcome)
    (hroom : machine.output.room = none) (hfits : outcome.machine.output.written.size ≤ limit) :
    Runs task (machine.capped limit) (outcome.mapMachine (Machine.capped limit)) := by
  induction h with
  | fault hsubject hfault => exact .fault hsubject (Machine.fault_capped limit hfault)
  | print hvalue =>
    rw [← Machine.output_of_value hvalue] at hroom
    rw [← Machine.print_capped hroom hfits]
    exact .print (Machine.value_capped limit hvalue)
  | expr hvalue => exact .expr (Machine.value_capped limit hvalue)
  | declare => exact .declare
  | define hvalue => exact .define (Machine.value_capped limit hvalue)
  | @block body machine outcome _ ih =>
    rw [Outcome.machine_mapMachine] at hfits
    have hbody : Runs (.all body) (machine.capped limit).openBlock _ := ih hroom hfits
    cases outcome <;> exact .block hbody
  | ifTrue hvalue htrue _ ih =>
    rw [← Machine.output_of_value hvalue] at hroom
    exact .ifTrue (Machine.value_capped limit hvalue) htrue (ih hroom hfits)
  | ifFalse hvalue hfalse => exact .ifFalse (Machine.value_capped limit hvalue) hfalse
  | ifElseTrue hvalue htrue _ ih =>
    rw [← Machine.output_of_value hvalue] at hroom
    exact .ifElseTrue (Machine.value_capped limit hvalue) htrue (ih hroom hfits)
  | ifElseFalse hvalue hfalse _ ih =>
    rw [← Machine.output_of_value hvalue] at hroom
    exact .ifElseFalse (Machine.value_capped limit hvalue) hfalse (ih hroom hfits)
  | whileLoop _ ih => exact .whileLoop (ih hroom hfits)
  | breakLoop => exact .breakLoop
  | nil => exact .nil
  | next hstatement hstatements ih ih' =>
    have hroom' := hstatement.extends_output.room_eq_none hroom
    have hfits' := Nat.le_trans (hstatements.extends_output.size_le hroom') hfits
    exact .next (ih hroom hfits') (ih' hroom' hfits)
  | @stop _ _ _ outcome _ hstop ih =>
    apply Runs.stop (ih hroom hfits)
    intro value machine' heq
    cases outcome with
    | ok =>
      cases heq
      exact hstop _ _ rfl
    | error => cases heq
  | loopFault hfault => exact .loopFault (Machine.fault_capped limit hfault)
  | loopDone hvalue hfalse => exact .loopDone (Machine.value_capped limit hvalue) hfalse
  | loopRound hvalue htrue hbody hloop ih ih' =>
    rw [← Machine.output_of_value hvalue] at hroom
    have hroom' := hbody.extends_output.room_eq_none hroom
    have hfits' := Nat.le_trans (hloop.extends_output.size_le hroom') hfits
    exact .loopRound (Machine.value_capped limit hvalue) htrue (ih hroom hfits') (ih' hroom' hfits)
  | loopBreak hvalue htrue _ ih =>
    rw [← Machine.output_of_value hvalue] at hroom
    exact .loopBreak (Machine.value_capped limit hvalue) htrue (ih hroom hfits)
  | loopStop hvalue htrue _ ih =>
    rw [← Machine.output_of_value hvalue] at hroom
    exact .loopStop (Machine.value_capped limit hvalue) htrue (ih hroom hfits)

theorem Reaches.capped {path : Path} {statement : Stmt} {reached : Machine}
    (h : Reaches task machine path statement reached) (hroom : machine.output.room = none)
    (hfits : reached.output.written.size ≤ limit) :
    Reaches task (machine.capped limit) path statement (reached.capped limit) := by
  induction h with
  | start => exact .start
  | block _ ih => exact .block (ih hroom hfits)
  | ifTrue hvalue htrue _ ih =>
    rw [← Machine.output_of_value hvalue] at hroom
    exact .ifTrue (Machine.value_capped limit hvalue) htrue (ih hroom hfits)
  | ifElseTrue hvalue htrue _ ih =>
    rw [← Machine.output_of_value hvalue] at hroom
    exact .ifElseTrue (Machine.value_capped limit hvalue) htrue (ih hroom hfits)
  | ifElseFalse hvalue hfalse _ ih =>
    rw [← Machine.output_of_value hvalue] at hroom
    exact .ifElseFalse (Machine.value_capped limit hvalue) hfalse (ih hroom hfits)
  | whileLoop _ ih => exact .whileLoop (ih hroom hfits)
  | first _ ih => exact .first (ih hroom hfits)
  | later hmember h ih =>
    have hroom' := hmember.extends_output.room_eq_none hroom
    have hfits' := Nat.le_trans (h.extends_output.size_le hroom') hfits
    exact .later (hmember.capped hroom hfits') (ih hroom' hfits)
  | round hvalue htrue _ ih =>
    rw [← Machine.output_of_value hvalue] at hroom
    exact .round (Machine.value_capped limit hvalue) htrue (ih hroom hfits)
  | rounds hvalue htrue hbody h ih =>
    rw [← Machine.output_of_value hvalue] at hroom
    have hroom' := hbody.extends_output.room_eq_none hroom
    have hfits' := Nat.le_trans (h.extends_output.size_le hroom') hfits
    exact .rounds (Machine.value_capped limit hvalue) htrue (hbody.capped hroom hfits')
      (ih hroom' hfits)

end

structure Stmt.Overflows (limit : Nat) (statement : Stmt) (reached : Machine) (value : Value)
    (writing : Machine) :
    Prop where
  prints : ∃ subject, statement = .print subject ∧ reached.evaluate subject = .ok value writing
  fits : writing.output.written.size ≤ limit
  exceeds : limit < (writing.output.written ++ value.line).size

def Task.Overflows (limit : Nat) (task : Task) (machine : Machine) (final : Sink) : Prop :=
  ∃ path statement reached value writing, Reaches task machine path statement reached ∧
    statement.Overflows limit reached value writing ∧
    Sink.Extends ⟨writing.output.written ++ value.line, none⟩ final

namespace Task.Overflows

variable {limit : Nat} {task task' : Task} {machine machine' : Machine} {final final' : Sink}

theorem imp (h : task.Overflows limit machine final)
    (hreaches : ∀ {path statement reached}, Reaches task machine path statement reached →
      ∃ path', Reaches task' machine' path' statement reached) :
        task'.Overflows limit machine' final := by
  obtain ⟨path, statement, reached, value, writing, hpath, hline⟩ := h
  obtain ⟨path', hpath'⟩ := hreaches hpath
  exact ⟨path', statement, reached, value, writing, hpath', hline⟩

theorem trans (h : task.Overflows limit machine final) (hfinal : final.Extends final') :
    task.Overflows limit machine final' := by
  obtain ⟨path, statement, reached, value, writing, hpath, hoverflows, hline⟩ := h
  exact ⟨path, statement, reached, value, writing, hpath, hoverflows, hline.trans hfinal⟩

end Task.Overflows

section

variable {task : Task} {machine : Machine} {limit : Nat} {outcome : Outcome Completion}

theorem Runs.overflows (h : Runs task machine outcome) (hroom : machine.output.room = none)
    (hfits : machine.output.written.size ≤ limit)
    (hover : limit < outcome.machine.output.written.size) :
    task.Overflows limit machine outcome.machine.output := by
  have hsame {before after : Machine} (houtput : after.output = before.output)
      (hfits : before.output.written.size ≤ limit) : ¬ limit < after.output.written.size := by
    rw [houtput]
    exact Nat.not_lt.2 hfits
  induction h with
  | fault _ hfault | loopFault hfault =>
    exact absurd hover (hsame (Machine.output_of_fault hfault) hfits)
  | expr hvalue | ifFalse hvalue | loopDone hvalue | define hvalue =>
    have houtput := Machine.output_of_value hvalue
    exact absurd hover (hsame houtput hfits)
  | declare | breakLoop | nil => exact absurd hover (hsame rfl hfits)
  | @print subject value machine writing hvalue =>
    rw [← Machine.output_of_value hvalue] at hroom hfits
    rw [Machine.print_of_unlimited hroom] at hover ⊢
    exact ⟨[], _, machine, value, writing, .start, ⟨⟨subject, rfl, hvalue⟩, hfits, hover⟩, .refl _⟩
  | block _ ih =>
    rw [Outcome.machine_mapMachine] at hover ⊢
    exact (ih hroom hfits hover).imp fun h => ⟨_, .block h⟩
  | ifTrue hvalue htrue _ ih =>
    rw [← Machine.output_of_value hvalue] at hroom hfits
    exact (ih hroom hfits hover).imp fun h => ⟨_, .ifTrue hvalue htrue h⟩
  | ifElseTrue hvalue htrue _ ih =>
    rw [← Machine.output_of_value hvalue] at hroom hfits
    exact (ih hroom hfits hover).imp fun h => ⟨_, .ifElseTrue hvalue htrue h⟩
  | ifElseFalse hvalue hfalse _ ih =>
    rw [← Machine.output_of_value hvalue] at hroom hfits
    exact (ih hroom hfits hover).imp fun h => ⟨_, .ifElseFalse hvalue hfalse h⟩
  | whileLoop _ ih => exact (ih hroom hfits hover).imp fun h => ⟨_, .whileLoop h⟩
  | @next _ _ _ _ machine' _ hstatement hstatements ih ih' =>
    -- the first statement has the line if what it leaves is too much already
    by_cases hfits' : machine'.output.written.size ≤ limit
    · apply (ih' (hstatement.extends_output.room_eq_none hroom) hfits' hover).imp
      intro path statement reached h
      cases h with
      | first h => exact ⟨_, .later hstatement (.first h)⟩
      | later hmember h => exact ⟨_, .later hstatement (.later hmember h)⟩
    · have hfirst := ih hroom hfits (Nat.lt_of_not_le hfits')
      exact (hfirst.trans hstatements.extends_output).imp fun h => ⟨_, .first h⟩
  | stop _ _ ih => exact (ih hroom hfits hover).imp fun h => ⟨_, .first h⟩
  | @loopRound _ _ _ _ _ _ _ machine' _ hvalue htrue hbody hloop ih ih' =>
    rw [← Machine.output_of_value hvalue] at hroom hfits
    by_cases hfits' : machine'.output.written.size ≤ limit
    · have hrest := ih' (hbody.extends_output.room_eq_none hroom) hfits' hover
      exact hrest.imp fun h => ⟨_, .rounds hvalue htrue hbody h⟩
    · have hround := ih hroom hfits (Nat.lt_of_not_le hfits')
      exact (hround.trans hloop.extends_output).imp fun h => ⟨_, .round hvalue htrue h⟩
  | loopBreak hvalue htrue _ ih | loopStop hvalue htrue _ ih =>
    rw [← Machine.output_of_value hvalue] at hroom hfits
    exact (ih hroom hfits hover).imp fun h => ⟨_, .round hvalue htrue h⟩

theorem Runs.cut (h : Runs task machine outcome) (hroom : machine.output.room = none)
    (hfits : machine.output.written.size ≤ limit)
    (hover : limit < outcome.machine.output.written.size) :
    ∃ path statement reached value writing, Reaches task machine path statement reached ∧
      statement.Overflows limit reached value writing ∧
      Runs task (machine.capped limit)
        (.error .output ⟨writing.environment.unwind machine.environment.depth,
        ⟨outcome.machine.output.written.extract 0 limit, some 0⟩⟩) := by
  obtain ⟨path, statement, reached, value, writing, hreaches, hoverflows, hline⟩ :=
    h.overflows hroom hfits hover
  refine ⟨path, statement, reached, value, writing, hreaches, hoverflows, ?_⟩
  obtain ⟨⟨subject, rfl, hvalue⟩, hfits', hexceeds⟩ := hoverflows
  have hcut : outcome.machine.output.written.extract 0 limit =
      (writing.output.written ++ value.line).extract 0 limit := by
    obtain ⟨bytes, hfinal⟩ := hline rfl
    rw [hfinal, ByteArray.extract_append, Nat.sub_eq_zero_of_le (Nat.le_of_lt hexceeds),
      Nat.zero_sub, ByteArray.extract_same, ByteArray.append_empty]
  have hprint := Runs.print (Machine.value_capped limit hvalue)
  rw [Machine.print_capped_of_lt hfits' hexceeds, ← hcut] at hprint
  rw [Machine.output_of_value hvalue] at hfits'
  exact (hreaches.capped hroom hfits').runs hprint trivial

end

theorem Outcome.atTopLevel_mapMachine (f : Machine → Machine) (outcome : Outcome Completion) :
    (outcome.mapMachine f).atTopLevel = outcome.atTopLevel.mapMachine f := by
  cases outcome with
  | ok completion => cases completion <;> rfl
  | error => rfl

theorem Outcome.machine_eq_of_ending {α β : Type} {outcome : Outcome α} {outcome' : Outcome β}
    (h : outcome.ending = outcome'.ending) : outcome.machine = outcome'.machine := by
  have hmachine := congrArg Prod.snd h
  cases outcome <;> cases outcome' <;> exact hmachine

namespace Stmt

variable {bound limit : Nat} {statement : Stmt} {program : List Stmt} {machine : Machine}

theorem extends_interpret {outcome : Outcome (Option Value)}
    (h : statement.interpret bound machine = some outcome) :
    machine.output.Extends outcome.machine.output := by
  obtain ⟨completion, hexec, rfl⟩ := Option.map_eq_some_iff.1 h
  rw [Outcome.machine_atTopLevel]
  exact (runs_of_exec statement hexec).extends_output

theorem extends_interpretAll {outcome : Outcome (List Value)}
    (h : interpretAll bound program machine = some outcome) :
    machine.output.Extends outcome.machine.output := by
  obtain ⟨completion, hruns, hending⟩ := Runs.of_interpretAll h
  rw [← Outcome.machine_eq_of_ending hending, Outcome.machine_atTopLevel]
  exact hruns.extends_output

theorem interpret_capped {outcome : Outcome (Option Value)}
    (h : statement.interpret bound machine = some outcome) (hroom : machine.output.room = none)
    (hfits : outcome.machine.output.written.size ≤ limit) :
    ∃ bound', statement.interpret bound' (machine.capped limit) =
      some (outcome.mapMachine (Machine.capped limit)) := by
  obtain ⟨completion, hexec, rfl⟩ := Option.map_eq_some_iff.1 h
  rw [Outcome.machine_atTopLevel] at hfits
  rw [← Outcome.atTopLevel_mapMachine]
  exact interpret_of_runs ((runs_of_exec statement hexec).capped hroom hfits)

theorem interpretAll_capped {outcome : Outcome (List Value)}
    (h : interpretAll bound program machine = some outcome) (hroom : machine.output.room = none)
    (hfits : outcome.machine.output.written.size ≤ limit) :
    ∃ bound', interpretAll bound' program (machine.capped limit) =
      some (outcome.mapMachine (Machine.capped limit)) := by
  induction program generalizing machine outcome with
  | nil =>
    cases h
    exact ⟨0, rfl⟩
  | cons statement program ih =>
    unfold interpretAll at h
    split at h
    · cases h
    · next cause machine' hstatement =>
      cases h
      obtain ⟨bound', hstatement⟩ := interpret_capped hstatement hroom hfits
      refine ⟨bound', ?_⟩
      rw [interpretAll, hstatement]
      rfl
    · next value machine' hstatement =>
      have hroom' : machine'.output.room = none := (extends_interpret hstatement).room_eq_none hroom
      obtain ⟨rest, hprogram, hmachine⟩ : ∃ rest, interpretAll bound program machine' = some rest ∧
          outcome.machine = rest.machine := by
        split at h
        · next hprogram =>
          cases h
          exact ⟨_, hprogram, rfl⟩
        · exact ⟨outcome, h, rfl⟩
      rw [hprogram] at h
      rw [hmachine] at hfits
      have hfits' := Nat.le_trans ((extends_interpretAll hprogram).size_le hroom') hfits
      obtain ⟨bound', hstatement'⟩ := interpret_capped hstatement hroom hfits'
      obtain ⟨bound'', hprogram'⟩ := ih hprogram hroom' hfits
      refine ⟨max bound' bound'', ?_⟩
      rw [interpretAll, interpret_mono (Nat.le_max_left bound' bound'') hstatement']
      simp only [Outcome.mapMachine, interpretAll_mono (Nat.le_max_right bound' bound'') hprogram']
      cases rest <;> cases h <;> rfl

theorem interpretAll_cut {outcome : Outcome (List Value)}
    (h : interpretAll bound program machine = some outcome) (hroom : machine.output.room = none)
    (hfits : machine.output.written.size ≤ limit)
    (hover : limit < outcome.machine.output.written.size) :
    ∃ path statement reached value writing, Reaches (.all program) machine path statement reached ∧
      statement.Overflows limit reached value writing ∧
      ∃ bound', interpretAll bound' program (machine.capped limit) = some (.error .output
        ⟨writing.environment.unwind machine.environment.depth,
          ⟨outcome.machine.output.written.extract 0 limit, some 0⟩⟩) := by
  obtain ⟨completion, hruns, hending⟩ := Runs.of_interpretAll h
  have hmachine := Outcome.machine_eq_of_ending hending
  rw [Outcome.machine_atTopLevel] at hmachine
  rw [← hmachine] at hover ⊢
  obtain ⟨path, statement, reached, value, writing, hreaches, hoverflows, hcut⟩ :=
    hruns.cut hroom hfits hover
  have hcause : ∀ keyword, RuntimeError.output ≠ .evaluation ⟨keyword, .strayBreak⟩ := nofun
  exact ⟨path, statement, reached, value, writing, hreaches, hoverflows,
    (exists_interpretAll_error_iff hcause).2 hcut⟩

end Stmt
end TreeWalk
