import TreeWalk.Proofs.Execution.Causes
import TreeWalk.Proofs.Execution.Program
import TreeWalk.Proofs.Execution.Reaches

/-!
This module contains what a break ends, which is the innermost loop around it that is under way and
nothing else. Where there is no such loop, it is an error.
-/

namespace TreeWalk

/--
A loop comes to the test of its condition in a machine, after so many complete rounds, the last of
which has ended with the value.
-/
inductive Tests (condition : Expr) (body : Stmt) (machine : Machine) :
    Nat → Option Value → Machine → Prop
  | first : Tests condition body machine 0 none machine
  | next {rounds : Nat} {last value' : Option Value} {value : Value}
    {tested started ended : Machine} (h : Tests condition body machine rounds last tested)
    (hvalue : tested.evaluate condition = .ok value started) (htrue : value.isTruthy = true)
    (hbody : Runs (.one body) started (.ok (.normal value') ended)) :
    Tests condition body machine (rounds + 1) value' ended

namespace Tests

variable {condition : Expr} {body : Stmt} {machine tested : Machine} {rounds : Nat}
  {last : Option Value}

theorem runs {outcome : Outcome Completion} (h : Tests condition body machine rounds last tested)
    (hloop : Runs (.loop condition body last) tested outcome) :
    Runs (.one (.whileLoop condition body)) machine outcome := by
  induction h generalizing outcome with
  | first => exact .whileLoop hloop
  | next _ hvalue htrue hbody ih => exact ih (.loopRound hvalue htrue hbody hloop)

theorem depth_eq (h : Tests condition body machine rounds last tested) :
    tested.environment.depth = machine.environment.depth := by
  induction h with
  | first => rfl
  | next _ hvalue _ hbody ih => rw [hbody.depth_of_normal, Machine.depth_of_value hvalue, ih]

theorem unique {last' : Option Value} {tested' : Machine}
    (h : Tests condition body machine rounds last tested)
    (h' : Tests condition body machine rounds last' tested') : last = last' ∧ tested = tested' := by
  induction h generalizing last' tested' with
  | first =>
    cases h'
    exact ⟨rfl, rfl⟩
  | next _ hvalue _ hbody ih =>
    cases h' with
    | next h' hvalue' _ hbody' =>
      obtain ⟨rfl, rfl⟩ := ih h'
      cases hvalue.symm.trans hvalue'
      cases hbody.unique hbody'
      exact ⟨rfl, rfl⟩

theorem exists_round {earlier : Nat} (h : Tests condition body machine rounds last tested)
    (hearlier : earlier < rounds) :
    ∃ last value value' tested started ended, Tests condition body machine earlier last tested ∧
      tested.evaluate condition = .ok value started ∧
      Runs (.one body) started (.ok (.normal value') ended) := by
  induction h with
  | first => cases hearlier
  | next h hvalue _ hbody ih =>
    obtain hearlier | rfl := Nat.lt_succ_iff_lt_or_eq.1 hearlier
    · exact ih hearlier
    · exact ⟨_, _, _, _, _, _, h, hvalue, hbody⟩

theorem le_of_broken {rounds' : Nat} {last' : Option Value} {value : Value} {keyword : Token}
    {tested' started ended : Machine} (h : Tests condition body machine rounds last tested)
    (hvalue : tested.evaluate condition = .ok value started)
    (hbody : Runs (.one body) started (.ok (.broken keyword) ended))
    (h' : Tests condition body machine rounds' last' tested') : rounds' ≤ rounds := by
  apply Nat.le_of_not_lt
  intro hlt
  -- a further test has a complete round before it, but the body would have to end in two ways
  obtain ⟨_, _, _, _, _, _, hround, hvalue', hbody'⟩ := h'.exists_round hlt
  obtain ⟨rfl, rfl⟩ := h.unique hround
  cases hvalue.symm.trans hvalue'
  cases hbody.unique hbody'

end Tests

theorem EvalError.cause_of_detail {error : EvalError}
    (h : error.detail = "break statement seen outside of a loop") :
    error.cause = .strayBreak := by
  obtain ⟨c, hc, hupper⟩ := TokenKind.head?_name error.token.kind
  have hhead : error.detail.toList.head? = some 'b' := by
    rw [h]
    rfl
  -- no other text begins like this one
  obtain ⟨token, cause⟩ := error
  cases cause with
  | strayBreak => rfl
  | undefinedName | zeroDivision | unknownOperator => simp [detail, toString] at hhead
  | expectedNumber | expectedNumbers | expectedNumbersOrStrings =>
    have hb : c = 'b' := by simpa [detail, toString, List.head?_append, hc] using hhead
    rw [hb] at hupper
    cases hupper

section

variable {task : Task} {machine machine' : Machine} {keyword : Token}

theorem not_runs_strayBreak :
    ¬ Runs task machine (.error (.evaluation ⟨keyword, .strayBreak⟩) machine') := by
  intro h
  obtain ⟨path, event, environment, _, herror⟩ := h.exists_occurs rfl rfl
  obtain ⟨name, _, hname⟩ := Event.eq_of_error? herror
  cases hname

theorem Runs.eq_broken {completion : Outcome Completion} {error : EvalError}
    (h : Runs task machine completion)
    (herror : completion.atTopLevel.ending = (some (.evaluation error), machine'))
    (hdetail : error.detail = "break statement seen outside of a loop") :
    completion = .ok (.broken error.token) machine' := by
  have hcause := EvalError.cause_of_detail hdetail
  cases completion with
  | ok completion =>
    cases completion with
    | normal => cases herror
    | broken =>
      cases herror
      rfl
  | error =>
    cases herror
    obtain ⟨token, cause⟩ := error
    cases hcause
    exact absurd h not_runs_strayBreak

theorem runs_broken_iff :
    Runs task machine (.ok (.broken keyword) machine') ↔
      ∃ path reached, task.StrayAt keyword path ∧
        Reaches task machine path (.breakLoop keyword) reached ∧
        machine' = reached.unwind machine.environment.depth := by
  constructor
  · intro h
    obtain ⟨path, reached, hstray, hreaches⟩ := h.exists_stray rfl
    cases h.unique (hreaches.runs .breakLoop hstray)
    exact ⟨path, reached, hstray, hreaches, rfl⟩
  · rintro ⟨path, reached, hstray, hreaches, rfl⟩
    exact hreaches.runs .breakLoop hstray

theorem not_runs_whileLoop_broken {condition : Expr} {body : Stmt} :
    ¬ Runs (.one (.whileLoop condition body)) machine (.ok (.broken keyword) machine') := by
  intro h
  obtain ⟨path, reached, hstray, _⟩ := h.exists_stray rfl
  exact Task.not_strayAt_whileLoop hstray

end

theorem break_ends_innermost_loop (machine : Machine) :
    (∀ statement bound keyword machine',
      statement.exec bound machine = some (.ok (.broken keyword) machine') →
      ∃ path reached, (Task.one statement).StrayAt keyword path ∧
        Reaches (.one statement) machine path (.breakLoop keyword) reached ∧
        machine' = reached.unwind machine.environment.depth) ∧
    (∀ condition body bound keyword machine',
      (Stmt.whileLoop condition body).exec bound machine ≠ some (.ok (.broken keyword) machine')) ∧
    (∀ condition body rounds last tested value started bound outcome,
      Tests condition body machine rounds last tested →
      tested.evaluate condition = .ok value started →
      value.isTruthy = true → body.exec bound started = some outcome →
      match outcome with
      | .error cause machine' =>
        ∃ bound', (Stmt.whileLoop condition body).exec bound' machine = some (.error cause machine')
      | .ok (.normal value') machine' => Tests condition body machine (rounds + 1) value' machine'
      | .ok (.broken keyword) machine' =>
        (∃ bound', (Stmt.whileLoop condition body).exec bound' machine =
          some (.ok (.normal last) machine')) ∧
          (∀ rounds' last' tested', Tests condition body machine rounds' last' tested' →
            rounds' ≤ rounds) ∧
          machine'.environment.depth = machine.environment.depth ∧
          ∃ path reached, (Task.one body).StrayAt keyword path ∧
            Reaches (.one body) started path (.breakLoop keyword) reached ∧
            machine' = reached.unwind machine.environment.depth) ∧
    (∀ statements bound error machine',
      (∀ keyword path, ¬ (Task.all statements).StrayAt keyword path) →
      Stmt.interpretAll bound statements machine = some (.error (.evaluation error) machine') →
      error.detail ≠ "break statement seen outside of a loop") ∧
    ∀ statement keyword machine',
      (∃ bound error, statement.interpret bound machine =
        some (.error (.evaluation error) machine') ∧
        error.token = keyword ∧ error.detail = "break statement seen outside of a loop") ↔
      ∃ path reached, (Task.one statement).StrayAt keyword path ∧
        Reaches (.one statement) machine path (.breakLoop keyword) reached ∧
        machine' = reached.unwind machine.environment.depth := by
  refine ⟨?_, ?_, ?_, ?_, ?_⟩
  · intro statement bound keyword machine' h
    exact runs_broken_iff.1 (runs_of_exec statement h)
  · intro condition body bound keyword machine' h
    exact not_runs_whileLoop_broken (runs_of_exec _ h)
  · intro condition body rounds last tested value started bound outcome htests hvalue htrue hbody
    have hbody := runs_of_exec body hbody
    cases outcome with
    | error cause machine' => exact (htests.runs (.loopStop hvalue htrue hbody)).exists_bound
    | ok completion machine' =>
      cases completion with
      | normal value' => exact .next htests hvalue htrue hbody
      | broken keyword =>
        have hloop := htests.runs (.loopBreak hvalue htrue hbody)
        have hstarted : started.environment.depth = machine.environment.depth := by
          rw [Machine.depth_of_value hvalue, htests.depth_eq]
        obtain ⟨path, reached, hstray, hreaches, hmachine⟩ := runs_broken_iff.1 hbody
        refine ⟨hloop.exists_bound, ?_, hloop.depth_of_normal, path, reached, hstray, hreaches,
          hstarted ▸ hmachine⟩
        intro rounds' last' tested'
        exact htests.le_of_broken hvalue hbody
  · intro statements bound error machine' hstray h hdetail
    obtain ⟨completion, hruns, hending⟩ := Runs.of_interpretAll h
    have hbroken := hruns.eq_broken hending hdetail
    obtain ⟨path, _, hpath, _⟩ := hruns.exists_stray hbroken
    exact hstray _ path hpath
  · intro statement keyword machine'
    rw [← runs_broken_iff]
    constructor
    · rintro ⟨bound, error, h, rfl, hdetail⟩
      obtain ⟨completion, hexec, hcompletion⟩ := Option.map_eq_some_iff.1 h
      have hruns := runs_of_exec statement hexec
      have hending := congrArg Outcome.ending hcompletion
      exact hruns.eq_broken hending hdetail ▸ hruns
    · intro h
      obtain ⟨bound, hinterpret⟩ := Stmt.interpret_of_runs h
      exact ⟨bound, _, hinterpret, rfl, rfl⟩

theorem break_ends_innermost_loop_of_nested :
    let keyword : Token := ⟨.breakWord, "break", none, .start⟩
    let name : Token := ⟨.identifier, "a", none, .start⟩
    let machine := Machine.ofSink .unlimited
    let always : Expr := .literal (.boolean true)
    let body : Stmt := .block [.declare name none, .breakLoop keyword]
    let inner : Stmt := .whileLoop always body
    let lookup : Stmt := .expr (.name name)
    let error : EvalError := ⟨name, .undefinedName⟩
    (body.exec 1 machine = some (.ok (.broken keyword) machine) ∧
        ∃ path reached, (Task.one body).StrayAt keyword path ∧
          Reaches (.one body) machine path (.breakLoop keyword) reached ∧
          machine = reached.unwind machine.environment.depth) ∧
      ((Tests always body machine 0 none machine ∧
        machine.evaluate always = .ok (.boolean true) machine) ∧
        (∃ bound, inner.exec bound machine = some (.ok (.normal none) machine)) ∧
        ∀ rounds last tested, Tests always body machine rounds last tested → rounds ≤ 0) ∧
      (inner.exec 1 machine = some (.ok (.normal none) machine) ∧
        Tests always inner machine 1 none machine) ∧
      ((∀ keyword path, ¬ (Task.all [inner, lookup]).StrayAt keyword path) ∧
        Stmt.interpretAll 1 [inner, lookup] machine = some (.error (.evaluation error) machine) ∧
        error.detail ≠ "break statement seen outside of a loop") ∧
      ∃ bound error, body.interpret bound machine = some (.error (.evaluation error) machine) ∧
        error.token = keyword ∧ error.detail = "break statement seen outside of a loop" := by
  intro keyword name machine always body inner lookup error
  obtain ⟨hbroken, _, hround, hnever, hreports⟩ := break_ends_innermost_loop machine
  have hbody : body.exec 1 machine = some (.ok (.broken keyword) machine) := rfl
  have hinner : inner.exec 1 machine = some (.ok (.normal none) machine) := rfl
  have hvalue : machine.evaluate always = .ok (.boolean true) machine := rfl
  have hfails : Stmt.interpretAll 1 [inner, lookup] machine =
      some (.error (.evaluation error) machine) := rfl
  have hstray : ∀ keyword path,
      ¬ (Task.all [.whileLoop always body, .expr (.name name)]).StrayAt keyword path := by
    rintro keyword path (_ | _ | _ | _ | _ | ⟨hmember, hstray⟩)
    have hmember := List.mem_of_getElem? hmember
    simp only [List.mem_cons, List.not_mem_nil, or_false] at hmember
    obtain rfl | rfl := hmember <;> cases hstray
  obtain ⟨path, reached, hpath, hreaches, hmachine⟩ := hbroken body 1 keyword machine hbody
  obtain ⟨hloop, hlast, _⟩ :=
    hround always body 0 none machine _ machine 1 _ .first hvalue rfl hbody
  refine ⟨⟨hbody, path, reached, hpath, hreaches, hmachine⟩, ⟨⟨.first, hvalue⟩, hloop, hlast⟩,
    ⟨hinner, ?_⟩, ⟨hstray, hfails, hnever _ 1 error machine hstray hfails⟩, ?_⟩
  · exact hround always inner 0 none machine _ machine 1 _ .first hvalue rfl hinner
  · exact (hreports body keyword machine).2 ⟨path, reached, hpath, hreaches, hmachine⟩

end TreeWalk
