import TreeWalk.Proofs.Execution.Breaks
import TreeWalk.Proofs.Execution.Simulation
import TreeWalk.Proofs.Scope.Members

/-!
This module contains the meaning of a `for` loop as it is written, and the proof that the `while`
loop that stands for it runs in the same way. The block around the body and the increment has a
frame of its own, but nothing is ever bound there.
-/

namespace TreeWalk

namespace Environment

def push (frame : Frame) (environment : Environment) : Environment :=
  { environment with blocks := frame :: environment.blocks }

theorem get?_push (frame : Frame) (environment : Environment) (name : String) :
    (environment.push frame).get? name = (frame.get? name).or (environment.get? name) := by
  show (frame :: environment.frames).findSome? _ = _
  rw [List.findSome?_cons]
  cases frame.get? name <;> rfl

theorem assign?_push (frame : Frame) (environment : Environment) (name : String) (value : Value) :
    (environment.push frame).assign? name value =
      match frame.get? name with
      | some _ => some (environment.push (frame.insert name value))
      | none => (environment.assign? name value).map (push frame) := by
  simp only [assign?, push, assignIn?]
  cases frame.get? name with
  | some _ => rfl
  | none =>
    cases assignIn? name value environment.blocks with
    | some _ => rfl
    | none => cases environment.globals.get? name <;> rfl

theorem rel_assign?_push {R R' : Environment → Environment → Prop} {a b : Environment}
    {name : String} {value : Value}
    (hpush : ∀ (frame : Frame) {a b : Environment}, R a b → R' (a.push frame) (b.push frame))
    (h : R a b) (hassign : Option.Rel R (a.assign? name value) (b.assign? name value))
    (frame : Frame) :
    Option.Rel R' ((a.push frame).assign? name value) ((b.push frame).assign? name value) := by
  rw [assign?_push, assign?_push]
  cases frame.get? name with
  | some _ => exact .some (hpush _ h)
  | none =>
    generalize a.assign? name value = first at hassign
    generalize b.assign? name value = second at hassign
    cases hassign with
    | none => exact .none
    | some h => exact .some (hpush frame h)

/--
The second environment has one frame more: below the innermost `depth` blocks it has another one
that binds nothing.
-/
inductive Padded : Nat → Environment → Environment → Prop
  | here (environment : Environment) : Padded 0 environment environment.openBlock
  | inside {depth : Nat} {a b : Environment} (frame : Frame) (h : Padded depth a b) :
    Padded (depth + 1) (a.push frame) (b.push frame)

namespace Padded

variable {depth : Nat} {a b : Environment}

theorem get? (h : Padded depth a b) (name : String) : b.get? name = a.get? name := by
  induction h with
  | here environment => exact get?_push .empty environment name
  | inside frame _ ih => rw [get?_push, get?_push, ih]

theorem assign? (h : Padded depth a b) (name : String) (value : Value) :
    Option.Rel (Padded depth) (a.assign? name value) (b.assign? name value) := by
  induction h with
  | here environment =>
    have hpush : environment.openBlock.assign? name value =
        (environment.assign? name value).map openBlock :=
      assign?_push .empty environment name value
    rw [hpush]
    cases environment.assign? name value with
    | none => exact .none
    | some environment => exact .some (.here environment)
  | inside frame h ih => exact rel_assign?_push (fun frame {_ _} => .inside frame) h ih frame

end Padded

def padding : Simulation fun _ => False where
  Related := Padded
  get? := Padded.get?
  assign? := Padded.assign?
  define := by
    rintro depth a b (environment | ⟨frame, h⟩) name hown value
    · exact absurd rfl hown
    · exact h.inside _
  openBlock h := h.inside .empty
  closeBlock := by
    rintro depth a b (_ | ⟨frame, h⟩)
    exact h

end Environment

def Outcome.forget {α : Type} : Outcome α → Outcome Unit
  | ok _ machine => ok () machine
  | error cause machine => error cause machine

def Machine.evaluateOr (omitted : Value) : Option Expr → Machine → Outcome Value
  | none, machine => .ok omitted machine
  | some expr, machine => machine.evaluate expr

namespace Grammar.ForHeader

/--
Take rounds of the loop, at most `bound` of them: the condition, the body and the increment one
after the other, all in the same scope.
-/
def rounds (header : ForHeader) (body : Machine → Option (Outcome Completion)) :
    (bound : Nat) → Machine → Option (Outcome Unit)
  | 0, _ => none
  | bound + 1, machine =>
    (machine.evaluateOr (.boolean true) header.condition).andThen fun value machine =>
      if value.isTruthy then
        match body machine with
        | none => none
        | some (.error cause machine) => some (.error cause machine)
        | some (.ok (.broken _) machine) => some (.ok () machine)
        | some (.ok (.normal _) machine) =>
          (machine.evaluateOr .nil header.increment).andThen fun _ machine =>
            header.rounds body bound machine
      else
        some (.ok () machine)

/--
Run a `for` loop as it is written. An initializer is run in a block of its own, which is left when
the loop is.
-/
def exec (bound : Nat) (header : ForHeader) (body : Stmt) (machine : Machine) :
    Option (Outcome Unit) :=
  match header.initializer with
  | none => header.rounds (body.exec bound) bound machine
  | some initializer =>
    match initializer.exec bound machine.openBlock with
    | none => none
    | some outcome =>
      (outcome.andThen fun _ machine => header.rounds (body.exec bound) bound machine).map
        (·.mapMachine Machine.closeBlock)

end Grammar.ForHeader

section

variable {body : Stmt} {bound : Nat}

theorem exec_block_pair (hdeclared : body.declared = []) (increment : Expr) (machine : Machine) :
    (Stmt.block [body, .expr increment]).exec bound machine =
      match body.exec bound machine with
      | some (.ok (.normal _) machine) =>
        (machine.evaluate increment).andThen fun _ machine => some (.ok (.normal none) machine)
      | stopped => stopped := by
  obtain ⟨environment, output⟩ := machine
  have hbody :=
    Environment.padding.alike_exec bound body (.here environment) (by simp [hdeclared]) output
  simp only [Stmt.exec, Stmt.execAll, Machine.openBlock]
  generalize body.exec bound ⟨environment, output⟩ = first at hbody
  generalize body.exec bound ⟨environment.openBlock, output⟩ = second at hbody
  cases hbody with
  | none => rfl
  | some hbody =>
    cases hbody with
    | error cause h =>
      cases h
      rfl
    | @ok environment _ output completion h =>
      cases h
      cases completion with
      | broken keyword => rfl
      | normal value =>
        have hincrement := Environment.padding.alike_evaluate (.here environment) output increment
        simp only
        generalize Machine.evaluate ⟨environment, output⟩ increment = first at hincrement
        generalize Machine.evaluate ⟨environment.openBlock, output⟩ increment = second at hincrement
        cases hincrement with
        | error cause h =>
          cases h
          rfl
        | ok value h =>
          cases h
          rfl

theorem evaluate_getD (machine : Machine) (value : Value) (expr : Option Expr) :
    machine.evaluate (expr.getD (.literal value)) = machine.evaluateOr value expr := by
  cases expr <;> rfl

def Stmt.round (increment : Option Expr) (body : Stmt) : Stmt :=
  match increment with
  | none => body
  | some increment => block [body, expr increment]

theorem exec_round (hdeclared : body.declared = []) (increment : Option Expr) (machine : Machine) :
    (body.round increment).exec bound machine =
      match body.exec bound machine with
      | some (.ok (.normal value) machine) =>
        (machine.evaluateOr .nil increment).andThen fun _ machine =>
          some (.ok (.normal (increment.elim value fun _ => none)) machine)
      | stopped => stopped := by
  cases increment with
  | none =>
    simp only [Stmt.round]
    split
    · next hbody => exact hbody
    · rfl
  | some increment => exact exec_block_pair hdeclared increment machine

theorem map_loop_eq_rounds (hdeclared : body.declared = []) (header : Grammar.ForHeader)
    (bound count : Nat) (last : Option Value) (machine : Machine) :
    (Machine.loop (·.evaluateOr (.boolean true) header.condition)
        ((body.round header.increment).exec bound) count last machine).map Outcome.forget =
      header.rounds (body.exec bound) count machine := by
  induction count generalizing last machine with
  | zero => rfl
  | succ count ih =>
    simp only [Machine.loop, Grammar.ForHeader.rounds, exec_round hdeclared]
    cases machine.evaluateOr (.boolean true) header.condition with
    | error cause machine => rfl
    | ok value machine =>
      simp only [Outcome.andThen]
      by_cases htrue : value.isTruthy = true
      · simp only [if_pos htrue]
        cases body.exec bound machine with
        | none => rfl
        | some outcome =>
          cases outcome with
          | error cause machine => rfl
          | ok completion machine =>
            cases completion with
            | broken keyword => rfl
            | normal value =>
              simp only
              cases machine.evaluateOr .nil header.increment with
              | error cause machine => rfl
              | ok _ machine => exact ih _ machine
      · simp only [if_neg htrue]
        rfl

end

def Stmt.KeepsBreaks (statement : Stmt) : Prop :=
  ∀ keyword path, ¬ (Task.one statement).StrayAt keyword path

theorem Stmt.KeepsBreaks.exec_ne {statement : Stmt} (h : statement.KeepsBreaks) (bound : Nat)
    (machine : Machine) (keyword : Token) (machine' : Machine) :
    statement.exec bound machine ≠ some (.ok (.broken keyword) machine') := by
  intro hexec
  obtain ⟨path, _, hstray, _⟩ := (runs_of_exec statement hexec).exists_stray rfl
  exact h keyword path hstray

theorem Stmt.keepsBreaks_forLoop {header : Grammar.ForHeader} (body : Stmt)
    (hinitializer : ∀ initializer ∈ header.initializer, initializer.KeepsBreaks) :
    (forLoop header.initializer header.condition header.increment body).KeepsBreaks := by
  obtain ⟨_ | initializer, condition, increment⟩ := header
  · intro keyword path
    exact Task.not_strayAt_whileLoop
  · rintro keyword _ (_ | ⟨hmembers⟩)
    cases hmembers with
    | @member statement _ index path hmember hstray =>
      have hmember := List.mem_of_getElem? hmember
      simp only [List.mem_cons, List.not_mem_nil, or_false] at hmember
      obtain rfl | rfl := hmember
      · exact hinitializer _ rfl keyword path hstray
      · exact Task.not_strayAt_whileLoop hstray

theorem keepsBreaks_of_reads_header {ending : Found} {tokens rest : List Token}
    {header : Grammar.ForHeader} (h : (Grammar.forHeader ending tokens).Reads header rest) :
    ∀ initializer ∈ header.initializer, initializer.KeepsBreaks := by
  obtain ⟨_, _, _, _, _, _, _, _, _, _, _, hinitializer, _, _, _, _, rfl⟩ :=
    Grammar.reads_forHeader_iff.1 h
  rintro initializer rfl keyword path hstray
  obtain ⟨_, _, hphrase⟩ := Grammar.forInitializer_sound hinitializer
  -- it is a declaration or an expression, and neither has a break in it
  cases hphrase with
  | varInitializer hphrase => cases hphrase <;> cases hstray
  | expressionInitializer hphrase => cases hphrase; cases hstray

theorem map_exec_forLoop {body : Stmt} (hdeclared : body.declared = []) {header : Grammar.ForHeader}
    (hinitializer : ∀ initializer ∈ header.initializer, initializer.KeepsBreaks) (bound : Nat)
    (machine : Machine) :
    ((Stmt.forLoop header.initializer header.condition header.increment body).exec
        bound machine).map Outcome.forget =
      header.exec bound body machine := by
  have hloop := map_loop_eq_rounds hdeclared header bound bound none
  simp only [← evaluate_getD] at hloop
  obtain ⟨_ | initializer, condition, increment⟩ := header
  · exact hloop machine
  · have hkeeps := (hinitializer initializer rfl).exec_ne bound machine.openBlock
    simp only [Stmt.forLoop, Grammar.ForHeader.exec]
    rw [Stmt.exec, Stmt.execAll]
    cases hfirst : initializer.exec bound machine.openBlock with
    | none => rfl
    | some outcome =>
      cases outcome with
      | error cause machine => rfl
      | ok completion machine' =>
        cases completion with
        | broken keyword => exact absurd hfirst (hkeeps keyword machine')
        | normal value =>
          simp only [Outcome.andThen, ← hloop, Stmt.execAll, Stmt.exec, Stmt.round]
          generalize Machine.loop _ _ bound none machine' = ended
          rcases ended with _ | ⟨_ | _, machine⟩ | _ <;> rfl

theorem exec_of_reads_for {ending : Found} {keyword : Token} {tokens rest : List Token}
    {statement : Stmt} (hkeyword : keyword.kind = .forWord)
    (h : (Grammar.statement ending (keyword :: tokens)).Reads statement rest) :
    ∃ header after body,
      (Grammar.forHeader ending tokens).Reads header after ∧
      (Grammar.statement ending after).Reads body rest ∧
        statement = .forLoop header.initializer header.condition header.increment body ∧
        ∀ bound machine,
          (statement.exec bound machine).map Outcome.forget = header.exec bound body machine ∧
            (∀ keyword machine', statement.exec bound machine ≠
              some (.ok (.broken keyword) machine')) ∧
            ∀ outcome, body.exec bound machine = some outcome →
              Environment.Grows [] machine.environment outcome.machine.environment := by
  obtain ⟨header, after, body, hheader, hbody, rfl⟩ := (Grammar.reads_statement_of_for hkeyword).1 h
  refine ⟨header, after, body, hheader, hbody, rfl, ?_⟩
  -- a statement declares no name outside the blocks in it
  obtain ⟨_, _, _, _, hphrase⟩ := Grammar.statement_sound.2.1 after body rest hbody
  obtain ⟨hscoped, hown⟩ := Grammar.phrase_scoped hphrase
  have hdeclared : body.declared = [] := by rw [hscoped.declared_eq, hown]; rfl
  have hinitializer := keepsBreaks_of_reads_header hheader
  intro bound machine
  refine ⟨map_exec_forLoop hdeclared hinitializer bound machine, ?_, ?_⟩
  · exact (Stmt.keepsBreaks_forLoop body hinitializer).exec_ne bound machine
  · intro outcome hexec
    rw [← hdeclared]
    exact Stmt.grows_of_exec hexec

theorem exec_of_reads_for_of_declaration :
    let keyword : Token := ⟨.forWord, "for", none, .start⟩
    let semicolon : Token := ⟨.semicolon, ";", none, .start⟩
    let declares : Token := ⟨.varWord, "var", none, .start⟩
    let name : Token := ⟨.identifier, "a", none, .start⟩
    let equals : Token := ⟨.equal, "=", none, .start⟩
    let header : List Token :=
      [⟨.leftParen, "(", none, .start⟩, declares, name, equals, ⟨.trueWord, "true", none, .start⟩,
        semicolon, name, semicolon, name, equals, ⟨.nilWord, "nil", none, .start⟩,
        ⟨.rightParen, ")", none, .start⟩]
    let body : List Token :=
      [⟨.leftBrace, "\x7b", none, .start⟩, ⟨.printWord, "print", none, .start⟩, name, semicolon,
        declares, name, semicolon, ⟨.rightBrace, "\x7d", none, .start⟩]
    let machine := Machine.ofSink .unlimited
    let round : Stmt := .block [.print (.name name), .declare name none]
    let loop : Stmt :=
      .block [.declare name (some (.literal (.boolean true))),
        .whileLoop (.name name) (.block [round, .expr (.assign name (.literal .nil))])]
    (keyword.kind = .forWord ∧
      (Grammar.statement (.endOfInput keyword) (keyword :: (header ++ body))).Reads loop []) ∧
      ∃ header' after body',
        (Grammar.forHeader (.endOfInput keyword) (header ++ body)).Reads header' after ∧
          (Grammar.statement (.endOfInput keyword) after).Reads body' [] ∧
          loop = .forLoop header'.initializer header'.condition header'.increment body' ∧
          header'.exec 2 body' machine = some (.ok () ⟨.empty, ⟨"true\n".toUTF8, none⟩⟩) := by
  intro keyword semicolon declares name equals header body machine round loop
  have hreads :
      (Grammar.statement (.endOfInput keyword) (keyword :: (header ++ body))).Reads loop [] := by
    cbv
    exact ⟨rfl, trivial⟩
  obtain ⟨header', after, body', hheader, hbody, hloop, hexec⟩ := exec_of_reads_for rfl hreads
  refine ⟨⟨rfl, hreads⟩, header', after, body', hheader, hbody, hloop, ?_⟩
  rw [← (hexec 2 machine).1]
  rfl

end TreeWalk
