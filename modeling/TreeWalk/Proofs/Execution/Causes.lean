import TreeWalk.Proofs.Execution.Faults
import TreeWalk.Proofs.Grammar.Provenance

/-!
This module contains the errors that a program which was read can end with. Each of them refers to a
token of a kind that can cause it, so no operator is ever unknown.
-/

namespace TreeWalk

def EvalError.numberOperators : List TokenKind :=
  [.minus, .star, .slash, .greater, .greaterEqual, .less, .lessEqual]

/--
The error is one that a token of its kind can cause.
-/
inductive EvalError.Documented : EvalError → Prop
  | undefinedName {token : Token} (hkind : token.kind = .identifier) :
    Documented ⟨token, .undefinedName⟩
  | expectedNumber {token : Token} {received : ValueType} (hkind : token.kind = .minus)
    (htype : received ≠ .number) :
    Documented ⟨token, .expectedNumber received⟩
  | expectedNumbers {token : Token} {left right : ValueType} (hkind : token.kind ∈ numberOperators)
    (htypes : ¬ (left = .number ∧ right = .number)) :
    Documented ⟨token, .expectedNumbers left right⟩
  | expectedNumbersOrStrings {token : Token} {left right : ValueType} (hkind : token.kind = .plus)
    (htypes : ¬ (left = .number ∧ right = .number) ∧ ¬ (left = .string ∧ right = .string)) :
    Documented ⟨token, .expectedNumbersOrStrings left right⟩
  | zeroDivision {token : Token} (hkind : token.kind = .slash) : Documented ⟨token, .zeroDivision⟩
  | strayBreak {token : Token} (hkind : token.kind = .breakWord) : Documented ⟨token, .strayBreak⟩

namespace Operation

open EvalError (Documented)

variable {operator : Token} {error : EvalError}

theorem documented_of_negate {operand : Value} (hkind : operator.kind = .minus)
    (h : negate operator operand = .error error) : error.token = operator ∧ error.Documented := by
  cases operand with
  | number => cases h
  | nil | boolean | string =>
    cases h
    exact ⟨rfl, .expectedNumber hkind nofun⟩

theorem documented_of_unary {operand : Value} (hkind : operator.kind ∈ [.bang, .minus])
    (h : unary operator operand = .error error) : error.token = operator ∧ error.Documented := by
  obtain hkind | hkind : operator.kind = .bang ∨ operator.kind = .minus := by simpa using hkind
  · simp only [unary, hkind] at h
    cases h
  · simp only [unary, hkind] at h
    exact documented_of_negate hkind h

theorem documented_of_onNumbers {left right : Value}
    {operation : Float → Float → Except EvalError Value}
    (hkind : operator.kind ∈ EvalError.numberOperators)
    (hoperation : ∀ x y, operation x y = .error error → error.token = operator ∧ error.Documented)
    (h : onNumbers operator left right operation = .error error) :
    error.token = operator ∧ error.Documented := by
  unfold onNumbers at h
  split at h
  · exact hoperation _ _ h
  · next hnumbers =>
    cases h
    refine ⟨rfl, .expectedNumbers hkind ?_⟩
    cases left <;> cases right <;> simp_all [Value.type]

theorem documented_of_add {left right : Value} (hkind : operator.kind = .plus)
    (h : add operator left right = .error error) : error.token = operator ∧ error.Documented := by
  unfold add at h
  split at h
  · cases h
  · cases h
  · next hnumbers hstrings =>
    cases h
    refine ⟨rfl, .expectedNumbersOrStrings hkind ?_⟩
    cases left <;> cases right <;> simp_all [Value.type]

theorem documented_of_divide {x y : Float} (hkind : operator.kind = .slash)
    (h : divide operator x y = .error error) : error.token = operator ∧ error.Documented := by
  unfold divide at h
  split at h
  · cases h
    exact ⟨rfl, .zeroDivision hkind⟩
  · cases h

theorem documented_of_binary {left right : Value} (hkind : operator.kind ∈ Expr.binaryOperators)
    (h : binary operator left right = .error error) :
    error.token = operator ∧ error.Documented := by
  unfold binary at h
  split at h
  case h_1 hplus => exact documented_of_add hplus h
  case h_4 hslash =>
    apply documented_of_onNumbers _ _ h
    · simp [hslash, EvalError.numberOperators]
    · exact fun _ _ => documented_of_divide hslash
  case h_9 | h_10 => cases h
  case h_11 => simp_all [Expr.binaryOperators, Grammar.Level.operators]
  all_goals
    next hoperator =>
    apply documented_of_onNumbers _ _ h
    · simp [hoperator, EvalError.numberOperators]
    · exact nofun

theorem decided?_ne_error {left : Value} (hkind : operator.kind ∈ Expr.logicalOperators) :
    decided? operator left ≠ .error error := by
  obtain hkind | hkind : operator.kind = .orWord ∨ operator.kind = .andWord := by
    simpa [Expr.logicalOperators, Grammar.Level.operators] using hkind
  all_goals
    simp only [decided?, hkind]
    exact nofun

end Operation

variable {tokens : List Token} {machine machine' : Machine}

theorem Expr.WrittenIn.documented {expr : Expr} {error : EvalError}
    {environment environment' : Environment} (hwritten : expr.WrittenIn tokens)
    (h : expr.eval environment = .error error environment') :
    error.token ∈ tokens ∧ error.Documented := by
  induction hwritten generalizing environment with
  | literal => cases h
  | group _ ih => exact ih h
  | unary hmem hkind _ ih =>
    obtain h | ⟨value, middle, _, h⟩ := Evaluation.bind_eq_error_iff.1 h
    · exact ih h
    · obtain ⟨rfl, hdocumented⟩ :=
        Operation.documented_of_unary hkind (Evaluation.answer_eq_error_iff.1 h).1
      exact ⟨hmem, hdocumented⟩
  | binary hmem hkind _ _ ihleft ihright =>
    obtain h | ⟨a, middle, _, h⟩ := Evaluation.bind_eq_error_iff.1 h
    · exact ihleft h
    obtain h | ⟨b, middle', _, h⟩ := Evaluation.bind_eq_error_iff.1 h
    · exact ihright h
    · obtain ⟨rfl, hdocumented⟩ :=
        Operation.documented_of_binary hkind (Evaluation.answer_eq_error_iff.1 h).1
      exact ⟨hmem, hdocumented⟩
  | logical hmem hkind _ _ ihleft ihright =>
    obtain h | ⟨a, middle, _, h⟩ := Evaluation.bind_eq_error_iff.1 h
    · exact ihleft h
    obtain h | ⟨decided, middle', _, h⟩ := Evaluation.bind_eq_error_iff.1 h
    · exact absurd (Evaluation.answer_eq_error_iff.1 h).1 (Operation.decided?_ne_error hkind)
    · cases decided with
      | some value => cases h
      | none => exact ihright h
  | name hmem hkind =>
    obtain ⟨name, ⟨⟩, rfl⟩ := Event.eq_of_error? (Evaluation.read_eq_error_iff.1 h).1
    exact ⟨hmem, .undefinedName hkind⟩
  | assign hmem hkind _ ih =>
    obtain h | ⟨result, middle, _, h⟩ := Evaluation.bind_eq_error_iff.1 h
    · exact ih h
    obtain h | ⟨_, _, _, h⟩ := Evaluation.bind_eq_error_iff.1 h
    · obtain ⟨name, ⟨⟩, rfl⟩ := Event.eq_of_error? (Evaluation.assign_eq_error_iff.1 h).1
      exact ⟨hmem, .undefinedName hkind⟩
    · cases h

def Outcome.DocumentedIn (tokens : List Token) : Outcome Completion → Prop
  | ok (.normal _) _ | error .output _ => True
  | ok (.broken keyword) _ => keyword ∈ tokens ∧ keyword.kind = .breakWord
  | error (.evaluation fault) _ => fault.token ∈ tokens ∧ fault.Documented

def Task.WrittenIn (tokens : List Token) : Task → Prop
  | one statement => statement.WrittenIn tokens
  | all statements => ∀ statement ∈ statements, statement.WrittenIn tokens
  | loop condition body _ => condition.WrittenIn tokens ∧ body.WrittenIn tokens

theorem Expr.WrittenIn.documentedIn {expr : Expr} {cause : RuntimeError}
    (hwritten : expr.WrittenIn tokens) (h : machine.evaluate expr = .error cause machine') :
    (Outcome.error cause machine' : Outcome Completion).DocumentedIn tokens := by
  cases cause with
  | output => trivial
  | evaluation error => exact hwritten.documented (Machine.evaluate_eq_error_iff.1 h).1

theorem Machine.documentedIn_print (machine : Machine) (value : Value) :
    (machine.print value).DocumentedIn tokens := by
  simp only [print]
  split <;> trivial

theorem Stmt.WrittenIn.subject {statement : Stmt} {subject : Expr}
    (hwritten : statement.WrittenIn tokens) (h : statement.subject? = some subject) :
    subject.WrittenIn tokens := by
  cases hwritten with
  | print hvalue | expr hvalue | ifThen hvalue | ifElse hvalue =>
    cases h
    exact hvalue
  | @declare name initial _ _ hinitial =>
    cases initial with
    | none => cases h
    | some initial =>
      cases h
      exact hinitial subject rfl
  | block | whileLoop | breakLoop => cases h

theorem Runs.documentedIn {task : Task} {outcome : Outcome Completion}
    (h : Runs task machine outcome) (hwritten : task.WrittenIn tokens) :
    outcome.DocumentedIn tokens := by
  induction h with
  | fault hsubject hfault => exact (Stmt.WrittenIn.subject hwritten hsubject).documentedIn hfault
  | print => exact Machine.documentedIn_print _ _
  | expr | declare | define | ifFalse | nil | loopDone | loopBreak => trivial
  | @block _ _ outcome _ ih =>
    cases hwritten with
    | block hbody =>
      have houtcome := ih hbody
      cases outcome with
      | ok completion => cases completion <;> exact houtcome
      | error cause => cases cause <;> exact houtcome
  | ifTrue _ _ _ ih =>
    cases hwritten with
    | ifThen _ hbody => exact ih hbody
  | ifElseTrue _ _ _ ih =>
    cases hwritten with
    | ifElse _ hbody _ => exact ih hbody
  | ifElseFalse _ _ _ ih =>
    cases hwritten with
    | ifElse _ _ halternative => exact ih halternative
  | whileLoop _ ih =>
    cases hwritten with
    | whileLoop hcondition hbody => exact ih ⟨hcondition, hbody⟩
  | breakLoop =>
    cases hwritten with
    | breakLoop hmem hkind => exact ⟨hmem, hkind⟩
  | next _ _ _ ih => exact ih (List.forall_mem_cons.1 hwritten).2
  | stop _ _ ih => exact ih (List.forall_mem_cons.1 hwritten).1
  | loopFault hfault => exact hwritten.1.documentedIn hfault
  | loopRound _ _ _ _ _ ih => exact ih hwritten
  | loopStop _ _ _ ih => exact ih hwritten.2

theorem Outcome.DocumentedIn.atTopLevel {outcome : Outcome Completion} {cause : RuntimeError}
    (h : outcome.DocumentedIn tokens) (hcause : outcome.atTopLevel = .error cause machine') :
    cause = .output ∨ ∃ error, cause = .evaluation error ∧ error.token ∈ tokens ∧
      error.Documented := by
  cases outcome with
  | ok completion machine =>
    cases completion with
    | normal => cases hcause
    | broken keyword =>
      cases hcause
      exact .inr ⟨_, rfl, h.1, .strayBreak h.2⟩
  | error fault machine =>
    cases hcause
    cases cause with
    | output => exact .inl rfl
    | evaluation error => exact .inr ⟨error, rfl, h⟩

theorem TokenKind.head?_name (kind : TokenKind) :
    ∃ c, kind.name.toList.head? = some c ∧ c.isUpper = true := by
  cases kind <;> exact ⟨_, rfl, by decide⟩

namespace EvalError

def IsTypeMismatch (error : EvalError) : Prop :=
  match error.cause with
  | .expectedNumber received => received ≠ .number
  | .expectedNumbers left right => ¬ (left = .number ∧ right = .number)
  | .expectedNumbersOrStrings left right =>
    ¬ (left = .number ∧ right = .number) ∧ ¬ (left = .string ∧ right = .string)
  | .undefinedName | .zeroDivision | .unknownOperator | .strayBreak => False

theorem Documented.head?_detail {error : EvalError} (h : error.Documented) :
    ∃ c, error.detail.toList.head? = some c ∧ c ≠ 'o' := by
  obtain ⟨c, hc, hupper⟩ := TokenKind.head?_name error.token.kind
  have hne : c ≠ 'o' := by
    rintro rfl
    cases hupper
  cases h with
  | undefinedName => exact ⟨'U', by simp [detail, toString], by decide⟩
  | zeroDivision => exact ⟨'Z', by simp [detail], by decide⟩
  | strayBreak => exact ⟨'b', by simp [detail], by decide⟩
  | expectedNumber | expectedNumbers | expectedNumbersOrStrings =>
    exact ⟨c, by simp [detail, toString, List.head?_append, hc], hne⟩

-- The texts differ in their first characters already.
theorem Documented.detail_ne {error : EvalError} (h : error.Documented) (kind : TokenKind) :
    error.detail ≠ s!"operator {kind.name} is not implemented" := by
  have hoperator : s!"operator {kind.name} is not implemented".toList.head? = some 'o' := by
    simp [toString]
  intro heq
  obtain ⟨c, hc, hne⟩ := h.head?_detail
  rw [heq, hoperator] at hc
  exact hne (Option.some.inj hc).symm

end EvalError

theorem interpret_fails_documented {tokens : List Token} {statement : Stmt}
    (hstatement : statement ∈ (parse tokens).statements) {bound : Nat} {machine machine' : Machine}
    {cause : RuntimeError} (h : statement.interpret bound machine = some (.error cause machine')) :
    cause = .output ∨ ∃ error, cause = .evaluation error ∧ error.token ∈ tokens ∧
      (error.token.kind = .identifier ∧
        error.detail = s!"Undefined variable '{error.token.lexeme}'" ∨
        error.token.kind ∈ [.plus, .minus, .star, .slash, .greater, .greaterEqual, .less,
          .lessEqual] ∧
          error.IsTypeMismatch ∨
        error.token.kind = .slash ∧ error.detail = "Zero division error" ∨
        error.token.kind = .breakWord ∧ error.detail = "break statement seen outside of a loop") ∧
      error.token.kind ∉ [.bang, .equalEqual, .bangEqual, .andWord, .orWord] ∧
      ∀ operator : TokenKind, error.detail ≠ s!"operator {operator.name} is not implemented" := by
  obtain ⟨outcome, hexec, houtcome⟩ := Option.map_eq_some_iff.1 h
  have hwritten : (Task.one statement).WrittenIn tokens := Grammar.writtenIn_of_mem_parse hstatement
  obtain rfl | ⟨error, rfl, hmem, hdocumented⟩ :=
    ((runs_of_exec statement hexec).documentedIn hwritten).atTopLevel houtcome
  · exact .inl rfl
  refine .inr ⟨error, rfl, hmem, ?_, ?_, hdocumented.detail_ne⟩
  · cases hdocumented with
    | undefinedName hkind => exact .inl ⟨hkind, rfl⟩
    | expectedNumber hkind htype => exact .inr (.inl ⟨by simp [hkind], htype⟩)
    | expectedNumbers hkind htypes => exact .inr (.inl ⟨.tail _ hkind, htypes⟩)
    | expectedNumbersOrStrings hkind htypes => exact .inr (.inl ⟨by simp [hkind], htypes⟩)
    | zeroDivision hkind => exact .inr (.inr (.inl ⟨hkind, rfl⟩))
    | strayBreak hkind => exact .inr (.inr (.inr ⟨hkind, rfl⟩))
  · cases hdocumented with
    | expectedNumbers hkind _ =>
      have hapart : ∀ kind ∈ EvalError.numberOperators,
          kind ∉ [TokenKind.bang, .equalEqual, .bangEqual, .andWord, .orWord] := by
        decide
      exact hapart _ hkind
    | undefinedName hkind | expectedNumber hkind | expectedNumbersOrStrings hkind
    | zeroDivision hkind
    | strayBreak hkind => simp [hkind]

theorem interpret_fails_documented_of_invalid_target :
    let name : Token := ⟨.nilWord, "nil", none, .start⟩
    let minus : Token := ⟨.minus, "-", none, .start⟩
    let tokens : List Token :=
      [name, ⟨.equal, "=", none, .start⟩, minus, name, ⟨.semicolon, ";", none, .start⟩]
    let statement : Stmt := .expr (.unary minus (.literal .nil))
    let machine := Machine.ofSink .unlimited
    (statement ∈ (parse tokens).statements ∧
        statement.interpret 1 machine =
          some (.error (.evaluation ⟨minus, .expectedNumber .nil⟩) machine)) ∧
      ¬ (parse tokens).isValid ∧
      ∃ error, RuntimeError.evaluation ⟨minus, .expectedNumber .nil⟩ = .evaluation error ∧
        error.token ∈ tokens ∧
        error.IsTypeMismatch := by
  intro name minus tokens statement machine
  have hstatements : (parse tokens).statements = [statement] := by cbv
  have hstatement : statement ∈ (parse tokens).statements := by simp [hstatements]
  have hinterpret :
      statement.interpret 1 machine =
        some (.error (.evaluation ⟨minus, .expectedNumber .nil⟩) machine) := rfl
  have hinvalid : (parse tokens).isValid = false := by cbv
  obtain houtput | ⟨error, herror, hmem, hcauses, _⟩ :=
    interpret_fails_documented hstatement hinterpret
  · cases houtput
  refine ⟨⟨hstatement, hinterpret⟩, by simp [hinvalid], error, herror, hmem, ?_⟩
  cases herror
  obtain ⟨hkind, _⟩ | ⟨_, hmismatch⟩ | ⟨hkind, _⟩ | ⟨hkind, _⟩ := hcauses
  · cases hkind
  · exact hmismatch
  · cases hkind
  · cases hkind

end TreeWalk
