import TreeWalk.Proofs.Grammar.Derivation
import TreeWalk.Proofs.Grammar.Reading

/-!
This module contains the proof that every phrase of the grammar is read, as the tree that it means,
in front of anything that cannot go on with it.
-/

namespace TreeWalk.Grammar

open Reply

variable {ending : Found} {tokens rest : List Token}

def atomKinds : List TokenKind :=
  [.falseWord, .trueWord, .nilWord, .number, .string, .identifier]

def expressionFront : List TokenKind :=
  atomKinds ++ [.leftParen, .bang, .minus]

theorem atom_front {token : Token} {e : Expr} (h : Atom token e) : token.kind ∈ atomKinds := by
  cases h with
  | falseWord htoken | trueWord htoken | nilWord htoken | name htoken => simp [htoken, atomKinds]
  | number htoken | string htoken | blank htoken =>
    obtain htoken | htoken := htoken <;> simp [htoken, atomKinds]

theorem expression_front {precedence : Precedence} {e : Expr} (h : Expression precedence tokens e) :
    ∃ token after, tokens = token :: after ∧ token.kind ∈ expressionFront := by
  induction h with
  | assign htarget => exact ⟨_, _, rfl, by simp [htarget, expressionFront, atomKinds]⟩
  | operation _ ih | operand _ ih | primary _ ih => exact ih
  | operator _ _ _ ih =>
    obtain ⟨token, after, rfl, htoken⟩ := ih
    exact ⟨token, _, rfl, htoken⟩
  | unary hoperator => exact ⟨_, _, rfl, by obtain h | h := hoperator <;> simp [h, expressionFront]⟩
  | atom hvalue => exact ⟨_, _, rfl, List.mem_append_left _ (atom_front hvalue)⟩
  | group hopening => exact ⟨_, _, rfl, by simp [hopening, expressionFront]⟩

def Symbol.front : Symbol → List TokenKind
  | declarations | declaration => .varWord :: statementWords ++ expressionFront
  | varDeclaration => [.varWord]
  | statement _ => statementWords ++ expressionFront
  | expressionStatement => expressionFront
  | initializer => .semicolon :: .varWord :: expressionFront

theorem phrase_front {nearest : Bool} {symbol : Symbol} {tree : symbol.Tree}
    (h : Phrase nearest symbol tokens tree) :
    symbol = .declarations ∧ tokens = [] ∨ ∃ token after, tokens = token :: after ∧
      token.kind ∈ symbol.front := by
  induction h with
  | nil => exact .inl ⟨rfl, rfl⟩
  | cons _ _ ih =>
    obtain ⟨⟨⟩, _⟩ | ⟨token, after, rfl, htoken⟩ := ih
    exact .inr ⟨token, _, rfl, htoken⟩
  | varDeclaration _ ih | statement _ ih | expressionStatement _ ih | varInitializer _ ih
  | expressionInitializer _ ih =>
    obtain ⟨⟨⟩, _⟩ | ⟨token, after, rfl, htoken⟩ := ih
    exact .inr ⟨token, after, rfl, by simp_all [Symbol.front]⟩
  | expression hvalue =>
    obtain ⟨token, after, rfl, htoken⟩ := expression_front hvalue
    exact .inr ⟨token, _, rfl, htoken⟩
  | declare hkeyword | define hkeyword | print hkeyword | block hkeyword | ifThen hkeyword
  | ifElse hkeyword
  | whileLoop hkeyword | forLoop hkeyword | breakLoop hkeyword | noInitializer hkeyword =>
    exact .inr ⟨_, _, rfl, by simp [hkeyword, Symbol.front, statementWords]⟩

def Level.tighter : Level → List Level
  | or => [and, equality, comparison, addition, multiplication]
  | and => [equality, comparison, addition, multiplication]
  | equality => [comparison, addition, multiplication]
  | comparison => [addition, multiplication]
  | addition => [multiplication]
  | multiplication => []

theorem operator_mem {level : Level} {kind : TokenKind} {node : Expr → Token → Expr → Expr}
    (h : Operator level kind node) : kind ∈ level.operators ∧ node = level.node := by
  cases h <;> exact ⟨by decide, rfl⟩

theorem operator_not_mem_tighter {level : Level} {kind : TokenKind}
    {node : Expr → Token → Expr → Expr} (h : Operator level kind node) :
    kind ∉ level.tighter.flatMap Level.operators := by
  cases h <;> decide

theorem stops_append_iff {kinds kinds' : List TokenKind} :
    Stops (kinds ++ kinds') tokens ↔ Stops kinds tokens ∧ Stops kinds' tokens := by
  cases tokens <;> simp

def expressionFollow : List TokenKind :=
  [.equal] ++ Level.all.flatMap Level.operators

variable (ending) in
/--
An expression is read in front of whatever does not go on with it. The operators of its own level
may follow: for them the statement says with what they go on, since they are read in a loop and not
by recursion.
-/
def Complete : Precedence → List Token → Expr → Prop
  | .assignment, tokens, e =>
    ∀ rest, Stops expressionFollow rest → (assignment ending (tokens ++ rest)).Reads e rest
  | .operation first, tokens, left =>
    ∀ rest e rest', Stops (first.tighter.flatMap Level.operators) rest →
      (operations ending first first.tighter left rest).Reads e rest' →
      (level ending (first :: first.tighter) (tokens ++ rest)).Reads e rest'
  | .unary, tokens, e => ∀ rest, (unary ending (tokens ++ rest)).Reads e rest
  | .primary, tokens, e => ∀ rest, (primary ending (tokens ++ rest)).Reads e rest

theorem complete_operation {first : Level} {e : Expr}
    (h : Complete ending (.operation first) tokens e)
    (hrest : Stops ((first :: first.tighter).flatMap Level.operators) rest) :
    (level ending (first :: first.tighter) (tokens ++ rest)).Reads e rest := by
  rw [List.flatMap_cons, stops_append_iff] at hrest
  apply h rest e rest hrest.2
  rw [reads_operations_of_stops hrest.1]
  exact ⟨rfl, rfl⟩

theorem complete_operand {first : Level} {e : Expr} (h : Complete ending first.operand tokens e)
    (hrest : Stops (first.tighter.flatMap Level.operators) rest) :
    (level ending first.tighter (tokens ++ rest)).Reads e rest := by
  cases first with
  | multiplication => exact reads_level_nil_iff.2 (h rest)
  | _ => exact complete_operation h hrest

theorem complete_of_operand {first : Level} {e : Expr}
    (h : Complete ending first.operand tokens e) :
    Complete ending (.operation first) tokens e := by
  intro rest e' rest' hrest hoperations
  rw [reads_level_cons_iff]
  exact ⟨e, rest, complete_operand h hrest, hoperations⟩

theorem complete_of_primary {e : Expr} (hvalue : Expression .primary tokens e)
    (h : Complete ending .primary tokens e) :
    Complete ending .unary tokens e := by
  intro rest
  rw [reads_unary_of_stops]
  · exact h rest
  · cases hvalue with
    | atom hatom =>
      have hmem := atom_front hatom
      simp only [List.singleton_append, stops_cons_iff]
      intro hunary
      simp only [List.mem_cons, List.not_mem_nil, or_false] at hunary
      obtain hunary | hunary := hunary <;> simp [hunary, atomKinds] at hmem
    | group hopening => simp [hopening]

theorem complete_atom {token : Token} {e : Expr} (h : Atom token e) :
    Complete ending .primary [token] e := by
  intro rest
  rw [List.singleton_append, reads_primary_of_ne_paren]
  · refine ⟨?_, rfl⟩
    unfold atom?
    cases h with
    | falseWord htoken | trueWord htoken | nilWord htoken | name htoken => simp [htoken]
    | number htoken hliteral | string htoken hliteral | blank htoken hliteral =>
      obtain htoken | htoken := htoken <;> simp [htoken, hliteral, literalValue]
  · intro hparen
    have hmem := atom_front h
    simp [hparen, atomKinds] at hmem

theorem complete_name {target : Token} (htarget : target.kind = .identifier) :
    Complete ending (.operation .or) [target] (.name target) := by
  have hprimary : Expression .primary [target] (.name target) := .atom (.name htarget)
  have hunary : Complete ending .unary [target] (.name target) :=
    complete_of_primary hprimary (complete_atom (.name htarget))
  apply complete_of_operand
  apply complete_of_operand
  apply complete_of_operand
  apply complete_of_operand
  apply complete_of_operand
  apply complete_of_operand
  exact hunary

theorem equal_not_mem_operators : TokenKind.equal ∉ Level.all.flatMap Level.operators := by
  decide

theorem expression_complete {precedence : Precedence} {e : Expr}
    (h : Expression precedence tokens e) :
    Complete ending precedence tokens e := by
  -- operators are read in a loop: the left operand goes on with the operator, and the loop with the
  -- right one
  induction h with
  | @assign target equals tokens value htarget hequals _ ih =>
    intro rest hrest
    rw [reads_assignment_iff]
    refine ⟨.name target, equals :: tokens ++ rest, ?_,
      .inr ⟨target, equals, tokens ++ rest, value, rfl, rfl, hequals, ?_⟩⟩
    · apply complete_operation (complete_name htarget)
      rw [stops_cons_iff, hequals]
      exact equal_not_mem_operators
    · exact ⟨ih rest hrest, rfl⟩
  | operation _ ih =>
    intro rest hrest
    obtain ⟨hequal, hoperators⟩ := stops_append_iff.1 hrest
    rw [reads_assignment_iff]
    exact ⟨_, rest, complete_operation ih hoperators, .inl ⟨rfl, rfl, hequal⟩⟩
  | operand _ ih => exact complete_of_operand ih
  | operator _ hoperator _ ihleft ihright =>
    intro rest e rest' hrest hoperations
    obtain ⟨hmem, rfl⟩ := operator_mem hoperator
    rw [List.append_assoc]
    apply ihleft
    · rw [List.cons_append, stops_cons_iff]
      exact operator_not_mem_tighter hoperator
    · rw [List.cons_append, reads_operations_of_mem hmem]
      exact ⟨_, rest, complete_operand ihright hrest, hoperations⟩
  | unary hoperator _ ih =>
    intro rest
    rw [List.cons_append, reads_unary_of_mem hoperator]
    exact ⟨_, ih rest, rfl⟩
  | primary hvalue ih => exact complete_of_primary hvalue ih
  | atom hvalue => exact complete_atom hvalue
  | @group opening closing tokens inner hopening _ hclosing ih =>
    intro rest
    rw [List.append_assoc, List.cons_append, reads_primary_of_paren hopening]
    refine ⟨inner, closing, ih (closing :: rest) ?_, hclosing, rfl⟩
    rw [stops_cons_iff, hclosing]
    decide

theorem assignment_complete {e : Expr} {closing : Token} (h : Expression .assignment tokens e)
    (hclosing : closing.kind ∉ expressionFollow) :
    (assignment ending (tokens ++ closing :: rest)).Reads e (closing :: rest) :=
  expression_complete h (closing :: rest) (by simpa using hclosing)

theorem expressionStatement_complete {s : Stmt} (h : Phrase true .expressionStatement tokens s) :
    (expressionStatement ending (tokens ++ rest)).Reads s rest := by
  cases h with
  | expression hvalue hsemicolon =>
    rw [reads_expressionStatement_iff, List.append_assoc]
    refine ⟨_, _, assignment_complete hvalue ?_, hsemicolon, rfl⟩
    rw [hsemicolon]
    decide

theorem varDeclaration_complete (ending : Found) {s : Stmt} (rest : List Token)
    (h : Phrase true .varDeclaration tokens s) :
    ∃ keyword after, tokens = keyword :: after ∧ keyword.kind = .varWord ∧
      (declarationOf ending (after ++ rest)).Reads s rest := by
  cases h with
  | declare hkeyword hname hsemicolon =>
    refine ⟨_, _, rfl, hkeyword, ?_⟩
    rw [reads_declarationOf_iff]
    exact ⟨_, _, rfl, hname, .inl ⟨_, rfl, hsemicolon, rfl⟩⟩
  | @define keyword name equals semicolon tokens initial hkeyword hname hequals hinitial
      hsemicolon =>
    refine ⟨keyword, name :: equals :: tokens ++ [semicolon], rfl, hkeyword, ?_⟩
    rw [reads_declarationOf_iff]
    refine ⟨name, equals :: tokens ++ [semicolon] ++ rest, rfl, hname,
      .inr ⟨equals, initial, semicolon, tokens ++ [semicolon] ++ rest, rfl, hequals, ?_,
        hsemicolon, rfl⟩⟩
    rw [List.append_assoc]
    apply assignment_complete hinitial
    rw [hsemicolon]
    decide

theorem initializer_complete {s : Option Stmt} (h : Phrase true .initializer tokens s) :
    (forInitializer ending (tokens ++ rest)).Reads s rest := by
  cases h with
  | noInitializer hsemicolon =>
    rw [List.singleton_append, reads_forInitializer_of_semicolon hsemicolon]
    exact ⟨rfl, rfl⟩
  | varInitializer h =>
    obtain ⟨keyword, after, rfl, hkeyword, hstatement⟩ := varDeclaration_complete ending rest h
    rw [List.cons_append, reads_forInitializer_of_var hkeyword]
    exact ⟨_, hstatement, rfl⟩
  | expressionInitializer h =>
    rw [reads_forInitializer_of_stops]
    · exact ⟨_, expressionStatement_complete h, rfl⟩
    · obtain ⟨⟨⟩, _⟩ | ⟨token, after, rfl, htoken⟩ := phrase_front h
      rw [List.cons_append, stops_cons_iff]
      intro hmem
      simp only [List.mem_cons, List.not_mem_nil, or_false] at hmem
      obtain hmem | hmem := hmem <;> simp [hmem, Symbol.front, expressionFront, atomKinds] at htoken

theorem optionalExpression_complete {closing : Token} {e : Option Expr}
    (h : OptionalExpression tokens e) (hfront : closing.kind ∉ expressionFront)
    (hfollow : closing.kind ∉ expressionFollow) :
    (expressionUnless ending closing.kind (tokens ++ closing :: rest)).Reads e
      (closing :: rest) := by
  cases h with
  | absent =>
    rw [List.nil_append, reads_expressionUnless_of_eq rfl]
    exact ⟨rfl, rfl⟩
  | present hvalue =>
    rw [reads_expressionUnless_of_stops]
    · exact ⟨_, assignment_complete hvalue hfollow, rfl⟩
    · obtain ⟨token, after, rfl, htoken⟩ := expression_front hvalue
      rw [List.cons_append, stops_cons_iff, List.mem_singleton]
      intro heq
      exact hfront (heq ▸ htoken)

theorem condition_complete {e : Expr} {opening closing : Token}
    (hopening : opening.kind = .leftParen) (h : Expression .assignment tokens e)
    (hclosing : closing.kind = .rightParen) :
    (condition ending (opening :: tokens ++ closing :: rest)).Reads e rest := by
  rw [reads_condition_iff]
  refine ⟨opening, _, closing, rfl, hopening, assignment_complete h ?_, hclosing⟩
  rw [hclosing]
  decide

theorem forHeader_complete {opening semicolon closing : Token} {start test step : List Token}
    {initializer : Option Stmt} {condition increment : Option Expr}
    (hopening : opening.kind = .leftParen)
    (hinitializer : Phrase true .initializer start initializer)
    (hcondition : OptionalExpression test condition) (hsemicolon : semicolon.kind = .semicolon)
    (hincrement : OptionalExpression step increment) (hclosing : closing.kind = .rightParen) :
    (forHeader ending (opening :: start ++ test ++ semicolon :: step ++ closing :: rest)).Reads
      ⟨initializer, condition, increment⟩ rest := by
  rw [reads_forHeader_iff]
  simp only [List.append_assoc, List.cons_append]
  refine ⟨opening, _, initializer, _, condition, semicolon, step ++ closing :: rest, increment,
    closing, rfl, hopening, initializer_complete hinitializer, ?_, hsemicolon, ?_, hclosing, rfl⟩
  · rw [← hsemicolon]
    apply optionalExpression_complete hcondition
    · rw [hsemicolon]
      decide
    · rw [hsemicolon]
      decide
  · rw [← hclosing]
    apply optionalExpression_complete hincrement
    · rw [hclosing]
      decide
    · rw [hclosing]
      decide

variable (ending) in
def Symbol.Complete : (symbol : Symbol) → List Token → symbol.Tree → Prop
  | declarations, tokens, body =>
    (∀ closing rest, closing.kind = .rightBrace →
      (members ending (tokens ++ closing :: rest)).Reads body rest) ∧
    program ending tokens = ⟨body, []⟩
  | declaration, tokens, s => ∀ rest, Stops [.elseWord] rest →
    (Grammar.declaration ending (tokens ++ rest)).Reads s rest
  | statement dangling, tokens, s => ∀ rest, (dangling = true → Stops [.elseWord] rest) →
    (Grammar.statement ending (tokens ++ rest)).Reads s rest
  | varDeclaration, _, _ | expressionStatement, _, _ | initializer, _, _ => True

theorem statement_front_not_mem {kind : TokenKind} (h : kind ∈ expressionFront) :
    kind ∉ statementWords := by
  revert kind
  decide

theorem stops_else_declarations {nearest : Bool} {body : List Stmt}
    (h : Phrase nearest .declarations tokens body) (hrest : Stops [.elseWord] rest) :
    Stops [.elseWord] (tokens ++ rest) := by
  obtain ⟨_, rfl⟩ | ⟨token, after, rfl, htoken⟩ := phrase_front h
  · exact hrest
  · rw [List.cons_append, stops_cons_iff, List.mem_singleton]
    intro helse
    simp [helse, Symbol.front, statementWords, expressionFront, atomKinds] at htoken

theorem phrase_complete {symbol : Symbol} {tree : symbol.Tree}
    (h : Phrase true symbol tokens tree) :
    symbol.Complete ending tokens tree := by
  induction h with
  | nil =>
    constructor
    · intro closing rest hclosing
      exact (reads_members_of_brace hclosing).2 ⟨rfl, rfl⟩
    · rw [program]
  | @cons first others statement statements hfirst hothers ihfirst ihothers =>
    obtain ⟨⟨⟩, _⟩ | ⟨token, after, rfl, htoken⟩ := phrase_front hfirst
    constructor
    · intro closing rest hclosing
      rw [List.append_assoc, List.cons_append, reads_members_of_ne_brace]
      · refine ⟨statement, _, statements, ihfirst _ ?_, ihothers.1 closing rest hclosing, rfl⟩
        exact stops_else_declarations hothers (by simp [hclosing])
      · intro hbrace
        simp [hbrace, Symbol.front, statementWords, expressionFront, atomKinds] at htoken
    · have hread := ihfirst others (by simpa using stops_else_declarations hothers (stops_nil _))
      rw [List.cons_append] at hread ⊢
      rw [program_of_reads hread, ihothers.2]
  | varDeclaration h _ =>
    intro rest _
    obtain ⟨keyword, after, rfl, hkeyword, hstatement⟩ := varDeclaration_complete ending rest h
    rw [List.cons_append, reads_declaration_of_var hkeyword]
    exact hstatement
  | statement h ih =>
    intro rest hrest
    rw [reads_declaration_of_stops]
    · exact ih rest fun _ => hrest
    · obtain ⟨⟨⟩, _⟩ | ⟨token, after, rfl, htoken⟩ := phrase_front h
      rw [List.cons_append, stops_cons_iff, List.mem_singleton]
      intro hvar
      simp [hvar, Symbol.front, statementWords, expressionFront, atomKinds] at htoken
  | expressionStatement h _ =>
    intro rest _
    obtain ⟨⟨⟩, _⟩ | ⟨token, after, rfl, htoken⟩ := phrase_front h
    rw [reads_statement_of_stops]
    · exact expressionStatement_complete h
    · rw [List.cons_append, stops_cons_iff]
      exact statement_front_not_mem htoken
  | print hkeyword hvalue hsemicolon =>
    intro rest _
    rw [List.append_assoc, List.cons_append, reads_statement_of_print hkeyword,
      reads_printStatement_iff]
    refine ⟨_, _, assignment_complete hvalue ?_, hsemicolon, rfl⟩
    rw [hsemicolon]
    decide
  | block hopening _ hclosing ih =>
    intro rest _
    rw [List.append_assoc, List.cons_append, reads_statement_of_brace hopening]
    exact ⟨_, ih.1 _ rest hclosing, rfl⟩
  | ifThen hkeyword hopening hcondition hclosing _ ih =>
    intro rest hrest
    rw [List.append_assoc, List.cons_append, reads_statement_of_if hkeyword]
    exact ⟨_, _, _, rest, condition_complete hopening hcondition hclosing,
      ih rest fun _ => hrest rfl, .inl ⟨hrest rfl, rfl, rfl⟩⟩
  | ifElse hkeyword hopening hcondition hclosing _ hnearest hotherwise _ ihbody ihalternative =>
    intro rest hrest
    rw [List.append_assoc, List.append_assoc, List.cons_append, reads_statement_of_if hkeyword]
    refine ⟨_, _, _, _, condition_complete hopening hcondition hclosing, ihbody _ ?_,
      .inr ⟨_, _, _, rfl, hotherwise, ihalternative rest hrest, rfl⟩⟩
    -- the body leaves no `if` open, so the `else` is not taken inside it
    intro hdangling
    rw [hnearest rfl] at hdangling
    cases hdangling
  | whileLoop hkeyword hopening hcondition hclosing _ ih =>
    intro rest hrest
    rw [List.append_assoc, List.cons_append, reads_statement_of_while hkeyword]
    exact ⟨_, _, _, condition_complete hopening hcondition hclosing, ih rest hrest, rfl⟩
  | forLoop hkeyword hopening hinitializer hcondition hsemicolon hincrement hclosing _ _ ih =>
    intro rest hrest
    rw [List.append_assoc, List.cons_append, List.cons_append, List.cons_append,
      reads_statement_of_for hkeyword]
    exact ⟨_, _, _,
      forHeader_complete hopening hinitializer hcondition hsemicolon hincrement hclosing,
      ih rest hrest, forLoop_eq ..⟩
  | breakLoop hkeyword hsemicolon =>
    intro rest _
    rw [List.cons_append, reads_statement_of_break hkeyword]
    exact ⟨_, rfl, hsemicolon, rfl⟩
  | declare | define | expression | noInitializer | varInitializer
  | expressionInitializer => trivial

end TreeWalk.Grammar
