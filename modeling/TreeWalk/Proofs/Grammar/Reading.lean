import TreeWalk.Proofs.Grammar.Reads

/-!
This module contains one equation for each function that reads a part of a program: what it reads
without an error, in terms of what the functions that it calls read.
-/

namespace TreeWalk.Grammar

open Reply

variable {ending : Found} {tokens rest : List Token}

theorem reads_assignment_iff {e : Expr} :
    (assignment ending tokens).Reads e rest ↔
      ∃ left middle, (level ending Level.all tokens).Reads left middle ∧
        (left = e ∧ middle = rest ∧ Stops [.equal] middle ∨
          ∃ target equals after value, left = .name target ∧ middle = equals :: after ∧
            equals.kind = .equal ∧
            (assignment ending after).Reads value rest ∧ .assign target value = e) := by
  rw [assignment]
  apply reads_andThen_iff_of
  intro left middle _
  cases middle with
  | nil => simp
  | cons token after =>
    by_cases htoken : token.kind = .equal
    · cases left <;> simp [htoken, and_assoc]
    · simp [htoken]

theorem reads_level_nil_iff {e : Expr} :
    (level ending [] tokens).Reads e rest ↔ (unary ending tokens).Reads e rest := by
  rw [level]

theorem reads_level_cons_iff {first : Level} {tighter : List Level} {e : Expr} :
    (level ending (first :: tighter) tokens).Reads e rest ↔
      ∃ left middle, (level ending tighter tokens).Reads left middle ∧
        (operations ending first tighter left middle).Reads e rest := by
  rw [level, reads_andThen_iff]

theorem reads_operations_of_mem {first : Level} {tighter : List Level} {left e : Expr}
    {token : Token} (htoken : token.kind ∈ first.operators) :
    (operations ending first tighter left (token :: tokens)).Reads e rest ↔
      ∃ right middle, (level ending tighter tokens).Reads right middle ∧
        (operations ending first tighter (first.node left token right) middle).Reads e rest := by
  rw [operations]
  simp [htoken]

theorem reads_operations_of_stops {first : Level} {tighter : List Level} {left e : Expr}
    (htokens : Stops first.operators tokens) :
    (operations ending first tighter left tokens).Reads e rest ↔ left = e ∧ tokens = rest := by
  cases tokens with
  | nil =>
    rw [operations]
    simp
  | cons token after =>
    rw [operations]
    simp_all

theorem reads_unary_of_mem {token : Token} {e : Expr}
    (htoken : token.kind = .bang ∨ token.kind = .minus) :
    (unary ending (token :: tokens)).Reads e rest ↔
      ∃ operand, (unary ending tokens).Reads operand rest ∧ .unary token operand = e := by
  rw [unary]
  simp [htoken]

theorem reads_unary_of_stops {e : Expr} (htokens : Stops [.bang, .minus] tokens) :
    (unary ending tokens).Reads e rest ↔ (primary ending tokens).Reads e rest := by
  cases tokens with
  | nil => rw [unary]
  | cons token after =>
    rw [unary]
    simp_all

theorem reads_primary_of_paren {token : Token} {e : Expr} (htoken : token.kind = .leftParen) :
    (primary ending (token :: tokens)).Reads e rest ↔
      ∃ inner closing, (assignment ending tokens).Reads inner (closing :: rest) ∧
        closing.kind = .rightParen ∧
        .group inner = e := by
  rw [primary]
  simp only [htoken, reads_behind_iff, reads_closed_iff]

def atom? (token : Token) : Option Expr :=
  match token.kind with
  | .falseWord => some (.literal (.boolean false))
  | .trueWord => some (.literal (.boolean true))
  | .nilWord => some (.literal .nil)
  | .number | .string => some (.literal (literalValue token.literal))
  | .identifier => some (.name token)
  | _ => none

theorem primary_of_ne_paren {token : Token} (htoken : token.kind ≠ .leftParen) :
    primary ending (token :: tokens) =
      match atom? token with
      | some atom => .first atom token tokens
      | none => .fail (.expectedExpression (.token token)) (token :: tokens) := by
  rw [primary]
  unfold atom?
  cases hkind : token.kind <;> simp_all

theorem reads_primary_of_ne_paren {token : Token} {e : Expr} (htoken : token.kind ≠ .leftParen) :
    (primary ending (token :: tokens)).Reads e rest ↔ atom? token = some e ∧ tokens = rest := by
  rw [primary_of_ne_paren htoken]
  cases atom? token <;> simp

theorem reads_expressionStatement_iff {s : Stmt} :
    (expressionStatement ending tokens).Reads s rest ↔
      ∃ value semicolon, (assignment ending tokens).Reads value (semicolon :: rest) ∧
        semicolon.kind = .semicolon ∧
        .expr value = s := by
  unfold expressionStatement
  exact reads_closed_iff

theorem reads_printStatement_iff {s : Stmt} :
    (printStatement ending tokens).Reads s rest ↔
      ∃ value semicolon, (assignment ending tokens).Reads value (semicolon :: rest) ∧
        semicolon.kind = .semicolon ∧
        .print value = s := by
  unfold printStatement
  exact reads_closed_iff

theorem reads_declarationOf_iff {s : Stmt} :
    (declarationOf ending tokens).Reads s rest ↔
      ∃ name after, tokens = name :: after ∧ name.kind = .identifier ∧
        ((∃ semicolon, after = semicolon :: rest ∧ semicolon.kind = .semicolon ∧
          .declare name none = s) ∨
          ∃ equals initial semicolon after', after = equals :: after' ∧ equals.kind = .equal ∧
            (assignment ending after').Reads initial (semicolon :: rest) ∧
            semicolon.kind = .semicolon ∧
            .declare name (some initial) = s) := by
  unfold declarationOf
  simp only [reads_andThen_iff, reads_expect_iff, and_assoc]
  apply exists_congr
  intro name
  apply exists_congr
  intro after
  apply and_congr_right
  intro _
  apply and_congr_right
  intro _
  constructor
  · rintro ⟨equals | equals, middle, hequals, h⟩
    · rw [reads_accept_none_iff] at hequals
      obtain ⟨rfl, _⟩ := hequals
      simp only [reads_weaken_iff, reads_map_iff, reads_expect_iff] at h
      obtain ⟨semicolon, ⟨rfl, hsemicolon⟩, rfl⟩ := h
      exact .inl ⟨semicolon, rfl, hsemicolon, rfl⟩
    · rw [reads_accept_some_iff] at hequals
      obtain ⟨rfl, hequals⟩ := hequals
      simp only [reads_weaken_iff, reads_closed_iff] at h
      obtain ⟨initial, semicolon, hinitial, hsemicolon, rfl⟩ := h
      exact .inr ⟨equals, initial, semicolon, middle, rfl, hequals, hinitial, hsemicolon, rfl⟩
  · rintro (⟨semicolon, rfl, hsemicolon, rfl⟩ | ⟨equals, initial, semicolon, after', rfl,
      hequals, h⟩)
    · refine ⟨none, semicolon :: rest, reads_accept_none_iff.2 ?_, ?_⟩
      · simp [hsemicolon]
      · simp [hsemicolon]
    · refine ⟨some equals, after', reads_accept_some_iff.2 ⟨rfl, hequals⟩, ?_⟩
      simp only [reads_weaken_iff, reads_closed_iff]
      exact ⟨initial, semicolon, h⟩

theorem reads_condition_iff {e : Expr} :
    (condition ending tokens).Reads e rest ↔
      ∃ opening after closing, tokens = opening :: after ∧ opening.kind = .leftParen ∧
        (assignment ending after).Reads e (closing :: rest) ∧ closing.kind = .rightParen := by
  unfold condition
  rw [reads_andThen_iff]
  simp only [reads_expect_iff, reads_closed_iff, and_assoc]
  constructor
  · rintro ⟨opening, after, htokens, hopening, value, closing, hvalue, hclosing, rfl⟩
    exact ⟨opening, after, closing, htokens, hopening, hvalue, hclosing⟩
  · rintro ⟨opening, after, closing, htokens, hopening, hvalue, hclosing⟩
    exact ⟨opening, after, htokens, hopening, e, closing, hvalue, hclosing, rfl⟩

theorem reads_expressionUnless_of_eq {closing : TokenKind} {token : Token} {e : Option Expr}
    (htoken : token.kind = closing) :
    (expressionUnless ending closing (token :: tokens)).Reads e rest ↔
      none = e ∧ token :: tokens = rest := by
  simp [expressionUnless, htoken]

theorem reads_expressionUnless_of_stops {closing : TokenKind} {e : Option Expr}
    (htokens : Stops [closing] tokens) :
    (expressionUnless ending closing tokens).Reads e rest ↔
      ∃ value, (assignment ending tokens).Reads value rest ∧ some value = e := by
  cases tokens with
  | nil => simp [expressionUnless]
  | cons token after =>
    have hne : token.kind ≠ closing := by simpa using htokens
    simp [expressionUnless, hne]

theorem reads_forInitializer_of_semicolon {token : Token} {s : Option Stmt}
    (htoken : token.kind = .semicolon) :
    (forInitializer ending (token :: tokens)).Reads s rest ↔ none = s ∧ tokens = rest := by
  simp [forInitializer, htoken]

theorem reads_forInitializer_of_var {token : Token} {s : Option Stmt}
    (htoken : token.kind = .varWord) :
    (forInitializer ending (token :: tokens)).Reads s rest ↔
      ∃ statement, (declarationOf ending tokens).Reads statement rest ∧ some statement = s := by
  simp [forInitializer, htoken]

theorem reads_forInitializer_of_stops {s : Option Stmt}
    (htokens : Stops [.semicolon, .varWord] tokens) :
    (forInitializer ending tokens).Reads s rest ↔
      ∃ statement, (expressionStatement ending tokens).Reads statement rest ∧
        some statement = s := by
  cases tokens with
  | nil => simp [forInitializer]
  | cons token after =>
    obtain ⟨hsemicolon, hvar⟩ : token.kind ≠ .semicolon ∧ token.kind ≠ .varWord := by
      simpa using htokens
    simp [forInitializer, hsemicolon, hvar]

theorem reads_forHeader_iff {header : ForHeader} :
    (forHeader ending tokens).Reads header rest ↔
      ∃ opening after initializer after' condition semicolon after'' increment closing,
        tokens = opening :: after ∧ opening.kind = .leftParen ∧
        (forInitializer ending after).Reads initializer after' ∧
        (expressionUnless ending .semicolon after').Reads condition (semicolon :: after'') ∧
        semicolon.kind = .semicolon ∧
        (expressionUnless ending .rightParen after'').Reads increment (closing :: rest) ∧
        closing.kind = .rightParen ∧ ⟨initializer, condition, increment⟩ = header := by
  simp only [forHeader, reads_andThen_iff, reads_map_iff, reads_expect_iff]
  constructor
  · rintro ⟨opening, after, ⟨rfl, hopening⟩, initializer, after', hinitializer, condition, _,
      hcondition, semicolon, after'', ⟨rfl, hsemicolon⟩, increment, _, hincrement, closing,
      ⟨rfl, hclosing⟩, hheader⟩
    exact ⟨opening, after, initializer, after', condition, semicolon, after'', increment, closing,
      rfl, hopening, hinitializer, hcondition, hsemicolon, hincrement, hclosing, hheader⟩
  · rintro ⟨opening, after, initializer, after', condition, semicolon, after'', increment, closing,
      rfl, hopening, hinitializer, hcondition, hsemicolon, hincrement, hclosing, hheader⟩
    exact ⟨opening, after, ⟨rfl, hopening⟩, initializer, after', hinitializer, condition, _,
      hcondition, semicolon, after'', ⟨rfl, hsemicolon⟩, increment, _, hincrement, closing,
      ⟨rfl, hclosing⟩, hheader⟩

theorem reads_declaration_of_var {token : Token} {s : Stmt} (htoken : token.kind = .varWord) :
    (declaration ending (token :: tokens)).Reads s rest ↔
      (declarationOf ending tokens).Reads s rest := by
  rw [declaration]
  simp [htoken]

theorem reads_declaration_of_stops {s : Stmt} (htokens : Stops [.varWord] tokens) :
    (declaration ending tokens).Reads s rest ↔ (statement ending tokens).Reads s rest := by
  cases tokens with
  | nil => rw [declaration]
  | cons token after =>
    rw [declaration]
    simp_all

theorem reads_statement_of_print {token : Token} {s : Stmt} (htoken : token.kind = .printWord) :
    (statement ending (token :: tokens)).Reads s rest ↔
      (printStatement ending tokens).Reads s rest := by
  rw [statement]
  simp [htoken]

theorem reads_statement_of_brace {token : Token} {s : Stmt} (htoken : token.kind = .leftBrace) :
    (statement ending (token :: tokens)).Reads s rest ↔
      ∃ body, (members ending tokens).Reads body rest ∧ .block body = s := by
  rw [statement]
  simp [htoken]

theorem reads_statement_of_if {token : Token} {s : Stmt} (htoken : token.kind = .ifWord) :
    (statement ending (token :: tokens)).Reads s rest ↔
      ∃ test after body after', (condition ending tokens).Reads test after ∧
        (statement ending after).Reads body after' ∧
        (Stops [.elseWord] after' ∧ after' = rest ∧ .ifThen test body = s ∨
          ∃ otherwise after'' alternative, after' = otherwise :: after'' ∧
            otherwise.kind = .elseWord ∧
            (statement ending after'').Reads alternative rest ∧
            .ifElse test body alternative = s) := by
  rw [statement]
  simp only [htoken, reads_behind_iff, reads_andThen_iff]
  constructor
  · rintro ⟨test, after, htest, body, after', hbody, otherwise | otherwise, after'', hotherwise, h⟩
    · rw [reads_accept_none_iff] at hotherwise
      obtain ⟨rfl, hstops⟩ := hotherwise
      simp only [reads_done_iff] at h
      exact ⟨test, after, body, after', htest, hbody, .inl ⟨hstops, h.2, h.1⟩⟩
    · rw [reads_accept_some_iff] at hotherwise
      simp only [reads_weaken_iff, reads_map_iff] at h
      obtain ⟨alternative, halternative, hs⟩ := h
      exact ⟨test, after, body, after', htest, hbody,
        .inr ⟨otherwise, after'', alternative, hotherwise.1, hotherwise.2, halternative, hs⟩⟩
  · rintro ⟨test, after, body, after', htest, hbody, ⟨hstops, rfl, hs⟩ |
      ⟨otherwise, after'', alternative, rfl, hotherwise, halternative, hs⟩⟩
    · refine ⟨test, after, htest, body, after', hbody, none, after',
        reads_accept_none_iff.2 ⟨rfl, hstops⟩, ?_⟩
      simp [hs]
    · refine ⟨test, after, htest, body, _, hbody, some otherwise, after'', ?_, ?_⟩
      · exact reads_accept_some_iff.2 ⟨rfl, hotherwise⟩
      · simp only [reads_weaken_iff, reads_map_iff]
        exact ⟨alternative, halternative, hs⟩

theorem reads_statement_of_while {token : Token} {s : Stmt} (htoken : token.kind = .whileWord) :
    (statement ending (token :: tokens)).Reads s rest ↔
      ∃ test after body, (condition ending tokens).Reads test after ∧
        (statement ending after).Reads body rest ∧
        .whileLoop test body = s := by
  rw [statement]
  simp [htoken]

theorem forLoop_eq (initializer : Option Stmt) (condition increment : Option Expr) (body : Stmt) :
    Stmt.forLoop initializer condition increment body =
      let round := increment.elim body fun next => .block [body, .expr next]
      let loop := .whileLoop (condition.getD (.literal (.boolean true))) round
      initializer.elim loop fun first => .block [first, loop] := by
  cases initializer <;> cases increment <;> rfl

theorem reads_statement_of_for {token : Token} {s : Stmt} (htoken : token.kind = .forWord) :
    (statement ending (token :: tokens)).Reads s rest ↔
      ∃ header after body, (forHeader ending tokens).Reads header after ∧
        (statement ending after).Reads body rest ∧
        .forLoop header.initializer header.condition header.increment body = s := by
  rw [statement]
  simp [htoken]

theorem reads_statement_of_break {token : Token} {s : Stmt} (htoken : token.kind = .breakWord) :
    (statement ending (token :: tokens)).Reads s rest ↔
      ∃ semicolon, tokens = semicolon :: rest ∧ semicolon.kind = .semicolon ∧
        .breakLoop token = s := by
  rw [statement]
  simp [htoken, and_assoc]

def statementWords : List TokenKind :=
  [.printWord, .leftBrace, .ifWord, .whileWord, .forWord, .breakWord]

theorem reads_statement_of_stops {s : Stmt} (htokens : Stops statementWords tokens) :
    (statement ending tokens).Reads s rest ↔ (expressionStatement ending tokens).Reads s rest := by
  cases tokens with
  | nil => rw [statement]
  | cons token after =>
    rw [statement]
    cases hkind : token.kind <;> simp_all [statementWords]

theorem reads_members_of_brace {token : Token} {body : List Stmt}
    (htoken : token.kind = .rightBrace) :
    (members ending (token :: tokens)).Reads body rest ↔ [] = body ∧ tokens = rest := by
  rw [members]
  simp [htoken]

theorem reads_members_of_ne_brace {token : Token} {body : List Stmt}
    (htoken : token.kind ≠ .rightBrace) :
    (members ending (token :: tokens)).Reads body rest ↔
      ∃ member after others, (declaration ending (token :: tokens)).Reads member after ∧
        (members ending after).Reads others rest ∧ member :: others = body := by
  rw [members]
  simp only [if_neg htoken, reads_andThen_iff, reads_map_iff, exists_and_left]

theorem not_reads_members_nil {body : List Stmt} : ¬ (members ending []).Reads body rest := by
  rw [members]
  simp

theorem program_of_reads {token : Token} {s : Stmt}
    (h : (declaration ending (token :: tokens)).Reads s rest) :
    program ending (token :: tokens) =
      ⟨s :: (program ending rest).statements, (program ending rest).errors⟩ := by
  rw [program]
  cases hreply : declaration ending (token :: tokens) with
  | error cause left reported suffix =>
    rw [hreply] at h
    exact absurd h id
  | ok statement left reported suffix progress =>
    rw [hreply] at h
    obtain ⟨rfl, rfl, rfl⟩ := h
    rfl

end TreeWalk.Grammar
