import TreeWalk.Proofs.Grammar.Derivation
import TreeWalk.Proofs.Grammar.Reading

/-!
This module contains the proof that whatever is read without an error is a phrase of the grammar and
is read as the tree that the phrase means.
-/

namespace TreeWalk.Grammar

open Reply

variable {ending : Found} {tokens rest : List Token}

theorem operator_of_mem {level : Level} {kind : TokenKind} (h : kind ∈ level.operators) :
    Operator level kind level.node := by
  cases level <;> simp only [Level.operators, List.mem_cons, List.not_mem_nil, or_false] at h
  case or => subst h; exact .or
  case and => subst h; exact .and
  case equality =>
    obtain rfl | rfl := h
    · exact .notEqual
    · exact .equal
  case comparison =>
    obtain rfl | rfl | rfl | rfl := h
    · exact .greater
    · exact .greaterEqual
    · exact .less
    · exact .lessEqual
  case addition =>
    obtain rfl | rfl := h
    · exact .minus
    · exact .plus
  case multiplication =>
    obtain rfl | rfl := h
    · exact .slash
    · exact .star

def precedenceOf : List Level → Precedence
  | [] => .unary
  | first :: _ => .operation first

theorem precedenceOf_tighter {first : Level} {tighter : List Level}
    (h : first :: tighter <:+ Level.all) :
    precedenceOf tighter = first.operand := by
  simp only [Level.all, List.suffix_cons_iff, List.suffix_nil, List.cons.injEq, reduceCtorEq,
    or_false] at h
  rcases h with ⟨rfl, rfl⟩ | ⟨rfl, rfl⟩ | ⟨rfl, rfl⟩ | ⟨rfl, rfl⟩ | ⟨rfl, rfl⟩ | ⟨rfl, rfl⟩ <;> rfl

theorem atom_of_atom? {token : Token} {e : Expr} (h : atom? token = some e) : Atom token e := by
  unfold atom? at h
  split at h
  all_goals
    cases h
  · exact .falseWord ‹_›
  · exact .trueWord ‹_›
  · exact .nilWord ‹_›
  · exact atom_literal (.inl ‹_›)
  · exact atom_literal (.inr ‹_›)
  · exact .name ‹_›
where
  atom_literal {token : Token} (h : token.kind = .number ∨ token.kind = .string) :
      Atom token (.literal (literalValue token.literal)) := by
    cases hliteral : token.literal with
    | none => exact .blank h hliteral
    | some literal =>
      cases literal with
      | number x => exact .number h hliteral
      | string s => exact .string h hliteral

theorem operator_ne_name {level : Level} {kind : TokenKind} {node : Expr → Token → Expr → Expr}
    (h : Operator level kind node) (left : Expr) (operator : Token) (right : Expr)
    (target : Token) :
    node left operator right ≠ .name target := by
  cases h <;> simp

theorem expression_name {precedence : Precedence} {target : Token}
    (h : Expression precedence tokens (.name target)) :
    tokens = [target] ∧ target.kind = .identifier := by
  generalize hname : Expr.name target = e at h
  induction h with
  | operation _ ih | operand _ ih | primary _ ih => exact ih hname
  | atom hvalue =>
    cases hname
    cases hvalue with
    | name htoken => exact ⟨rfl, htoken⟩
  | operator _ hoperator => exact absurd hname.symm (operator_ne_name hoperator _ _ _ _)
  | assign | unary | group => cases hname

def Sound {α : Type} (phrase : List Token → α → Prop) (tokens : List Token) (tree : α)
    (rest : List Token) : Prop :=
  ∃ front, tokens = front ++ rest ∧ phrase front tree

theorem primary_sound_of_ne_paren {token : Token} {e : Expr} (htoken : token.kind ≠ .leftParen)
    (h : (primary ending (token :: tokens)).Reads e rest) :
    Sound (Expression .primary) (token :: tokens) e rest := by
  rw [reads_primary_of_ne_paren htoken] at h
  obtain ⟨hatom, rfl⟩ := h
  exact ⟨[token], rfl, .atom (atom_of_atom? hatom)⟩

theorem expression_sound :
    (∀ tokens e rest, (assignment ending tokens).Reads e rest →
      Sound (Expression .assignment) tokens e rest) ∧
    (∀ levels tokens, levels <:+ Level.all → ∀ e rest, (level ending levels tokens).Reads e rest →
      Sound (Expression (precedenceOf levels)) tokens e rest) ∧
    (∀ first tighter left tokens, first :: tighter <:+ Level.all → ∀ e rest,
      (operations ending first tighter left tokens).Reads e rest →
      ∀ before, Expression (.operation first) before left →
      Sound (fun front => Expression (.operation first) (before ++ front)) tokens e rest) ∧
    (∀ tokens e rest, (unary ending tokens).Reads e rest →
      Sound (Expression .unary) tokens e rest) ∧
    (∀ tokens e rest, (primary ending tokens).Reads e rest →
      Sound (Expression .primary) tokens e rest) := by
  apply assignment.mutual_induct
  -- an expression: what stands in front of an equals sign was read as an operand, and was a name
  · intro tokens ihlevel ihassignment e rest h
    rw [reads_assignment_iff] at h
    obtain ⟨left, middle, hleft,
      ⟨rfl, rfl, _⟩ | ⟨target, equals, after, value, rfl, rfl, hequals, hvalue, rfl⟩⟩ := h
    · obtain ⟨front, rfl, hfront⟩ := ihlevel (List.suffix_refl _) left middle hleft
      exact ⟨front, rfl, .operation hfront⟩
    · obtain ⟨front, rfl, hfront⟩ := ihlevel (List.suffix_refl _) _ _ hleft
      obtain ⟨rfl, htarget⟩ := expression_name hfront
      obtain ⟨front, rfl, hfront⟩ := ihassignment [] equals after hleft.progress value rest hvalue
      exact ⟨target :: equals :: front, rfl, .assign htarget hequals hfront⟩
  -- an operand on some levels
  · intro tokens ihunary _ e rest h
    rw [reads_level_nil_iff] at h
    exact ihunary e rest h
  · intro tokens first tighter ihlevel ihoperations hlevels e rest h
    rw [reads_level_cons_iff] at h
    obtain ⟨left, middle, hleft, hoperations⟩ := h
    have htighter : tighter <:+ Level.all := (List.suffix_cons first tighter).trans hlevels
    obtain ⟨front, rfl, hfront⟩ := ihlevel htighter left middle hleft
    rw [precedenceOf_tighter hlevels] at hfront
    obtain ⟨front', rfl, hfront'⟩ :=
      ihoperations left middle hleft.progress hlevels e rest hoperations front (.operand hfront)
    exact ⟨front ++ front', (List.append_assoc ..).symm, hfront'⟩
  -- operators of a level, behind an operand that was read before them
  · intro first tighter left _ e rest h before hbefore
    rw [reads_operations_of_stops (by simp)] at h
    obtain ⟨rfl, rfl⟩ := h
    exact ⟨[], rfl, by simpa using hbefore⟩
  · intro first tighter left token tokens htoken ihlevel ihoperations hlevels e rest h
      before hbefore
    rw [reads_operations_of_mem htoken] at h
    obtain ⟨right, middle, hright, hoperations⟩ := h
    have htighter : tighter <:+ Level.all := (List.suffix_cons first tighter).trans hlevels
    obtain ⟨front, rfl, hfront⟩ := ihlevel htighter right middle hright
    rw [precedenceOf_tighter hlevels] at hfront
    obtain ⟨front', rfl, hfront'⟩ :=
      ihoperations right middle hright.progress hlevels e rest hoperations _
        (.operator hbefore (operator_of_mem htoken) hfront)
    exact ⟨token :: front ++ front', by simp, by simpa using hfront'⟩
  · intro first tighter left token tokens htoken _ e rest h before hbefore
    rw [reads_operations_of_stops (by simpa using htoken)] at h
    obtain ⟨rfl, rfl⟩ := h
    exact ⟨[], rfl, by simpa using hbefore⟩
  -- an operand of the tightest level
  · intro ihprimary e rest h
    rw [reads_unary_of_stops (by simp)] at h
    obtain ⟨front, hfront, hprimary⟩ := ihprimary e rest h
    exact ⟨front, hfront, .primary hprimary⟩
  · intro token tokens htoken ihunary e rest h
    rw [reads_unary_of_mem htoken] at h
    obtain ⟨operand, hoperand, rfl⟩ := h
    obtain ⟨front, rfl, hfront⟩ := ihunary operand rest hoperand
    exact ⟨token :: front, rfl, .unary htoken hfront⟩
  · intro token tokens htoken ihprimary e rest h
    rw [reads_unary_of_stops (by simpa using htoken)] at h
    obtain ⟨front, hfront, hprimary⟩ := ihprimary e rest h
    exact ⟨front, hfront, .primary hprimary⟩
  -- an expression without operators: parentheses, and then the kinds that are all read alike
  · intro e rest h
    rw [primary] at h
    exact absurd h not_reads_fail
  case case17 =>
    intro token tokens htoken ihassignment e rest h
    rw [reads_primary_of_paren htoken] at h
    obtain ⟨inner, closing, hinner, hclosing, rfl⟩ := h
    obtain ⟨front, rfl, hfront⟩ := ihassignment inner _ hinner
    exact ⟨token :: front ++ [closing], by simp, .group htoken hfront hclosing⟩
  all_goals
    intros
    apply primary_sound_of_ne_paren _ ‹_›
    simp_all

theorem assignment_sound {e : Expr} (h : (assignment ending tokens).Reads e rest) :
    Sound (Expression .assignment) tokens e rest :=
  expression_sound.1 tokens e rest h

theorem expressionStatement_sound {s : Stmt}
    (h : (expressionStatement ending tokens).Reads s rest) :
    Sound (Phrase true .expressionStatement) tokens s rest := by
  rw [reads_expressionStatement_iff] at h
  obtain ⟨value, semicolon, hvalue, hsemicolon, rfl⟩ := h
  obtain ⟨front, rfl, hfront⟩ := assignment_sound hvalue
  exact ⟨front ++ [semicolon], by simp, .expression hfront hsemicolon⟩

theorem printStatement_sound {keyword : Token} {s : Stmt} (hkeyword : keyword.kind = .printWord)
    (h : (printStatement ending tokens).Reads s rest) :
    Sound (Phrase true (.statement false)) (keyword :: tokens) s rest := by
  rw [reads_printStatement_iff] at h
  obtain ⟨value, semicolon, hvalue, hsemicolon, rfl⟩ := h
  obtain ⟨front, rfl, hfront⟩ := assignment_sound hvalue
  exact ⟨keyword :: front ++ [semicolon], by simp, .print hkeyword hfront hsemicolon⟩

theorem declarationOf_sound {keyword : Token} {s : Stmt} (hkeyword : keyword.kind = .varWord)
    (h : (declarationOf ending tokens).Reads s rest) :
    Sound (Phrase true .varDeclaration) (keyword :: tokens) s rest := by
  rw [reads_declarationOf_iff] at h
  obtain ⟨name, after, rfl, hname, ⟨semicolon, rfl, hsemicolon, rfl⟩ |
    ⟨equals, initial, semicolon, after, rfl, hequals, hinitial, hsemicolon, rfl⟩⟩ := h
  · exact ⟨[keyword, name, semicolon], rfl, .declare hkeyword hname hsemicolon⟩
  · obtain ⟨front, rfl, hfront⟩ := assignment_sound hinitial
    exact ⟨keyword :: name :: equals :: front ++ [semicolon], by simp,
      .define hkeyword hname hequals hfront hsemicolon⟩

theorem condition_sound {e : Expr} (h : (condition ending tokens).Reads e rest) :
    ∃ opening front closing, tokens = opening :: front ++ closing :: rest ∧
      opening.kind = .leftParen ∧
      Expression .assignment front e ∧ closing.kind = .rightParen := by
  rw [reads_condition_iff] at h
  obtain ⟨opening, after, closing, rfl, hopening, he, hclosing⟩ := h
  obtain ⟨front, rfl, hfront⟩ := assignment_sound he
  exact ⟨opening, front, closing, rfl, hopening, hfront, hclosing⟩

theorem expressionUnless_sound {closing : TokenKind} {e : Option Expr}
    (h : (expressionUnless ending closing tokens).Reads e rest) :
    Sound OptionalExpression tokens e rest := by
  by_cases hstops : Stops [closing] tokens
  · rw [reads_expressionUnless_of_stops hstops] at h
    obtain ⟨value, hvalue, rfl⟩ := h
    obtain ⟨front, rfl, hfront⟩ := assignment_sound hvalue
    exact ⟨front, rfl, .present hfront⟩
  · cases tokens with
    | nil => simp at hstops
    | cons token after =>
      rw [reads_expressionUnless_of_eq (by simpa using hstops)] at h
      obtain ⟨rfl, rfl⟩ := h
      exact ⟨[], rfl, .absent⟩

theorem forInitializer_sound {s : Option Stmt} (h : (forInitializer ending tokens).Reads s rest) :
    Sound (Phrase true .initializer) tokens s rest := by
  by_cases hstops : Stops [.semicolon, .varWord] tokens
  · rw [reads_forInitializer_of_stops hstops] at h
    obtain ⟨statement, hstatement, rfl⟩ := h
    obtain ⟨front, rfl, hfront⟩ := expressionStatement_sound hstatement
    exact ⟨front, rfl, .expressionInitializer hfront⟩
  · cases tokens with
    | nil => simp at hstops
    | cons token after =>
      obtain htoken | htoken : token.kind = .semicolon ∨ token.kind = .varWord := by
        simpa [Decidable.or_iff_not_imp_left] using hstops
      · rw [reads_forInitializer_of_semicolon htoken] at h
        obtain ⟨rfl, rfl⟩ := h
        exact ⟨[token], rfl, .noInitializer htoken⟩
      · rw [reads_forInitializer_of_var htoken] at h
        obtain ⟨statement, hstatement, rfl⟩ := h
        obtain ⟨front, hfront, hdeclaration⟩ := declarationOf_sound htoken hstatement
        exact ⟨front, hfront, .varInitializer hdeclaration⟩

theorem statement_sound :
    (∀ tokens s rest, (declaration ending tokens).Reads s rest →
      Sound (Phrase true .declaration) tokens s rest) ∧
    (∀ tokens s rest, (statement ending tokens).Reads s rest →
      ∃ dangling, (dangling = true → Stops [.elseWord] rest) ∧
        Sound (Phrase true (.statement dangling)) tokens s rest) ∧
    (∀ tokens body rest, (members ending tokens).Reads body rest →
      ∃ front closing, tokens = front ++ closing :: rest ∧ closing.kind = .rightBrace ∧
        Phrase true .declarations front body) := by
  apply declaration.mutual_induct
  -- a member: only here a name can be declared
  · intro ihstatement s rest h
    rw [reads_declaration_of_stops (by simp)] at h
    obtain ⟨dangling, _, front, hfront, hstatement⟩ := ihstatement s rest h
    exact ⟨front, hfront, .statement hstatement⟩
  · intro token tokens htoken s rest h
    rw [reads_declaration_of_var htoken] at h
    obtain ⟨front, hfront, hdeclaration⟩ := declarationOf_sound htoken h
    exact ⟨front, hfront, .varDeclaration hdeclaration⟩
  · intro token tokens htoken ihstatement s rest h
    rw [reads_declaration_of_stops (by simpa using htoken)] at h
    obtain ⟨dangling, _, front, hfront, hstatement⟩ := ihstatement s rest h
    exact ⟨front, hfront, .statement hstatement⟩
  -- a statement, by its first token: one that leaves an `if` open has no `else` behind it
  · intro s rest h
    rw [reads_statement_of_stops (by simp)] at h
    obtain ⟨front, hfront, hexpression⟩ := expressionStatement_sound h
    exact ⟨false, by simp, front, hfront, .expressionStatement hexpression⟩
  · intro token tokens htoken s rest h
    rw [reads_statement_of_print htoken] at h
    exact ⟨false, by simp, printStatement_sound htoken h⟩
  · intro token tokens htoken ihmembers s rest h
    rw [reads_statement_of_brace htoken] at h
    obtain ⟨body, hbody, rfl⟩ := h
    obtain ⟨front, closing, rfl, hclosing, hfront⟩ := ihmembers body rest hbody
    exact ⟨false, by simp, token :: front ++ [closing], by simp, .block htoken hfront hclosing⟩
  · intro token tokens htoken ihbody ihalternative s rest h
    rw [reads_statement_of_if htoken] at h
    obtain ⟨test, after, body, after', htest, hbody, h⟩ := h
    obtain ⟨dangling, hdangling, front', rfl, hfront'⟩ :=
      ihbody after htest.progress body after' hbody
    obtain ⟨opening, front, closing, rfl, hopening, hfront, hclosing⟩ := condition_sound htest
    obtain ⟨hstops, rfl, rfl⟩ |
      ⟨otherwise, after'', alternative, rfl, hotherwise, halternative, rfl⟩ := h
    · exact ⟨true, fun _ => hstops, token :: opening :: front ++ closing :: front', by simp,
        .ifThen htoken hopening hfront hclosing hfront'⟩
    · -- a body that could have taken the `else` would have done so
      have hfalse : dangling = false := by
        cases dangling with
        | false => rfl
        | true => exact absurd (hdangling rfl) (by simp [hotherwise])
      obtain ⟨dangling', hdangling', front'', rfl, hfront''⟩ :=
        ihalternative _ htest.progress (otherwise :: after'') hbody.progress after'' (by simp)
          alternative rest halternative
      exact ⟨dangling', hdangling',
        token :: opening :: front ++ closing :: front' ++ otherwise :: front'', by simp,
        .ifElse htoken hopening hfront hclosing hfront' (fun _ => hfalse) hotherwise hfront''⟩
  · intro token tokens htoken ihbody s rest h
    rw [reads_statement_of_while htoken] at h
    obtain ⟨test, after, body, htest, hbody, rfl⟩ := h
    obtain ⟨dangling, hdangling, front', rfl, hfront'⟩ :=
      ihbody after htest.progress body rest hbody
    obtain ⟨opening, front, closing, rfl, hopening, hfront, hclosing⟩ := condition_sound htest
    exact ⟨dangling, hdangling, token :: opening :: front ++ closing :: front', by simp,
      .whileLoop htoken hopening hfront hclosing hfront'⟩
  · intro token tokens htoken ihbody s rest h
    rw [reads_statement_of_for htoken] at h
    obtain ⟨header, after, body, hheader, hbody, rfl⟩ := h
    obtain ⟨dangling, hdangling, front, rfl, hfront⟩ :=
      ihbody after hheader.progress body rest hbody
    rw [reads_forHeader_iff] at hheader
    obtain ⟨opening, _, initializer, _, test, semicolon, _, increment, closing, rfl, hopening,
      hinitializer, htest, hsemicolon, hincrement, hclosing, rfl⟩ := hheader
    obtain ⟨start, rfl, hstart⟩ := forInitializer_sound hinitializer
    obtain ⟨check, rfl, hcheck⟩ := expressionUnless_sound htest
    obtain ⟨step, rfl, hstep⟩ := expressionUnless_sound hincrement
    rw [forLoop_eq]
    exact ⟨dangling, hdangling,
      token :: opening :: start ++ check ++ semicolon :: step ++ closing :: front, by simp,
      .forLoop htoken hopening hstart hcheck hsemicolon hstep hclosing hfront⟩
  · intro token tokens htoken s rest h
    rw [reads_statement_of_break htoken] at h
    obtain ⟨semicolon, rfl, hsemicolon, rfl⟩ := h
    exact ⟨false, by simp, [token, semicolon], rfl, .breakLoop htoken hsemicolon⟩
  · intro token tokens hprint hbrace hif hwhile hfor hbreak s rest h
    rw [reads_statement_of_stops (by simp_all [statementWords])] at h
    obtain ⟨front, hfront, hexpression⟩ := expressionStatement_sound h
    exact ⟨false, by simp, front, hfront, .expressionStatement hexpression⟩
  -- the members of a block, up to its closing brace
  · intro body rest h
    exact absurd h not_reads_members_nil
  · intro token tokens htoken body rest h
    rw [reads_members_of_brace htoken] at h
    obtain ⟨rfl, rfl⟩ := h
    exact ⟨[], token, rfl, htoken, .nil⟩
  · intro token tokens htoken ihdeclaration ihmembers body rest h
    rw [reads_members_of_ne_brace htoken] at h
    obtain ⟨member, after, others, hmember, hothers, rfl⟩ := h
    obtain ⟨front', closing, rfl, hclosing, hfront'⟩ :=
      ihmembers after hmember.progress others rest hothers
    obtain ⟨front, hfront, hphrase⟩ := ihdeclaration member _ hmember
    exact ⟨front ++ front', closing, by simpa using hfront, hclosing, .cons hphrase hfront'⟩

end TreeWalk.Grammar
