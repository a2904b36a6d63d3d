import TreeWalk.Proofs.Grammar.Reading
import TreeWalk.Proofs.Grammar.Tandem

/-!
This module contains the proof that token lists which are read in tandem are read alike: each
function that reads a part of a program gives replies that agree.
-/

namespace TreeWalk

open Grammar

variable {ending ending' : Found} {tokens tokens' : List Token}

theorem Grammar.Level.mapTokens_node (f : Token → Token) (level : Level) (left : Expr)
    (operator : Token) (right : Expr) :
    (level.node left operator right).mapTokens f =
      level.node (left.mapTokens f) (f operator) (right.mapTokens f) := by
  cases level <;> rfl

theorem Grammar.Level.ne_semicolon_of_mem {kind : TokenKind} (level : Level)
    (h : kind ∈ level.operators) :
    kind ≠ .semicolon := by
  rintro rfl
  cases level <;> simp [operators] at h

namespace Tandem

variable (tandem : Tandem ending ending')

theorem atom?_token (token : Token) :
    atom? (tandem.token token) = (atom? token).map (Expr.mapTokens tandem.token) := by
  unfold atom?
  rw [tandem.kind_token, tandem.literal_token]
  cases token.kind <;> rfl

theorem agree_primary_of_ne_paren {token : Token} {rest rest' : List Token}
    (htoken : token.kind ≠ .leftParen)
    (h : tandem.inside (token :: rest) (tandem.token token :: rest'))
    (hrest : token.kind ≠ .semicolon → tandem.inside rest rest') :
    tandem.Agree (Expr.mapTokens tandem.token) tandem.inside (primary ending (token :: rest))
      (primary ending' (tandem.token token :: rest')) := by
  have htoken' : (tandem.token token).kind ≠ .leftParen := by rwa [tandem.kind_token]
  rw [primary_of_ne_paren htoken, primary_of_ne_paren htoken', atom?_token]
  cases hatom : atom? token with
  | some atom =>
    apply Agree.first (hrest _) atom
    intro hsemicolon
    simp [atom?, hsemicolon] at hatom
  | none => exact .fail h (congrArg ParseError.expectedExpression (tandem.found_token token))

theorem agree_expression :
    (∀ tokens tokens', tandem.inside tokens tokens' →
      tandem.Agree (Expr.mapTokens tandem.token) tandem.inside (assignment ending tokens)
        (assignment ending' tokens')) ∧
    (∀ levels tokens tokens', tandem.inside tokens tokens' →
      tandem.Agree (Expr.mapTokens tandem.token) tandem.inside (level ending levels tokens)
        (level ending' levels tokens')) ∧
    (∀ first tighter left tokens tokens', tandem.inside tokens tokens' →
      tandem.Agree (Expr.mapTokens tandem.token) tandem.inside
        (operations ending first tighter left tokens)
        (operations ending' first tighter (left.mapTokens tandem.token) tokens')) ∧
    (∀ tokens tokens', tandem.inside tokens tokens' →
      tandem.Agree (Expr.mapTokens tandem.token) tandem.inside (unary ending tokens)
        (unary ending' tokens')) ∧
    (∀ tokens tokens', tandem.inside tokens tokens' →
      tandem.Agree (Expr.mapTokens tandem.token) tandem.inside (primary ending tokens)
        (primary ending' tokens')) := by
  apply assignment.mutual_induct
  -- an expression: an equals sign is reported or not by the shape of what stands in front of it,
  -- which both have
  · intro tokens ihlevel ihassignment tokens' h
    rw [assignment, assignment]
    apply (ihlevel tokens' h).andThen
    intro left rest rest' progress progress' hrest
    cases rest with
    | nil =>
      obtain ⟨rfl, _⟩ := tandem.nil_inside hrest
      exact .done hrest left
    | cons token rest =>
      obtain ⟨rest', rfl, _, hinside⟩ := tandem.cons_inside hrest
      simp only [tandem.kind_token]
      split
      · next hequal =>
        have hvalue := ihassignment [] token rest progress rest' (hinside (by simp [hequal]))
        cases left with
        | name target => exact .weaken (.behind (hvalue.map fun _ => rfl))
        | _ => exact .weaken (.behind (hvalue.report rfl))
      · exact .done hrest left
  -- an operand on some levels
  · intro tokens ihunary tokens' h
    rw [level, level]
    exact ihunary tokens' h
  · intro tokens first tighter ihlevel ihoperations tokens' h
    rw [level, level]
    apply (ihlevel tokens' h).andThen
    intro left rest rest' progress _ hrest
    exact ihoperations left rest progress rest' hrest
  -- operators of a level
  · intro first tighter left tokens' h
    obtain ⟨rfl, _⟩ := tandem.nil_inside h
    rw [operations, operations]
    exact .done h left
  · intro first tighter left token rest htoken ihlevel ihoperations tokens' h
    obtain ⟨rest', rfl, _, hinside⟩ := tandem.cons_inside h
    have hrest := hinside (first.ne_semicolon_of_mem htoken)
    rw [operations, operations]
    simp only [tandem.kind_token, if_pos htoken]
    apply Agree.weaken
    apply Agree.behind
    apply (ihlevel rest' hrest).andThen
    intro right after after' progress _ hafter
    rw [← Level.mapTokens_node]
    exact ihoperations right after progress after' hafter
  · intro first tighter left token rest htoken tokens' h
    obtain ⟨rest', rfl, _⟩ := tandem.cons_inside h
    rw [operations, operations]
    simp only [tandem.kind_token, if_neg htoken]
    exact .done h left
  -- an operand of the tightest level
  · intro ihprimary tokens' h
    obtain ⟨rfl, _⟩ := tandem.nil_inside h
    rw [unary, unary]
    exact ihprimary [] h
  · intro token rest htoken ihunary tokens' h
    obtain ⟨rest', rfl, _, hinside⟩ := tandem.cons_inside h
    have hrest := hinside (by obtain htoken | htoken := htoken <;> simp [htoken])
    rw [unary, unary]
    simp only [tandem.kind_token, if_pos htoken]
    exact .behind ((ihunary rest' hrest).map fun _ => rfl)
  · intro token rest htoken ihprimary tokens' h
    obtain ⟨rest', rfl, _⟩ := tandem.cons_inside h
    rw [unary, unary]
    simp only [tandem.kind_token, if_neg htoken]
    exact ihprimary _ h
  -- an expression without operators
  · intro tokens' h
    have hfound := found_eq h
    obtain ⟨rfl, _⟩ := tandem.nil_inside h
    rw [primary, primary]
    exact .fail h (congrArg ParseError.expectedExpression hfound)
  case case17 =>
    intro token rest htoken ihassignment tokens' h
    obtain ⟨rest', rfl, _, hinside⟩ := tandem.cons_inside h
    have hrest := hinside (by simp [htoken])
    rw [primary, primary]
    simp only [tandem.kind_token, htoken]
    exact .behind ((ihassignment rest' hrest).closed (agree_expect (by decide)) fun _ => rfl)
  all_goals
    intros
    obtain ⟨rest', rfl, _, hinside⟩ := tandem.cons_inside ‹_›
    apply tandem.agree_primary_of_ne_paren _ ‹_› hinside
    simp_all

variable {tandem}

theorem agree_assignment (h : tandem.inside tokens tokens') :
    tandem.Agree (Expr.mapTokens tandem.token) tandem.inside (assignment ending tokens)
      (assignment ending' tokens') :=
  tandem.agree_expression.1 tokens tokens' h

theorem agree_expressionStatement (h : tandem.inside tokens tokens') :
    tandem.Agree (Stmt.mapTokens tandem.token) tandem.behind (expressionStatement ending tokens)
      (expressionStatement ending' tokens') :=
  (agree_assignment h).closed agree_expect_semicolon fun _ => rfl

theorem agree_printStatement (h : tandem.inside tokens tokens') :
    tandem.Agree (Stmt.mapTokens tandem.token) tandem.behind (printStatement ending tokens)
      (printStatement ending' tokens') :=
  (agree_assignment h).closed agree_expect_semicolon fun _ => rfl

theorem agree_declarationOf (h : tandem.inside tokens tokens') :
    tandem.Agree (Stmt.mapTokens tandem.token) tandem.behind (declarationOf ending tokens)
      (declarationOf ending' tokens') := by
  apply (agree_expect (by decide) h).andThen
  intro name rest rest' _ _ hrest
  apply (agree_accept (by decide) hrest).andThen
  rintro (_ | equals) middle middle' _ _ hmiddle
  · exact .weaken ((agree_expect_semicolon hmiddle).map fun _ => rfl)
  · exact .weaken ((agree_assignment hmiddle).closed agree_expect_semicolon fun _ => rfl)

theorem agree_condition (h : tandem.inside tokens tokens') :
    tandem.Agree (Expr.mapTokens tandem.token) tandem.inside (condition ending tokens)
      (condition ending' tokens') := by
  apply (agree_expect (by decide) h).andThen
  intro _ rest rest' _ _ hrest
  exact (agree_assignment hrest).closed (agree_expect (by decide)) fun _ => rfl

theorem agree_expressionUnless {closing : TokenKind} (h : tandem.inside tokens tokens') :
    tandem.Agree (Option.map (Expr.mapTokens tandem.token)) tandem.inside
      (expressionUnless ending closing tokens) (expressionUnless ending' closing tokens') := by
  have hvalue := agree_assignment h
  cases tokens with
  | nil =>
    obtain ⟨rfl, _⟩ := tandem.nil_inside h
    exact .weaken (hvalue.map fun _ => rfl)
  | cons token rest =>
    obtain ⟨rest', rfl, _⟩ := tandem.cons_inside h
    simp only [expressionUnless, tandem.kind_token]
    split
    · exact .done h none
    · exact .weaken (hvalue.map fun _ => rfl)

section Nested

/-
In a header or in braces a statement that has ended is followed by tokens of the same statement, so
there the lists must not part behind it.
-/
variable
  (hnested : ∀ {rest rest' : List Token}, tandem.behind rest rest' → tandem.inside rest rest')

include hnested

theorem agree_forInitializer (h : tandem.inside tokens tokens') :
    tandem.Agree (Option.map (Stmt.mapTokens tandem.token)) tandem.inside
      (forInitializer ending tokens) (forInitializer ending' tokens') := by
  have hexpression := (agree_expressionStatement h).mono fun _ _ => hnested
  cases tokens with
  | nil =>
    obtain ⟨rfl, _⟩ := tandem.nil_inside h
    exact hexpression.map fun _ => rfl
  | cons token rest =>
    obtain ⟨rest', rfl, hbehind, hinside⟩ := tandem.cons_inside h
    have hrest := hnested hbehind
    have hdeclaration := (agree_declarationOf hrest).mono fun _ _ => hnested
    simp only [forInitializer, tandem.kind_token]
    split
    · exact .first hrest none
    · split
      · exact .behind (hdeclaration.map fun _ => rfl)
      · exact hexpression.map fun _ => rfl

def mapHeader (header : ForHeader) : ForHeader :=
  ⟨header.initializer.map (Stmt.mapTokens tandem.token),
    header.condition.map (Expr.mapTokens tandem.token),
    header.increment.map (Expr.mapTokens tandem.token)⟩

theorem agree_forHeader (h : tandem.inside tokens tokens') :
    tandem.Agree tandem.mapHeader tandem.inside (forHeader ending tokens)
      (forHeader ending' tokens') := by
  apply (agree_expect (by decide) h).andThen
  intro _ _ _ _ _ h
  apply (agree_forInitializer hnested h).andThen
  intro initializer _ _ _ _ h
  apply (agree_expressionUnless h).andThen
  intro condition _ _ _ _ h
  apply ((agree_expect_semicolon h).mono fun _ _ => hnested).andThen
  intro _ _ _ _ _ h
  apply (agree_expressionUnless h).andThen
  intro increment _ _ _ _ h
  exact (agree_expect (by decide) h).map fun _ => rfl

end Nested

variable (tandem)

theorem agree_statement :
    (∀ tokens tokens', tandem.inside tokens tokens' →
      tandem.Agree (Stmt.mapTokens tandem.token) tandem.behind (declaration ending tokens)
        (declaration ending' tokens')) ∧
    (∀ tokens tokens', tandem.inside tokens tokens' →
      tandem.Agree (Stmt.mapTokens tandem.token) tandem.behind (statement ending tokens)
        (statement ending' tokens')) ∧
    (∀ tokens tokens', tandem.inside tokens tokens' →
      (∀ {rest rest' : List Token}, tandem.behind rest rest' → tandem.inside rest rest') →
      tandem.Agree (List.map (Stmt.mapTokens tandem.token)) tandem.inside (members ending tokens)
        (members ending' tokens')) := by
  apply declaration.mutual_induct
  -- a member
  · intro ihstatement tokens' h
    obtain ⟨rfl, _⟩ := tandem.nil_inside h
    rw [declaration, declaration]
    exact ihstatement [] h
  · intro token rest htoken tokens' h
    obtain ⟨rest', rfl, _, hinside⟩ := tandem.cons_inside h
    rw [declaration, declaration]
    simp only [tandem.kind_token, if_pos htoken]
    exact .behind (agree_declarationOf (hinside (by simp [htoken])))
  · intro token rest htoken ihstatement tokens' h
    obtain ⟨rest', rfl, _⟩ := tandem.cons_inside h
    rw [declaration, declaration]
    simp only [tandem.kind_token, if_neg htoken]
    exact ihstatement _ h
  -- a statement, by its first token
  · intro tokens' h
    obtain ⟨rfl, _⟩ := tandem.nil_inside h
    rw [statement, statement]
    exact agree_expressionStatement h
  · intro token rest htoken tokens' h
    obtain ⟨rest', rfl, _, hinside⟩ := tandem.cons_inside h
    rw [statement, statement]
    simp only [tandem.kind_token, htoken]
    exact .behind (agree_printStatement (hinside (by simp [htoken])))
  · intro token rest htoken ihmembers tokens' h
    have hnested {left left' : List Token} : tandem.behind left left' → tandem.inside left left' :=
      tandem.inside_of_nested h (.inl htoken)
    obtain ⟨rest', rfl, _, hinside⟩ := tandem.cons_inside h
    rw [statement, statement]
    simp only [tandem.kind_token, htoken]
    have hmembers := ihmembers rest' (hinside (by simp [htoken])) hnested
    apply Agree.behind
    apply (hmembers.mono fun _ _ => tandem.behind_of_inside).map
    intro body
    exact congrArg Stmt.block (Stmt.mapAllTokens_eq_map tandem.token body)
  · intro token rest htoken ihbody ihalternative tokens' h
    obtain ⟨rest', rfl, _, hinside⟩ := tandem.cons_inside h
    rw [statement, statement]
    simp only [tandem.kind_token, htoken]
    apply Agree.behind
    apply (agree_condition (hinside (by simp [htoken]))).andThen
    intro condition after after' hprogress _ hafter
    apply (ihbody after hprogress after' hafter).andThen
    intro body behind behind' hprogress' _ hbehind
    apply agree_otherwise hbehind
    · intro left left' _ _ hleft
      exact .done hleft _
    · intro otherwise left left' hprogress'' _ hleft
      have halternative :=
        ihalternative after hprogress behind hprogress' left hprogress'' left' hleft
      exact .weaken (halternative.map fun _ => rfl)
  · intro token rest htoken ihbody tokens' h
    obtain ⟨rest', rfl, _, hinside⟩ := tandem.cons_inside h
    rw [statement, statement]
    simp only [tandem.kind_token, htoken]
    apply Agree.behind
    apply (agree_condition (hinside (by simp [htoken]))).andThen
    intro condition after after' hprogress _ hafter
    exact (ihbody after hprogress after' hafter).map fun _ => rfl
  · intro token rest htoken ihbody tokens' h
    have hnested {left left' : List Token} : tandem.behind left left' → tandem.inside left left' :=
      tandem.inside_of_nested h (.inr htoken)
    obtain ⟨rest', rfl, _, hinside⟩ := tandem.cons_inside h
    rw [statement, statement]
    simp only [tandem.kind_token, htoken]
    apply Agree.behind
    apply (agree_forHeader hnested (hinside (by simp [htoken]))).andThen
    intro header after after' hprogress _ hafter
    exact (ihbody after hprogress after' hafter).map fun _ => Stmt.mapTokens_forLoop ..
  · intro token rest htoken tokens' h
    obtain ⟨rest', rfl, _, hinside⟩ := tandem.cons_inside h
    rw [statement, statement]
    simp only [tandem.kind_token, htoken]
    exact .behind ((agree_expect_semicolon (hinside (by simp [htoken]))).map fun _ => rfl)
  · intro token rest hprint hbrace hif hwhile hfor hbreak tokens' h
    obtain ⟨rest', rfl, _⟩ := tandem.cons_inside h
    have hexpression := agree_expressionStatement h
    rw [statement, statement]
    simp only [tandem.kind_token]
    exact hexpression
  -- the members of a block, which none of its statements leaves
  · intro tokens' h _
    have hfound := found_eq h
    obtain ⟨rfl, _⟩ := tandem.nil_inside h
    rw [members, members]
    exact .fail h (congrArg (ParseError.expected .rightBrace) hfound)
  · intro token rest htoken tokens' h hnested
    obtain ⟨rest', rfl, _, hinside⟩ := tandem.cons_inside h
    rw [members, members]
    simp only [tandem.kind_token, if_pos htoken]
    exact .first (hinside (by simp [htoken])) []
  · intro token rest htoken ihdeclaration ihmembers tokens' h hnested
    have hmember := (ihdeclaration tokens' h).mono fun _ _ => hnested
    obtain ⟨rest', rfl, _⟩ := tandem.cons_inside h
    rw [members, members]
    simp only [tandem.kind_token, if_neg htoken]
    apply hmember.andThen
    intro member after after' hprogress _ hafter
    exact (ihmembers after hprogress after' hafter hnested).map fun _ => rfl

end Tandem
end TreeWalk
