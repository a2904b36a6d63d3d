import TreeWalk.Proofs.Grammar.Reading
import TreeWalk.Proofs.Grammar.Visible
import TreeWalk.Proofs.Tree.Written

/-!
This module contains the proof that whatever is read, with or without errors, is written in the
tokens that were given.
-/

namespace TreeWalk

namespace Reply

variable {α β : Type} {used n : Nat} {tokens : List Token} {P : α → Prop} {Q : β → Prop}

def Yields (P : α → Prop) : Reply α used tokens → Prop
  | ok tree _ _ _ _ => P tree
  | error _ _ _ _ => True

namespace Yields

theorem fail {cause : ParseError} : (Reply.fail cause tokens : Reply α used tokens).Yields P :=
  trivial

variable {reply : Reply α used tokens}

theorem map {f : α → β} (h : reply.Yields P) (hmap : ∀ tree, P tree → Q (f tree)) :
    (reply.map f).Yields Q := by
  cases reply with
  | ok tree => exact hmap tree h
  | error => trivial

theorem weaken (h : reply.Yields P) : reply.weaken.Yields P := by
  cases reply with
  | ok tree => exact h
  | error => trivial

theorem behind {token : Token} (h : reply.Yields P) : (reply.behind token).Yields P := by
  cases reply with
  | ok tree => exact h
  | error => trivial

theorem report {cause : ParseError} (h : reply.Yields P) : (reply.report cause).Yields P := by
  cases reply with
  | ok tree => exact h
  | error => trivial

theorem andThen
    {next : α → (rest : List Token) → rest.length + used ≤ tokens.length → Reply β n rest}
    (h : reply.Yields P)
    (hnext : ∀ tree rest progress, rest <:+ tokens → P tree → (next tree rest progress).Yields Q) :
    (reply.andThen next).Yields Q := by
  cases reply with
  | error => trivial
  | ok tree rest reported suffix progress =>
    have hreply := hnext tree rest progress suffix h
    simp only [Reply.andThen]
    generalize next tree rest progress = second at hreply
    cases second with
    | ok => exact hreply
    | error => trivial

end Yields

theorem yields_expect (ending : Found) (kind : TokenKind) (tokens : List Token) :
    (expect ending kind tokens).Yields fun token => token ∈ tokens ∧ token.kind = kind := by
  cases tokens with
  | nil => trivial
  | cons token rest =>
    simp only [expect]
    split
    · next hkind => exact ⟨List.mem_cons_self, hkind⟩
    · trivial

theorem yields_accept (kind : TokenKind) (tokens : List Token) :
    (accept kind tokens).Yields fun _ => True := by
  cases accept kind tokens <;> trivial

theorem Yields.closed {reply : Reply α used tokens} {f : α → β} {ending : Found} {kind : TokenKind}
    (h : reply.Yields P) (hmap : ∀ tree, P tree → Q (f tree)) :
    (reply.andThen fun inner middle _ => (expect ending kind middle).map fun _ =>
      f inner).Yields Q := by
  apply h.andThen
  intro inner middle _ _ hinner
  exact (yields_expect ending kind middle).map fun _ _ => hmap inner hinner

end Reply

namespace Grammar

open Reply

variable {written : List Token} {ending : Found} {tokens : List Token}

theorem literal_of_literalValue {literal : Option Literal} {x : Float}
    (h : literalValue literal = .number x) :
    literal = some (.number x) := by
  unfold literalValue at h
  split at h <;> cases h
  rfl

theorem writtenIn_of_atom? {token : Token} {atom : Expr} (hatom : atom? token = some atom)
    (hmem : token ∈ written) :
    atom.WrittenIn written := by
  unfold atom? at hatom
  split at hatom <;> cases hatom
  · exact .literal nofun
  · exact .literal nofun
  · exact .literal nofun
  · exact .literal fun x hvalue => ⟨token, hmem, literal_of_literalValue hvalue⟩
  · exact .literal fun x hvalue => ⟨token, hmem, literal_of_literalValue hvalue⟩
  · next hkind => exact .name hmem hkind

theorem yields_primary_of_ne_paren {token : Token} {rest : List Token}
    (htoken : token.kind ≠ .leftParen) (hmem : token ∈ written) :
    (primary ending (token :: rest)).Yields (Expr.WrittenIn written) := by
  rw [primary_of_ne_paren htoken]
  cases hatom : atom? token with
  | none => trivial
  | some atom => exact writtenIn_of_atom? hatom hmem

variable (written ending) in
theorem yields_expression :
    (∀ tokens, tokens ⊆ written → (assignment ending tokens).Yields (Expr.WrittenIn written)) ∧
    (∀ levels tokens, tokens ⊆ written →
      (level ending levels tokens).Yields (Expr.WrittenIn written)) ∧
    (∀ first tighter left tokens, tokens ⊆ written → left.WrittenIn written →
      (operations ending first tighter left tokens).Yields (Expr.WrittenIn written)) ∧
    (∀ tokens, tokens ⊆ written → (unary ending tokens).Yields (Expr.WrittenIn written)) ∧
    (∀ tokens, tokens ⊆ written → (primary ending tokens).Yields (Expr.WrittenIn written)) := by
  apply assignment.mutual_induct
  -- an expression; if the equals sign is reported, what stands behind it is still written in the
  -- tokens
  · intro tokens ihlevel ihassignment htokens
    rw [assignment]
    apply (ihlevel htokens).andThen
    intro left rest progress hsuffix hleft
    cases rest with
    | nil => exact hleft
    | cons token rest =>
      simp only
      split
      · have hrest := List.Subset.trans hsuffix.subset htokens
        have hvalue := ihassignment [] token rest progress (List.subset_of_cons_subset hrest)
        cases left with
        | name target =>
          cases hleft with
          | name hmem hkind => exact .weaken (.behind (hvalue.map fun _ => .assign hmem hkind))
        | _ => exact .weaken (.behind hvalue.report)
      · exact hleft
  -- an operand on some levels
  · intro tokens ihunary htokens
    rw [level]
    exact ihunary htokens
  · intro tokens first tighter ihlevel ihoperations htokens
    rw [level]
    apply (ihlevel htokens).andThen
    intro left rest progress hsuffix hleft
    exact ihoperations left rest progress (List.Subset.trans hsuffix.subset htokens) hleft
  -- operators of a level
  · intro first tighter left _ hleft
    rw [operations]
    exact hleft
  · intro first tighter left token rest hkind ihlevel ihoperations htokens hleft
    have hrest := List.subset_of_cons_subset htokens
    rw [operations, if_pos hkind]
    apply Yields.weaken
    apply Yields.behind
    apply (ihlevel hrest).andThen
    intro right after progress hsuffix hright
    apply ihoperations right after progress (List.Subset.trans hsuffix.subset hrest)
    exact Expr.writtenIn_node (htokens List.mem_cons_self) hkind hleft hright
  · intro first tighter left token rest hkind _ hleft
    rw [operations, if_neg hkind]
    exact hleft
  -- an operand of the tightest level
  · intro ihprimary htokens
    rw [unary]
    exact ihprimary htokens
  · intro token rest hkind ihunary htokens
    rw [unary, if_pos hkind]
    apply Yields.behind
    apply (ihunary (List.subset_of_cons_subset htokens)).map
    intro operand hoperand
    exact .unary (htokens List.mem_cons_self) (by simpa using hkind) hoperand
  · intro token rest hkind ihprimary htokens
    rw [unary, if_neg hkind]
    exact ihprimary htokens
  -- an expression without operators
  · intro _
    rw [primary]
    exact .fail
  case case17 =>
    intro token rest hkind ihassignment htokens
    rw [primary]
    simp only [hkind]
    exact .behind ((ihassignment (List.subset_of_cons_subset htokens)).closed fun _ => .group)
  all_goals
    intros
    rename_i htokens
    apply yields_primary_of_ne_paren _ (htokens List.mem_cons_self)
    simp_all

theorem yields_assignment (htokens : tokens ⊆ written) :
    (assignment ending tokens).Yields (Expr.WrittenIn written) :=
  (yields_expression written ending).1 tokens htokens

theorem yields_declarationOf (htokens : tokens ⊆ written) :
    (declarationOf ending tokens).Yields (Stmt.WrittenIn written) := by
  apply (yields_expect ending .identifier tokens).andThen
  rintro name rest _ hsuffix ⟨hmem, hkind⟩
  have hrest := List.Subset.trans hsuffix.subset htokens
  apply (yields_accept .equal rest).andThen
  intro equals middle _ hsuffix' _
  cases equals with
  | none =>
    apply Yields.weaken
    apply (yields_expect ending .semicolon middle).map
    intro _ _
    exact .declare (htokens hmem) hkind nofun
  | some equals =>
    apply Yields.weaken
    apply (yields_assignment (List.Subset.trans hsuffix'.subset hrest)).closed
    intro initial hinitial
    apply Stmt.WrittenIn.declare (htokens hmem) hkind
    rintro _ ⟨⟩
    exact hinitial

theorem yields_condition (htokens : tokens ⊆ written) :
    (condition ending tokens).Yields (Expr.WrittenIn written) := by
  apply (yields_expect ending .leftParen tokens).andThen
  intro _ rest _ hsuffix _
  exact (yields_assignment (List.Subset.trans hsuffix.subset htokens)).closed fun _ => id

theorem yields_expressionUnless {closing : TokenKind} (htokens : tokens ⊆ written) :
    (expressionUnless ending closing tokens).Yields fun found =>
      ∀ value ∈ found, value.WrittenIn written := by
  have hvalue : ((assignment ending tokens).map some).Yields fun found =>
    ∀ value ∈ found, value.WrittenIn written := by
    apply (yields_assignment htokens).map
    rintro value hvalue _ ⟨⟩
    exact hvalue
  cases tokens with
  | nil => exact .weaken hvalue
  | cons token rest =>
    simp only [expressionUnless]
    split
    · rintro _ ⟨⟩
    · exact .weaken hvalue

theorem yields_expressionStatement (htokens : tokens ⊆ written) :
    (expressionStatement ending tokens).Yields (Stmt.WrittenIn written) :=
  (yields_assignment htokens).closed fun _ => .expr

theorem yields_forInitializer (htokens : tokens ⊆ written) :
    (forInitializer ending tokens).Yields fun found =>
      ∀ statement ∈ found, statement.WrittenIn written := by
  have hsome : ∀ statement : Stmt, statement.WrittenIn written →
      ∀ found ∈ some statement, found.WrittenIn written := by
    rintro statement hstatement _ ⟨⟩
    exact hstatement
  cases tokens with
  | nil => exact (yields_expressionStatement htokens).map hsome
  | cons token rest =>
    simp only [forInitializer]
    split
    · rintro _ ⟨⟩
    · split
      · exact .behind ((yields_declarationOf (List.subset_of_cons_subset htokens)).map hsome)
      · exact (yields_expressionStatement htokens).map hsome

theorem yields_forHeader (htokens : tokens ⊆ written) :
    (forHeader ending tokens).Yields fun header =>
      ∀ body : Stmt, body.WrittenIn written →
        (Stmt.forLoop header.initializer header.condition header.increment body).WrittenIn
          written := by
  apply (yields_expect ending .leftParen tokens).andThen
  intro _ rest _ hsuffix _
  have htokens := List.Subset.trans hsuffix.subset htokens
  apply (yields_forInitializer htokens).andThen
  intro initializer rest _ hsuffix hinitializer
  have htokens := List.Subset.trans hsuffix.subset htokens
  apply (yields_expressionUnless htokens).andThen
  intro condition rest _ hsuffix hcondition
  have htokens := List.Subset.trans hsuffix.subset htokens
  apply (yields_expect ending .semicolon rest).andThen
  intro _ rest _ hsuffix _
  have htokens := List.Subset.trans hsuffix.subset htokens
  apply (yields_expressionUnless htokens).andThen
  intro increment rest _ _ hincrement
  apply (yields_expect ending .rightParen rest).map
  intro _ _ body hbody
  exact Stmt.writtenIn_forLoop hinitializer hcondition hincrement hbody

variable (written ending) in
theorem yields_statement :
    (∀ tokens, tokens ⊆ written → (declaration ending tokens).Yields (Stmt.WrittenIn written)) ∧
    (∀ tokens, tokens ⊆ written → (statement ending tokens).Yields (Stmt.WrittenIn written)) ∧
    (∀ tokens, tokens ⊆ written →
      (members ending tokens).Yields fun body =>
        ∀ statement ∈ body, statement.WrittenIn written) := by
  apply declaration.mutual_induct
  -- a member
  · intro ihstatement htokens
    rw [declaration]
    exact ihstatement htokens
  · intro token rest hkind htokens
    rw [declaration, if_pos hkind]
    exact .behind (yields_declarationOf (List.subset_of_cons_subset htokens))
  · intro token rest hkind ihstatement htokens
    rw [declaration, if_neg hkind]
    exact ihstatement htokens
  -- a statement, by its first token
  · intro htokens
    rw [statement]
    exact yields_expressionStatement htokens
  · intro token rest hkind htokens
    rw [statement]
    simp only [hkind]
    exact .behind ((yields_assignment (List.subset_of_cons_subset htokens)).closed fun _ => .print)
  · intro token rest hkind ihmembers htokens
    rw [statement]
    simp only [hkind]
    exact .behind ((ihmembers (List.subset_of_cons_subset htokens)).map fun _ => .block)
  · intro token rest hkind ihbody ihalternative htokens
    have hrest := List.subset_of_cons_subset htokens
    rw [statement]
    simp only [hkind]
    apply Yields.behind
    apply (yields_condition hrest).andThen
    intro condition after progress hsuffix hcondition
    have hafter := List.Subset.trans hsuffix.subset hrest
    apply (ihbody after progress hafter).andThen
    intro body behind progress' hsuffix' hbody
    have hbehind := List.Subset.trans hsuffix'.subset hafter
    apply (yields_accept .elseWord behind).andThen
    intro otherwise left progress'' hsuffix'' _
    cases otherwise with
    | none => exact .ifThen hcondition hbody
    | some otherwise =>
      apply Yields.weaken
      have hlater := List.Subset.trans hsuffix''.subset hbehind
      apply (ihalternative after progress behind progress' left progress'' hlater).map
      intro alternative
      exact .ifElse hcondition hbody
  · intro token rest hkind ihbody htokens
    have hrest := List.subset_of_cons_subset htokens
    rw [statement]
    simp only [hkind]
    apply Yields.behind
    apply (yields_condition hrest).andThen
    intro condition after progress hsuffix hcondition
    exact (ihbody after progress (List.Subset.trans hsuffix.subset hrest)).map fun _ =>
      .whileLoop hcondition
  · intro token rest hkind ihbody htokens
    have hrest := List.subset_of_cons_subset htokens
    rw [statement]
    simp only [hkind]
    apply Yields.behind
    apply (yields_forHeader hrest).andThen
    intro header after progress hsuffix hheader
    exact (ihbody after progress (List.Subset.trans hsuffix.subset hrest)).map hheader
  · intro token rest hkind htokens
    rw [statement]
    simp only [hkind]
    apply Yields.behind
    apply (yields_expect ending .semicolon rest).map
    intro _ _
    exact .breakLoop (htokens List.mem_cons_self) hkind
  · intro token rest hprint hbrace hif hwhile hfor hbreak htokens
    rw [statement]
    simp only
    exact yields_expressionStatement htokens
  -- the members of a block
  · intro _
    rw [members]
    exact .fail
  · intro token rest hkind _
    rw [members, if_pos hkind]
    rintro _ ⟨⟩
  · intro token rest hkind ihdeclaration ihmembers htokens
    rw [members, if_neg hkind]
    apply (ihdeclaration htokens).andThen
    intro member after progress hsuffix hmember
    apply (ihmembers after progress (List.Subset.trans hsuffix.subset htokens)).map
    intro body hbody
    simpa [hmember] using hbody

theorem writtenIn_of_mem_program {statement : Stmt} (htokens : tokens ⊆ written)
    (h : statement ∈ (program ending tokens).statements) : statement.WrittenIn written := by
  induction tokens using program.induct ending with
  | case1 =>
    rw [program] at h
    cases h
  | case2 token rest first left reported suffix progress hreply ih =>
    have hfirst := (yields_statement written ending).1 _ htokens
    rw [program, hreply] at h
    rw [hreply] at hfirst
    cases h with
    | head => exact hfirst
    | tail _ h => exact ih (List.Subset.trans suffix.subset htokens) h
  | case3 token rest cause left reported suffix hreply ih =>
    rw [program, hreply] at h
    apply ih _ h
    simp only [recover]
    split
    · exact List.Subset.trans ((resume_suffix left).trans suffix).subset htokens
    · exact List.subset_of_cons_subset htokens

theorem writtenIn_of_mem_parse {tokens : List Token} {statement : Stmt}
    (h : statement ∈ (parse tokens).statements) :
    statement.WrittenIn tokens :=
  writtenIn_of_mem_program (fun _ => Sentence.mem_of_mem_tokens) h

end Grammar
end TreeWalk
