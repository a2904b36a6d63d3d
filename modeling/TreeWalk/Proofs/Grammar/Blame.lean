import TreeWalk.Proofs.Grammar.Slices

/-!
This module contains which tokens the errors are about. An error that stops the reading is about
what the reading has come to; those that are reported on the way are about equals signs that have
been taken, each of them once and in order.
-/

namespace TreeWalk

def ParseError.found? : ParseError → Option Found
  | expected _ found | expectedExpression found => some found
  | invalidTarget _ => none

theorem ParseError.token_of_found? {error : ParseError} {found : Found}
    (h : error.found? = some found) :
    error.token = found.blamed := by
  cases error <;> cases h <;> rfl

/--
The tokens in front of those that are left were taken. What was reported on the way are invalid
targets at some of them, in their order, but not at the first `spared` ones.
-/
def Reports (spared : Nat) (tokens rest : List Token) (reported : List ParseError) : Prop :=
  ∃ taken equals : List Token,
    taken ++ rest = tokens ∧ equals.Sublist (taken.drop spared) ∧
    reported = equals.map .invalidTarget

namespace Reports

variable {spared spared' : Nat} {tokens middle rest : List Token}
  {reported reported' : List ParseError} {token : Token}

theorem nil (spared : Nat) (tokens : List Token) : Reports spared tokens tokens [] :=
  ⟨[], [], rfl, List.nil_sublist _, rfl⟩

theorem mono (h : Reports spared tokens rest reported) (hspared : spared' ≤ spared) :
    Reports spared' tokens rest reported := by
  obtain ⟨taken, equals, htaken, hequals, hreported⟩ := h
  exact ⟨taken, equals, htaken, hequals.trans (List.drop_sublist_drop_left taken hspared),
    hreported⟩

theorem cons (token : Token) (h : Reports spared tokens rest reported) :
    Reports (spared + 1) (token :: tokens) rest reported := by
  obtain ⟨taken, equals, rfl, hequals, hreported⟩ := h
  exact ⟨token :: taken, equals, rfl, hequals, hreported⟩

theorem report (h : Reports 0 tokens rest reported) :
    Reports 0 (token :: tokens) rest (.invalidTarget token :: reported) := by
  obtain ⟨taken, equals, rfl, hequals, rfl⟩ := h
  exact ⟨token :: taken, token :: equals, rfl, hequals.cons_cons token, rfl⟩

theorem append {used : Nat} (h : Reports spared tokens middle reported)
    (hused : middle.length + used ≤ tokens.length)
    (h' : Reports (spared - used) middle rest reported') :
    Reports spared tokens rest (reported ++ reported') := by
  obtain ⟨taken, equals, rfl, hequals, rfl⟩ := h
  obtain ⟨taken', equals', rfl, hequals', rfl⟩ := h'
  have hdrop : spared - taken.length ≤ spared - used := by
    simp only [List.length_append] at hused
    omega
  refine ⟨taken ++ taken', equals ++ equals', List.append_assoc .., ?_, (List.map_append).symm⟩
  rw [List.drop_append]
  exact hequals.append (hequals'.trans (List.drop_sublist_drop_left taken' hdrop))

theorem cases_cons (h : Reports 1 (token :: tokens) rest reported) :
    rest = token :: tokens ∧ reported = [] ∨
      ∃ taken equals : List Token, taken ++ rest = tokens ∧ equals.Sublist taken ∧
        reported = equals.map .invalidTarget := by
  obtain ⟨_ | ⟨first, taken⟩, equals, htaken, hequals, rfl⟩ := h
  · cases hequals
    exact .inl ⟨htaken, rfl⟩
  · cases htaken
    exact .inr ⟨taken, equals, rfl, hequals, rfl⟩

end Reports

namespace Reply

variable {α β : Type} {used n spared : Nat} {ending : Found} {tokens : List Token}

def Blames (ending : Found) (spared : Nat) (reply : Reply α used tokens) : Prop :=
  match reply with
  | ok _ rest reported _ _ => Reports spared tokens rest reported
  | error cause rest reported _ =>
    Reports spared tokens rest reported ∧ cause.found? = some (found ending rest)

namespace Blames

theorem done (tree : α) (tokens : List Token) : (Reply.done tree tokens).Blames ending spared :=
  .nil spared tokens

theorem fail {cause : ParseError} (h : cause.found? = some (found ending tokens)) :
    (Reply.fail cause tokens : Reply α used tokens).Blames ending spared :=
  ⟨.nil spared tokens, h⟩

theorem first (tree : α) (token : Token) (rest : List Token) :
    (Reply.first tree token rest).Blames ending 1 :=
  .cons token (.nil 0 rest)

variable {reply : Reply α used tokens}

theorem map {f : α → β} (h : reply.Blames ending spared) : (reply.map f).Blames ending spared := by
  cases reply with
  | ok => exact h
  | error => exact h

theorem weaken (h : reply.Blames ending spared) : reply.weaken.Blames ending spared := by
  cases reply with
  | ok => exact h
  | error => exact h

theorem mono {spared' : Nat} (h : reply.Blames ending spared) (hspared : spared' ≤ spared) :
    reply.Blames ending spared' := by
  cases reply with
  | ok => exact Reports.mono h hspared
  | error => exact ⟨h.1.mono hspared, h.2⟩

theorem behind {token : Token} (h : reply.Blames ending spared) :
    (reply.behind token).Blames ending 1 := by
  have h := h.mono (Nat.zero_le spared)
  cases reply with
  | ok => exact Reports.cons token h
  | error => exact ⟨h.1.cons token, h.2⟩

theorem report_behind {token : Token} (h : reply.Blames ending spared) :
    ((reply.report (.invalidTarget token)).behind token).Blames ending 0 := by
  have h := h.mono (Nat.zero_le spared)
  cases reply with
  | ok => exact Reports.report h
  | error => exact ⟨h.1.report, h.2⟩

theorem andThen_of_taken
    {next : α → (rest : List Token) → rest.length + used ≤ tokens.length → Reply β n rest}
    (h : reply.Blames ending spared)
    (hnext : ∀ tree rest progress, (next tree rest progress).Blames ending (spared - used)) :
    (reply.andThen next).Blames ending spared := by
  cases reply with
  | error => exact h
  | ok tree rest reported suffix progress =>
    have hreply := hnext tree rest progress
    simp only [Reply.andThen]
    generalize next tree rest progress = second at hreply
    cases second with
    | ok => exact Reports.append h progress hreply
    | error => exact ⟨Reports.append h progress hreply.1, hreply.2⟩

theorem andThen
    {next : α → (rest : List Token) → rest.length + used ≤ tokens.length → Reply β n rest}
    (h : reply.Blames ending spared)
    (hnext : ∀ tree rest progress, (next tree rest progress).Blames ending spared) :
    (reply.andThen next).Blames ending spared := by
  apply h.andThen_of_taken
  intro tree rest progress
  exact (hnext tree rest progress).mono (Nat.sub_le spared used)

end Blames

theorem blames_expect (ending : Found) (kind : TokenKind) (tokens : List Token) :
    (expect ending kind tokens).Blames ending 1 := by
  cases tokens with
  | nil => exact .fail rfl
  | cons token rest =>
    simp only [expect]
    split
    · exact .first token token rest
    · exact .fail rfl

theorem blames_accept (kind : TokenKind) (tokens : List Token) :
    (accept kind tokens).Blames ending 1 := by
  cases tokens with
  | nil => exact .done none []
  | cons token rest =>
    simp only [accept]
    split
    · exact .weaken (.first (some token) token rest)
    · exact .done none _

theorem Blames.closed {reply : Reply α used tokens} {f : α → β} {kind : TokenKind}
    (h : reply.Blames ending 1) :
    (reply.andThen fun inner middle _ => (expect ending kind middle).map fun _ => f inner).Blames
      ending 1 := by
  apply h.andThen
  intro inner middle _
  exact (blames_expect ending kind middle).map

end Reply

namespace Grammar

open Reply

variable (ending : Found)

theorem blames_primary_of_ne_paren {token : Token} (htoken : token.kind ≠ .leftParen)
    (rest : List Token) :
    (primary ending (token :: rest)).Blames ending 1 := by
  rw [primary_of_ne_paren htoken]
  cases atom? token with
  | some atom => exact .first atom token rest
  | none => exact .fail rfl

theorem blames_expression :
    (∀ tokens, (assignment ending tokens).Blames ending 1) ∧
    (∀ levels tokens, (level ending levels tokens).Blames ending 1) ∧
    (∀ first tighter left tokens, (operations ending first tighter left tokens).Blames ending 1) ∧
    (∀ tokens, (unary ending tokens).Blames ending 1) ∧
    (∀ tokens, (primary ending tokens).Blames ending 1) := by
  apply assignment.mutual_induct
  -- an expression: in front of an equals sign stands an operand, so the sign is not the first token
  · intro tokens ihlevel ihassignment
    rw [assignment]
    apply ihlevel.andThen_of_taken
    intro left rest progress
    cases rest with
    | nil => exact .done left []
    | cons token rest =>
      simp only
      split
      · have hvalue := ihassignment [] token rest progress
        cases left with
        | name target => exact .weaken (.mono (.behind hvalue.map) (Nat.zero_le 1))
        | _ => exact .weaken (.report_behind hvalue)
      · exact .done left (token :: rest)
  -- an operand on some levels
  · intro tokens ihunary
    rw [level]
    exact ihunary
  · intro tokens first tighter ihlevel ihoperations
    rw [level]
    apply ihlevel.andThen
    intro left rest progress
    exact ihoperations left rest progress
  -- operators of a level
  · intro first tighter left
    rw [operations]
    exact .done left []
  · intro first tighter left token rest hkind ihlevel ihoperations
    rw [operations, if_pos hkind]
    apply Blames.weaken
    apply Blames.behind
    apply ihlevel.andThen
    intro right after progress
    exact ihoperations right after progress
  · intro first tighter left token rest hkind
    rw [operations, if_neg hkind]
    exact .done left (token :: rest)
  -- an operand of the tightest level
  · intro ihprimary
    rw [unary]
    exact ihprimary
  · intro token rest hkind ihunary
    rw [unary, if_pos hkind]
    exact .behind ihunary.map
  · intro token rest hkind ihprimary
    rw [unary, if_neg hkind]
    exact ihprimary
  -- an expression without operators
  · rw [primary]
    exact .fail rfl
  case case17 =>
    intro token rest hkind ihassignment
    rw [primary]
    simp only [hkind]
    exact .behind ihassignment.closed
  all_goals
    intros
    apply blames_primary_of_ne_paren
    simp_all

theorem blames_assignment (tokens : List Token) : (assignment ending tokens).Blames ending 1 :=
  (blames_expression ending).1 tokens

theorem blames_expressionStatement (tokens : List Token) :
    (expressionStatement ending tokens).Blames ending 1 :=
  (blames_assignment ending tokens).closed

theorem blames_declarationOf (tokens : List Token) :
    (declarationOf ending tokens).Blames ending 1 := by
  apply (blames_expect ending .identifier tokens).andThen
  intro name rest _
  apply (blames_accept .equal rest).andThen
  intro equals middle _
  cases equals with
  | none => exact .weaken (blames_expect ending .semicolon middle).map
  | some equals => exact .weaken (blames_assignment ending middle).closed

theorem blames_condition (tokens : List Token) : (condition ending tokens).Blames ending 1 := by
  apply (blames_expect ending .leftParen tokens).andThen
  intro _ rest _
  exact (blames_assignment ending rest).closed

theorem blames_expressionUnless (closing : TokenKind) (tokens : List Token) :
    (expressionUnless ending closing tokens).Blames ending 1 := by
  cases tokens with
  | nil => exact .weaken (blames_assignment ending []).map
  | cons token rest =>
    simp only [expressionUnless]
    split
    · exact .done none _
    · exact .weaken (blames_assignment ending (token :: rest)).map

theorem blames_forInitializer (tokens : List Token) :
    (forInitializer ending tokens).Blames ending 1 := by
  cases tokens with
  | nil => exact (blames_expressionStatement ending []).map
  | cons token rest =>
    simp only [forInitializer]
    split
    · exact .first none token rest
    · split
      · exact .behind (blames_declarationOf ending rest).map
      · exact (blames_expressionStatement ending (token :: rest)).map

theorem blames_forHeader (tokens : List Token) : (forHeader ending tokens).Blames ending 1 := by
  apply (blames_expect ending .leftParen tokens).andThen
  intro _ rest _
  apply (blames_forInitializer ending rest).andThen
  intro initializer rest _
  apply (blames_expressionUnless ending .semicolon rest).andThen
  intro condition rest _
  apply (blames_expect ending .semicolon rest).andThen
  intro _ rest _
  apply (blames_expressionUnless ending .rightParen rest).andThen
  intro increment rest _
  exact (blames_expect ending .rightParen rest).map

theorem blames_statement :
    (∀ tokens, (declaration ending tokens).Blames ending 1) ∧
    (∀ tokens, (statement ending tokens).Blames ending 1) ∧
    (∀ tokens, (members ending tokens).Blames ending 1) := by
  apply declaration.mutual_induct
  -- a member
  · intro ihstatement
    rw [declaration]
    exact ihstatement
  · intro token rest hkind
    rw [declaration, if_pos hkind]
    exact .behind (blames_declarationOf ending rest)
  · intro token rest hkind ihstatement
    rw [declaration, if_neg hkind]
    exact ihstatement
  -- a statement, by its first token
  · rw [statement]
    exact blames_expressionStatement ending []
  · intro token rest hkind
    rw [statement]
    simp only [hkind]
    exact .behind (blames_assignment ending rest).closed
  · intro token rest hkind ihmembers
    rw [statement]
    simp only [hkind]
    exact .behind ihmembers.map
  · intro token rest hkind ihbody ihalternative
    rw [statement]
    simp only [hkind]
    apply Blames.behind
    apply (blames_condition ending rest).andThen
    intro condition after progress
    apply (ihbody after progress).andThen
    intro body behind progress'
    apply (blames_accept .elseWord behind).andThen
    intro otherwise left progress''
    cases otherwise with
    | none => exact .done _ left
    | some otherwise =>
      have halternative := ihalternative after progress behind progress' left progress''
      exact .weaken halternative.map
  · intro token rest hkind ihbody
    rw [statement]
    simp only [hkind]
    apply Blames.behind
    apply (blames_condition ending rest).andThen
    intro condition after progress
    exact (ihbody after progress).map
  · intro token rest hkind ihbody
    rw [statement]
    simp only [hkind]
    apply Blames.behind
    apply (blames_forHeader ending rest).andThen
    intro header after progress
    exact (ihbody after progress).map
  · intro token rest hkind
    rw [statement]
    simp only [hkind]
    exact .behind (blames_expect ending .semicolon rest).map
  · intro token rest hprint hbrace hif hwhile hfor hbreak
    rw [statement]
    simp only
    exact blames_expressionStatement ending (token :: rest)
  -- the members of a block
  · rw [members]
    exact .fail rfl
  · intro token rest hkind
    rw [members, if_pos hkind]
    exact .first [] token rest
  · intro token rest hkind ihdeclaration ihmembers
    rw [members, if_neg hkind]
    apply ihdeclaration.andThen
    intro member after progress
    exact (ihmembers after progress).map

variable {ending : Found} {token : Token} {rest left : List Token} {reported : List ParseError}
  {suffix : left <:+ token :: rest}

theorem recover_append (taken left : List Token) : recover (taken ++ left) left = resume left := by
  have hlength := (resume_suffix left).length_le
  rw [recover, if_pos]
  rw [List.length_append]
  exact Nat.le_trans hlength (Nat.le_add_left _ _)

theorem recover_cons_suffix (token : Token) (rest : List Token) :
    recover rest (token :: rest) <:+ rest :=
  List.suffix_of_suffix_length_le (recover_suffix (List.suffix_refl _))
    (List.suffix_cons token rest) (recover_length rest (token :: rest))

theorem exists_taken_of_ok {statement : Stmt} {progress : left.length + 1 ≤ (token :: rest).length}
    (h : declaration ending (token :: rest) = .ok statement left reported suffix progress) :
    ∃ taken equals : List Token, taken ++ left = rest ∧ equals.Sublist taken ∧
      reported = equals.map .invalidTarget := by
  have hblames := (blames_statement ending).1 (token :: rest)
  rw [h] at hblames
  obtain ⟨rfl, _⟩ | htaken := Reports.cases_cons hblames
  · exact absurd progress (Nat.not_succ_le_self _)
  · exact htaken

theorem exists_taken_of_error {cause : ParseError}
    (h : declaration ending (token :: rest) = .error cause left reported suffix) :
    cause.found? = some (found ending left) ∧
      (left = token :: rest ∧ reported = [] ∨
        ∃ taken equals : List Token,
          taken ++ left = rest ∧ equals.Sublist taken ∧ reported = equals.map .invalidTarget) := by
  have hblames := (blames_statement ending).1 (token :: rest)
  rw [h] at hblames
  exact ⟨hblames.2, hblames.1.cases_cons⟩

end Grammar
end TreeWalk
