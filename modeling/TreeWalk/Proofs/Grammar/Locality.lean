import TreeWalk.Proofs.Grammar.Reading

/-!
This module contains the proof that what is read depends on the tokens that it takes and on no
others: it is read in the same way, and with the same errors, where the list ends behind it.
-/

namespace TreeWalk

def InvalidTargets (tokens : List Token) (reported : List ParseError) : Prop :=
  ∀ error ∈ reported, ∃ equals ∈ tokens, equals.kind = .equal ∧ error = .invalidTarget equals

namespace InvalidTargets

variable {tokens tokens' : List Token} {reported reported' : List ParseError}

theorem nil (tokens : List Token) : InvalidTargets tokens [] := by
  intro error hmem
  cases hmem

theorem mono (h : InvalidTargets tokens reported) (htokens : tokens ⊆ tokens') :
    InvalidTargets tokens' reported := by
  intro error hmem
  obtain ⟨equals, hequals, herror⟩ := h error hmem
  exact ⟨equals, htokens hequals, herror⟩

theorem append (h : InvalidTargets tokens reported) (h' : InvalidTargets tokens reported') :
    InvalidTargets tokens (reported ++ reported') := by
  intro error hmem
  obtain hmem | hmem := List.mem_append.1 hmem
  · exact h error hmem
  · exact h' error hmem

end InvalidTargets

namespace Reply

variable {α β : Type} {need used used' n n' : Nat} {left tokens tokens' : List Token}

/--
If something was read and `left` is left over with at least `need` tokens in front of it, then it
was also read in the second reply, which leaves these tokens and no others. The only errors on the
way are invalid targets.
-/
def Within (need : Nat) (left : List Token) (reply : Reply α used tokens)
    (reply' : Reply α used' tokens') : Prop :=
  match reply with
  | error _ _ _ _ => True
  | ok tree rest reported _ _ =>
    ∀ front, rest = front ++ left → need ≤ front.length →
      InvalidTargets tokens' reported ∧
      ∃ suffix progress, reply' = .ok tree front reported suffix progress

namespace Within

theorem done (result : α) (tokens left : List Token) :
    (Reply.done result (tokens ++ left)).Within need left (Reply.done result tokens) := by
  intro front hfront _
  cases List.append_cancel_right hfront
  exact ⟨.nil _, _, _, rfl⟩

theorem fail {cause : ParseError} {reply' : Reply α used' tokens'} :
    (Reply.fail cause tokens : Reply α used tokens).Within need left reply' :=
  trivial

theorem first (result : α) (token : Token) (rest left : List Token) :
    (Reply.first result token (rest ++ left)).Within need left (Reply.first result token rest) := by
  intro front hfront _
  cases List.append_cancel_right hfront
  exact ⟨.nil _, _, _, rfl⟩

variable {reply : Reply α used tokens} {reply' : Reply α used' tokens'}

theorem of_length_lt (h : tokens.length < left.length + used) : reply.Within need left reply' := by
  cases reply with
  | error => trivial
  | ok tree rest reported suffix progress =>
    rintro front rfl _
    rw [List.length_append] at progress
    omega

theorem of_need (h : tokens.length < left.length + need) : reply.Within need left reply' := by
  cases reply with
  | error => trivial
  | ok tree rest reported suffix progress =>
    rintro front rfl _
    have hlength := suffix.length_le
    rw [List.length_append] at hlength
    omega

theorem mono {need' : Nat} (h : reply.Within need left reply') (hneed : need ≤ need') :
    reply.Within need' left reply' := by
  cases reply with
  | error => trivial
  | ok tree rest reported suffix progress =>
    intro front hfront hneed'
    exact h front hfront (Nat.le_trans hneed hneed')

theorem of_cons (reading : (tokens : List Token) → Reply α 1 tokens)
    (reading' : (tokens : List Token) → Reply α used' tokens) {token : Token} {rest : List Token}
    (h : token :: rest = tokens' ++ left)
    (hcons : ∀ rest', rest = rest' ++ left →
      (reading (token :: rest)).Within need left (reading' (token :: rest'))) :
    (reading (token :: rest)).Within need left (reading' tokens') := by
  obtain ⟨rfl, rfl⟩ | ⟨rest', rfl, hrest⟩ := List.cons_eq_append_iff.1 h
  · exact of_length_lt (Nat.lt_succ_self _)
  · exact hcons rest' hrest

theorem weaken_of_length_lt (h : tokens.length < left.length + used) :
    reply.weaken.Within need left reply' := by
  cases reply with
  | error => trivial
  | ok tree rest reported suffix progress =>
    rintro front rfl _
    rw [List.length_append] at progress
    omega

theorem map {f : α → β} (h : reply.Within need left reply') :
    (reply.map f).Within need left (reply'.map f) := by
  cases reply with
  | error => trivial
  | ok tree rest reported suffix progress =>
    intro front hfront hneed
    obtain ⟨hreported, suffix', progress', rfl⟩ := h front hfront hneed
    exact ⟨hreported, suffix', progress', rfl⟩

theorem weaken (h : reply.Within need left reply') :
    reply.weaken.Within need left reply'.weaken := by
  cases reply with
  | error => trivial
  | ok tree rest reported suffix progress =>
    intro front hfront hneed
    obtain ⟨hreported, suffix', _, rfl⟩ := h front hfront hneed
    exact ⟨hreported, suffix', suffix'.length_le, rfl⟩

theorem behind {token : Token} (h : reply.Within need left reply') :
    (reply.behind token).Within need left (reply'.behind token) := by
  cases reply with
  | error => trivial
  | ok tree rest reported suffix progress =>
    intro front hfront hneed
    obtain ⟨hreported, suffix', _, rfl⟩ := h front hfront hneed
    exact ⟨hreported.mono (List.subset_cons_self _ _), _, _, rfl⟩

theorem report_behind {token : Token} (htoken : token.kind = .equal)
    (h : reply.Within need left reply') :
    ((reply.report (.invalidTarget token)).behind token).Within need left
      ((reply'.report (.invalidTarget token)).behind token) := by
  cases reply with
  | error => trivial
  | ok tree rest reported suffix progress =>
    intro front hfront hneed
    obtain ⟨hreported, suffix', _, rfl⟩ := h front hfront hneed
    have htarget : InvalidTargets (token :: tokens') [.invalidTarget token] := by
      intro error hmem
      exact ⟨token, List.mem_cons_self, htoken, List.mem_singleton.1 hmem⟩
    exact ⟨htarget.append (hreported.mono (List.subset_cons_self _ _)), _, _, rfl⟩

theorem andThen {need' : Nat}
    {next : α → (rest : List Token) → rest.length + used ≤ tokens.length → Reply β n rest}
    {next' : α → (rest : List Token) → rest.length + used' ≤ tokens'.length → Reply β n' rest}
    (h : reply.Within need' left reply') (hneed : need' ≤ n)
    (hnext : ∀ result rest progress progress',
      (next result (rest ++ left) progress).Within need left (next' result rest progress')) :
    (reply.andThen next).Within need left (reply'.andThen next') := by
  cases reply with
  | error => trivial
  | ok inner middle reported suffix progress =>
    cases hsecond : next inner middle progress with
    | error =>
      simp only [Reply.andThen, hsecond]
      trivial
    | ok tree rest reported' suffix' progress' =>
      simp only [Reply.andThen, hsecond]
      rintro front rfl hfront
      obtain ⟨taken, htaken⟩ := suffix'
      obtain rfl : middle = (taken ++ front) ++ left := by rw [← htaken, List.append_assoc]
      have hlength : need' ≤ (taken ++ front).length := by
        simp only [List.length_append] at progress' ⊢
        omega
      obtain ⟨hreported, hsuffix, hprogress, rfl⟩ := h (taken ++ front) rfl hlength
      have hreply := hnext inner (taken ++ front) progress hprogress
      rw [hsecond] at hreply
      obtain ⟨hreported', hsuffix', _, hreply'⟩ := hreply front rfl hfront
      have hprogress : front.length + used' ≤ tokens'.length :=
        Nat.le_trans (Nat.add_le_add_right hsuffix'.length_le used') hprogress
      refine ⟨hreported.append (hreported'.mono hsuffix.subset), hsuffix'.trans hsuffix,
        hprogress, ?_⟩
      simp only [hreply']

theorem expect (ending ending' : Found) (kind : TokenKind) (tokens left : List Token) :
    (Reply.expect ending kind (tokens ++ left)).Within 0 left
      (Reply.expect ending' kind tokens) := by
  cases tokens with
  | nil => exact of_length_lt (Nat.lt_succ_self _)
  | cons token rest =>
    simp only [List.cons_append, Reply.expect]
    split
    · exact .first token token rest left
    · exact .fail

theorem accept (kind : TokenKind) (tokens left : List Token) :
    (Reply.accept kind (tokens ++ left)).Within 0 left (Reply.accept kind tokens) := by
  cases tokens with
  | nil =>
    cases left with
    | nil => exact .done none [] []
    | cons token rest =>
      simp only [List.nil_append, Reply.accept]
      split
      · exact weaken_of_length_lt (Nat.lt_succ_self _)
      · exact .done none [] (token :: rest)
  | cons token rest =>
    simp only [List.cons_append, Reply.accept]
    split
    · exact .weaken (.first (some token) token rest left)
    · exact .done none (token :: rest) left

theorem closed {f : α → β} {ending ending' : Found} {kind : TokenKind}
    (h : reply.Within need left reply') (hneed : need ≤ 1) :
    (reply.andThen fun inner middle _ =>
      (Reply.expect ending kind middle).map fun _ => f inner).Within 0 left
      (reply'.andThen fun inner middle _ =>
        (Reply.expect ending' kind middle).map fun _ => f inner) := by
  apply h.andThen hneed
  intro inner middle _ _
  exact (expect ending ending' kind middle left).map

end Within
end Reply

namespace Grammar

open Reply

variable {ending ending' : Found} {left : List Token}

theorem within_primary_of_ne_paren {token : Token} (htoken : token.kind ≠ .leftParen)
    (rest : List Token) :
    (primary ending (token :: (rest ++ left))).Within 0 left (primary ending' (token :: rest)) := by
  rw [primary_of_ne_paren htoken, primary_of_ne_paren htoken]
  cases atom? token with
  | some atom => exact .first atom token rest left
  | none => exact .fail

variable (ending ending' left) in
theorem within_expression :
    (∀ tokens tokens', tokens = tokens' ++ left →
      (assignment ending tokens).Within 0 left (assignment ending' tokens')) ∧
    (∀ levels tokens tokens', tokens = tokens' ++ left →
      (level ending levels tokens).Within 0 left (level ending' levels tokens')) ∧
    (∀ first tighter operand tokens tokens', tokens = tokens' ++ left →
      (operations ending first tighter operand tokens).Within 0 left
        (operations ending' first tighter operand tokens')) ∧
    (∀ tokens tokens', tokens = tokens' ++ left →
      (unary ending tokens).Within 0 left (unary ending' tokens')) ∧
    (∀ tokens tokens', tokens = tokens' ++ left →
      (primary ending tokens).Within 0 left (primary ending' tokens')) := by
  apply assignment.mutual_induct
  -- an expression
  · rintro _ ihlevel ihassignment tokens rfl
    rw [assignment, assignment]
    apply (ihlevel tokens rfl).andThen (Nat.zero_le _)
    intro operand rest progress _
    cases rest with
    | nil =>
      cases left with
      | nil => exact .done operand [] []
      | cons token rest =>
        simp only [List.nil_append]
        split
        · cases operand <;> exact .weaken_of_length_lt (Nat.lt_succ_self _)
        · exact .done operand [] _
    | cons token rest =>
      simp only [List.cons_append]
      split
      · next hequal =>
        have hvalue := ihassignment [] token (rest ++ left) progress rest rfl
        cases operand with
        | name target => exact .weaken (.behind hvalue.map)
        | _ => exact .weaken (.report_behind hequal hvalue)
      · exact .done operand (token :: rest) left
  -- an operand on some levels
  · rintro _ ihunary tokens rfl
    rw [level, level]
    exact ihunary tokens rfl
  · rintro _ first tighter ihlevel ihoperations tokens rfl
    rw [level, level]
    apply (ihlevel tokens rfl).andThen (Nat.zero_le _)
    intro operand rest progress _
    exact ihoperations operand (rest ++ left) progress rest rfl
  -- operators of a level
  · rintro first tighter operand tokens h
    obtain ⟨rfl, rfl⟩ := List.append_eq_nil_iff.1 h.symm
    rw [operations, operations]
    exact .done operand [] []
  · intro first tighter operand token rest htoken ihlevel ihoperations tokens h
    obtain ⟨rfl, rfl⟩ | ⟨rest, rfl, rfl⟩ := List.cons_eq_append_iff.1 h
    · rw [operations, operations]
      simp only [if_pos htoken]
      exact .weaken_of_length_lt (Nat.lt_succ_self _)
    · rw [operations, operations]
      simp only [if_pos htoken]
      apply Within.weaken
      apply Within.behind
      apply (ihlevel rest rfl).andThen (Nat.zero_le _)
      intro right after progress _
      exact ihoperations right (after ++ left) progress after rfl
  · intro first tighter operand token rest htoken tokens h
    obtain ⟨rfl, rfl⟩ | ⟨rest, rfl, rfl⟩ := List.cons_eq_append_iff.1 h
    · rw [operations, operations]
      simp only [if_neg htoken]
      exact .done operand [] (token :: rest)
    · rw [operations, operations]
      simp only [if_neg htoken]
      exact .done operand (token :: rest) left
  -- an operand of the tightest level
  · intro _ tokens h
    exact .of_length_lt (Nat.succ_pos _)
  · intro token rest htoken ihunary tokens h
    apply Within.of_cons (unary ending) (unary ending') h
    rintro rest rfl
    rw [unary, unary]
    simp only [if_pos htoken]
    exact .behind (ihunary rest rfl).map
  · intro token rest htoken ihprimary tokens h
    apply Within.of_cons (unary ending) (unary ending') h
    rintro rest rfl
    rw [unary, unary]
    simp only [if_neg htoken]
    exact ihprimary (token :: rest) rfl
  -- an expression without operators
  · intro tokens h
    exact .of_length_lt (Nat.succ_pos _)
  case case17 =>
    intro token rest htoken ihassignment tokens h
    apply Within.of_cons (primary ending) (primary ending') h
    rintro rest rfl
    rw [primary, primary]
    simp only [htoken]
    exact .behind ((ihassignment rest rfl).closed (Nat.zero_le _))
  all_goals
    intros
    rename_i h
    apply Within.of_cons (primary ending) (primary ending') h
    rintro rest rfl
    apply within_primary_of_ne_paren
    simp_all

theorem within_assignment (tokens : List Token) :
    (assignment ending (tokens ++ left)).Within 0 left (assignment ending' tokens) :=
  (within_expression ending ending' left).1 _ tokens rfl

theorem within_expressionStatement (tokens : List Token) :
    (expressionStatement ending (tokens ++ left)).Within 0 left
      (expressionStatement ending' tokens) :=
  (within_assignment tokens).closed (Nat.zero_le _)

theorem within_declarationOf (tokens : List Token) :
    (declarationOf ending (tokens ++ left)).Within 0 left (declarationOf ending' tokens) := by
  apply (Within.expect ending ending' .identifier tokens left).andThen (Nat.zero_le _)
  intro name rest _ _
  apply (Within.accept .equal rest left).andThen (Nat.zero_le _)
  intro equals middle _ _
  cases equals with
  | none => exact .weaken (.map (.expect ending ending' .semicolon middle left))
  | some equals => exact .weaken ((within_assignment middle).closed (Nat.zero_le _))

theorem within_condition (tokens : List Token) :
    (condition ending (tokens ++ left)).Within 0 left (condition ending' tokens) := by
  apply (Within.expect ending ending' .leftParen tokens left).andThen (Nat.zero_le _)
  intro _ rest _ _
  exact (within_assignment rest).closed (Nat.zero_le _)

theorem within_expressionUnless (closing : TokenKind) (tokens : List Token) :
    (expressionUnless ending closing (tokens ++ left)).Within 1 left
      (expressionUnless ending' closing tokens) := by
  cases tokens with
  | nil => exact .of_need (Nat.lt_succ_self _)
  | cons token rest =>
    simp only [List.cons_append, expressionUnless]
    split
    · exact .done none (token :: rest) left
    · exact .weaken (.map (.mono (within_assignment (token :: rest)) (Nat.zero_le _)))

theorem within_forInitializer (tokens : List Token) :
    (forInitializer ending (tokens ++ left)).Within 0 left (forInitializer ending' tokens) := by
  cases tokens with
  | nil => exact .of_length_lt (Nat.lt_succ_self _)
  | cons token rest =>
    simp only [List.cons_append, forInitializer]
    split
    · exact .first none token rest left
    · split
      · exact .behind (.map (within_declarationOf rest))
      · exact .map (within_expressionStatement (token :: rest))

theorem within_forHeader (tokens : List Token) :
    (forHeader ending (tokens ++ left)).Within 0 left (forHeader ending' tokens) := by
  apply (Within.expect ending ending' .leftParen tokens left).andThen (Nat.zero_le _)
  intro _ rest _ _
  apply (within_forInitializer rest).andThen (Nat.zero_le _)
  intro initializer rest _ _
  apply (within_expressionUnless .semicolon rest).andThen (Nat.le_refl _)
  intro condition rest _ _
  apply (Within.expect ending ending' .semicolon rest left).andThen (Nat.zero_le _)
  intro _ rest _ _
  exact (within_expressionUnless .rightParen rest).closed (Nat.le_refl _)

variable (ending ending' left) in
theorem within_statement :
    (∀ tokens tokens', tokens = tokens' ++ left →
      (declaration ending tokens).Within 0 left (declaration ending' tokens')) ∧
    (∀ tokens tokens', tokens = tokens' ++ left →
      (statement ending tokens).Within 0 left (statement ending' tokens')) ∧
    (∀ tokens tokens', tokens = tokens' ++ left →
      (members ending tokens).Within 0 left (members ending' tokens')) := by
  apply declaration.mutual_induct
  -- a member
  · intro _ tokens h
    exact .of_length_lt (Nat.succ_pos _)
  · intro token rest htoken tokens h
    apply Within.of_cons (declaration ending) (declaration ending') h
    rintro rest rfl
    rw [declaration, declaration]
    simp only [if_pos htoken]
    exact .behind (within_declarationOf rest)
  · intro token rest htoken ihstatement tokens h
    apply Within.of_cons (declaration ending) (declaration ending') h
    rintro rest rfl
    rw [declaration, declaration]
    simp only [if_neg htoken]
    exact ihstatement (token :: rest) rfl
  -- a statement, by its first token
  · intro tokens h
    exact .of_length_lt (Nat.succ_pos _)
  · intro token rest htoken tokens h
    apply Within.of_cons (statement ending) (statement ending') h
    rintro rest rfl
    rw [statement, statement]
    simp only [htoken]
    exact .behind ((within_assignment rest).closed (Nat.zero_le _))
  · intro token rest htoken ihmembers tokens h
    apply Within.of_cons (statement ending) (statement ending') h
    rintro rest rfl
    rw [statement, statement]
    simp only [htoken]
    exact .behind (ihmembers rest rfl).map
  · intro token rest htoken ihbody ihalternative tokens h
    apply Within.of_cons (statement ending) (statement ending') h
    rintro rest rfl
    rw [statement, statement]
    simp only [htoken]
    apply Within.behind
    apply (within_condition rest).andThen (Nat.zero_le _)
    intro condition after progress _
    apply (ihbody _ progress after rfl).andThen (Nat.zero_le _)
    intro body behind progress' _
    -- without an `else` in the tokens that are left the statement ends in both
    apply (Within.accept .elseWord behind left).andThen (Nat.zero_le _)
    intro otherwise later progress'' _
    cases otherwise with
    | none => exact .done _ later left
    | some otherwise =>
      exact .weaken (ihalternative _ progress _ progress' _ progress'' later rfl).map
  · intro token rest htoken ihbody tokens h
    apply Within.of_cons (statement ending) (statement ending') h
    rintro rest rfl
    rw [statement, statement]
    simp only [htoken]
    apply Within.behind
    apply (within_condition rest).andThen (Nat.zero_le _)
    intro condition after progress _
    exact (ihbody _ progress after rfl).map
  · intro token rest htoken ihbody tokens h
    apply Within.of_cons (statement ending) (statement ending') h
    rintro rest rfl
    rw [statement, statement]
    simp only [htoken]
    apply Within.behind
    apply (within_forHeader rest).andThen (Nat.zero_le _)
    intro header after progress _
    exact (ihbody _ progress after rfl).map
  · intro token rest htoken tokens h
    apply Within.of_cons (statement ending) (statement ending') h
    rintro rest rfl
    rw [statement, statement]
    simp only [htoken]
    exact .behind (.map (.expect ending ending' .semicolon rest left))
  · intro token rest hprint hbrace hif hwhile hfor hbreak tokens h
    apply Within.of_cons (statement ending) (statement ending') h
    rintro rest rfl
    have hexpression : (expressionStatement ending (token :: (rest ++ left))).Within 0 left
        (expressionStatement ending' (token :: rest)) := within_expressionStatement (token :: rest)
    rw [statement, statement]
    simp only
    exact hexpression
  -- the members of a block
  · intro tokens h
    exact .of_length_lt (Nat.succ_pos _)
  · intro token rest htoken tokens h
    apply Within.of_cons (members ending) (members ending') h
    rintro rest rfl
    rw [members, members]
    simp only [if_pos htoken]
    exact .first [] token rest left
  · intro token rest htoken ihdeclaration ihmembers tokens h
    apply Within.of_cons (members ending) (members ending') h
    rintro rest rfl
    rw [members, members]
    simp only [if_neg htoken]
    apply (ihdeclaration (token :: rest) rfl).andThen (Nat.zero_le _)
    intro member after progress _
    exact (ihmembers _ progress after rfl).map

end Grammar
end TreeWalk
