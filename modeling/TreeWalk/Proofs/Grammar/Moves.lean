import TreeWalk.Proofs.Grammar.Following

/-!
This module contains how far the parser moves. It never moves its cursor back, and no expression or
statement is read without passing a token. Each round of a loop that goes round again has passed one
as well.
-/

namespace TreeWalk

open Grammar (Level)

namespace Cursor

def Settled (cursor : Cursor Token) : Prop :=
  ∀ token ∈ cursor.peek, token.kind ≠ .comment

structure Moved (least : Nat) (cursor cursor' : Cursor Token) : Prop where
  items_eq : cursor'.items = cursor.items
  head_le : cursor.head + least ≤ cursor'.head
  settled : cursor.Settled → cursor'.Settled

namespace Moved

variable {least least' : Nat} {cursor cursor' cursor'' : Cursor Token}

theorem refl (cursor : Cursor Token) : cursor.Moved 0 cursor :=
  ⟨rfl, Nat.le_refl _, id⟩

theorem mono (h : cursor.Moved least cursor') (hle : least' ≤ least) :
    cursor.Moved least' cursor' :=
  ⟨h.items_eq, Nat.le_trans (Nat.add_le_add_left hle _) h.head_le, h.settled⟩

theorem trans (h : cursor.Moved least cursor') (h' : cursor'.Moved least' cursor'') :
    cursor.Moved (least + least') cursor'' where
  items_eq := h'.items_eq.trans h.items_eq
  head_le := by
    have hle := h.head_le
    have hle' := h'.head_le
    omega
  settled := h'.settled ∘ h.settled

theorem head_lt (h : cursor.Moved 1 cursor') : cursor.head < cursor'.head :=
  h.head_le

end Moved

theorem head_le_advance (cursor : Cursor Token) : cursor.head ≤ cursor.advance.head := by
  have hle := cursor.head_le
  simp only [advance, moveTo]
  omega

theorem head_lt_advance {cursor : Cursor Token} {token : Token} (hpeek : cursor.peek = some token) :
    cursor.head < cursor.advance.head := by
  have hlt : cursor.head < cursor.items.length := (List.getElem?_eq_some_iff.1 hpeek).1
  simp only [advance, moveTo]
  omega

theorem skipComments_moved (cursor : Cursor Token) :
    cursor.skipComments.items = cursor.items ∧ cursor.head ≤ cursor.skipComments.head ∧
    cursor.skipComments.Settled := by
  induction hrest : cursor.rest generalizing cursor with
  | nil =>
    have hpeek : cursor.peek = none := by rw [peek_eq, hrest]; rfl
    have hsettled : cursor.Settled := by simp [Settled, hpeek]
    rw [skipComments_of_settled hsettled]
    exact ⟨rfl, Nat.le_refl _, hsettled⟩
  | cons token rest ih =>
    have hpeek : cursor.peek = some token := by rw [peek_eq, hrest]; rfl
    by_cases hcomment : token.kind = .comment
    · have hadvance : cursor.advance.rest = rest :=
        (List.cons.inj ((rest_eq_cons hpeek).symm.trans hrest)).2
      obtain ⟨hitems, hhead, hsettled⟩ := ih cursor.advance hadvance
      rw [skipComments_of_comment hpeek hcomment]
      exact ⟨hitems, Nat.le_trans cursor.head_le_advance hhead, hsettled⟩
    · have hsettled : cursor.Settled := by simpa [Settled, hpeek] using hcomment
      rw [skipComments_of_settled hsettled]
      exact ⟨rfl, Nat.le_refl _, hsettled⟩

theorem moved_skipComments_of {least : Nat} {cursor cursor' : Cursor Token}
    (hitems : cursor'.items = cursor.items) (hhead : cursor.head + least ≤ cursor'.head) :
    cursor.Moved least cursor'.skipComments :=
  have ⟨hitems', hhead', hsettled⟩ := cursor'.skipComments_moved
  ⟨hitems'.trans hitems, Nat.le_trans hhead hhead', fun _ => hsettled⟩

theorem moved_skipComments_advance (cursor : Cursor Token) :
    cursor.Moved 0 cursor.advance.skipComments :=
  moved_skipComments_of rfl cursor.head_le_advance

theorem moved_skipComments_advance_of_peek {cursor : Cursor Token} {token : Token}
    (hpeek : cursor.peek = some token) :
    cursor.Moved 1 cursor.advance.skipComments :=
  moved_skipComments_of rfl (head_lt_advance hpeek)

end Cursor

namespace Parsing

variable {α β : Type} {least least' : Nat}

def Lands (least : Nat) (cursor : Cursor Token) : Option (Except ParseError α × Parser) → Prop
  | none => True
  | some (.ok _, p) => cursor.Moved least p.cursor
  | some (.error _, p) => cursor.Moved 0 p.cursor

theorem Lands.mono {cursor : Cursor Token} {answer : Option (Except ParseError α × Parser)}
    (h : Lands least cursor answer) (hle : least' ≤ least) : Lands least' cursor answer := by
  obtain _ | ⟨_ | _, p⟩ := answer
  · trivial
  · exact h
  · exact Cursor.Moved.mono h hle

theorem Lands.behind {cursor cursor' : Cursor Token}
    {answer : Option (Except ParseError α × Parser)} (hmoved : cursor.Moved least cursor')
    (h : Lands least' cursor' answer) : Lands (least + least') cursor answer := by
  obtain _ | ⟨_ | _, p⟩ := answer
  · trivial
  · exact (hmoved.trans h).mono (Nat.zero_le _)
  · exact hmoved.trans h

def Moves (least : Nat) (x : Parsing α) : Prop :=
  ∀ p, Lands least p.cursor (x p)

theorem bind_accept_apply (kinds : List TokenKind) (f : Option Token → Parsing α) (p : Parser) :
    (Parsing.accept kinds >>= f) p = f (p.accept kinds).1 (p.accept kinds).2 :=
  rfl

theorem accept_cases (kinds : List TokenKind) (p : Parser) :
    (∃ token p', p.accept kinds = (some token, p') ∧ p.cursor.Moved 1 p'.cursor) ∨
      ∃ p', p.accept kinds = (none, p') ∧ p.cursor.Moved 0 p'.cursor := by
  rw [Parser.accept]
  split
  · rw [Parser.advance, Cursor.consume]
    cases hpeek : p.cursor.peek with
    | none => exact .inr ⟨_, rfl, p.cursor.moved_skipComments_advance⟩
    | some token => exact .inl ⟨token, _, rfl, Cursor.moved_skipComments_advance_of_peek hpeek⟩
  · exact .inr ⟨p, rfl, .refl p.cursor⟩

namespace Moves

variable {x : Parsing α}

theorem head_lt {p p' : Parser} {result : α} (h : Moves 1 x)
    (hresult : x p = some (.ok result, p')) :
    p.cursor.head < p'.cursor.head := by
  have hlands := h p
  rw [hresult] at hlands
  exact Cursor.Moved.head_lt hlands

theorem mono (h : Moves least x) (hle : least' ≤ least) : Moves least' x :=
  fun p => (h p).mono hle

theorem pure (result : α) : Moves 0 (Pure.pure result : Parsing α) :=
  fun p => .refl p.cursor

theorem exhausted : Moves least (Parsing.exhausted : Parsing α) :=
  fun _ => trivial

theorem any (h : Moves least x) : Moves 0 x :=
  h.mono (Nat.zero_le least)

theorem bind_add {f : α → Parsing β} (hx : Moves least x) (hf : ∀ result, Moves least' (f result)) :
    Moves (least + least') (x >>= f) := by
  intro p
  have hlands := hx p
  rw [bind_apply]
  generalize x p = answer at hlands
  obtain _ | ⟨_ | result, p'⟩ := answer
  · trivial
  · exact hlands
  · exact .behind hlands (hf result p')

theorem bind {f : α → Parsing β} (hx : Moves least x) (hf : ∀ result, Moves 0 (f result)) :
    Moves least (x >>= f) :=
  hx.bind_add hf

theorem bind_right {f : α → Parsing β} (hx : Moves least x)
    (hf : ∀ result, Moves least' (f result)) :
    Moves least' (x >>= f) :=
  (hx.bind_add hf).mono (Nat.le_add_left _ _)

theorem kind : Moves 0 Parsing.kind :=
  fun p => .refl p.cursor

theorem report (error : ParseError) : Moves 0 (Parsing.report error) :=
  fun p => .refl p.cursor

theorem advance : Moves 0 Parsing.advance :=
  fun p => p.cursor.moved_skipComments_advance

theorem accept {kinds : List TokenKind} {f : Option Token → Parsing α}
    (hsome : ∀ token, Moves (least - 1) (f (some token))) (hnone : Moves least (f none)) :
    Moves least (Parsing.accept kinds >>= f) := by
  intro p
  rw [bind_accept_apply]
  obtain ⟨token, p', haccept, hmoved⟩ | ⟨p', haccept, hmoved⟩ := accept_cases kinds p
  · rw [haccept]
    exact (Lands.behind hmoved (hsome token p')).mono (by omega)
  · rw [haccept]
    exact (Lands.behind hmoved (hnone p')).mono (by omega)

theorem consume (kind : TokenKind) : Moves 1 (Parsing.consume kind) := by
  intro p
  rw [consume_apply]
  split
  · next token hpeek =>
    split
    · exact Cursor.moved_skipComments_advance_of_peek hpeek
    · exact .refl p.cursor
  · exact .refl p.cursor

theorem map {f : α → β} (h : Moves least x) :
    Moves least (x >>= fun result => Pure.pure (f result)) :=
  h.bind fun result => .pure (f result)

theorem closed {kind : TokenKind} {f : α → β} (h : Moves least x) :
    Moves 1 (x >>= fun inner => Parsing.consume kind >>= fun _ => Pure.pure (f inner)) :=
  h.bind_right fun _ => (consume kind).map

end Moves

/--
A round of the loop over the operators of a level. Without an operator the loop ends.
-/
def operand (first : Level) (tighter : List Level) (left : Expr) (bound : Nat) :
    Parsing (Option Expr) := do
  match ← accept first.operators with
  | none => return none
  | some operator =>
    let right ← operation tighter bound
    return some (first.node left operator right)

theorem operations_succ (first : Level) (tighter : List Level) (left : Expr) (bound : Nat) :
    operations first tighter left (bound + 1) = operand first tighter left bound >>= fun again =>
      match again with
      | none => pure left
      | some left => operations first tighter left bound := by
  simp only [operations, operand, bind_assoc]
  congr 1
  funext accepted
  cases accepted with
  | none => rfl
  | some operator => simp only [bind_assoc, pure_bind]

theorem Moves.operand {first : Level} {tighter : List Level} {left : Expr} {bound : Nat}
    (h : Moves 1 (operation tighter bound)) : Moves 0 (operand first tighter left bound) := by
  apply Moves.accept
  · intro operator
    exact h.any.map
  · exact .pure none

theorem moves_expression (bound : Nat) :
    Moves 1 (assignment bound) ∧ (∀ levels, Moves 1 (operation levels bound)) ∧
      (∀ first tighter left, Moves 0 (operations first tighter left bound)) ∧
      Moves 1 (unary bound) ∧
      Moves 1 (primary bound) := by
  induction bound with
  | zero =>
    simp only [assignment, operation, operations, unary, primary]
    exact ⟨.exhausted, fun _ => .exhausted, fun _ _ _ => .exhausted, .exhausted, .exhausted⟩
  | succ bound ih =>
    obtain ⟨ihassignment, ihoperation, ihoperations, ihunary, ihprimary⟩ := ih
    refine ⟨?_, ?_, ?_, ?_, ?_⟩
    · simp only [assignment]
      apply Moves.bind (ihoperation _)
      intro left
      apply Moves.accept
      · intro equals
        cases left with
        | name target => exact ihassignment.any.map
        | _ => exact (Moves.report _).bind fun _ => ihassignment.any
      · exact .pure left
    · intro levels
      simp only [operation]
      cases levels with
      | nil => exact ihunary
      | cons first tighter =>
        exact (ihoperation tighter).bind fun left => ihoperations first tighter left
    · intro first tighter left
      rw [operations_succ]
      apply Moves.bind (.operand (ihoperation tighter))
      intro again
      cases again with
      | none => exact .pure left
      | some left => exact ihoperations first tighter left
    · simp only [unary]
      apply Moves.accept
      · intro operator
        exact ihunary.any.map
      · exact ihprimary
    · intro p
      rw [primary_apply]
      split
      · exact .refl p.cursor
      · next token hpeek =>
        have hmoved : p.cursor.Moved 1 p.advance.2.cursor :=
          Cursor.moved_skipComments_advance_of_peek hpeek
        split
        · exact (Lands.behind hmoved (ihassignment.closed _)).mono (by decide)
        · split
          · exact hmoved
          · exact .refl p.cursor

theorem moves_assignment (bound : Nat) : Moves 1 (assignment bound) :=
  (moves_expression bound).1

theorem moves_operation (levels : List Level) (bound : Nat) : Moves 1 (operation levels bound) :=
  (moves_expression bound).2.1 levels

theorem head_lt_of_operand {first : Level} {tighter : List Level} {left next : Expr} {bound : Nat}
    {p p' : Parser} (h : operand first tighter left bound p = some (.ok (some next), p')) :
    p.cursor.head < p'.cursor.head := by
  rw [operand, bind_accept_apply] at h
  obtain ⟨operator, middle, haccept, hmoved⟩ | ⟨middle, haccept, _⟩ :=
    accept_cases first.operators p
  · have hright : Moves 0
        (operation tighter bound >>= fun right => pure (some (first.node left operator right))) :=
      (moves_operation tighter bound).any.map
    have hlands := Lands.behind hmoved (hright middle)
    simp only [haccept] at h
    rw [h] at hlands
    exact Cursor.Moved.head_lt hlands
  -- without an operator the loop does not go round again
  · rw [haccept] at h
    cases h

theorem moves_expressionStatement (bound : Nat) : Moves 1 (expressionStatement bound) :=
  (moves_assignment bound).closed

theorem moves_printStatement (bound : Nat) : Moves 1 (printStatement bound) :=
  (moves_assignment bound).closed

theorem moves_varDeclaration (bound : Nat) : Moves 1 (varDeclaration bound) := by
  apply Moves.bind (.consume .identifier)
  intro name
  apply Moves.accept
  · intro equals
    exact (moves_assignment bound).closed.any
  · exact (Moves.consume .semicolon).any.map

theorem moves_condition (bound : Nat) : Moves 1 (condition bound) :=
  (Moves.consume .leftParen).bind fun _ => (moves_assignment bound).closed.any

theorem moves_forInitializer (bound : Nat) : Moves 1 (forInitializer bound) := by
  apply Moves.accept
  · intro semicolon
    exact .pure none
  · apply Moves.accept
    · intro keyword
      exact (moves_varDeclaration bound).any.map
    · exact (moves_expressionStatement bound).map

theorem moves_expressionUnless (closing : TokenKind) (bound : Nat) :
    Moves 0 (expressionUnless closing bound) := by
  apply Moves.kind.bind
  intro next
  split
  · exact .pure none
  · exact (moves_assignment bound).any.map

theorem moves_forHeader (bound : Nat) : Moves 1 (forHeader bound) := by
  apply Moves.bind (.consume .leftParen)
  intro _
  apply Moves.bind_right (moves_forInitializer bound)
  intro initializer
  apply Moves.bind_right (moves_expressionUnless .semicolon bound)
  intro test
  apply Moves.bind_right (.consume .semicolon)
  intro _
  exact (moves_expressionUnless .rightParen bound).closed.any

/--
A round of the loop over the members of a block. The loop ends at the closing brace.
-/
def member (bound : Nat) : Parsing (Option Stmt) := do
  let next ← kind
  if next = .rightBrace ∨ next = .eof then
    let _ ← consume .rightBrace
    return none
  else
    return some (← declaration bound)

theorem block_succ (bound : Nat) :
    block (bound + 1) = member bound >>= fun again =>
      match again with
      | none => pure []
      | some statement => do
        let others ← block bound
        return statement :: others := by
  simp only [block, member, bind_assoc]
  congr 1
  funext next
  split <;> simp only [bind_assoc, pure_bind]

theorem Moves.member {bound : Nat} (h : Moves 1 (declaration bound)) : Moves 1 (member bound) := by
  apply Moves.kind.bind_right
  intro next
  split
  · exact (Moves.consume .rightBrace).map
  · exact h.map

theorem moves_statement (bound : Nat) :
    Moves 1 (declaration bound) ∧ Moves 1 (statement bound) ∧ Moves 1 (block bound) := by
  induction bound with
  | zero =>
    simp only [declaration, statement, block]
    exact ⟨.exhausted, .exhausted, .exhausted⟩
  | succ bound ih =>
    obtain ⟨ihdeclaration, ihstatement, ihblock⟩ := ih
    refine ⟨?_, ?_, ?_⟩
    · simp only [declaration]
      apply Moves.accept
      · intro keyword
        exact (moves_varDeclaration bound).any
      · exact ihstatement
    · simp only [statement]
      apply Moves.kind.bind_right
      intro next
      split
      · exact Moves.advance.bind_right fun _ => moves_printStatement bound
      · exact Moves.advance.bind_right fun _ => ihblock.map
      · apply Moves.advance.bind_right
        intro _
        apply Moves.bind (moves_condition bound)
        intro test
        apply Moves.bind_right ihstatement
        intro body
        apply Moves.accept
        · intro otherwise
          exact ihstatement.any.map
        · exact .pure _
      · apply Moves.advance.bind_right
        intro _
        exact (moves_condition bound).bind fun test => ihstatement.any.map
      · apply Moves.advance.bind_right
        intro _
        exact (moves_forHeader bound).bind fun header => ihstatement.any.map
      · exact (Moves.consume .breakWord).bind fun keyword => (Moves.consume .semicolon).any.map
      · exact moves_expressionStatement bound
    · rw [block_succ]
      apply Moves.bind (.member ihdeclaration)
      intro again
      cases again with
      | none => exact .pure []
      | some statement => exact ihblock.any.map

theorem moves_declaration (bound : Nat) : Moves 1 (declaration bound) :=
  (moves_statement bound).1

theorem head_lt_of_member {bound : Nat} {p p' : Parser} {again : Option Stmt}
    (h : member bound p = some (.ok again, p')) : p.cursor.head < p'.cursor.head :=
  (Moves.member (moves_declaration bound)).head_lt h

end Parsing
end TreeWalk
