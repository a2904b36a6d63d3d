import TreeWalk.Proofs.Grammar.Parser
import TreeWalk.Proofs.Grammar.Visible

/-!
This module contains what the parser sees from where its cursor stands: the tokens in front of it
that are no comments. It faces them as soon as it has passed the comments in between, also when it
looks for a place to go on at.
-/

namespace TreeWalk

open Grammar

variable {items tokens rest : List Token} {cursor : Cursor Token}

namespace Cursor

/--
The cursor has not passed an end marker, and these are the tokens that the grammar sees in front of
it.
-/
structure Sees (items : List Token) (cursor : Cursor Token) (tokens : List Token) : Prop where
  items_eq : cursor.items = items
  passed : ∀ token ∈ items.take cursor.head, token.kind ≠ .eof
  visible : (Sentence.ofTokens cursor.rest).tokens = tokens

structure Faces (items : List Token) (cursor : Cursor Token) (tokens : List Token) : Prop extends
    Sees items cursor tokens where
  settled : ∀ token ∈ cursor.peek, token.kind ≠ .comment

namespace Sees

variable {token : Token}

theorem nil_of_eof (h : cursor.Sees items tokens)
    (hpeek : ∀ token ∈ cursor.peek, token.kind = .eof) : tokens = [] := by
  rw [← h.visible]
  cases hrest : cursor.rest with
  | nil => rfl
  | cons token rest =>
    have heof : token.kind = .eof := by
      apply hpeek
      rw [peek_eq, hrest]
      rfl
    simp [Sentence.ofTokens, heof]

theorem passed_advance (h : cursor.Sees items tokens) (hpeek : cursor.peek = some token)
    (htoken : token.kind ≠ .eof) :
    ∀ token ∈ items.take cursor.advance.head, token.kind ≠ .eof := by
  have hitem : items[cursor.head]? = some token := h.items_eq ▸ hpeek
  have hlt : cursor.head < items.length := (List.getElem?_eq_some_iff.1 hitem).1
  have hhead : cursor.advance.head = cursor.head + 1 := by
    simp only [Cursor.advance, moveTo, h.items_eq]
    omega
  intro token' hmem
  rw [hhead, List.take_add_one, hitem] at hmem
  obtain hmem | hmem := List.mem_append.1 hmem
  · exact h.passed token' hmem
  · obtain rfl := List.mem_singleton.1 hmem
    exact htoken

theorem advance_of_comment (h : cursor.Sees items tokens) (hpeek : cursor.peek = some token)
    (htoken : token.kind = .comment) : cursor.advance.Sees items tokens where
  items_eq := h.items_eq
  passed := h.passed_advance hpeek (by simp [htoken])
  visible := by
    rw [← h.visible, rest_eq_cons hpeek]
    simp [Sentence.ofTokens, Token.isComment, htoken]

theorem advance (h : cursor.Sees items tokens) (hpeek : cursor.peek = some token)
    (heof : token.kind ≠ .eof) (hcomment : token.kind ≠ .comment) :
    ∃ rest, tokens = token :: rest ∧ cursor.advance.Sees items rest := by
  refine ⟨_, ?_, h.items_eq, h.passed_advance hpeek heof, rfl⟩
  rw [← h.visible, rest_eq_cons hpeek, Sentence.tokens_cons heof hcomment]

theorem length_le {cursor' : Cursor Token} {tokens' : List Token} (h : cursor.Sees items tokens)
    (h' : cursor'.Sees items tokens') (hle : cursor.head ≤ cursor'.head) :
    tokens'.length ≤ tokens.length := by
  obtain ⟨count, hcount⟩ := Nat.exists_eq_add_of_le hle
  have hrest : cursor.rest = cursor.rest.take count ++ cursor'.rest := by
    rw [rest, rest, h.items_eq, h'.items_eq, hcount, ← List.drop_drop, List.take_append_drop]
  have hpassed : ∀ token ∈ cursor.rest.take count, token.kind ≠ .eof := by
    intro token hmem
    apply h'.passed
    rw [rest, h.items_eq, List.take_drop, ← hcount] at hmem
    exact List.mem_of_mem_drop hmem
  rw [← h.visible, ← h'.visible, hrest, Sentence.tokens_append hpassed, List.length_append]
  exact Nat.le_add_left _ _

theorem skipComments (h : cursor.Sees items tokens) : cursor.skipComments.Faces items tokens := by
  induction hrest : cursor.rest generalizing cursor with
  | nil =>
    have hpeek : cursor.peek = none := by rw [peek_eq, hrest]; rfl
    rw [skipComments_of_settled (by simp [hpeek])]
    exact ⟨h, by simp [hpeek]⟩
  | cons token rest ih =>
    have hpeek : cursor.peek = some token := by rw [peek_eq, hrest]; rfl
    by_cases hcomment : token.kind = .comment
    · rw [skipComments_of_comment hpeek hcomment]
      apply ih (h.advance_of_comment hpeek hcomment)
      exact (List.cons.inj ((rest_eq_cons hpeek).symm.trans hrest)).2
    · rw [skipComments_of_settled (by simp [hpeek, hcomment])]
      exact ⟨h, by simp [hpeek, hcomment]⟩

theorem synchronize (h : cursor.Sees items tokens) :
    cursor.synchronize.Faces items (resume tokens) := by
  induction hrest : cursor.rest generalizing cursor tokens with
  | nil =>
    have hpeek : cursor.peek = none := by rw [peek_eq, hrest]; rfl
    obtain rfl := h.nil_of_eof (by simp [hpeek])
    rw [synchronize_of_eof (by simp [hpeek])]
    exact h.skipComments
  | cons token rest ih =>
    have hpeek : cursor.peek = some token := by rw [peek_eq, hrest]; rfl
    have hadvance : cursor.advance.rest = rest :=
      (List.cons.inj ((rest_eq_cons hpeek).symm.trans hrest)).2
    by_cases heof : token.kind = .eof
    · obtain rfl := h.nil_of_eof (by simp [hpeek, heof])
      rw [synchronize_of_eof (by simp [hpeek, heof])]
      exact h.skipComments
    rw [synchronize_of_ne_eof hpeek heof]
    by_cases hcomment : token.kind = .comment
    · simp only [hcomment, TokenKind.startsStatement]
      exact ih (h.advance_of_comment hpeek hcomment) hadvance
    obtain ⟨tokens, rfl, hsees⟩ := h.advance hpeek heof hcomment
    simp only [resume]
    split
    · exact hsees.skipComments
    · split
      · exact h.skipComments
      · exact ih hsees hadvance

end Sees

namespace Faces

variable {token : Token}

theorem peek_cons (h : cursor.Faces items (token :: rest)) :
    cursor.peek = some token ∧ token.kind ≠ .eof ∧ cursor.advance.Sees items rest := by
  cases hpeek : cursor.peek with
  | none => exact absurd (h.nil_of_eof (by simp [hpeek])) (List.cons_ne_nil _ _)
  | some first =>
    by_cases heof : first.kind = .eof
    · exact absurd (h.nil_of_eof (by simp [hpeek, heof])) (List.cons_ne_nil _ _)
    · obtain ⟨rest', hrest, hsees⟩ := h.advance hpeek heof (h.settled first hpeek)
      cases hrest
      exact ⟨rfl, heof, hsees⟩

theorem eof_of_nil (h : cursor.Faces items []) : ∀ token ∈ cursor.peek, token.kind = .eof := by
  intro token hpeek
  by_cases heof : token.kind = .eof
  · exact heof
  · obtain ⟨_, hrest, _⟩ := h.advance hpeek heof (h.settled token hpeek)
    cases hrest

theorem length_lt {cursor' : Cursor Token} {tokens' : List Token}
    (h : cursor.Faces items (token :: rest)) (h' : cursor'.Sees items tokens')
    (hlt : cursor.head < cursor'.head) : tokens'.length < (token :: rest).length := by
  obtain ⟨_, _, hsees⟩ := h.peek_cons
  apply Nat.lt_succ_of_le
  exact hsees.length_le h' (Nat.le_trans (Nat.min_le_left _ _) hlt)

theorem head_eq {cursor' : Cursor Token} (h : cursor.Faces items (token :: rest))
    (h' : cursor'.Faces items (token :: rest)) : cursor'.head = cursor.head := by
  obtain hlt | heq | hlt := Nat.lt_trichotomy cursor.head cursor'.head
  · exact absurd (h.length_lt h'.toSees hlt) (Nat.lt_irrefl _)
  · exact heq.symm
  · exact absurd (h'.length_lt h.toSees hlt) (Nat.lt_irrefl _)

end Faces
end Cursor

namespace Parser

theorem kind_of_faces_nil {p : Parser} (h : p.cursor.Faces items []) : p.kind = .eof := by
  unfold kind
  split
  · next token hpeek => exact h.eof_of_nil token hpeek
  · rfl

theorem kind_of_faces_cons {p : Parser} {token : Token} (h : p.cursor.Faces items (token :: rest)) :
    p.kind = token.kind := by
  rw [kind, h.peek_cons.1]

theorem found_of_faces {p : Parser} (h : p.cursor.Faces items tokens) :
    p.found = Reply.found (Sentence.ofTokens items).ending tokens := by
  cases tokens with
  | cons token rest =>
    rw [found, h.peek_cons.1]
    rfl
  | nil =>
    have hitems := h.items_eq
    cases hrest : p.cursor.rest with
    | nil =>
      have hlength : items.length ≤ p.cursor.head := by
        rw [Cursor.rest, hitems] at hrest
        exact List.drop_eq_nil_iff.1 hrest
      have hpassed := h.passed
      rw [List.take_of_length_le hlength] at hpassed
      have hnone : items.find? (·.kind = .eof) = none := by simpa using hpassed
      rw [found, Cursor.peek_eq, hrest, Cursor.peekAt_neg_one hrest, hitems]
      simp only [List.head?_nil, Reply.found, Sentence.ofTokens, hnone, List.getLastD_eq_getLast?]
    | cons marker rest =>
      have hpeek : p.cursor.peek = some marker := by rw [Cursor.peek_eq, hrest]; rfl
      have hsplit : items = items.take p.cursor.head ++ marker :: rest := by
        rw [← hrest, Cursor.rest, hitems, List.take_append_drop]
      have hnone : (items.take p.cursor.head).find? (·.kind = .eof) = none := by
        simpa using h.passed
      have hfound : items.find? (·.kind = .eof) = some marker := by
        rw [hsplit, List.find?_append, hnone, Option.none_or, List.find?_cons_of_pos]
        simpa using h.eof_of_nil marker hpeek
      rw [found, hpeek]
      simp only [Reply.found, Sentence.ofTokens, hfound]

end Parser

end TreeWalk
