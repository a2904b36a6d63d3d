import TreeWalk.Proofs.Grammar.Blame
import TreeWalk.Proofs.Grammar.Comments
import TreeWalk.Proofs.Grammar.Moves

/-!
This module contains the proof that parsing always ends, whatever the tokens are: no loop of the
parser goes round again without having passed a token, and there are no more statements and errors
than tokens.
-/

namespace TreeWalk

open Grammar

namespace Cursor

/--
A round of the search for a place to go on at: the cursor behind the next token, unless the search
ends there.
-/
def pass? (cursor : Cursor Token) : Option (Cursor Token) :=
  match cursor.peek with
  | none => none
  | some token =>
    if token.kind = .eof ∨ token.kind = .semicolon ∨ token.kind.startsStatement then none
    else some cursor.advance

theorem synchronize_eq (cursor : Cursor Token) :
    cursor.synchronize =
      match cursor.pass? with
      | some cursor' => cursor'.synchronize
      | none =>
        (if cursor.peek.any (·.kind = .semicolon) then cursor.advance else
          cursor).skipComments := by
  unfold pass?
  cases hpeek : cursor.peek with
  | none => exact synchronize_of_eof (by simp [hpeek])
  | some token =>
    by_cases heof : token.kind = .eof
    · rw [synchronize_of_eof (by simp [hpeek, heof])]
      simp [heof]
    rw [synchronize_of_ne_eof hpeek heof]
    by_cases hsemicolon : token.kind = .semicolon
    · simp [hsemicolon]
    · by_cases hstart : token.kind.startsStatement <;> simp [heof, hsemicolon, hstart]

theorem of_pass? {cursor cursor' : Cursor Token} (h : cursor.pass? = some cursor') :
    cursor' = cursor.advance ∧ ∃ token, cursor.peek = some token := by
  unfold pass? at h
  split at h
  · cases h
  · next token hpeek =>
    split at h
    · cases h
    · cases h
      exact ⟨rfl, token, hpeek⟩

theorem head_lt_of_pass? {cursor cursor' : Cursor Token} (h : cursor.pass? = some cursor') :
    cursor.head < cursor'.head := by
  obtain ⟨rfl, token, hpeek⟩ := of_pass? h
  exact head_lt_advance hpeek

theorem synchronize_moved (cursor : Cursor Token) :
    cursor.synchronize.items = cursor.items ∧ cursor.head ≤ cursor.synchronize.head ∧
    cursor.synchronize.Settled := by
  induction hlength : cursor.rest.length using Nat.strong_induction_on generalizing cursor with
  | _ length ih =>
    rw [synchronize_eq]
    cases hpass : cursor.pass? with
    | some cursor' =>
      obtain ⟨rfl, token, hpeek⟩ := of_pass? hpass
      have hshorter := length_rest_advance_lt hpeek
      obtain ⟨hitems, hhead, hsettled⟩ := ih _ (hlength ▸ hshorter) cursor.advance rfl
      exact ⟨hitems, Nat.le_trans cursor.head_le_advance hhead, hsettled⟩
    | none =>
      simp only
      split
      · obtain ⟨hitems, hhead, hsettled⟩ := cursor.advance.skipComments_moved
        exact ⟨hitems, Nat.le_trans cursor.head_le_advance hhead, hsettled⟩
      · exact cursor.skipComments_moved

end Cursor

namespace Parser

def start (tokens : List Token) : Parser :=
  ⟨(Cursor.ofList tokens).skipComments, []⟩

/--
A round of the loop over the statements: one of them, or an error and the search for a place to go
on at.
-/
def round (bound : Nat) (p : Parser) : Option (Option Stmt × Parser) :=
  match Parsing.declaration bound p with
  | none => none
  | some (.ok statement, p') => some (some statement, p')
  | some (.error cause, p') =>
    let p' : Parser := ⟨p'.cursor.synchronize, p'.errors ++ [cause]⟩
    some (none, if p'.cursor.head = p.cursor.head then p'.advance.2 else p')

theorem statements_succ (bound : Nat) (p : Parser) :
    statements (bound + 1) p =
      if p.kind = .eof then some ([], p)
      else (round bound p).bind fun (again, p') =>
        (statements bound p').map fun (others, p'') => (again.toList ++ others, p'') := by
  rw [statements, round]
  split
  · rfl
  · obtain _ | ⟨_ | statement, p'⟩ := Parsing.declaration bound p
    · rfl
    · simp
    · rfl

def Round (p p' : Parser) : Prop :=
  p.kind ≠ .eof ∧ ∃ bound again, round bound p = some (again, p')

theorem exists_peek_of_ne_eof {p : Parser} (h : p.kind ≠ .eof) :
    ∃ token, p.cursor.peek = some token := by
  unfold kind at h
  cases hpeek : p.cursor.peek with
  | none => simp [hpeek] at h
  | some token => exact ⟨token, rfl⟩

theorem Round.moved {p p' : Parser} (h : Round p p') : p.cursor.Moved 1 p'.cursor := by
  obtain ⟨hkind, bound, again, hround⟩ := h
  have hlands := Parsing.moves_declaration bound p
  unfold round at hround
  split at hround
  · cases hround
  · next hresult =>
    rw [hresult] at hlands
    cases hround
    exact hlands
  · next cause failed hresult =>
    rw [hresult] at hlands
    obtain ⟨hitems, hhead, hsettled⟩ := failed.cursor.synchronize_moved
    have hfailed : p.cursor.head ≤ failed.cursor.head := hlands.head_le
    have hitems : failed.cursor.synchronize.items = p.cursor.items := hitems.trans hlands.items_eq
    cases hround
    split
    · next hstays =>
      obtain ⟨token, hpeek⟩ := exists_peek_of_ne_eof hkind
      have hpeek : failed.cursor.synchronize.peek = some token := by
        rw [← hpeek, Cursor.peek, Cursor.peek, hitems, hstays]
      have hpassed := Cursor.head_lt_advance hpeek
      exact Cursor.moved_skipComments_of hitems (hstays ▸ hpassed)
    · next hmoves =>
      have hhead : p.cursor.head < failed.cursor.synchronize.head :=
        Nat.lt_of_le_of_ne (Nat.le_trans hfailed hhead) (Ne.symm hmoves)
      exact ⟨hitems, hhead, fun _ => hsettled⟩

def Reaches (tokens : List Token) : Parser → Prop :=
  Relation.ReflTransGen Round (start tokens)

variable {tokens : List Token} {p p' : Parser}

theorem Reaches.items_eq (h : Reaches tokens p) : p.cursor.items = tokens := by
  induction h with
  | refl => exact (Cursor.ofList tokens).skipComments_moved.1
  | tail _ hround ih => exact hround.moved.items_eq.trans ih

theorem Reaches.settled (h : Reaches tokens p) : p.cursor.Settled := by
  induction h with
  | refl => exact (Cursor.ofList tokens).skipComments_moved.2.2
  | tail _ hround ih => exact hround.moved.settled ih

theorem exists_passed (h : Reaches tokens p) (hround : Round p p') :
    ∃ token ∈ (tokens.take p'.cursor.head).drop p.cursor.head, token.kind ≠ .comment := by
  obtain ⟨token, hpeek⟩ := exists_peek_of_ne_eof hround.1
  refine ⟨token, ?_, h.settled token hpeek⟩
  have htoken : tokens[p.cursor.head]? = some token := h.items_eq ▸ hpeek
  have hfirst : ((tokens.take p'.cursor.head).drop p.cursor.head).head? = some token := by
    rw [List.head?_drop, List.getElem?_take_of_lt hround.moved.head_lt, htoken]
  exact List.mem_of_head? hfirst

theorem rounds_of_statements {bound : Nat} {result : List Stmt}
    (h : statements bound p = some (result, p')) :
    Relation.ReflTransGen Round p p' ∧ p'.kind = .eof := by
  induction bound generalizing p result with
  | zero => cases h
  | succ bound ih =>
    rw [statements_succ] at h
    split at h
    · next heof =>
      cases h
      exact ⟨.refl, heof⟩
    · next hkind =>
      obtain ⟨⟨again, middle⟩, hround, h⟩ := Option.bind_eq_some_iff.1 h
      obtain ⟨⟨others, p'⟩, hothers, h⟩ := Option.map_eq_some_iff.1 h
      cases h
      obtain ⟨hrounds, heof⟩ := ih hothers
      exact ⟨.head ⟨hkind, bound, again, hround⟩ hrounds, heof⟩

theorem exists_reaches_end (tokens : List Token) :
    ∃ p, Reaches tokens p ∧ p.kind = .eof ∧ p.errors = (parse tokens).errors := by
  obtain ⟨least, hleast⟩ := Filter.eventually_atTop.1 (run_eq tokens)
  obtain ⟨⟨result, p⟩, hstatements, hparse⟩ :=
    Option.map_eq_some_iff.1 (hleast least (Nat.le_refl least))
  obtain ⟨hrounds, heof⟩ := rounds_of_statements hstatements
  exact ⟨p, hrounds, heof, congrArg Parsed.errors hparse⟩

end Parser

theorem Grammar.length_program_le (ending : Found) (tokens : List Token) :
    (program ending tokens).statements.length + (program ending tokens).errors.length ≤
      tokens.length := by
  induction tokens using program.induct ending with
  | case1 =>
    rw [program_nil]
    exact Nat.le_refl 0
  | case2 token rest statement left reported suffix progress hreply ih =>
    obtain ⟨taken, equals, rfl, hequals, rfl⟩ := exists_taken_of_ok hreply
    have hlength := hequals.length_le
    rw [program_of_ok hreply, Parsed.append_def]
    simp only [List.length_append, List.length_cons, List.length_nil, List.length_map]
    omega
  | case3 token rest cause left reported suffix hreply ih =>
    rw [program_of_error hreply, Parsed.append_def]
    obtain ⟨_, ⟨rfl, rfl⟩ | ⟨taken, equals, rfl, hequals, rfl⟩⟩ := exists_taken_of_error hreply
    · have hlength := recover_length rest (token :: rest)
      simp only [List.length_append, List.length_cons, List.length_nil]
      omega
    · have hlength := hequals.length_le
      have hresume := (resume_suffix left).length_le
      rw [recover_append] at ih ⊢
      simp only [List.length_append, List.length_cons, List.length_nil, List.length_map]
      omega

/--
Each loop of the parser is its rounds one after the other, and no round leaves the cursor where it
was. So parsing ends, and it ends at the end of the program.
-/
theorem parse_makes_progress (tokens : List Token) :
    (∃ least, ∀ bound, least ≤ bound → Parser.run bound tokens = some (parse tokens)) ∧
      (∃ p, Parser.Reaches tokens p ∧ p.kind = .eof ∧ p.errors = (parse tokens).errors) ∧
      (∀ p p', Parser.Reaches tokens p → Parser.Round p p' →
        p.cursor.head < p'.cursor.head ∧
          ∃ token ∈ (tokens.take p'.cursor.head).drop p.cursor.head, token.kind ≠ .comment) ∧
      (∀ bound p p' statement, Parsing.member bound p = some (.ok (some statement), p') →
        p.cursor.head < p'.cursor.head) ∧
      (∀ first tighter left next bound p p',
        Parsing.operand first tighter left bound p = some (.ok (some next), p') →
          p.cursor.head < p'.cursor.head) ∧
      (∀ cursor cursor' : Cursor Token, cursor.pass? = some cursor' → cursor.head < cursor'.head) ∧
      (∀ bound p, Parser.statements (bound + 1) p =
        if p.kind = .eof then some ([], p)
        else (Parser.round bound p).bind fun (again, p') =>
          (Parser.statements bound p').map fun (others, p'') => (again.toList ++ others, p'')) ∧
      (∀ bound, Parsing.block (bound + 1) = Parsing.member bound >>= fun again =>
        match again with
        | none => pure []
        | some statement => do
          let others ← Parsing.block bound
          return statement :: others) ∧
      (∀ first tighter left bound,
        Parsing.operations first tighter left (bound + 1) =
          Parsing.operand first tighter left bound >>= fun again =>
            match again with
            | none => pure left
            | some left => Parsing.operations first tighter left bound) ∧
      (∀ cursor : Cursor Token, cursor.synchronize =
        match cursor.pass? with
        | some cursor' => cursor'.synchronize
        | none =>
          (if cursor.peek.any (·.kind = .semicolon) then cursor.advance else cursor).skipComments) ∧
      (parse tokens).statements.length + (parse tokens).errors.length ≤
        ((tokens.takeWhile (·.kind ≠ .eof)).filter (·.kind ≠ .comment)).length := by
  refine ⟨Filter.eventually_atTop.1 (Parser.run_eq tokens), Parser.exists_reaches_end tokens, ?_,
    ?_, ?_, ?_, Parser.statements_succ, Parsing.block_succ, Parsing.operations_succ,
    Cursor.synchronize_eq, ?_⟩
  · intro p p' hreaches hround
    exact ⟨hround.moved.head_lt, Parser.exists_passed hreaches hround⟩
  · intro bound p p' statement
    exact Parsing.head_lt_of_member
  · intro first tighter left next bound p p'
    exact Parsing.head_lt_of_operand
  · intro cursor cursor'
    exact Cursor.head_lt_of_pass?
  · have hvisible : (Sentence.ofTokens tokens).tokens =
        (tokens.takeWhile (·.kind ≠ .eof)).filter (·.kind ≠ .comment) := by
      simp [Sentence.ofTokens, Token.isComment]
    rw [← hvisible, parse_eq]
    exact length_program_le _ _

end TreeWalk
