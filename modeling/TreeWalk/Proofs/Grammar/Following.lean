import Mathlib.Order.Filter.AtTopBot.Basic
import TreeWalk.Proofs.Grammar.Facing
import TreeWalk.Proofs.Grammar.Reading

/-!
This module contains the proof that the parser follows the grammar: with a bound that is large
enough, what it does where it faces some tokens is what the reply for these tokens says.
-/

namespace TreeWalk

open Grammar
open Reply (Stops)

theorem Grammar.Level.eof_not_mem (level : Level) : .eof ∉ level.operators := by
  cases level <;> decide

variable {items tokens rest : List Token}

namespace Parsing

variable {α β : Type} {used n : Nat}

theorem bind_apply (x : Parsing α) (f : α → Parsing β) (p : Parser) :
    (x >>= f) p =
      match x p with
      | none => none
      | some (.ok result, p) => f result p
      | some (.error cause, p) => some (.error cause, p) := by
  show Option.bind (x p) _ = _
  cases x p with
  | none => rfl
  | some answer =>
    obtain ⟨result, p⟩ := answer
    cases result <;> rfl

theorem consume_apply (kind : TokenKind) (p : Parser) :
    consume kind p =
      match p.cursor.peek with
      | some token =>
        if token.kind = kind then some (.ok token, p.advance.2)
        else some (.error (.expected kind p.found), p)
      | none => some (.error (.expected kind p.found), p) := by
  show (match p.cursor.peek with
    | some token => (if token.kind = kind then _ else _ : Parsing Token)
    | none => _) p = _
  cases p.cursor.peek with
  | none => rfl
  | some token =>
    simp only
    split <;> rfl

def Follows (items : List Token) (errors : List ParseError) (reply : Reply α used tokens)
    (answer : Option (Except ParseError α × Parser)) : Prop :=
  match reply with
  | .ok tree rest reported _ _ =>
    ∃ cursor, cursor.Faces items rest ∧ answer = some (.ok tree, ⟨cursor, errors ++ reported⟩)
  | .error cause rest reported _ =>
    ∃ cursor, cursor.Faces items rest ∧ answer = some (.error cause, ⟨cursor, errors ++ reported⟩)

def Meets (items : List Token) (x : Parsing α) (reply : Reply α used tokens) : Prop :=
  ∀ cursor errors, cursor.Faces items tokens → Follows items errors reply (x ⟨cursor, errors⟩)

/--
The parser comes to the same end as the reply from some bound on. In particular it ends.
-/
def Performs (items : List Token) (x : (bound : Nat) → Parsing α)
    (reply : Reply α used tokens) : Prop :=
  ∀ᶠ bound in Filter.atTop, Meets items (x bound) reply

namespace Performs

variable {x : Nat → Parsing α} {reply : Reply α used tokens}

theorem imp {y : Nat → Parsing β} {reply' : Reply β n rest} (h : Performs items x reply)
    (hy : ∀ bound, Meets items (x bound) reply → Meets items (y bound) reply') :
    Performs items y reply' :=
  h.mono hy

theorem of_forall (h : ∀ bound, Meets items (x bound) reply) : Performs items x reply :=
  Filter.Eventually.of_forall h

theorem of_succ (h : Performs items (fun bound => x (bound + 1)) reply) :
    Performs items x reply := by
  rw [Performs, ← Filter.map_add_atTop_eq_nat 1]
  exact h

theorem done (result : α) (tokens : List Token) :
    Performs items (fun _ => pure result) (Reply.done result tokens) := by
  apply of_forall
  intro _ cursor errors hcursor
  exact ⟨cursor, hcursor, by rw [List.append_nil]; rfl⟩

theorem bind {f : α → Nat → Parsing β}
    {next : α → (rest : List Token) → rest.length + used ≤ tokens.length → Reply β n rest}
    (hx : Performs items x reply)
    (hf : ∀ result rest progress, Performs items (f result) (next result rest progress)) :
    Performs items (fun bound => x bound >>= fun result => f result bound)
      (reply.andThen next) := by
  cases reply with
  | error cause rest reported suffix =>
    apply hx.imp
    intro bound hx cursor errors hcursor
    obtain ⟨cursor', hcursor', hresult⟩ := hx cursor errors hcursor
    rw [bind_apply, hresult]
    exact ⟨cursor', hcursor', rfl⟩
  | ok inner middle reported suffix progress =>
    apply (hx.and (hf inner middle progress)).mono
    rintro bound ⟨hx, hf⟩ cursor errors hcursor
    obtain ⟨cursor', hcursor', hresult⟩ := hx cursor errors hcursor
    have hsecond := hf cursor' (errors ++ reported) hcursor'
    show Follows items errors _ ((x bound >>= fun result => f result bound) ⟨cursor, errors⟩)
    rw [bind_apply, hresult]
    simp only [Reply.andThen]
    generalize next inner middle progress = second at hsecond
    cases second with
    | ok => simpa only [Follows, List.append_assoc] using hsecond
    | error => simpa only [Follows, List.append_assoc] using hsecond

theorem map (f : α → β) (h : Performs items x reply) :
    Performs items (fun bound => x bound >>= fun result => pure (f result)) (reply.map f) := by
  apply h.imp
  intro bound h cursor errors hcursor
  have hresult := h cursor errors hcursor
  rw [bind_apply]
  cases reply with
  | ok tree rest reported suffix progress =>
    obtain ⟨cursor', hcursor', hresult⟩ := hresult
    rw [hresult]
    exact ⟨cursor', hcursor', rfl⟩
  | error cause rest reported suffix =>
    obtain ⟨cursor', hcursor', hresult⟩ := hresult
    rw [hresult]
    exact ⟨cursor', hcursor', rfl⟩

theorem weaken (h : Performs items x reply) : Performs items x reply.weaken := by
  apply h.imp
  intro bound h cursor errors hcursor
  have hresult := h cursor errors hcursor
  cases reply <;> exact hresult

theorem report {cause : ParseError} (h : Performs items x reply) :
    Performs items (fun bound => Parsing.report cause >>= fun _ => x bound)
      (reply.report cause) := by
  apply h.imp
  intro bound h cursor errors hcursor
  have hresult := h cursor (errors ++ [cause]) hcursor
  show Follows items errors (reply.report cause) (x bound ⟨cursor, errors ++ [cause]⟩)
  cases reply with
  | ok => simpa only [Follows, Reply.report, List.append_assoc, List.singleton_append] using hresult
  | error =>
    simpa only [Follows, Reply.report, List.append_assoc, List.singleton_append] using hresult

variable {token : Token}

theorem behind {y : Nat → Parsing α} {reply : Reply α n rest} (h : Performs items x reply)
    (hy : ∀ bound cursor errors, cursor.Faces items (token :: rest) →
      y bound ⟨cursor, errors⟩ = x bound ⟨cursor.advance.skipComments, errors⟩) :
    Performs items y (reply.behind token) := by
  apply h.imp
  intro bound h cursor errors hcursor
  obtain ⟨_, _, hsees⟩ := hcursor.peek_cons
  have hresult := h _ errors hsees.skipComments
  rw [hy bound cursor errors hcursor]
  cases reply <;> exact hresult

theorem advance {reply : Reply α n rest} (h : Performs items x reply) :
    Performs items (fun bound => Parsing.advance >>= fun _ => x bound) (reply.behind token) :=
  h.behind fun _ _ _ _ => rfl

theorem accept_of_mem {kinds : List TokenKind} {f : Option Token → Nat → Parsing α}
    {reply : Reply α n rest} (htoken : token.kind ∈ kinds)
    (h : Performs items (f (some token)) reply) :
    Performs items (fun bound => Parsing.accept kinds >>= fun accepted => f accepted bound)
      (reply.behind token) := by
  apply h.behind
  intro bound cursor errors hcursor
  have haccept : Parser.accept kinds ⟨cursor, errors⟩ =
      (some token, ⟨cursor.advance.skipComments, errors⟩) := by
    rw [Parser.accept, Parser.kind_of_faces_cons hcursor, if_pos htoken, Parser.advance,
      Cursor.consume, hcursor.peek_cons.1]
  show f (Parser.accept kinds ⟨cursor, errors⟩).1 bound (Parser.accept kinds ⟨cursor, errors⟩).2 = _
  rw [haccept]

theorem accept_of_stops {kinds : List TokenKind} {f : Option Token → Nat → Parsing α}
    (hstops : Stops kinds tokens) (heof : .eof ∉ kinds) (h : Performs items (f none) reply) :
    Performs items (fun bound => Parsing.accept kinds >>= fun accepted => f accepted bound)
      reply := by
  apply h.imp
  intro bound h cursor errors hcursor
  have hkind : Parser.kind ⟨cursor, errors⟩ ∉ kinds := by
    cases tokens with
    | nil =>
      rw [Parser.kind_of_faces_nil hcursor]
      exact heof
    | cons token rest =>
      rw [Parser.kind_of_faces_cons hcursor]
      exact Reply.stops_cons_iff.1 hstops
  have haccept : Parser.accept kinds ⟨cursor, errors⟩ = (none, ⟨cursor, errors⟩) := if_neg hkind
  show Follows items errors reply
    (f (Parser.accept kinds ⟨cursor, errors⟩).1 bound (Parser.accept kinds ⟨cursor, errors⟩).2)
  rw [haccept]
  exact h cursor errors hcursor

theorem accept {kind : TokenKind} (hkind : kind ≠ .eof) (tokens : List Token) :
    Performs items (fun _ => Parsing.accept [kind]) (Reply.accept kind tokens) := by
  have heof : TokenKind.eof ∉ [kind] := by simpa using hkind.symm
  have hpure : Parsing.accept [kind] = Parsing.accept [kind] >>= pure := (bind_pure _).symm
  rw [hpure]
  cases tokens with
  | nil =>
    exact accept_of_stops (f := fun accepted _ => pure accepted) (Reply.stops_nil _) heof
      (done none [])
  | cons token rest =>
    by_cases htoken : token.kind = kind
    · rw [Reply.accept, if_pos htoken]
      exact weaken (accept_of_mem (f := fun accepted _ => pure accepted)
        (List.mem_singleton.2 htoken) (done _ rest))
    · rw [Reply.accept, if_neg htoken]
      exact accept_of_stops (f := fun accepted _ => pure accepted) (by simpa using htoken) heof
        (done none _)

theorem kind_nil {f : TokenKind → Nat → Parsing α} {reply : Reply α used []}
    (h : Performs items (f .eof) reply) :
    Performs items (fun bound => Parsing.kind >>= fun kind => f kind bound) reply := by
  apply h.imp
  intro bound h cursor errors hcursor
  show Follows items errors reply (f (Parser.kind ⟨cursor, errors⟩) bound ⟨cursor, errors⟩)
  rw [Parser.kind_of_faces_nil hcursor]
  exact h cursor errors hcursor

theorem kind_cons {f : TokenKind → Nat → Parsing α} {reply : Reply α used (token :: rest)}
    (h : token.kind ≠ .eof → Performs items (f token.kind) reply) :
    Performs items (fun bound => Parsing.kind >>= fun kind => f kind bound) reply := by
  by_cases heof : token.kind = .eof
  · exact .of_forall fun _ _ _ hcursor => absurd heof hcursor.peek_cons.2.1
  apply (h heof).imp
  intro bound h cursor errors hcursor
  show Follows items errors reply (f (Parser.kind ⟨cursor, errors⟩) bound ⟨cursor, errors⟩)
  rw [Parser.kind_of_faces_cons hcursor]
  exact h cursor errors hcursor

theorem first {result : α}
    (hx : ∀ bound cursor errors, cursor.Faces items (token :: rest) →
      x bound ⟨cursor, errors⟩ = some (.ok result, ⟨cursor.advance.skipComments, errors⟩)) :
    Performs items x (Reply.first result token rest) := by
  apply of_forall
  intro bound cursor errors hcursor
  obtain ⟨_, _, hsees⟩ := hcursor.peek_cons
  exact ⟨_, hsees.skipComments, by rw [hx bound cursor errors hcursor, List.append_nil]⟩

theorem fail (cause : Found → ParseError)
    (hx : ∀ bound cursor errors, cursor.Faces items tokens →
      x bound ⟨cursor, errors⟩ =
        some (.error (cause (Parser.found ⟨cursor, errors⟩)), ⟨cursor, errors⟩)) :
    Performs items x
      (Reply.fail (cause (Reply.found (Sentence.ofTokens items).ending tokens)) tokens :
        Reply α used tokens) := by
  apply of_forall
  intro bound cursor errors hcursor
  rw [hx bound cursor errors hcursor, Parser.found_of_faces hcursor]
  exact ⟨cursor, hcursor, by rw [List.append_nil]⟩

theorem consume {kind : TokenKind} (hkind : kind ≠ .eof) (tokens : List Token) :
    Performs items (fun _ => Parsing.consume kind)
      (Reply.expect (Sentence.ofTokens items).ending kind tokens) := by
  cases tokens with
  | nil =>
    apply fail (.expected kind)
    intro _ cursor errors hcursor
    rw [consume_apply]
    split
    · next token hpeek =>
      rw [if_neg (hcursor.eof_of_nil token hpeek ▸ hkind.symm)]
    · rfl
  | cons token rest =>
    by_cases htoken : token.kind = kind
    · rw [Reply.expect, if_pos htoken]
      apply first
      intro _ cursor errors hcursor
      rw [consume_apply, hcursor.peek_cons.1]
      exact if_pos htoken
    · rw [Reply.expect, if_neg htoken]
      apply fail (.expected kind)
      intro _ cursor errors hcursor
      rw [consume_apply, hcursor.peek_cons.1]
      exact if_neg htoken

theorem consume_of_eq {kind : TokenKind} {f : Token → Nat → Parsing α} {reply : Reply α n rest}
    (htoken : token.kind = kind) (h : Performs items (f token) reply) :
    Performs items (fun bound => Parsing.consume kind >>= fun consumed => f consumed bound)
      (reply.behind token) := by
  apply h.behind
  intro bound cursor errors hcursor
  rw [bind_apply, consume_apply, hcursor.peek_cons.1]
  simp only [if_pos htoken]
  rfl

theorem closed {f : α → β} {kind : TokenKind} (hkind : kind ≠ .eof) (h : Performs items x reply) :
    Performs items
      (fun bound => x bound >>= fun inner => Parsing.consume kind >>= fun _ => pure (f inner))
      (reply.andThen fun inner middle _ =>
        (Reply.expect (Sentence.ofTokens items).ending kind middle).map fun _ => f inner) := by
  apply h.bind
  intro inner middle _
  exact (consume hkind middle).map _

end Performs

theorem primary_apply (bound : Nat) (p : Parser) :
    primary (bound + 1) p =
      match p.cursor.peek with
      | none => some (.error (.expectedExpression p.found), p)
      | some token =>
        if token.kind = .leftParen then
          (assignment bound >>= fun inner => consume .rightParen >>= fun _ => pure (.group inner))
            p.advance.2
        else
          match atom? token with
          | some atom => some (.ok atom, p.advance.2)
          | none => some (.error (.expectedExpression p.found), p) := by
  rw [primary]
  show (match p.cursor.peek with
    | none => _
    | some token => _ : Parsing Expr) p = _
  cases p.cursor.peek with
  | none => rfl
  | some token =>
    simp only
    unfold atom?
    cases hkind : token.kind <;> rfl

theorem performs_primary_nil :
    Performs items Parsing.primary (Grammar.primary (Sentence.ofTokens items).ending []) := by
  rw [Grammar.primary]
  apply Performs.of_succ
  apply Performs.fail .expectedExpression
  intro bound cursor errors hcursor
  rw [primary_apply]
  split
  · rfl
  · next token hpeek =>
    have heof := hcursor.eof_of_nil token hpeek
    simp [atom?, heof]

theorem performs_primary_of_ne_paren {token : Token} (htoken : token.kind ≠ .leftParen)
    (rest : List Token) :
    Performs items Parsing.primary
      (Grammar.primary (Sentence.ofTokens items).ending (token :: rest)) := by
  rw [primary_of_ne_paren htoken]
  apply Performs.of_succ
  cases hatom : atom? token with
  | some atom =>
    apply Performs.first
    intro bound cursor errors hcursor
    rw [primary_apply, hcursor.peek_cons.1]
    simp only [if_neg htoken, hatom]
    rfl
  | none =>
    apply Performs.fail .expectedExpression
    intro bound cursor errors hcursor
    rw [primary_apply, hcursor.peek_cons.1]
    simp only [if_neg htoken, hatom]

variable (items) in
theorem performs_expression :
    (∀ tokens, Performs items Parsing.assignment
      (Grammar.assignment (Sentence.ofTokens items).ending tokens)) ∧
    (∀ levels tokens,
      Performs items (Parsing.operation levels)
        (Grammar.level (Sentence.ofTokens items).ending levels tokens)) ∧
    (∀ first tighter left tokens,
      Performs items (Parsing.operations first tighter left)
        (Grammar.operations (Sentence.ofTokens items).ending first tighter left tokens)) ∧
    (∀ tokens,
      Performs items Parsing.unary (Grammar.unary (Sentence.ofTokens items).ending tokens)) ∧
    (∀ tokens, Performs items Parsing.primary
      (Grammar.primary (Sentence.ofTokens items).ending tokens)) := by
  apply Grammar.assignment.mutual_induct
  -- an expression
  · intro tokens ihlevel ihassignment
    apply Performs.of_succ
    simp only [Parsing.assignment]
    rw [Grammar.assignment]
    apply ihlevel.bind
    intro left rest progress
    cases rest with
    | nil => exact .accept_of_stops (Reply.stops_nil _) (by decide) (.done left [])
    | cons token rest =>
      by_cases hequal : token.kind = .equal
      · have hvalue := ihassignment [] token rest progress
        simp only [if_pos hequal]
        cases left with
        | name target => exact .weaken (.accept_of_mem (List.mem_singleton.2 hequal) (hvalue.map _))
        | _ => exact .weaken (.accept_of_mem (List.mem_singleton.2 hequal) hvalue.report)
      · simp only [if_neg hequal]
        exact .accept_of_stops (by simpa using hequal) (by decide) (.done left (token :: rest))
  -- an operand on some levels
  · intro tokens ihunary
    apply Performs.of_succ
    simp only [Parsing.operation]
    rw [Grammar.level]
    exact ihunary
  · intro tokens first tighter ihlevel ihoperations
    apply Performs.of_succ
    simp only [Parsing.operation]
    rw [Grammar.level]
    exact ihlevel.bind ihoperations
  -- operators of a level
  · intro first tighter left
    apply Performs.of_succ
    simp only [Parsing.operations]
    rw [Grammar.operations]
    exact .accept_of_stops (Reply.stops_nil _) (first.eof_not_mem) (.done left [])
  · intro first tighter left token rest htoken ihlevel ihoperations
    apply Performs.of_succ
    simp only [Parsing.operations]
    rw [Grammar.operations, if_pos htoken]
    exact .weaken (.accept_of_mem htoken (ihlevel.bind ihoperations))
  · intro first tighter left token rest htoken
    apply Performs.of_succ
    simp only [Parsing.operations]
    rw [Grammar.operations, if_neg htoken]
    exact .accept_of_stops (Reply.stops_cons_iff.2 htoken) (first.eof_not_mem)
      (.done left (token :: rest))
  -- an operand of the tightest level
  · intro ihprimary
    apply Performs.of_succ
    simp only [Parsing.unary]
    rw [Grammar.unary]
    exact .accept_of_stops (Reply.stops_nil _) (by decide) ihprimary
  · intro token rest htoken ihunary
    apply Performs.of_succ
    simp only [Parsing.unary]
    rw [Grammar.unary, if_pos htoken]
    exact .accept_of_mem (by simpa using htoken) (ihunary.map _)
  · intro token rest htoken ihprimary
    apply Performs.of_succ
    simp only [Parsing.unary]
    rw [Grammar.unary, if_neg htoken]
    exact .accept_of_stops (by simpa using htoken) (by decide) ihprimary
  -- an expression without operators
  · exact performs_primary_nil
  case case17 =>
    intro token rest htoken ihassignment
    rw [Grammar.primary]
    simp only [htoken]
    apply Performs.of_succ
    apply (ihassignment.closed (by decide)).behind
    intro bound cursor errors hcursor
    rw [primary_apply, hcursor.peek_cons.1]
    exact if_pos htoken
  all_goals
    intros
    apply performs_primary_of_ne_paren
    simp_all

theorem performs_assignment (tokens : List Token) :
    Performs items Parsing.assignment
      (Grammar.assignment (Sentence.ofTokens items).ending tokens) :=
  (performs_expression items).1 tokens

theorem performs_expressionStatement (tokens : List Token) :
    Performs items Parsing.expressionStatement
      (Grammar.expressionStatement (Sentence.ofTokens items).ending tokens) :=
  (performs_assignment tokens).closed (by decide)

theorem performs_printStatement (tokens : List Token) :
    Performs items Parsing.printStatement
      (Grammar.printStatement (Sentence.ofTokens items).ending tokens) :=
  (performs_assignment tokens).closed (by decide)

theorem performs_varDeclaration (tokens : List Token) :
    Performs items Parsing.varDeclaration
      (Grammar.declarationOf (Sentence.ofTokens items).ending tokens) := by
  apply (Performs.consume (by decide) tokens).bind
  intro name rest _
  apply (Performs.accept (by decide) rest).bind
  intro equals middle _
  cases equals with
  | none => exact .weaken ((Performs.consume (by decide) middle).map _)
  | some equals => exact .weaken ((performs_assignment middle).closed (by decide))

theorem performs_condition (tokens : List Token) :
    Performs items Parsing.condition
      (Grammar.condition (Sentence.ofTokens items).ending tokens) := by
  apply (Performs.consume (by decide) tokens).bind
  intro _ rest _
  exact (performs_assignment rest).closed (by decide)

theorem performs_expressionUnless {closing : TokenKind} (hclosing : closing ≠ .eof)
    (tokens : List Token) :
    Performs items (Parsing.expressionUnless closing)
      (Grammar.expressionUnless (Sentence.ofTokens items).ending closing tokens) := by
  cases tokens with
  | nil =>
    apply Performs.kind_nil
    simp only [if_neg hclosing.symm]
    exact .weaken ((performs_assignment []).map _)
  | cons token rest =>
    apply Performs.kind_cons
    intro _
    by_cases htoken : token.kind = closing
    · simp only [Grammar.expressionUnless, if_pos htoken]
      exact .done none (token :: rest)
    · simp only [Grammar.expressionUnless, if_neg htoken]
      exact .weaken ((performs_assignment (token :: rest)).map _)

theorem performs_forInitializer (tokens : List Token) :
    Performs items Parsing.forInitializer
      (Grammar.forInitializer (Sentence.ofTokens items).ending tokens) := by
  cases tokens with
  | nil =>
    apply Performs.accept_of_stops (Reply.stops_nil _) (by decide)
    apply Performs.accept_of_stops (Reply.stops_nil _) (by decide)
    exact (performs_expressionStatement []).map _
  | cons token rest =>
    by_cases hsemicolon : token.kind = .semicolon
    · simp only [Grammar.forInitializer, if_pos hsemicolon]
      show Performs items Parsing.forInitializer ((Reply.done none rest).behind token)
      exact .accept_of_mem (List.mem_singleton.2 hsemicolon) (.done none rest)
    · simp only [Grammar.forInitializer, if_neg hsemicolon]
      apply Performs.accept_of_stops (by simpa using hsemicolon) (by decide)
      by_cases hvar : token.kind = .varWord
      · simp only [if_pos hvar]
        exact .accept_of_mem (List.mem_singleton.2 hvar) ((performs_varDeclaration rest).map _)
      · simp only [if_neg hvar]
        apply Performs.accept_of_stops (by simpa using hvar) (by decide)
        exact (performs_expressionStatement (token :: rest)).map _

theorem performs_forHeader (tokens : List Token) :
    Performs items Parsing.forHeader
      (Grammar.forHeader (Sentence.ofTokens items).ending tokens) := by
  apply (Performs.consume (by decide) tokens).bind
  intro _ rest _
  apply (performs_forInitializer rest).bind
  intro initializer rest _
  apply (performs_expressionUnless (by decide) rest).bind
  intro test rest _
  apply (Performs.consume (by decide) rest).bind
  intro _ rest _
  exact (performs_expressionUnless (by decide) rest).closed (by decide)

variable (items) in
theorem performs_statement :
    (∀ tokens, Performs items Parsing.declaration
      (Grammar.declaration (Sentence.ofTokens items).ending tokens)) ∧
    (∀ tokens, Performs items Parsing.statement
      (Grammar.statement (Sentence.ofTokens items).ending tokens)) ∧
    (∀ tokens,
      Performs items Parsing.block (Grammar.members (Sentence.ofTokens items).ending tokens)) := by
  apply Grammar.declaration.mutual_induct
  -- a member
  · intro ihstatement
    apply Performs.of_succ
    simp only [Parsing.declaration]
    rw [Grammar.declaration]
    exact .accept_of_stops (Reply.stops_nil _) (by decide) ihstatement
  · intro token rest htoken
    apply Performs.of_succ
    simp only [Parsing.declaration]
    rw [Grammar.declaration, if_pos htoken]
    exact .accept_of_mem (List.mem_singleton.2 htoken) (performs_varDeclaration rest)
  · intro token rest htoken ihstatement
    apply Performs.of_succ
    simp only [Parsing.declaration]
    rw [Grammar.declaration, if_neg htoken]
    exact .accept_of_stops (by simpa using htoken) (by decide) ihstatement
  -- a statement, by its first token
  · apply Performs.of_succ
    simp only [Parsing.statement]
    rw [Grammar.statement]
    exact .kind_nil (performs_expressionStatement [])
  · intro token rest htoken
    apply Performs.of_succ
    simp only [Parsing.statement]
    rw [Grammar.statement]
    apply Performs.kind_cons
    intro _
    simp only [htoken]
    exact .advance (performs_printStatement rest)
  · intro token rest htoken ihmembers
    apply Performs.of_succ
    simp only [Parsing.statement]
    rw [Grammar.statement]
    apply Performs.kind_cons
    intro _
    simp only [htoken]
    exact .advance (ihmembers.map _)
  · intro token rest htoken ihbody ihalternative
    apply Performs.of_succ
    simp only [Parsing.statement]
    rw [Grammar.statement]
    apply Performs.kind_cons
    intro _
    simp only [htoken]
    apply Performs.advance
    apply (performs_condition rest).bind
    intro test after progress
    apply (ihbody after progress).bind
    intro body behind progress'
    apply (Performs.accept (by decide) behind).bind
    intro otherwise left progress''
    cases otherwise with
    | none => exact .done _ left
    | some otherwise =>
      exact .weaken ((ihalternative after progress behind progress' left progress'').map _)
  · intro token rest htoken ihbody
    apply Performs.of_succ
    simp only [Parsing.statement]
    rw [Grammar.statement]
    apply Performs.kind_cons
    intro _
    simp only [htoken]
    apply Performs.advance
    apply (performs_condition rest).bind
    intro test after progress
    exact (ihbody after progress).map _
  · intro token rest htoken ihbody
    apply Performs.of_succ
    simp only [Parsing.statement]
    rw [Grammar.statement]
    apply Performs.kind_cons
    intro _
    simp only [htoken]
    apply Performs.advance
    apply (performs_forHeader rest).bind
    intro header after progress
    exact (ihbody after progress).map _
  · intro token rest htoken
    apply Performs.of_succ
    simp only [Parsing.statement]
    rw [Grammar.statement]
    apply Performs.kind_cons
    intro _
    simp only [htoken]
    exact .consume_of_eq htoken ((Performs.consume (by decide) rest).map _)
  · intro token rest hprint hbrace hif hwhile hfor hbreak
    have hexpression : Performs items _ _ := performs_expressionStatement (token :: rest)
    apply Performs.of_succ
    simp only [Parsing.statement]
    rw [Grammar.statement]
    apply Performs.kind_cons
    intro _
    simp only
    exact hexpression
  -- the members of a block
  · apply Performs.of_succ
    simp only [Parsing.block]
    rw [Grammar.members]
    apply Performs.kind_nil
    simp only [or_true, if_true]
    exact (Performs.consume (by decide) []).map _
  · intro token rest htoken
    apply Performs.of_succ
    simp only [Parsing.block]
    rw [Grammar.members, if_pos htoken]
    apply Performs.kind_cons
    intro _
    simp only [htoken, true_or, if_true]
    show Performs items _ ((Reply.done [] rest).behind token)
    exact .consume_of_eq htoken (.done [] rest)
  · intro token rest htoken ihdeclaration ihmembers
    apply Performs.of_succ
    simp only [Parsing.block]
    rw [Grammar.members, if_neg htoken]
    apply Performs.kind_cons
    intro heof
    simp only [htoken, heof, or_false, if_false]
    apply ihdeclaration.bind
    intro member after progress
    exact (ihmembers after progress).map _

end Parsing

end TreeWalk
