import TreeWalk.Proofs.Grammar.Reads
import TreeWalk.Proofs.Tree.Exchange

/-!
This module contains pairs of token lists that are read in tandem, and what it means that the
replies to both agree. Each operation on replies keeps the agreement.
-/

namespace TreeWalk

open Reply (Stops)

theorem Reply.accept_of_stops {kind : TokenKind} {tokens : List Token} (h : Stops [kind] tokens) :
    accept kind tokens = done none tokens := by
  cases tokens with
  | nil => rfl
  | cons token rest =>
    have hkind : token.kind ≠ kind := by simpa using h
    rw [accept, if_neg hkind]

theorem Reply.andThen_done {α β : Type} {n : Nat} {tokens : List Token} (result : α)
    (next : α → (rest : List Token) → rest.length + 0 ≤ tokens.length → Reply β n rest) :
    (done result tokens).andThen next = (next result tokens (Nat.le_refl _)).weaken := by
  simp only [done, andThen]
  cases next result tokens _ <;> rfl

/--
Two token lists stay related while they are read. The tokens of the second one stand in for those of
the first one. `inside` a statement both lists go on alike; `behind` a statement they may also part,
but neither goes on with an `else`. Where statements are nested in braces or a header they never
part.
-/
structure Tandem (ending ending' : Found) where
  token : Token → Token
  found : Found → Found
  inside : List Token → List Token → Prop
  behind : List Token → List Token → Prop
  kind_token (first : Token) : (token first).kind = first.kind
  literal_token (first : Token) : (token first).literal = first.literal
  found_token (first : Token) : found (.token first) = .token (token first)
  nil_inside {tokens : List Token} : inside [] tokens → tokens = [] ∧ found ending = ending'
  cons_inside {first : Token} {rest tokens : List Token} : inside (first :: rest) tokens →
    ∃ rest', tokens = token first :: rest' ∧ behind rest rest' ∧
      (first.kind ≠ .semicolon → inside rest rest')
  behind_of_inside {tokens tokens' : List Token} : inside tokens tokens' → behind tokens tokens'
  behind_cases {tokens tokens' : List Token} : behind tokens tokens' →
    inside tokens tokens' ∨ Stops [.elseWord] tokens ∧ Stops [.elseWord] tokens'
  inside_of_nested {first : Token} {rest tokens left left' : List Token} :
    inside (first :: rest) tokens →
    first.kind = .leftBrace ∨ first.kind = .forWord → behind left left' → inside left left'
  length_le_iff {left left' rest rest' : List Token} : behind left left' → behind rest rest' →
    (left'.length ≤ rest'.length ↔ left.length ≤ rest.length)

namespace Tandem

variable {ending ending' : Found} (tandem : Tandem ending ending') {α β γ δ : Type}
  {used used' n n' : Nat} {tokens tokens' rest rest' : List Token} {tree : α → β} {tree' : γ → δ}
    {left left' : List Token → List Token → Prop}

def error : ParseError → ParseError :=
  ParseError.exchange tandem.token tandem.found

/--
Both replies are the same, with one tree and the other's errors standing in for each other, and what
they leave is related. After an error the lists have not parted.
-/
inductive Agree (tree : α → β) (left : List Token → List Token → Prop) :
    Reply α used tokens → Reply β used' tokens' → Prop
  | ok {result : α} {rest rest' : List Token} (reported : List ParseError)
    {suffix : rest <:+ tokens}
    {progress : rest.length + used ≤ tokens.length} {suffix' : rest' <:+ tokens'}
    {progress' : rest'.length + used' ≤ tokens'.length} (h : left rest rest') :
    Agree tree left (.ok result rest reported suffix progress)
      (.ok (tree result) rest' (reported.map tandem.error) suffix' progress')
  | error {cause : ParseError} {rest rest' : List Token} (reported : List ParseError)
    {suffix : rest <:+ tokens} {suffix' : rest' <:+ tokens'} (h : tandem.inside rest rest') :
    Agree tree left (.error cause rest reported suffix)
      (.error (tandem.error cause) rest' (reported.map tandem.error) suffix')

variable {tandem}

theorem found_eq (h : tandem.inside tokens tokens') :
    tandem.found (Reply.found ending tokens) = Reply.found ending' tokens' := by
  cases tokens with
  | nil =>
    obtain ⟨rfl, hending⟩ := tandem.nil_inside h
    exact hending
  | cons first rest =>
    obtain ⟨rest', rfl, _⟩ := tandem.cons_inside h
    exact tandem.found_token first

namespace Agree

theorem exists_ok {result : α} {reported : List ParseError} {suffix : rest <:+ tokens}
    {progress : rest.length + used ≤ tokens.length} {reply' : Reply β used' tokens'}
    (h : tandem.Agree tree left (.ok result rest reported suffix progress) reply') :
    ∃ rest' suffix' progress', left rest rest' ∧
      reply' = .ok (tree result) rest' (reported.map tandem.error) suffix' progress' := by
  cases h with
  | ok reported h => exact ⟨_, _, _, h, rfl⟩

theorem exists_error {cause : ParseError} {reported : List ParseError} {suffix : rest <:+ tokens}
    {reply' : Reply β used' tokens'}
    (h : tandem.Agree tree left (.error cause rest reported suffix : Reply α used tokens) reply') :
    ∃ rest' suffix', tandem.inside rest rest' ∧
      reply' = .error (tandem.error cause) rest' (reported.map tandem.error) suffix' := by
  cases h with
  | error reported h => exact ⟨_, _, h, rfl⟩

theorem done (h : left tokens tokens') (result : α) :
    tandem.Agree tree left (Reply.done result tokens) (Reply.done (tree result) tokens') :=
  .ok [] h

theorem fail {cause cause' : ParseError} (h : tandem.inside tokens tokens')
    (hcause : tandem.error cause = cause') :
    tandem.Agree tree left (Reply.fail cause tokens : Reply α used tokens)
      (Reply.fail cause' tokens' : Reply β used' tokens') := by
  subst hcause
  exact .error [] h

theorem first {token token' : Token} (h : left rest rest') (result : α) :
    tandem.Agree tree left (Reply.first result token rest)
      (Reply.first (tree result) token' rest') :=
  .ok [] h

variable {reply : Reply α used tokens} {reply' : Reply β used' tokens'}

theorem mono (h : tandem.Agree tree left reply reply')
    (hleft : ∀ rest rest', left rest rest' → left' rest rest') :
    tandem.Agree tree left' reply reply' := by
  cases h with
  | ok reported h => exact .ok _ (hleft _ _ h)
  | error reported h => exact .error _ h

theorem map {f : α → γ} {g : β → δ} (h : tandem.Agree tree left reply reply')
    (hmap : ∀ result, tree' (f result) = g (tree result)) :
    tandem.Agree tree' left (reply.map f) (reply'.map g) := by
  cases h with
  | @ok result rest rest' reported suffix progress suffix' progress' h =>
    show tandem.Agree tree' left _ (.ok (g (tree result)) rest' _ suffix' progress')
    rw [← hmap]
    exact .ok _ h
  | error reported h => exact .error _ h

theorem weaken (h : tandem.Agree tree left reply reply') :
    tandem.Agree tree left reply.weaken reply'.weaken := by
  cases h with
  | ok reported h => exact .ok _ h
  | error reported h => exact .error _ h

theorem behind {token token' : Token} (h : tandem.Agree tree left reply reply') :
    tandem.Agree tree left (reply.behind token) (reply'.behind token') := by
  cases h with
  | ok reported h => exact .ok _ h
  | error reported h => exact .error _ h

theorem report {cause cause' : ParseError} (h : tandem.Agree tree left reply reply')
    (hcause : tandem.error cause = cause') :
    tandem.Agree tree left (reply.report cause) (reply'.report cause') := by
  subst hcause
  cases h with
  | ok reported h => exact .ok (cause :: reported) h
  | error reported h => exact .error (cause :: reported) h

theorem andThen
    {next : α → (rest : List Token) → rest.length + used ≤ tokens.length → Reply γ n rest}
    {next' : β → (rest : List Token) → rest.length + used' ≤ tokens'.length → Reply δ n' rest}
    (h : tandem.Agree tree left reply reply')
    (hnext : ∀ result rest rest' progress progress', left rest rest' →
      tandem.Agree tree' left' (next result rest progress) (next' (tree result) rest' progress')) :
    tandem.Agree tree' left' (reply.andThen next) (reply'.andThen next') := by
  cases h with
  | error reported h => exact .error _ h
  | @ok result rest rest' reported suffix progress suffix' progress' h =>
    have hreply := hnext result rest rest' progress progress' h
    simp only [Reply.andThen]
    generalize next result rest progress = second at hreply
    generalize next' (tree result) rest' progress' = second' at hreply
    cases hreply with
    | ok reported h =>
      simp only [← List.map_append]
      exact .ok _ h
    | error reported h =>
      simp only [← List.map_append]
      exact .error _ h

end Agree

theorem agree_expect_of {kind : TokenKind} (h : tandem.inside tokens tokens')
    (hleft : ∀ rest rest', tandem.behind rest rest' →
      (kind ≠ .semicolon → tandem.inside rest rest') →
      left rest rest') :
    tandem.Agree tandem.token left (Reply.expect ending kind tokens)
      (Reply.expect ending' kind tokens') := by
  have hfound := found_eq h
  cases tokens with
  | nil =>
    obtain ⟨rfl, _⟩ := tandem.nil_inside h
    exact .fail h (congrArg (ParseError.expected kind) hfound)
  | cons first rest =>
    obtain ⟨rest', rfl, hbehind, hinside⟩ := tandem.cons_inside h
    simp only [Reply.expect, tandem.kind_token]
    split
    · next hkind => exact .first (hleft rest rest' hbehind (hkind ▸ hinside)) first
    · exact .fail h (congrArg (ParseError.expected kind) hfound)

theorem agree_expect {kind : TokenKind} (hkind : kind ≠ .semicolon)
    (h : tandem.inside tokens tokens') :
    tandem.Agree tandem.token tandem.inside (Reply.expect ending kind tokens)
      (Reply.expect ending' kind tokens') :=
  agree_expect_of h fun _ _ _ hinside => hinside hkind

theorem agree_expect_semicolon (h : tandem.inside tokens tokens') :
    tandem.Agree tandem.token tandem.behind (Reply.expect ending .semicolon tokens)
      (Reply.expect ending' .semicolon tokens') :=
  agree_expect_of h fun _ _ hbehind _ => hbehind

theorem agree_accept {kind : TokenKind} (hkind : kind ≠ .semicolon)
    (h : tandem.inside tokens tokens') :
    tandem.Agree (Option.map tandem.token) tandem.inside (Reply.accept kind tokens)
      (Reply.accept kind tokens') := by
  cases tokens with
  | nil =>
    obtain ⟨rfl, _⟩ := tandem.nil_inside h
    exact .done h none
  | cons first rest =>
    obtain ⟨rest', rfl, _, hinside⟩ := tandem.cons_inside h
    simp only [Reply.accept, tandem.kind_token]
    split
    · next heq =>
      have hinside := hinside (heq ▸ hkind)
      exact .weaken (.first hinside (some first))
    · exact .done h none

theorem agree_otherwise
    {next : Option Token → (rest : List Token) → rest.length + 0 ≤ tokens.length → Reply γ n rest}
    {next' : Option Token → (rest : List Token) → rest.length + 0 ≤ tokens'.length →
      Reply δ n' rest}
    (h : tandem.behind tokens tokens')
    (hnone : ∀ rest rest' progress progress', tandem.behind rest rest' →
      tandem.Agree tree' left (next none rest progress) (next' none rest' progress'))
    (hsome : ∀ token rest rest' progress progress', tandem.inside rest rest' →
      tandem.Agree tree' left (next (some token) rest progress)
        (next' (some (tandem.token token)) rest' progress')) :
    tandem.Agree tree' left ((Reply.accept .elseWord tokens).andThen next)
      ((Reply.accept .elseWord tokens').andThen next') := by
  obtain hinside | ⟨hstops, hstops'⟩ := tandem.behind_cases h
  · apply (agree_accept (by decide) hinside).andThen
    rintro (_ | token) rest rest' progress progress' hrest
    · exact hnone rest rest' progress progress' (tandem.behind_of_inside hrest)
    · exact hsome token rest rest' progress progress' hrest
  · rw [Reply.accept_of_stops hstops, Reply.accept_of_stops hstops', Reply.andThen_done,
      Reply.andThen_done]
    exact .weaken (hnone tokens tokens' _ _ h)

theorem Agree.closed {kind : TokenKind} {f : α → γ} {g : β → δ} {reply : Reply α used tokens}
    {reply' : Reply β used' tokens'} (h : tandem.Agree tree tandem.inside reply reply')
    (hexpect : ∀ {rest rest' : List Token}, tandem.inside rest rest' →
      tandem.Agree tandem.token left (Reply.expect ending kind rest)
        (Reply.expect ending' kind rest'))
    (hmap : ∀ result, tree' (f result) = g (tree result)) :
    tandem.Agree tree' left
      (reply.andThen fun inner middle _ => (Reply.expect ending kind middle).map fun _ => f inner)
      (reply'.andThen fun inner middle _ => (Reply.expect ending' kind middle).map fun _ =>
        g inner) := by
  apply h.andThen
  intro inner middle middle' _ _ hmiddle
  exact (hexpect hmiddle).map fun _ => hmap inner

end Tandem
end TreeWalk
