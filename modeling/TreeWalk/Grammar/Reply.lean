import TreeWalk.Grammar.Error

/-!
This module contains the outcome of reading something at the front of a list of tokens. A reply
carries the proof that the tokens it leaves are a tail of those it was given and, if something was
read, how many of them are gone at least; this is why reading ends.
-/

namespace TreeWalk

/--
What was read from `tokens`, or the error that stopped it, the tokens that are left, and the errors
that were reported on the way without stopping. What was read takes at least `used` tokens.
-/
inductive Reply (α : Type) (used : Nat) (tokens : List Token)
  | ok (tree : α) (rest : List Token) (reported : List ParseError) (suffix : rest <:+ tokens)
    (progress : rest.length + used ≤ tokens.length)
  | error (cause : ParseError) (rest : List Token) (reported : List ParseError)
    (suffix : rest <:+ tokens)

namespace Reply

variable {α β : Type} {used n : Nat} {tokens : List Token}

def done (tree : α) (tokens : List Token) : Reply α 0 tokens :=
  ok tree tokens [] (List.suffix_refl _) (Nat.le_refl _)

def fail (cause : ParseError) (tokens : List Token) : Reply α used tokens :=
  error cause tokens [] (List.suffix_refl _)

def first (tree : α) (token : Token) (rest : List Token) : Reply α 1 (token :: rest) :=
  ok tree rest [] (List.suffix_cons token rest) (Nat.le_refl _)

def map (f : α → β) : Reply α used tokens → Reply β used tokens
  | ok tree rest reported suffix progress => ok (f tree) rest reported suffix progress
  | error cause rest reported suffix => error cause rest reported suffix

def weaken : Reply α used tokens → Reply α 0 tokens
  | ok tree rest reported suffix _ => ok tree rest reported suffix suffix.length_le
  | error cause rest reported suffix => error cause rest reported suffix

def behind (token : Token) : Reply α n tokens → Reply α 1 (token :: tokens)
  | ok tree rest reported suffix _ =>
    ok tree rest reported (suffix.trans (List.suffix_cons token tokens))
      (Nat.succ_le_succ suffix.length_le)
  | error cause rest reported suffix =>
    error cause rest reported (suffix.trans (List.suffix_cons token tokens))

def report (cause : ParseError) : Reply α used tokens → Reply α used tokens
  | ok tree rest reported suffix progress => ok tree rest (cause :: reported) suffix progress
  | error cause' rest reported suffix => error cause' rest (cause :: reported) suffix

def andThen (reply : Reply α used tokens)
    (next : α → (rest : List Token) → rest.length + used ≤ tokens.length → Reply β n rest) :
    Reply β used tokens :=
  match reply with
  | error cause rest reported suffix => error cause rest reported suffix
  | ok tree rest reported suffix progress =>
    match next tree rest progress with
    | error cause rest' reported' suffix' =>
      error cause rest' (reported ++ reported') (suffix'.trans suffix)
    | ok tree rest' reported' suffix' _ =>
      ok tree rest' (reported ++ reported') (suffix'.trans suffix)
        (Nat.le_trans (Nat.add_le_add_right suffix'.length_le used) progress)

def found (ending : Found) : List Token → Found
  | [] => ending
  | token :: _ => .token token

def expect (ending : Found) (kind : TokenKind) : (tokens : List Token) → Reply Token 1 tokens
  | [] => fail (.expected kind ending) []
  | token :: rest =>
    if token.kind = kind then first token token rest
    else fail (.expected kind (.token token)) (token :: rest)

def accept (kind : TokenKind) : (tokens : List Token) → Reply (Option Token) 0 tokens
  | [] => done none []
  | token :: rest =>
    if token.kind = kind then (first (some token) token rest).weaken else done none (token :: rest)

end Reply
end TreeWalk
