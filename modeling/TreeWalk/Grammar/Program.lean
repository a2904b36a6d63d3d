import TreeWalk.Grammar.Statement

/-!
This module contains the reading of a whole list of tokens. An error ends the statement that it
stands in and no more: reading goes on at the next place where a statement may begin.
-/

namespace TreeWalk

/--
The tokens of a list that the grammar sees, and what stands behind them: comments and all that
follows the first end marker are left out.
-/
structure Sentence where
  tokens : List Token
  ending : Found

def Sentence.ofTokens (tokens : List Token) : Sentence where
  tokens := (tokens.takeWhile (·.kind ≠ .eof)).filter (! ·.isComment)
  ending :=
    match tokens.find? (·.kind = .eof) with
    | some marker => .token marker
    | none => .endOfInput (tokens.getLastD (.endOfText .start))

/--
The statements that were read, and all errors in the order in which they were found. The statements
are a program only if there is no error.
-/
structure Parsed where
  statements : List Stmt
  errors : List ParseError

def Parsed.isValid (parsed : Parsed) : Bool :=
  parsed.errors.isEmpty

namespace Grammar

/--
The tokens to go on with after an error: those behind the next semicolon, or from the next keyword
that begins a statement.
-/
def resume : List Token → List Token
  | [] => []
  | token :: rest =>
    if token.kind = .semicolon then rest
    else if token.kind.startsStatement then token :: rest
    else resume rest

theorem resume_suffix (tokens : List Token) : resume tokens <:+ tokens := by
  induction tokens with
  | nil => exact List.suffix_refl _
  | cons token rest ih =>
    unfold resume
    split
    · exact List.suffix_cons token rest
    · split
      · exact List.suffix_refl _
      · exact ih.trans (List.suffix_cons token rest)

/--
The tokens to go on with when the statement at the front of `token :: rest` failed and left `left`.
If this would be where the statement began, its first token is skipped.
-/
def recover (rest left : List Token) : List Token :=
  let next := resume left
  if next.length ≤ rest.length then next else rest

theorem recover_length (rest left : List Token) : (recover rest left).length ≤ rest.length := by
  simp only [recover]
  split <;> simp_all

def program (ending : Found) (tokens : List Token) : Parsed :=
  match tokens with
  | [] => ⟨[], []⟩
  | token :: rest =>
    match declaration ending (token :: rest) with
    | .ok statement left reported _ _ =>
      let parsed := program ending left
      ⟨statement :: parsed.statements, reported ++ parsed.errors⟩
    | .error cause left reported _ =>
      let parsed := program ending (recover rest left)
      ⟨parsed.statements, reported ++ cause :: parsed.errors⟩
termination_by tokens.length
decreasing_by
  · assumption
  · exact Nat.lt_succ_of_le (recover_length rest left)

end Grammar

def parse (tokens : List Token) : Parsed :=
  let sentence := Sentence.ofTokens tokens
  Grammar.program sentence.ending sentence.tokens

end TreeWalk
