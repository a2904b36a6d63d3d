import TreeWalk.Proofs.Grammar.Containment
import TreeWalk.Proofs.Grammar.Parsing

/-!
This module contains the proof that programs compose: a program is read in front of other tokens as
it is read alone, and the other tokens are read as if it were not there.
-/

namespace TreeWalk

open Grammar
open Reply (Stops)

variable {before after : List Token}

theorem Grammar.program_append {ending : Found} {front rest : List Token} {statements : List Stmt}
    (h : Phrase true .declarations front statements) (hrest : Stops [.elseWord] rest) :
    program ending (front ++ rest) = ⟨statements, []⟩ ++ program ending rest := by
  induction statements generalizing front with
  | nil =>
    cases h
    rfl
  | cons statement statements ih =>
    cases h with
    | @cons first others _ _ hfirst hothers =>
      -- the first statement ends where it would end alone, since no `else` follows it
      have hstops := stops_else_declarations hothers hrest
      have hread : (declaration ending (first ++ (others ++ rest))).Reads statement
          (others ++ rest) :=
        phrase_complete hfirst (others ++ rest) hstops
      obtain ⟨⟨⟩, _⟩ | ⟨token, behind, rfl, _⟩ := phrase_front hfirst
      rw [List.cons_append] at hread
      rw [List.append_assoc, List.cons_append, program_of_reads hread, ih hothers]
      rfl

theorem Sentence.stops_tokens {kind : TokenKind} {tokens : List Token}
    (h : ∀ token ∈ tokens.find? (·.kind ≠ .comment), token.kind ≠ kind) :
    Stops [kind] (ofTokens tokens).tokens := by
  intro token hmem
  simpa using h token (head?_tokens hmem)

theorem program_ending_append (hbefore : ∀ token ∈ before, token.kind ≠ .eof) (after : List Token) :
    program (Sentence.ofTokens (before ++ after)).ending (Sentence.ofTokens after).tokens =
      parse after := by
  rw [parse_eq]
  apply program_congr
  intro hne
  apply Sentence.ending_append hbefore
  rintro rfl
  exact hne rfl

theorem parse_append_of_isValid (hbefore : ∀ token ∈ before, token.kind ≠ .eof)
    (hvalid : (parse before).isValid)
    (hafter : ∀ token ∈ after.find? (·.kind ≠ .comment), token.kind ≠ .elseWord) :
    (parse (before ++ after)).statements = (parse before).statements ++ (parse after).statements ∧
      (parse (before ++ after)).errors = (parse after).errors := by
  have hphrase := parse_iff.1 ⟨hvalid, rfl⟩
  have hstops := Sentence.stops_tokens hafter
  have hwhole : parse (before ++ after) = ⟨(parse before).statements, []⟩ ++ parse after := by
    rw [parse_eq (before ++ after), Sentence.tokens_append hbefore, program_append hphrase hstops,
      program_ending_append hbefore]
  rw [hwhole]
  exact ⟨rfl, rfl⟩

theorem parse_append_of_isValid_of_errors :
    let nothing : Token := ⟨.nilWord, "nil", none, .start⟩
    let semicolon : Token := ⟨.semicolon, ";", none, .start⟩
    let before : List Token :=
      [⟨.ifWord, "if", none, .start⟩, ⟨.leftParen, "(", none, .start⟩, nothing,
        ⟨.rightParen, ")", none, .start⟩, ⟨.leftBrace, "\x7b", none, .start⟩,
        ⟨.rightBrace, "\x7d", none, .start⟩]
    let after : List Token :=
      [⟨.comment, "//", none, .start⟩, ⟨.varWord, "var", none, .start⟩, semicolon, nothing,
        semicolon]
    ((∀ token ∈ before, token.kind ≠ .eof) ∧ (parse before).isValid ∧
        ∀ token ∈ after.find? (·.kind ≠ .comment), token.kind ≠ .elseWord) ∧
      (parse (before ++ after)).statements =
        [.ifThen (.literal .nil) (.block []), .expr (.literal .nil)] ∧
      (parse (before ++ after)).errors = [.expected .identifier (.token semicolon)] := by
  intro nothing semicolon before after
  have hbefore : ∀ token ∈ before, token.kind ≠ .eof := by decide
  have hvalid : (parse before).isValid := by cbv
  have hafter : ∀ token ∈ after.find? (·.kind ≠ .comment), token.kind ≠ .elseWord := by decide
  obtain ⟨hstatements, herrors⟩ := parse_append_of_isValid hbefore hvalid hafter
  refine ⟨⟨hbefore, hvalid, hafter⟩, ?_, ?_⟩
  · rw [hstatements]
    cbv
  · rw [herrors]
    cbv

end TreeWalk
