import TreeWalk.Proofs.Grammar.Recovery
import TreeWalk.Proofs.Grammar.Visible

/-!
This module contains the proof that errors do not reach past a semicolon: what stands behind one
that is in no braces and no header is read as if it stood alone, whatever stands in front.
-/

namespace TreeWalk

open Grammar
open Reply (Stops)

/--
Both lists have the same tokens up to a semicolon and part behind it. No braces and no header are
open there.
-/
inductive Cut (after after' : List Token) : List Token → List Token → Prop
  | semicolon {token : Token} (h : token.kind = .semicolon) :
    Cut after after' (token :: after) (token :: after')
  | cons {token : Token} {tokens tokens' : List Token} (h : token.kind ∉ [.leftBrace, .forWord])
    (hrest : Cut after after' tokens tokens') :
    Cut after after' (token :: tokens) (token :: tokens')

namespace Cut

variable {after after' tokens tokens' : List Token}

theorem append {semicolon : Token} (hsemicolon : semicolon.kind = .semicolon)
    (after after' : List Token) :
    ∀ {before : List Token}, (∀ token ∈ before, token.kind ∉ [.leftBrace, .forWord]) →
      Cut after after' (before ++ semicolon :: after) (before ++ semicolon :: after')
  | [], _ => .semicolon hsemicolon
  | _ :: _, h =>
    .cons (h _ List.mem_cons_self) (append hsemicolon after after' fun _ hmem => h _ (.tail _ hmem))

theorem length_add (h : Cut after after' tokens tokens') :
    tokens'.length + after.length = tokens.length + after'.length := by
  induction h with
  | semicolon => simp only [List.length_cons]; omega
  | cons _ _ ih => simp only [List.length_cons]; omega

end Cut

variable {ending ending' : Found} {after after' : List Token}

def Tandem.ofCut (ending ending' : Found) (h : Stops [.elseWord] after)
    (h' : Stops [.elseWord] after') : Tandem ending ending' where
  token := id
  found := id
  inside := Cut after after'
  behind :=
    fun tokens tokens' => Cut after after' tokens tokens' ∨ tokens = after ∧ tokens' = after'
  kind_token := fun _ => rfl
  literal_token := fun _ => rfl
  found_token := fun _ => rfl
  nil_inside := nofun
  cons_inside := by
    intro first rest tokens hcut
    cases hcut with
    | semicolon hkind => exact ⟨after', rfl, .inr ⟨rfl, rfl⟩, fun hne => absurd hkind hne⟩
    | cons _ hrest => exact ⟨_, rfl, .inl hrest, fun _ => hrest⟩
  behind_of_inside := .inl
  behind_cases := by
    rintro tokens tokens' (hcut | ⟨rfl, rfl⟩)
    · exact .inl hcut
    · exact .inr ⟨h, h'⟩
  inside_of_nested := by
    intro first rest tokens left left' hcut hfirst
    cases hcut with
    | semicolon hkind => simp [hkind] at hfirst
    | cons hkind => exact absurd hfirst (by simpa using hkind)
  length_le_iff := by
    have hlength {tokens tokens' : List Token}
        (h : Cut after after' tokens tokens' ∨ tokens = after ∧ tokens' = after') :
        tokens'.length + after.length = tokens.length + after'.length := by
      obtain hcut | ⟨rfl, rfl⟩ := h
      · exact hcut.length_add
      · exact Nat.add_comm ..
    intro left left' rest rest' hleft hrest
    have hleft := hlength hleft
    have hrest := hlength hrest
    omega

theorem Tandem.mapParsed_ofCut (h : Stops [.elseWord] after) (h' : Stops [.elseWord] after')
    (parsed : Parsed) :
    (Tandem.ofCut ending ending' h h').mapParsed parsed = parsed := by
  have hstatement : Stmt.mapTokens id = id := funext Stmt.mapTokens_id
  have herror : ParseError.exchange id id = id := funext ParseError.exchange_id
  simp only [mapParsed, error, ofCut, hstatement, herror, List.map_id]

theorem Grammar.program_of_cut {before : List Token} {semicolon : Token}
    (hbefore : ∀ token ∈ before, token.kind ∉ [.leftBrace, .forWord])
    (hsemicolon : semicolon.kind = .semicolon) (hafter : Stops [.elseWord] after) :
    program ending (before ++ semicolon :: after) =
      program ending' (before ++ [semicolon]) ++ program ending after := by
  let tandem := Tandem.ofCut ending ending' hafter (Reply.stops_nil _)
  obtain ⟨front, left, left', hbehind, hparted, hprogram, hprogram'⟩ :=
    tandem.exists_program (.inl (Cut.append hsemicolon after [] hbefore))
  obtain ⟨rfl, rfl⟩ : left = after ∧ left' = [] := by
    obtain hcut | hbehind := hbehind
    · rw [hparted hcut] at hcut
      nomatch hcut
    · exact hbehind
  have hfront : program ending' (before ++ [semicolon]) = front := by
    rw [hprogram', Tandem.mapParsed_ofCut, program_nil, Parsed.append_empty]
  rw [hprogram, hfront]

theorem Grammar.program_congr {tokens : List Token} (h : tokens ≠ [] → ending = ending') :
    program ending tokens = program ending' tokens := by
  cases tokens with
  | nil => rw [program_nil, program_nil]
  | cons token rest => rw [h (by simp)]

theorem parse_eq (tokens : List Token) :
    parse tokens = program (Sentence.ofTokens tokens).ending (Sentence.ofTokens tokens).tokens :=
  rfl

theorem parse_append_after_semicolon {before after : List Token} {semicolon : Token}
    (hbefore : ∀ token ∈ before, token.kind ∉ [.eof, .leftBrace, .forWord])
    (hsemicolon : semicolon.kind = .semicolon)
    (hafter : ∀ token ∈ after.find? (·.kind ≠ .comment), token.kind ≠ .elseWord) :
    (parse (before ++ semicolon :: after)).statements =
        (parse (before ++ [semicolon])).statements ++ (parse after).statements ∧
      (parse (before ++ semicolon :: after)).errors =
        (parse (before ++ [semicolon])).errors ++ (parse after).errors := by
  have hmarker : ∀ token ∈ before, token.kind ≠ .eof :=
    fun token hmem hkind => hbefore token hmem (by simp [hkind])
  have hnested : ∀ token ∈ (Sentence.ofTokens before).tokens, token.kind ∉ [.leftBrace, .forWord] :=
    fun token hmem hkind => hbefore token (Sentence.mem_of_mem_tokens hmem) (.tail _ hkind)
  have hstops : Stops [.elseWord] (Sentence.ofTokens after).tokens := by
    intro token hmem
    simpa using hafter token (Sentence.head?_tokens hmem)
  have htokens (after : List Token) : (Sentence.ofTokens (before ++ semicolon :: after)).tokens =
      (Sentence.ofTokens before).tokens ++ semicolon :: (Sentence.ofTokens after).tokens := by
    rw [Sentence.tokens_append hmarker, Sentence.tokens_cons] <;> simp [hsemicolon]
  -- without tokens behind the semicolon it does not matter how the end would be reported
  have hending : (Sentence.ofTokens after).tokens ≠ [] →
      (Sentence.ofTokens (before ++ semicolon :: after)).ending =
        (Sentence.ofTokens after).ending := by
    intro hne
    rw [List.append_cons]
    apply Sentence.ending_append
    · simpa [or_imp, forall_and, hsemicolon] using hmarker
    · rintro rfl
      exact hne rfl
  have hwhole : parse (before ++ semicolon :: after) =
      parse (before ++ [semicolon]) ++ parse after := by
    rw [parse_eq, parse_eq, parse_eq, htokens, htokens, program_of_cut hnested hsemicolon hstops,
      program_congr hending]
    rfl
  rw [hwhole]
  exact ⟨rfl, rfl⟩

theorem parse_append_after_semicolon_of_errors :
    let paren : Token := ⟨.rightParen, ")", none, .start⟩
    let plus : Token := ⟨.plus, "+", none, .start⟩
    let semicolon : Token := ⟨.semicolon, ";", none, .start⟩
    let before : List Token :=
      [⟨.printWord, "print", none, .start⟩, paren, ⟨.varWord, "var", none, .start⟩, plus]
    let after : List Token :=
      [⟨.comment, "//", none, .start⟩, ⟨.printWord, "print", none, .start⟩,
        ⟨.nilWord, "nil", none, .start⟩, semicolon]
    ((∀ token ∈ before, token.kind ∉ [.eof, .leftBrace, .forWord]) ∧ semicolon.kind = .semicolon ∧
        ∀ token ∈ after.find? (·.kind ≠ .comment), token.kind ≠ .elseWord) ∧
      (parse (before ++ semicolon :: after)).statements = [.print (.literal .nil)] ∧
      (parse (before ++ semicolon :: after)).errors =
        [.expectedExpression (.token paren), .expected .identifier (.token plus)] := by
  intro paren plus semicolon before after
  have hbefore : ∀ token ∈ before, token.kind ∉ [.eof, .leftBrace, .forWord] := by decide
  have hsemicolon : semicolon.kind = .semicolon := rfl
  have hafter : ∀ token ∈ after.find? (·.kind ≠ .comment), token.kind ≠ .elseWord := by decide
  obtain ⟨hstatements, herrors⟩ := parse_append_after_semicolon hbefore hsemicolon hafter
  refine ⟨⟨hbefore, hsemicolon, hafter⟩, ?_, ?_⟩
  · rw [hstatements]
    cbv
  · rw [herrors]
    cbv

end TreeWalk
