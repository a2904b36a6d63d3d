import Mathlib.Data.List.Forall2
import TreeWalk.Proofs.Grammar.Blame
import TreeWalk.Proofs.Grammar.Comments

/-!
This module contains the proof that a list of tokens may end with an end marker or without one. The
statements are the same, and so are the errors but for those at the end, which say how the list
ends. What stands behind a marker is not read.
-/

namespace TreeWalk

open Grammar

variable {before : List Token} {marker : Token}

namespace Grammar

theorem found_of_mem_errors {ending : Found} {tokens : List Token} {error : ParseError}
    (h : error ∈ (program ending tokens).errors) :
    error.found? = some ending ∨ ∃ token ∈ tokens, error = .invalidTarget token ∨
      error.found? = some (.token token) := by
  induction tokens using program.induct ending with
  | case1 =>
    rw [program_nil] at h
    cases h
  | case2 token rest statement left reported suffix progress hreply ih =>
    obtain ⟨taken, equals, rfl, hequals, rfl⟩ := exists_taken_of_ok hreply
    rw [program_of_ok hreply, Parsed.append_def, List.mem_append] at h
    obtain hreported | hleft := h
    · obtain ⟨target, htarget, rfl⟩ := List.mem_map.1 hreported
      have hmem := List.mem_append_left left (hequals.subset htarget)
      exact .inr ⟨target, .tail token hmem, .inl rfl⟩
    · apply (ih hleft).imp_right
      rintro ⟨found, hmem, hfound⟩
      exact ⟨found, suffix.subset hmem, hfound⟩
  | case3 token rest cause left reported suffix hreply ih =>
    obtain ⟨hcause, htaken⟩ := exists_taken_of_error hreply
    rw [program_of_error hreply, Parsed.append_def, List.append_assoc, List.mem_append,
      List.singleton_append, List.mem_cons] at h
    obtain hreported | rfl | hresumed := h
    · obtain ⟨rfl, rfl⟩ | ⟨taken, equals, rfl, hequals, rfl⟩ := htaken
      · cases hreported
      · obtain ⟨target, htarget, rfl⟩ := List.mem_map.1 hreported
        have hmem := List.mem_append_left left (hequals.subset htarget)
        exact .inr ⟨target, .tail token hmem, .inl rfl⟩
    · cases left with
      | nil => exact .inl hcause
      | cons found left => exact .inr ⟨found, suffix.subset (.head left), .inr hcause⟩
    · apply (ih hresumed).imp_right
      rintro ⟨found, hmem, hfound⟩
      have hsuffix : recover rest left <:+ token :: rest := recover_suffix suffix
      exact ⟨found, hsuffix.subset hmem, hfound⟩

end Grammar

def Found.mark (marker : Token) : Found → Found
  | token found => token found
  | endOfInput _ => token marker

def Tandem.ofMark (marker last : Token) : Tandem (.endOfInput last) (.token marker) where
  token := fun first => first
  found := Found.mark marker
  inside := fun tokens tokens' => tokens' = tokens
  behind := fun tokens tokens' => tokens' = tokens
  kind_token := fun _ => rfl
  literal_token := fun _ => rfl
  found_token := fun _ => rfl
  nil_inside := fun h => ⟨h, rfl⟩
  cons_inside := fun h => ⟨_, h, rfl, fun _ => rfl⟩
  behind_of_inside := id
  behind_cases := .inl
  inside_of_nested := fun _ _ h => h
  length_le_iff := by
    rintro _ _ _ _ rfl rfl
    exact Iff.rfl

theorem Grammar.program_mark (marker last : Token) (tokens : List Token) :
    program (.token marker) tokens =
      ⟨(program (.endOfInput last) tokens).statements,
        (program (.endOfInput last) tokens).errors.map
          (ParseError.exchange id (Found.mark marker))⟩ := by
  have hbehind : (Tandem.ofMark marker last).behind tokens tokens := rfl
  obtain ⟨front, left, left', hbehind, hparted, hprogram, hprogram'⟩ :=
    Tandem.exists_program _ hbehind
  obtain rfl := hparted hbehind
  obtain rfl : left' = [] := hbehind
  have hstatement : (Stmt.mapTokens fun first => first) = id := funext Stmt.mapTokens_id
  rw [program_nil, Parsed.append_empty] at hprogram hprogram'
  rw [hprogram, hprogram', Tandem.mapParsed]
  simp only [Tandem.ofMark, hstatement, List.map_id]
  rfl

/--
The errors are the same, unless the first one is about the marker. Then the second one is about the
last token in front of it and says that nothing was found.
-/
inductive ParseError.EndsAlike (before : List Token) (marker : Token) :
    ParseError → ParseError → Prop
  | same {error : ParseError} (h : error.token ≠ marker) : EndsAlike before marker error error
  | atEnd {error error' : ParseError} (expectation : String) (h : error.token = marker)
    (h' : before.getLast? = some error'.token)
    (hmessage : error.message = expectation ++ s!" but found '{marker.text}'")
    (hmessage' : error'.message = expectation ++ " but found end of input") :
    EndsAlike before marker error error'

namespace ParseError

theorem message_expected (kind : TokenKind) (found : Found) :
    (expected kind found).message =
      s!"Expected '{kind.spelling}'" ++ s!" but found {found.text}" := by
  have hquote : "' but found " = "'" ++ " but found " := by decide
  show "Expected '" ++ kind.spelling ++ "' but found " ++ found.text =
    "Expected '" ++ kind.spelling ++ "'" ++ (" but found " ++ found.text)
  rw [hquote]
  simp only [String.append_assoc]

theorem message_of_found? {error : ParseError} {found : Found} (h : error.found? = some found) :
    ∃ expectation : String, error.message = expectation ++ s!" but found {found.text}" ∧
      ∀ mark : Found → Found,
        (error.exchange id mark).message = expectation ++ s!" but found {(mark found).text}" := by
  cases error with
  | expected kind found =>
    cases h
    exact ⟨_, message_expected kind found, fun mark => message_expected kind (mark found)⟩
  | expectedExpression found =>
    cases h
    have hexpression (found : Found) :
        (expectedExpression found).message =
          "Expected expression" ++ s!" but found {found.text}" := by
      have hliteral : "Expected expression but found " =
          "Expected expression" ++ " but found " := by decide
      show "Expected expression but found " ++ found.text =
          "Expected expression" ++ (" but found " ++ found.text)
      rw [hliteral, String.append_assoc]
    exact ⟨_, hexpression found, fun mark => hexpression (mark found)⟩
  | invalidTarget => cases h

theorem token_exchange_mark {error : ParseError} {last : Token}
    (h : error.found? = some (.endOfInput last)) :
    (error.exchange id (Found.mark marker)).token = marker := by
  cases error <;> cases h <;> rfl

theorem exchange_mark_of_token {error : ParseError} {token : Token}
    (h : error.found? = some (.token token)) :
    error.exchange id (Found.mark marker) = error := by
  cases error <;> cases h <;> rfl

theorem endsAlike_exchange_mark {error : ParseError} {last : Token} {tokens : List Token}
    (hlast : before.getLast? = some last) (hmarker : marker ∉ tokens)
    (h : error.found? = some (.endOfInput last) ∨
      ∃ token ∈ tokens, error = .invalidTarget token ∨ error.found? = some (.token token)) :
    EndsAlike before marker (error.exchange id (Found.mark marker)) error := by
  obtain hfound | ⟨token, hmem, rfl | hfound⟩ := h
  · obtain ⟨expectation, hmessage, hmarked⟩ := message_of_found? hfound
    have htoken : error.token = last := token_of_found? hfound
    exact .atEnd expectation (token_exchange_mark hfound) (htoken ▸ hlast) (hmarked _) hmessage
  · exact .same fun heq => hmarker (heq ▸ hmem)
  · rw [exchange_mark_of_token hfound]
    exact .same fun heq => hmarker (heq ▸ token_of_found? hfound ▸ hmem)

end ParseError

theorem forall₂_errors_mark {tokens : List Token} (hmarker : marker ∉ tokens)
    (hnonempty : tokens ≠ [] → before ≠ []) :
    let last := before.getLastD (.endOfText .start)
    List.Forall₂ (ParseError.EndsAlike before marker) (program (.token marker) tokens).errors
      (program (.endOfInput last) tokens).errors := by
  intro last
  rw [program_mark marker last, List.forall₂_map_left_iff, List.forall₂_same]
  intro error herror
  have hbefore : before ≠ [] := by
    apply hnonempty
    rintro rfl
    rw [program_nil] at herror
    nomatch herror
  have hlast : before.getLast? = some last := by
    simp only [last, List.getLastD_eq_getLast?, List.getLast?_eq_some_getLast hbefore,
      Option.getD_some]
  exact ParseError.endsAlike_exchange_mark hlast hmarker (found_of_mem_errors herror)

theorem parse_append_marker (hbefore : ∀ token ∈ before, token.kind ≠ .eof)
    (hmarker : marker.kind = .eof) (after : List Token) :
    parse (before ++ marker :: after) = parse (before ++ [marker]) ∧
      (parse before).statements = (parse (before ++ [marker])).statements ∧
      List.Forall₂ (ParseError.EndsAlike before marker) (parse (before ++ [marker])).errors
        (parse before).errors ∧
      ∃ least, ∀ bound, least ≤ bound →
        Parser.run bound (before ++ marker :: after) = some (parse (before ++ [marker])) ∧
          Parser.run bound before = some (parse before) := by
  let visible := before.filter (! ·.isComment)
  have hparse (after : List Token) : parse (before ++ marker :: after) =
      program (.token marker) visible := by
    rw [parse_eq, Sentence.ofTokens_append_marker hbefore hmarker]
  have hunmarked : parse before =
      program (.endOfInput (before.getLastD (.endOfText .start))) visible := by
    have hnone : before.find? (·.kind = .eof) = none := by simpa using hbefore
    rw [parse_eq, Sentence.tokens_of_ne_eof hbefore]
    simp only [Sentence.ofTokens, hnone]
    rfl
  have hwhole : parse (before ++ marker :: after) = parse (before ++ [marker]) := by
    rw [hparse, hparse]
  have hruns := (Parser.run_eq (before ++ marker :: after)).and (Parser.run_eq before)
  rw [hwhole] at hruns
  refine ⟨hwhole, ?_, ?_, Filter.eventually_atTop.1 hruns⟩
  · rw [hunmarked, hparse, program_mark]
  · rw [hunmarked, hparse]
    apply forall₂_errors_mark
    · intro hmem
      exact hbefore marker (List.mem_filter.1 hmem).1 hmarker
    · rintro hne rfl
      exact hne rfl

theorem parse_append_marker_of_errors :
    let minus : Token := ⟨.minus, "-", none, .start⟩
    let semicolon : Token := ⟨.semicolon, ";", none, .start⟩
    let comment : Token := ⟨.comment, "//", none, .start⟩
    let marker := Token.endOfText ⟨2, 1⟩
    let before : List Token :=
      [minus, semicolon, ⟨.printWord, "print", none, .start⟩,
        ⟨.nilWord, "nil", none, .start⟩, comment]
    ((∀ token ∈ before, token.kind ≠ .eof) ∧ marker.kind = .eof) ∧
      (parse (before ++ [marker, minus])).errors =
        [.expectedExpression (.token semicolon), .expected .semicolon (.token marker)] ∧
      (parse before).errors = [.expectedExpression (.token semicolon),
        .expected .semicolon (.endOfInput comment)] ∧
      List.Forall₂ (ParseError.EndsAlike before marker) (parse (before ++ [marker])).errors
        (parse before).errors := by
  intro minus semicolon comment marker before
  have hbefore : ∀ token ∈ before, token.kind ≠ .eof := by decide
  have hmarker : marker.kind = .eof := rfl
  obtain ⟨hparse, _, herrors, _⟩ := parse_append_marker hbefore hmarker [minus]
  have hmarked : (parse (before ++ [marker])).errors =
      [.expectedExpression (.token semicolon), .expected .semicolon (.token marker)] := by
    cbv
  have hended : (parse before).errors =
      [.expectedExpression (.token semicolon), .expected .semicolon (.endOfInput comment)] := by
    cbv
  exact ⟨⟨hbefore, hmarker⟩, hparse ▸ hmarked, hended, herrors⟩

end TreeWalk
