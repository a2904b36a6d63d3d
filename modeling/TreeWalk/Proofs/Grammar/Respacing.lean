import TreeWalk.Proofs.Grammar.Movement
import TreeWalk.Proofs.Grammar.Visible
import TreeWalk.Proofs.Token.Respacing

/-!
This module contains the proof that layout does not matter: a program means the same with other
spaces, line breaks and comments between its lexemes.
-/

namespace TreeWalk

open Grammar

theorem visible_tokens_scan (source : String) :
    (scan source).tokens.filter (fun token => ! token.isComment && token.kind ≠ .eof) =
      ((scan source).items.map ScanItem.token).filter (! ·.isComment) := by
  have hending : [Token.endOfText (scan source).finish].filter
      (fun token => ! token.isComment && token.kind ≠ .eof) = [] := rfl
  rw [Scanned.tokens, List.filter_append, hending, List.append_nil]
  apply List.filter_congr
  intro token hmem
  simp [kind_ne_eof_of_mem_scan hmem]

theorem parse_scan_move (place : Position → Position) (source : String) :
    program (.token (.endOfText (place (scan source).finish)))
        ((((scan source).items.map ScanItem.token).filter (! ·.isComment)).map (Token.move place)) =
      ⟨(parse (scan source).tokens).statements.map (Stmt.mapTokens (Token.move place)),
        (parse (scan source).tokens).errors.map
          (ParseError.exchange (Token.move place) (Found.move place))⟩ := by
  rw [parse, Sentence.tokens_scan, Sentence.ending_scan, ← program_move]
  rfl

theorem scan_respaced {source text : String} (hsource : (scan source).isValid = true)
    (hspread : Spread
      ((scan source).tokens.filter fun token => ! token.isComment && token.kind ≠ .eof)
      text.toList) :
    let unplaced := Token.move fun _ => .start
    let parsed := parse (scan source).tokens
    let parsed' := parse (scan text).tokens
    (scan text).isValid = true ∧
      ((scan text).tokens.filter (! ·.isComment)).map unplaced =
        ((scan source).tokens.filter (! ·.isComment)).map unplaced ∧
      parsed'.statements.map (Stmt.mapTokens unplaced) =
        parsed.statements.map (Stmt.mapTokens unplaced) ∧
      parsed'.errors.map (ParseError.exchange unplaced (Found.move fun _ => .start)) =
        parsed.errors.map (ParseError.exchange unplaced (Found.move fun _ => .start)) := by
  intro unplaced parsed parsed'
  rw [visible_tokens_scan] at hspread
  have hreads : ∀ token ∈ ((scan source).items.map ScanItem.token).filter (! ·.isComment),
      token.Rereads ∧ token.isComment = false := by
    intro token hmem
    rw [List.mem_filter, List.mem_map] at hmem
    obtain ⟨⟨item, hitem, rfl⟩, hcomment⟩ := hmem
    have hcomment : item.token.isComment = false := by simpa using hcomment
    exact ⟨ScanItem.rereads_of_mem_walk hitem
      ((Scanned.isValid_iff _).1 hsource item hitem) hcomment, hcomment⟩
  obtain ⟨hfaults, htokens⟩ := ScanItem.walk_spread hspread hreads .start
  have hparsed := parse_scan_move (fun _ => .start) source
  have hparsed' := parse_scan_move (fun _ => .start) text
  have hitems : (((scan text).items.map ScanItem.token).filter (! ·.isComment)).map unplaced =
      (((scan source).items.map ScanItem.token).filter (! ·.isComment)).map unplaced := htokens
  rw [hitems] at hparsed'
  obtain ⟨hstatements, herrors⟩ := Parsed.mk.inj (hparsed'.symm.trans hparsed)
  refine ⟨(Scanned.isValid_iff _).2 hfaults, ?_, hstatements, herrors⟩
  simp only [Scanned.tokens, List.filter_append, List.map_append, hitems]
  rfl

theorem scan_respaced_of_comments :
    let source := "nil;// x"
    let text := "\n/* /**/ */nil\n// y\n;\n "
    let visible := (scan source).tokens.filter fun token => ! token.isComment && token.kind ≠ .eof
    ((scan source).isValid = true ∧ Spread visible text.toList) ∧
      (scan text).isValid = true ∧
      (parse (scan text).tokens).statements.map (Stmt.mapTokens (Token.move fun _ => .start)) =
        [.expr (.literal .nil)] := by
  intro source text visible
  have htokens : (scan source).tokens =
      [⟨.nilWord, "nil", none, .start⟩, ⟨.semicolon, ";", none, ⟨1, 4⟩⟩,
      ⟨.comment, "// x", none, ⟨1, 5⟩⟩, .endOfText ⟨1, 9⟩] := by
    decide +kernel
  have hsource : (scan source).isValid = true := by decide +kernel
  have hparse : parse (scan source).tokens = ⟨[.expr (.literal .nil)], []⟩ := by
    rw [htokens]
    cbv
  have hinner : CommentTail [' ', '*', '/'] := .char (by decide) (by decide) .close
  have htail : CommentTail [' ', '/', '*', '*', '/', ' ', '*', '/'] :=
    .char (by decide) (by decide) (.comment .close hinner)
  have hblock : Spacing ['/', '*', ' ', '/', '*', '*', '/', ' ', '*', '/'] :=
    .blockComment ⟨htail⟩ .nil
  have hline : Spacing ['/', '/', ' ', 'y', '\n'] :=
    @Spacing.lineComment [' ', 'y'] [] (by decide) .nil
  have hvisible : visible = [⟨.nilWord, "nil", none, .start⟩, ⟨.semicolon, ";", none, ⟨1, 4⟩⟩] := by
    simp only [visible, htokens]
    rfl
  have htext : text.toList =
      '\n' :: (['/', '*', ' ', '/', '*', '*', '/', ' ', '*', '/'] ++ ("nil".toList ++
      '\n' :: (['/', '/', ' ', 'y', '\n'] ++ (";".toList ++ ['\n', ' '])))) := by
    decide +kernel
  have hspread : Spread visible text.toList := by
    rw [hvisible, htext]
    exact .cons hblock (.cons hline (.nil (.blank (by decide) .nil)))
  obtain ⟨hvalid, _, hstatements, _⟩ := scan_respaced hsource hspread
  rw [hparse] at hstatements
  exact ⟨⟨hsource, hspread⟩, hvalid, hstatements⟩

end TreeWalk
