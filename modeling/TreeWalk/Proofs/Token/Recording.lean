import TreeWalk.Proofs.Token.Numeral
import TreeWalk.Proofs.Token.Skip

/-!
This module contains the recording of one lexeme: whatever the scanner reads, it records the token
that stands at its place in the text, and nothing makes the recording fail.
-/

namespace TreeWalk.Scanner

def finish (s : Scanner) (size : Nat) (item : ScanItem) : Scanner :=
  { s.skip size with
    cursor := { s.cursor.forward size with recording := none }
    start := s.position
    tokens := s.tokens ++ [item.token]
    errors := s.errors ++ (item.fault.map (⟨item.token, ·⟩)).toList }

section

variable {s : Scanner} {c : Char} {text : List Char}

theorem lexeme_startLexeme (s : Scanner) (count : Nat) (reset : Bool) :
    (s.startLexeme.skip count).lexeme reset =
      some (.ofList (s.cursor.rest.take count), { s.startLexeme.skip count with
        cursor := { s.cursor.forward count with
          recording := if reset then none else some s.cursor.head } }) := by
  unfold lexeme
  have hrecorded := Cursor.stopRecording_forward s.cursor count reset
  show Option.map _ ((s.cursor.startRecording.forward count).stopRecording reset) = _
  rw [hrecorded]
  rfl

theorem addToken_startLexeme (hrest : s.cursor.rest = c :: text) (more : Nat) (kind : TokenKind)
    (literal : Option Literal) :
    (s.startLexeme.skip (1 + more)).addToken kind literal =
      some
        (s.finish (1 + more) (.ofLexeme s.position c text (Lexeme.token more kind literal))) := by
  unfold addToken
  rw [lexeme_startLexeme, hrest, Nat.add_comm 1, List.take_succ_cons]
  simp only [finish, ScanItem.ofLexeme, Lexeme.token, Option.map_none, Option.toList_none,
    List.append_nil]
  rfl

theorem addError_startLexeme (hrest : s.cursor.rest = c :: text) (more : Nat) (fault : Fault) :
    (s.startLexeme.skip (1 + more)).addError fault =
      some (s.finish (1 + more) (.ofLexeme s.position c text (Lexeme.fault more fault))) := by
  unfold addError
  rw [lexeme_startLexeme, hrest, Nat.add_comm 1, List.take_succ_cons]
  rfl

theorem rest_startLexeme (hrest : s.cursor.rest = c :: text) :
    (s.startLexeme.skip 1).cursor.rest = text := by
  rw [rest_skip]
  show s.cursor.rest.drop 1 = text
  rw [hrest, List.drop_succ_cons, List.drop_zero]

theorem close_startLexeme (hrest : s.cursor.rest = c :: text) (kind : TokenKind) (fault : Fault)
    (found : Option (Nat × Option Literal)) :
    (s.startLexeme.skip 1).close kind fault found =
      some (match found with
        | some (size, literal) =>
          s.finish (1 + size) (.ofLexeme s.position c text (Lexeme.token size kind literal))
        | none =>
          s.finish (1 + text.length)
            (.ofLexeme s.position c text (Lexeme.fault text.length fault))) := by
  cases found with
  | some found =>
    rw [close, skip_skip]
    exact addToken_startLexeme hrest found.1 kind found.2
  | none =>
    rw [close, rest_startLexeme hrest, skip_skip]
    exact addError_startLexeme hrest text.length fault

theorem string_startLexeme (hrest : s.cursor.rest = c :: text) :
    (s.startLexeme.skip 1).string [] =
      some (s.finish (1 + (Lexeme.string text).more)
        (.ofLexeme s.position c text (Lexeme.string text))) := by
  rw [string_eq, close_startLexeme hrest, rest_startLexeme hrest, Lexeme.string]
  cases Lexeme.toStringEnd? text <;> rfl

theorem lexeme_false_startLexeme (s : Scanner) (count : Nat) :
    (s.startLexeme.skip count).lexeme false =
      some (.ofList (s.cursor.rest.take count), s.startLexeme.skip count) := by
  rw [lexeme_startLexeme]
  rfl

theorem bumpWhile_startLexeme (hrest : s.cursor.rest = c :: text) (wanted : Char → Bool) :
    (s.startLexeme.skip 1).bumpWhile wanted =
      s.startLexeme.skip (1 + (text.takeWhile wanted).length) := by
  rw [bumpWhile_eq, rest_startLexeme hrest, skip_skip]

theorem take_startLexeme (hrest : s.cursor.rest = c :: text) (wanted : Char → Bool) :
    s.cursor.rest.take (1 + (text.takeWhile wanted).length) = c :: text.takeWhile wanted := by
  rw [hrest, Nat.add_comm 1, List.take_succ_cons, take_length_takeWhile]

theorem number_of_point (c : Char) {text tail : List Char} {d : Char}
    (hdrop : text.dropWhile Char.isDigit = '.' :: d :: tail) (hd : d.isDigit) :
    Lexeme.number c text =
      Lexeme.token
        ((text.takeWhile Char.isDigit).length + 1 + ((d :: tail).takeWhile Char.isDigit).length)
        .number (some (.number (Number.ofDigits (c :: text.takeWhile Char.isDigit)
          ((d :: tail).takeWhile Char.isDigit)))) := by
  have hfraction : (d :: tail).takeWhile Char.isDigit ≠ [] := by
    rw [List.takeWhile_cons_of_pos hd]
    exact nofun
  simp only [Lexeme.number, hdrop, if_neg hfraction]

theorem number_of_no_point (c : Char) {text : List Char}
    (h : ¬ ∃ d tail, text.dropWhile Char.isDigit = '.' :: d :: tail ∧ d.isDigit) :
    Lexeme.number c text = Lexeme.token (text.takeWhile Char.isDigit).length .number
      (some (.number (Number.ofDigits (c :: text.takeWhile Char.isDigit) []))) := by
  unfold Lexeme.number
  split
  · next tail hdrop =>
    have hfraction : tail.takeWhile Char.isDigit = [] := by
      cases tail with
      | nil => rfl
      | cons d tail =>
        apply List.takeWhile_cons_of_neg
        intro hd
        exact h ⟨d, tail, hdrop, hd⟩
    simp only [hfraction, if_true]
  · simp only [if_true]

theorem rest_startLexeme_takeWhile (hrest : s.cursor.rest = c :: text) (wanted : Char → Bool) :
    (s.startLexeme.skip (1 + (text.takeWhile wanted).length)).cursor.rest =
      text.dropWhile wanted := by
  rw [← skip_skip, rest_skip, rest_startLexeme hrest, drop_length_takeWhile]

theorem point_startLexeme_iff (hrest : s.cursor.rest = c :: text) :
    (s.startLexeme.skip (1 + (text.takeWhile Char.isDigit).length)).cursor.peek = some '.' ∧
      ((s.startLexeme.skip (1 + (text.takeWhile Char.isDigit).length)).cursor.peekAt 1).any
        Char.isDigit ↔
      ∃ d tail, text.dropWhile Char.isDigit = '.' :: d :: tail ∧ d.isDigit := by
  rw [Cursor.peek_and_any_peekAt_iff, rest_startLexeme_takeWhile hrest]

theorem number_startLexeme_of_point {tail : List Char} {d : Char}
    (hrest : s.cursor.rest = c :: text) (hwhole : ∀ d ∈ c :: text.takeWhile Char.isDigit, d.isDigit)
    (hdrop : text.dropWhile Char.isDigit = '.' :: d :: tail) (hd : d.isDigit) :
    (s.startLexeme.skip 1).number =
      some (s.finish (1 + (Lexeme.number c text).more)
        (.ofLexeme s.position c text (Lexeme.number c text))) := by
  have hne : (d :: tail).takeWhile Char.isDigit ≠ [] := by simp [hd]
  have hfraction : ∀ c ∈ (d :: tail).takeWhile Char.isDigit, c.isDigit :=
    List.all_eq_true.1 List.all_takeWhile
  have hbehind := rest_startLexeme_takeWhile hrest Char.isDigit
  have htext : text.takeWhile Char.isDigit ++ text.dropWhile Char.isDigit = text :=
    List.takeWhile_append_dropWhile
  rw [hdrop] at hbehind htext
  have hwritten : s.cursor.rest.take (1 + ((text.takeWhile Char.isDigit).length + 1 +
        ((d :: tail).takeWhile Char.isDigit).length)) =
      (c :: text.takeWhile Char.isDigit) ++ '.' :: (d :: tail).takeWhile Char.isDigit := by
    rw [hrest, Nat.add_comm 1, List.take_succ_cons, List.cons_append]
    conv => lhs; arg 2; arg 2; rw [← htext]
    rw [Nat.add_assoc, List.take_length_add_append, Nat.add_comm 1, List.take_succ_cons,
      take_length_takeWhile]
  have hpoint :
      (s.startLexeme.skip (1 + (text.takeWhile Char.isDigit).length)).bump.2.bumpWhile
        Char.isDigit =
      s.startLexeme.skip (1 + ((text.takeWhile Char.isDigit).length + 1 +
        ((d :: tail).takeWhile Char.isDigit).length)) := by
    rw [bump_eq, bumpWhile_eq, rest_skip, hbehind, List.drop_succ_cons, List.drop_zero, skip_skip,
      skip_skip]
    simp only [Nat.add_assoc]
  have hcondition := (point_startLexeme_iff hrest).2 ⟨d, tail, hdrop, hd⟩
  simp only [number, bumpWhile_startLexeme hrest Char.isDigit]
  rw [if_pos hcondition, hpoint, lexeme_false_startLexeme, hwritten, number_of_point c hdrop hd]
  simp only [Number.read?_point (List.cons_ne_nil _ _) hwhole hne hfraction]
  exact addToken_startLexeme hrest _ .number _

theorem number_startLexeme_of_no_point (hrest : s.cursor.rest = c :: text)
    (hwhole : ∀ d ∈ c :: text.takeWhile Char.isDigit, d.isDigit)
    (hpoint : ¬ ∃ d tail, text.dropWhile Char.isDigit = '.' :: d :: tail ∧ d.isDigit) :
    (s.startLexeme.skip 1).number =
      some (s.finish (1 + (Lexeme.number c text).more)
        (.ofLexeme s.position c text (Lexeme.number c text))) := by
  have hcondition := mt (point_startLexeme_iff hrest).1 hpoint
  simp only [number, bumpWhile_startLexeme hrest Char.isDigit]
  rw [if_neg hcondition, lexeme_false_startLexeme, take_startLexeme hrest,
    number_of_no_point c hpoint]
  simp only [Number.read?_whole (List.cons_ne_nil _ _) hwhole]
  exact addToken_startLexeme hrest _ .number _

theorem number_startLexeme (hrest : s.cursor.rest = c :: text) (hc : c.isDigit) :
    (s.startLexeme.skip 1).number =
      some (s.finish (1 + (Lexeme.number c text).more)
        (.ofLexeme s.position c text (Lexeme.number c text))) := by
  have hwhole : ∀ d ∈ c :: text.takeWhile Char.isDigit, d.isDigit := by
    rw [List.forall_mem_cons]
    exact ⟨hc, List.all_eq_true.1 List.all_takeWhile⟩
  by_cases hpoint : ∃ d tail, text.dropWhile Char.isDigit = '.' :: d :: tail ∧ d.isDigit
  · obtain ⟨d, tail, hdrop, hd⟩ := hpoint
    exact number_startLexeme_of_point hrest hwhole hdrop hd
  · exact number_startLexeme_of_no_point hrest hwhole hpoint

theorem identifier_startLexeme (hrest : s.cursor.rest = c :: text) :
    (s.startLexeme.skip 1).identifier =
      some (s.finish (1 + (Lexeme.word c text).more)
        (.ofLexeme s.position c text (Lexeme.word c text))) := by
  unfold identifier
  rw [bumpWhile_startLexeme hrest, lexeme_false_startLexeme, take_startLexeme hrest]
  simp only [Lexeme.word]
  cases TokenKind.words.lookup (String.ofList (c :: text.takeWhile Lexeme.isWordPart)) with
  | some kind => exact addToken_startLexeme hrest _ kind none
  | none => exact addToken_startLexeme hrest _ .identifier _

theorem relation_startLexeme (hrest : s.cursor.rest = c :: text) (alone extended : TokenKind) :
    let lexeme :=
      if text.head? = some '=' then Lexeme.token 1 extended none else Lexeme.token 0 alone none
    (match (s.startLexeme.skip 1).nextIf '=' with
      | (true, s) => s.addToken extended none
      | (false, s) => s.addToken alone none) =
      some (s.finish (1 + lexeme.more) (.ofLexeme s.position c text lexeme)) := by
  intro lexeme
  simp only [nextIf_eq, rest_startLexeme hrest, lexeme]
  by_cases hequal : text.head? = some '='
  · simp only [if_pos hequal, skip_skip]
    exact addToken_startLexeme hrest 1 extended none
  · simp only [if_neg hequal]
    exact addToken_startLexeme hrest 0 alone none

theorem slash_startLexeme (hrest : s.cursor.rest = c :: text) :
    (match (s.startLexeme.skip 1).nextIf '/' with
      | (true, s) => s.lineComment
      | (false, s) =>
        match s.nextIf '*' with
        | (true, s) => s.blockComment 0
        | (false, s) => s.addToken .slash none) =
      some (s.finish (1 + (Lexeme.slash text).more)
        (.ofLexeme s.position c text (Lexeme.slash text))) := by
  simp only [nextIf_eq, rest_startLexeme hrest]
  by_cases hline : text.head? = some '/'
  · obtain ⟨tail, rfl⟩ := List.head?_eq_some_iff.1 hline
    have htail : ((s.startLexeme.skip 1).skip 1).cursor.rest = tail := by
      rw [rest_skip, rest_startLexeme hrest, List.drop_succ_cons, List.drop_zero]
    simp only [if_pos hline, lineComment_eq, htail]
    rw [skip_skip, skip_skip]
    exact addToken_startLexeme hrest _ .comment none
  by_cases hblock : text.head? = some '*'
  · obtain ⟨tail, rfl⟩ := List.head?_eq_some_iff.1 hblock
    have htail : ((s.startLexeme.skip 1).skip 1).cursor.rest = tail := by
      rw [rest_skip, rest_startLexeme hrest, List.drop_succ_cons, List.drop_zero]
    simp only [if_neg hline, rest_startLexeme hrest, if_pos hblock, blockComment_eq, htail]
    rw [close_skip (by simp [rest_startLexeme hrest]), close_startLexeme hrest, Lexeme.slash]
    cases Lexeme.toCommentEnd? 0 tail with
    | some size => simp only [Option.map_some, Nat.add_comm size 1]; rfl
    | none => simp only [Option.map_none, List.length_cons, Nat.add_comm tail.length 1]; rfl
  · simp only [if_neg hline, rest_startLexeme hrest, if_neg hblock]
    have hslash : Lexeme.slash text = Lexeme.token 0 .slash none := by
      rw [Lexeme.slash]
      · rintro tail rfl
        exact hline rfl
      · rintro tail rfl
        exact hblock rfl
    rw [hslash]
    exact addToken_startLexeme hrest 0 .slash none

theorem scanToken_eq (hrest : s.cursor.rest = c :: text) :
    s.scanToken = some
      (s.finish (1 + (Lexeme.read c text).more)
        (.ofLexeme s.position c text (Lexeme.read c text))) := by
  have hbump : s.startLexeme.bump = (some c, s.startLexeme.skip 1) := by
    rw [bump_eq]
    show (s.cursor.rest.head?, _) = _
    rw [hrest]
    rfl
  rw [scanToken, hbump]
  show scanBehind c (s.startLexeme.skip 1) = _
  -- both make the same choices by the first character, so each of them is compared on its own
  unfold scanBehind Lexeme.read
  cases TokenKind.marks.lookup c with
  | some kind => exact addToken_startLexeme hrest 0 kind none
  | none =>
    cases TokenKind.relations.lookup c with
    | some kinds => exact relation_startLexeme hrest kinds.1 kinds.2
    | none =>
      by_cases hslash : c = '/'
      · simp only [if_pos hslash]
        exact slash_startLexeme hrest
      by_cases hquote : c = '"'
      · simp only [if_neg hslash, if_pos hquote]
        exact string_startLexeme hrest
      by_cases hdigit : c.isDigit
      · simp only [if_neg hslash, if_neg hquote, if_pos hdigit]
        exact number_startLexeme hrest hdigit
      by_cases hword : Lexeme.isWordStart c
      · simp only [if_neg hslash, if_neg hquote, if_neg hdigit, if_pos hword]
        exact identifier_startLexeme hrest
      · simp only [if_neg hslash, if_neg hquote, if_neg hdigit, if_neg hword]
        exact addError_startLexeme hrest 0 .unexpectedCharacter

end

end TreeWalk.Scanner
