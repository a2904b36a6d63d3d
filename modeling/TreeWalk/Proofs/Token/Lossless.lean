import TreeWalk.Proofs.Token.Layout
import TreeWalk.Proofs.Token.Recording

/-!
This module contains the main statement about scanning: nothing of a text is lost, all positions are
exact, and a scanner that moves over the text with a recording cursor comes to the same tokens and
never asks for a recording in vain.
-/

namespace TreeWalk
namespace Scanner

theorem length_rest_scanToken {s s' : Scanner} (h : s.scanToken = some s')
    (hrest : s.cursor.rest ≠ []) :
    s'.cursor.rest.length < s.cursor.rest.length := by
  obtain ⟨c, text, hrest⟩ := List.exists_cons_of_ne_nil hrest
  rw [scanToken_eq hrest] at h
  cases h
  show (s.cursor.forward _).rest.length < _
  rw [Cursor.rest_forward, List.length_drop, hrest, List.length_cons]
  omega

theorem length_rest_bumpWhile_le (wanted : Char → Bool) (s : Scanner) :
    (s.bumpWhile wanted).cursor.rest.length ≤ s.cursor.rest.length := by
  rw [bumpWhile_eq, rest_skip, List.length_drop]
  exact Nat.sub_le _ _

/--
Read tokens up to the end of the text. There is no answer if a recording is asked for that was never
started.
-/
def run (s : Scanner) : Option (List Token × List ScanError) :=
  let behind := s.bumpWhile Lexeme.isSeparator
  if _ : behind.cursor.isFinished then
    some (behind.tokens ++ [.endOfText behind.position], behind.errors)
  else
    match _ : behind.scanToken with
    | none => none
    | some next => run next
termination_by s.cursor.rest.length
decreasing_by
  rename_i hfinished hnext
  rw [Cursor.isFinished_iff] at hfinished
  have hshort := length_rest_scanToken hnext hfinished
  exact Nat.lt_of_lt_of_le hshort (length_rest_bumpWhile_le Lexeme.isSeparator s)

def outcome (s : Scanner) : List Token × List ScanError :=
  let items := ScanItem.walk 0 s.position s.cursor.rest
  (s.tokens ++ items.map ScanItem.token ++ [.endOfText (s.position.advance s.cursor.rest)],
    s.errors ++ items.filterMap fun item => item.fault.map (⟨item.token, ·⟩))

theorem advance_rest_skip (s : Scanner) (count : Nat) :
    (s.skip count).position.advance (s.skip count).cursor.rest =
      s.position.advance s.cursor.rest := by
  rw [rest_skip]
  show (s.position.advance (s.cursor.rest.take count)).advance _ = _
  rw [← Position.advance_append, List.take_append_drop]

theorem outcome_bumpWhile (s : Scanner) : (s.bumpWhile Lexeme.isSeparator).outcome = s.outcome := by
  have hwalk : ScanItem.walk 0 (s.bumpWhile Lexeme.isSeparator).position
        (s.bumpWhile Lexeme.isSeparator).cursor.rest =
      ScanItem.walk 0 s.position s.cursor.rest := by
    rw [bumpWhile_eq, rest_skip, drop_length_takeWhile]
    show ScanItem.walk 0 (s.position.advance (s.cursor.rest.take _)) _ = _
    rw [take_length_takeWhile, ← ScanItem.walk_gap (List.all_eq_true.1 List.all_takeWhile),
      List.takeWhile_append_dropWhile]
  unfold outcome
  rw [hwalk, bumpWhile_eq, advance_rest_skip]
  rfl

theorem outcome_finish {s : Scanner} {c : Char} {text : List Char}
    (hrest : s.cursor.rest = c :: text) (hc : ¬ Lexeme.isSeparator c) :
    (s.finish (1 + (Lexeme.read c text).more)
        (.ofLexeme s.position c text (Lexeme.read c text))).outcome =
      s.outcome := by
  let item := ScanItem.ofLexeme s.position c text (Lexeme.read c text)
  let size := 1 + (Lexeme.read c text).more
  have hwalk : ScanItem.walk 0 s.position s.cursor.rest =
      item :: ScanItem.walk 0 (s.skip size).position (s.skip size).cursor.rest := by
    show _ = _ :: ScanItem.walk 0 (s.position.advance (s.cursor.rest.take size)) _
    have hsize : size = (Lexeme.read c text).more + 1 := Nat.add_comm 1 _
    rw [rest_skip, hrest, ScanItem.walk_lexeme hc, hsize, List.take_succ_cons, List.drop_succ_cons]
  let items := ScanItem.walk 0 (s.skip size).position (s.skip size).cursor.rest
  apply Prod.ext
  · show s.tokens ++ [item.token] ++ items.map ScanItem.token ++
        [.endOfText ((s.skip size).position.advance (s.skip size).cursor.rest)] =
      s.tokens ++ (ScanItem.walk 0 s.position s.cursor.rest).map ScanItem.token ++ _
    rw [hwalk, advance_rest_skip, List.map_cons, List.append_assoc s.tokens, List.singleton_append]
  · show s.errors ++ (item.fault.map (⟨item.token, ·⟩)).toList ++ items.filterMap _ =
      s.errors ++ (ScanItem.walk 0 s.position s.cursor.rest).filterMap _
    rw [hwalk, List.filterMap_cons, List.append_assoc]
    cases item.fault <;> rfl

theorem not_isSeparator_of_rest_bumpWhile {s : Scanner} {c : Char} {text : List Char}
    (h : (s.bumpWhile Lexeme.isSeparator).cursor.rest = c :: text) : ¬ Lexeme.isSeparator c := by
  rw [bumpWhile_eq, rest_skip, drop_length_takeWhile] at h
  have hhead := List.head?_dropWhile_not Lexeme.isSeparator s.cursor.rest
  rw [h, List.head?_cons] at hhead
  simpa using hhead

theorem run_eq (s : Scanner) : s.run = some s.outcome := by
  -- neither separators nor a lexeme that has been recorded change what comes out in the end
  fun_induction run s with
  | case1 s behind hfinished =>
    rw [Cursor.isFinished_iff] at hfinished
    rw [← outcome_bumpWhile s]
    simp [outcome, hfinished, behind, ScanItem.walk]
  | case2 s behind hfinished hnext =>
    rw [Cursor.isFinished_iff] at hfinished
    obtain ⟨c, text, hrest⟩ := List.exists_cons_of_ne_nil hfinished
    rw [scanToken_eq hrest] at hnext
    cases hnext
  | case3 s behind hfinished next hnext ih =>
    rw [Cursor.isFinished_iff] at hfinished
    obtain ⟨c, text, hrest⟩ := List.exists_cons_of_ne_nil hfinished
    rw [scanToken_eq hrest] at hnext
    cases hnext
    rw [ih, outcome_finish hrest (not_isSeparator_of_rest_bumpWhile hrest), outcome_bumpWhile]

end Scanner

/--
A text is made of its lexemes and of spaces, tabs, carriage returns and line breaks around them. The
tokens stand where their lexemes begin, and behind them all is the only token that ends the text,
where the text ends.
-/
theorem scan_lossless (source : String) :
    Scanner.run (.ofSource source) = some ((scan source).tokens, (scan source).errors) ∧
    ∃ (pieces : List Piece) (last : List Char),
      (scan source).tokens = pieces.map Piece.token ++ [.endOfText (.behind source.toList)] ∧
      source.toList = pieces.flatMap Piece.written ++ last ∧
      (∀ c ∈ last, c ∈ [' ', '\t', '\r', '\n']) ∧ (∀ piece ∈ pieces,
        (∀ c ∈ piece.gap, c ∈ [' ', '\t', '\r', '\n']) ∧ piece.token.lexeme ≠ "" ∧
        piece.token.kind ≠ .eof) ∧
      ∀ before piece after, pieces = before ++ piece :: after →
        piece.token.position = .behind (before.flatMap Piece.written ++ piece.gap) := by
  have hseparator : ∀ c, Lexeme.isSeparator c → c ∈ [' ', '\t', '\r', '\n'] := by
    intro c h
    simpa [Lexeme.isSeparator, or_assoc] using h
  constructor
  · exact Scanner.run_eq (.ofSource source)
  · obtain ⟨pieces, last, htokens, h⟩ := ScanItem.walk_laid .start source.toList
    refine ⟨pieces, last, ?_, h.covered, ?_, ?_, ?_⟩
    · rw [← htokens, ← Position.advance_start]
      rfl
    · intro c hc
      exact hseparator c (h.ended c hc)
    · intro piece hpiece
      obtain ⟨hgap, hlexeme, hkind⟩ := h.parted piece hpiece
      exact ⟨fun c hc => hseparator c (hgap c hc), hlexeme, hkind⟩
    · intro before piece after hpieces
      rw [h.placed before piece after hpieces, Position.advance_start]

end TreeWalk
