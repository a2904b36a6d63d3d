import TreeWalk.Proofs.Token.Place
import TreeWalk.Token.Scan

/-!
This module contains the layout of a text: the pieces that the scanner cuts it into, each a token
and the separators in front of it, make up the whole text.
-/

namespace TreeWalk

namespace Lexeme

theorem mem_of_lookup {α β : Type} [BEq α] [LawfulBEq α] {key : α} {value : β}
    {entries : List (α × β)} (h : entries.lookup key = some value) : (key, value) ∈ entries := by
  obtain ⟨before, after, rfl, _⟩ := List.lookup_eq_some_iff.1 h
  simp

theorem of_lookup {α β : Type} [BEq α] [LawfulBEq α] {P : β → Prop} {key : α} {value : β}
    {entries : List (α × β)} (h : entries.lookup key = some value)
    (hentries : ∀ entry ∈ entries, P entry.2) : P value :=
  hentries (key, value) (mem_of_lookup h)

theorem exists_gap (text : List Char) :
    ∃ gap rest, text = gap ++ rest ∧ (∀ c ∈ gap, isSeparator c) ∧ ∀ c tail, rest = c :: tail →
      ¬ isSeparator c := by
  induction text with
  | nil => exact ⟨[], [], rfl, nofun, nofun⟩
  | cons c text ih =>
    by_cases hc : isSeparator c
    · obtain ⟨gap, rest, rfl, hgap, hrest⟩ := ih
      exact ⟨c :: gap, rest, rfl, List.forall_mem_cons.2 ⟨hc, hgap⟩, hrest⟩
    · refine ⟨[], c :: text, rfl, nofun, ?_⟩
      rintro _ _ ⟨⟩
      exact hc

variable {first : Char} {text : List Char} {kind : TokenKind} {literal : Option Literal}

theorem slash_kind (h : (slash text).content = .ok (kind, literal)) :
    kind = .comment ∨ kind = .slash := by
  unfold slash at h
  split at h
  · cases h
    exact .inl rfl
  · split at h
    · cases h
      exact .inl rfl
    · cases h
  · cases h
    exact .inr rfl

theorem string_kind (h : (string text).content = .ok (kind, literal)) : kind = .string := by
  unfold string at h
  split at h <;> cases h
  rfl

theorem word_kind (h : (word first text).content = .ok (kind, literal)) :
    kind ∈ .identifier :: TokenKind.words.map Prod.snd := by
  simp only [word] at h
  split at h
  · next hkind =>
    cases h
    exact .tail _ (List.mem_map_of_mem (f := Prod.snd) (mem_of_lookup hkind))
  · cases h
    exact .head _

theorem read_kind (h : (read first text).content = .ok (kind, literal)) :
    kind ∉ [.invalid, .eof] := by
  unfold read at h
  split at h
  · next hkind =>
    cases h
    exact of_lookup (P := (· ∉ [.invalid, .eof])) hkind (by decide)
  split at h
  · next alone extended hkinds =>
    have hnot :=
      of_lookup (P := fun kinds => kinds.1 ∉ [.invalid, .eof] ∧ kinds.2 ∉ [.invalid, .eof]) hkinds
        (by decide)
    split at h <;> cases h
    · exact hnot.2
    · exact hnot.1
  split at h
  · obtain rfl | rfl := slash_kind h <;> decide
  split at h
  · rw [string_kind h]
    decide
  split at h
  · cases h
    decide
  split at h
  · have hword : ∀ kind ∈ .identifier :: TokenKind.words.map Prod.snd, kind ∉ [.invalid, .eof] := by
      decide
    exact hword kind (word_kind h)
  · cases h

end Lexeme

structure Piece where
  gap : List Char
  token : Token

def Piece.written (piece : Piece) : List Char :=
  piece.gap ++ piece.token.lexeme.toList

namespace ScanItem

theorem walk_gap {gap : List Char} (h : ∀ c ∈ gap, Lexeme.isSeparator c) (position : Position)
    (text : List Char) :
    walk 0 position (gap ++ text) = walk 0 (position.advance gap) text := by
  induction gap generalizing position with
  | nil => rfl
  | cons c gap ih =>
    rw [List.forall_mem_cons] at h
    rw [List.cons_append, walk, if_pos h.1, ih h.2, Position.advance_cons]

theorem walk_lexeme {c : Char} (h : ¬ Lexeme.isSeparator c) (position : Position)
    (text : List Char) :
    walk 0 position (c :: text) = ofLexeme position c text (Lexeme.read c text) ::
      walk 0 (position.advance (c :: text.take (Lexeme.read c text).more))
        (text.drop (Lexeme.read c text).more) := by
  rw [walk, if_neg h]
  simp only []
  rw [walk_eq (Lexeme.read c text).more, Position.advance_cons]

theorem ofLexeme_of_ok {position : Position} {c : Char} {text : List Char} {lexeme : Lexeme}
    {kind : TokenKind} {literal : Option Literal} (h : lexeme.content = .ok (kind, literal)) :
    ofLexeme position c text lexeme =
      ⟨⟨kind, .ofList (c :: text.take lexeme.more), literal, position⟩, none⟩ := by
  simp only [ofLexeme, h]

theorem exists_read_of_walk_eq {inside : Nat} {position : Position} {text : List Char}
    {item : ScanItem} {before after : List ScanItem}
    (h : walk inside position text = before ++ item :: after) :
    ∃ front c rest, text = front ++ c :: rest ∧ ¬ Lexeme.isSeparator c ∧
      item = ofLexeme (position.advance front) c rest (Lexeme.read c rest) ∧
      after = walk (Lexeme.read c rest).more (position.advance (front ++ [c])) rest := by
  induction text generalizing inside position before with
  | nil => cases inside <;> simp [walk] at h
  | cons c text ih =>
    have hbehind {inside : Nat} {before : List ScanItem}
        (h : walk inside (position.after c) text = before ++ item :: after) :
        ∃ front c' rest, c :: text = front ++ c' :: rest ∧ ¬ Lexeme.isSeparator c' ∧
          item = ofLexeme (position.advance front) c' rest (Lexeme.read c' rest) ∧
          after = walk (Lexeme.read c' rest).more (position.advance (front ++ [c'])) rest := by
      obtain ⟨front, c', rest, rfl, hseparator, hitem, hafter⟩ := ih h
      exact ⟨c :: front, c', rest, rfl, hseparator, hitem, hafter⟩
    cases inside with
    | succ inside => exact hbehind h
    | zero =>
      rw [walk] at h
      split at h
      · exact hbehind h
      · next hseparator =>
        cases before with
        | nil =>
          obtain ⟨rfl, rfl⟩ := List.cons.inj h
          exact ⟨[], c, text, rfl, hseparator, rfl, rfl⟩
        | cons first before => exact hbehind (List.cons.inj h).2

theorem exists_read_of_mem_walk {inside : Nat} {position : Position} {text : List Char}
    {item : ScanItem} (h : item ∈ walk inside position text) :
    ∃ front c rest, text = front ++ c :: rest ∧ ¬ Lexeme.isSeparator c ∧
      item = ofLexeme (position.advance front) c rest (Lexeme.read c rest) := by
  obtain ⟨before, after, hwalk⟩ := List.append_of_mem h
  obtain ⟨front, c, rest, htext, hc, hitem, _⟩ := exists_read_of_walk_eq hwalk
  exact ⟨front, c, rest, htext, hc, hitem⟩

theorem token_ofLexeme (position : Position) (c : Char) (text : List Char) :
    let token := (ofLexeme position c text (Lexeme.read c text)).token
    token.lexeme.toList = c :: text.take (Lexeme.read c text).more ∧ token.position = position ∧
    token.kind ≠ .eof := by
  simp only [ofLexeme]
  split
  · next hcontent =>
    refine ⟨String.toList_ofList, rfl, fun heof => ?_⟩
    exact Lexeme.read_kind hcontent (.tail _ (List.mem_singleton.2 heof))
  · exact ⟨String.toList_ofList, rfl, nofun⟩

end ScanItem

/--
A text is made of pieces and of some last separators, and each token stands where the text in front
of it ends.
-/
structure Laid (position : Position) (text : List Char) (pieces : List Piece) (last : List Char) :
    Prop where
  covered : text = pieces.flatMap Piece.written ++ last
  ended : ∀ c ∈ last, Lexeme.isSeparator c
  parted : ∀ piece ∈ pieces,
    (∀ c ∈ piece.gap, Lexeme.isSeparator c) ∧ piece.token.lexeme ≠ "" ∧ piece.token.kind ≠ .eof
  placed : ∀ before piece after, pieces = before ++ piece :: after →
    piece.token.position = position.advance (before.flatMap Piece.written ++ piece.gap)

namespace Laid

variable {position : Position} {text last : List Char} {pieces : List Piece} {piece : Piece}

theorem nil (h : ∀ c ∈ last, Lexeme.isSeparator c) : Laid position last [] last where
  covered := rfl
  ended := h
  parted := nofun
  placed := by
    intro before piece after h
    cases before <;> cases h

theorem cons (hgap : ∀ c ∈ piece.gap, Lexeme.isSeparator c) (hlexeme : piece.token.lexeme ≠ "")
    (hkind : piece.token.kind ≠ .eof)
    (hposition : piece.token.position = position.advance piece.gap)
    (h : Laid (position.advance piece.written) text pieces last) :
    Laid position (piece.written ++ text) (piece :: pieces) last where
  covered := by rw [List.flatMap_cons, List.append_assoc, ← h.covered]
  ended := h.ended
  parted := List.forall_mem_cons.2 ⟨⟨hgap, hlexeme, hkind⟩, h.parted⟩
  placed := by
    intro before other after hbefore
    cases before with
    | nil =>
      cases hbefore
      exact hposition
    | cons first before =>
      cases hbefore
      rw [h.placed before other after rfl, ← Position.advance_append, List.flatMap_cons,
        List.append_assoc]

end Laid

theorem ScanItem.walk_laid (position : Position) (text : List Char) :
    ∃ pieces last, (walk 0 position text).map ScanItem.token = pieces.map Piece.token ∧
      Laid position text pieces last := by
  generalize hlength : text.length = length
  induction length using Nat.strongRecOn generalizing position text with
  | ind length ih =>
    -- one piece is cut off the front; what is left is shorter
    obtain ⟨gap, rest, rfl, hgap, hrest⟩ := Lexeme.exists_gap text
    rw [walk_gap hgap]
    cases rest with
    | nil =>
      rw [List.append_nil]
      exact ⟨[], gap, rfl, .nil hgap⟩
    | cons c rest =>
      have hc := hrest c rest rfl
      let size := (Lexeme.read c rest).more
      let piece : Piece :=
        ⟨gap, (ofLexeme (position.advance gap) c rest (Lexeme.read c rest)).token⟩
      obtain ⟨hlexeme, hposition, hkind⟩ := token_ofLexeme (position.advance gap) c rest
      have hwritten : piece.written = gap ++ c :: rest.take size := congrArg (gap ++ ·) hlexeme
      have hshort : (rest.drop size).length < length := by
        rw [List.length_append, List.length_cons] at hlength
        rw [List.length_drop]
        omega
      obtain ⟨pieces, last, htokens, hlaid⟩ :=
        ih _ hshort (position.advance piece.written) (rest.drop size) rfl
      refine ⟨piece :: pieces, last, ?_, ?_⟩
      · rw [walk_lexeme hc, ← Position.advance_append, List.map_cons,
          List.map_cons, ← htokens, hwritten]
      · have htext : gap ++ c :: rest = piece.written ++ rest.drop size := by
          rw [hwritten, List.append_assoc, List.cons_append, List.take_append_drop]
        rw [htext]
        apply Laid.cons hgap _ hkind hposition hlaid
        intro hempty
        rw [hempty] at hlexeme
        cases hlexeme

theorem kind_ne_eof_of_mem_scan {source : String} {token : Token}
    (h : token ∈ (scan source).items.map ScanItem.token) : token.kind ≠ .eof := by
  obtain ⟨pieces, last, htokens, hlaid⟩ := ScanItem.walk_laid .start source.toList
  have hmem : token ∈ pieces.map Piece.token := by
    rw [← htokens]
    exact h
  obtain ⟨piece, hpiece, rfl⟩ := List.mem_map.1 hmem
  exact (hlaid.parted piece hpiece).2.2

end TreeWalk
