import Mathlib.Data.List.Basic
import TreeWalk.Proofs.Token.Layout
import TreeWalk.Proofs.Token.Skip

/-!
This module contains the scanning of two texts with a line break between them. No lexeme that is
complete reaches past the line break, so the items are those of both texts, the latter ones further
down.
-/

namespace TreeWalk

namespace Lexeme

theorem takeWhile_append_of_stop {p : Char → Bool} {c : Char} (h : p c = false)
    (text rest : List Char) :
    (text ++ c :: rest).takeWhile p = text.takeWhile p := by
  induction text with
  | nil => rw [List.nil_append, List.takeWhile_cons_of_neg (by simp [h]), List.takeWhile_nil]
  | cons first text ih => rw [List.cons_append, List.takeWhile_cons, List.takeWhile_cons, ih]

theorem dropWhile_append_of_stop {p : Char → Bool} {c : Char} (h : p c = false)
    (text rest : List Char) :
    (text ++ c :: rest).dropWhile p = text.dropWhile p ++ c :: rest := by
  induction text with
  | nil => rw [List.nil_append, List.dropWhile_cons_of_neg (by simp [h])]; rfl
  | cons first text ih =>
    rw [List.cons_append, List.dropWhile_cons, List.dropWhile_cons, ih]
    split <;> rfl

theorem toCommentEnd?_append {depth : Nat} {text : List Char} {size : Nat}
    (h : toCommentEnd? depth text = some size) (rest : List Char) :
    toCommentEnd? depth (text ++ rest) = some size ∧ size ≤ text.length := by
  fun_induction toCommentEnd? depth text generalizing size with
  | case1 => cases h
  | case2 depth text ih | case4 text depth ih =>
    obtain ⟨size, hsize, rfl⟩ := Option.map_eq_some_iff.1 h
    obtain ⟨happend, hle⟩ := ih hsize
    refine ⟨?_, Nat.add_le_add_right hle 2⟩
    rw [List.cons_append, List.cons_append, toCommentEnd?, happend, Option.map_some]
  | case3 text =>
    cases h
    exact ⟨rfl, by simp⟩
  | case5 depth c text hopen hclose hnested ih =>
    obtain ⟨size, hsize, rfl⟩ := Option.map_eq_some_iff.1 h
    obtain ⟨happend, hle⟩ := ih hsize
    -- something follows the character, so it still does not open or close a comment
    have hne : text ≠ [] := by
      rintro rfl
      cases hsize
    refine ⟨?_, Nat.add_le_add_right hle 1⟩
    have hopen' : (text ++ rest).head? = some '*' → c = '/' → False := by
      rw [List.head?_append_of_ne_nil _ hne, List.head?_eq_some_iff]
      rintro ⟨text, rfl⟩ rfl
      exact hopen text rfl rfl
    have hclose' : (text ++ rest).head? = some '/' → c = '*' → False := by
      rw [List.head?_append_of_ne_nil _ hne, List.head?_eq_some_iff]
      rintro ⟨text, rfl⟩ rfl
      cases depth with
      | zero => exact hclose text rfl rfl rfl
      | succ depth => exact hnested depth text rfl rfl rfl
    rw [List.cons_append, Scanner.toCommentEnd?_cons hopen' hclose', happend, Option.map_some]

theorem toStringEnd?_append {text : List Char} {found : Nat × List Char}
    (h : toStringEnd? text = some found) (rest : List Char) :
    toStringEnd? (text ++ rest) = some found ∧ found.1 ≤ text.length := by
  fun_induction toStringEnd? text generalizing found with
  | case1 => cases h
  | case2 text =>
    cases h
    exact ⟨rfl, by simp⟩
  | case3 => cases h
  | case4 c text ih =>
    obtain ⟨found, hfound, rfl⟩ := Option.map_eq_some_iff.1 h
    obtain ⟨happend, hle⟩ := ih hfound
    refine ⟨?_, Nat.add_le_add_right hle 2⟩
    rw [List.cons_append, List.cons_append, toStringEnd?, happend, Option.map_some]
  | case5 c text hquote hlast hescape ih =>
    obtain ⟨found, hfound, rfl⟩ := Option.map_eq_some_iff.1 h
    obtain ⟨happend, hle⟩ := ih hfound
    refine ⟨?_, Nat.add_le_add_right hle 1⟩
    have hbackslash : c ≠ '\\' := by
      rintro rfl
      cases text with
      | nil => exact hlast rfl rfl
      | cons c text => exact hescape c text rfl rfl
    rw [List.cons_append, Scanner.toStringEnd?_cons hquote hbackslash, happend, Option.map_some]

variable {text : List Char} {content : TokenKind × Option Literal}

theorem slash_append (h : (slash text).content = .ok content) (rest : List Char) :
    slash (text ++ '\n' :: rest) = slash text ∧ (slash text).more ≤ text.length := by
  unfold slash at h ⊢
  split at h
  · next text =>
    refine ⟨?_, ?_⟩
    · have hline := takeWhile_append_of_stop (p := (· ≠ '\n')) (c := '\n') (by decide) text rest
      simp only [List.cons_append, hline]
    · have hle := (List.takeWhile_prefix (l := text) (· ≠ '\n')).length_le
      simp only [token, List.length_cons]
      omega
  · next text =>
    cases hend : toCommentEnd? 0 text with
    | none =>
      rw [hend] at h
      cases h
    | some size =>
      obtain ⟨happend, hle⟩ := toCommentEnd?_append hend ('\n' :: rest)
      refine ⟨?_, ?_⟩
      · simp only [List.cons_append, happend]
      · simp only [token, List.length_cons]
        omega
  · next hline hblock =>
    refine ⟨?_, Nat.zero_le _⟩
    cases text with
    | nil => rfl
    | cons c text =>
      rw [List.cons_append]
      split
      · next heq =>
        cases heq
        exact absurd rfl (hline text)
      · next heq =>
        cases heq
        exact absurd rfl (hblock text)
      · rfl

theorem string_append (h : (string text).content = .ok content) (rest : List Char) :
    string (text ++ rest) = string text ∧ (string text).more ≤ text.length := by
  unfold string at h ⊢
  cases hend : toStringEnd? text with
  | none =>
    rw [hend] at h
    cases h
  | some found =>
    obtain ⟨happend, hle⟩ := toStringEnd?_append hend rest
    exact ⟨by rw [happend], hle⟩

def fraction : List Char → List Char
  | '.' :: text => text.takeWhile Char.isDigit
  | _ => []

theorem number_eq (first : Char) (text : List Char) :
    number first text =
      let whole := text.takeWhile Char.isDigit
      let digits := fraction (text.dropWhile Char.isDigit)
      token (if digits = [] then whole.length else whole.length + 1 + digits.length) .number
        (some (.number (Number.ofDigits (first :: whole) digits))) :=
  rfl

theorem fraction_append {stop : Char} (hdigit : stop.isDigit = false) (hstop : stop ≠ '.')
    (text rest : List Char) :
    fraction (text ++ stop :: rest) = fraction text := by
  fun_cases fraction text with
  | case1 text => exact takeWhile_append_of_stop hdigit text rest
  | case2 text hpoint =>
    cases text with
    | nil => simp [fraction, hstop]
    | cons c text =>
      have hne : c ≠ '.' := by
        rintro rfl
        exact hpoint text rfl
      simp [fraction, hne]

theorem length_fraction_lt {text : List Char} (h : fraction text ≠ []) :
    (fraction text).length < text.length := by
  fun_cases fraction text with
  | case1 text => exact Nat.lt_succ_of_le (List.takeWhile_prefix _).length_le
  | case2 text hpoint => exact absurd (fraction.eq_2 text hpoint) h

theorem number_append {stop : Char} (hdigit : stop.isDigit = false) (hstop : stop ≠ '.')
    (first : Char) (text rest : List Char) :
    number first (text ++ stop :: rest) = number first text ∧
    (number first text).more ≤ text.length := by
  have hlength : (text.takeWhile Char.isDigit).length + (text.dropWhile Char.isDigit).length =
      text.length := by
    rw [← List.length_append, List.takeWhile_append_dropWhile]
  simp only [number_eq]
  constructor
  · rw [takeWhile_append_of_stop hdigit, dropWhile_append_of_stop hdigit,
      fraction_append hdigit hstop]
  · simp only [token]
    split
    · omega
    · next hdigits =>
      have hlt := length_fraction_lt hdigits
      omega

theorem word_append (first : Char) (text rest : List Char) :
    word first (text ++ '\n' :: rest) = word first text ∧ (word first text).more ≤ text.length := by
  have hstop : isWordPart '\n' = false := by decide
  constructor
  · rw [word, word, takeWhile_append_of_stop hstop]
  · simp only [word]
    split <;> exact (List.takeWhile_prefix _).length_le

theorem read_cases (first : Char) :
    (∃ kind, (first, kind) ∈ TokenKind.marks ∧ ∀ text, read first text = token 0 kind none) ∨
    (∃ alone extended, (first, alone, extended) ∈ TokenKind.relations ∧ ∀ text, read first text =
      if text.head? = some '=' then token 1 extended none else token 0 alone none) ∨
    (first = '/' ∧ ∀ text, read first text = slash text) ∨
    (first = '"' ∧ ∀ text, read first text = string text) ∨
    (first.isDigit ∧ ∀ text, read first text = number first text) ∨
    (isWordStart first ∧ ∀ text, read first text = word first text) ∨
    ((TokenKind.marks.lookup first = none ∧ TokenKind.relations.lookup first = none ∧ first ≠ '/' ∧
      first ≠ '"' ∧
        ¬ first.isDigit ∧ ¬ isWordStart first) ∧
      ∀ text, read first text = fault 0 .unexpectedCharacter) := by
  unfold read
  cases hmark : TokenKind.marks.lookup first with
  | some kind => exact .inl ⟨kind, mem_of_lookup hmark, fun _ => rfl⟩
  | none =>
    cases hrelation : TokenKind.relations.lookup first with
    | some kinds => exact .inr (.inl ⟨kinds.1, kinds.2, mem_of_lookup hrelation, fun _ => rfl⟩)
    | none =>
      simp only []
      refine .inr (.inr ?_)
      split
      · next hslash => exact .inl ⟨hslash, fun _ => rfl⟩
      split
      · next hquote => exact .inr (.inl ⟨hquote, fun _ => rfl⟩)
      split
      · next hdigit => exact .inr (.inr (.inl ⟨hdigit, fun _ => rfl⟩))
      split
      · next hword => exact .inr (.inr (.inr (.inl ⟨hword, fun _ => rfl⟩)))
      · next hslash hquote hdigit hword =>
        exact .inr
          (.inr (.inr (.inr ⟨⟨trivial, trivial, hslash, hquote, hdigit, hword⟩, fun _ => rfl⟩)))

theorem read_append {first : Char} (h : (read first text).content = .ok content)
    (rest : List Char) :
    read first (text ++ '\n' :: rest) = read first text ∧ (read first text).more ≤ text.length := by
  obtain ⟨kind, _, hread⟩ | ⟨alone, extended, _, hread⟩ | ⟨_, hread⟩ | ⟨_, hread⟩ | ⟨_, hread⟩ |
    ⟨_, hread⟩ | ⟨_, hread⟩ := read_cases first
  all_goals
    rw [hread] at h
    rw [hread, hread]
  · exact ⟨rfl, Nat.zero_le _⟩
  · cases text with
    | nil => exact ⟨rfl, Nat.zero_le _⟩
    | cons c text =>
      refine ⟨rfl, ?_⟩
      split
      · exact Nat.le_add_left 1 _
      · exact Nat.zero_le _
  · exact slash_append h rest
  · exact string_append h _
  · exact number_append (by decide) (by decide) first text rest
  · exact word_append first text rest
  · cases h

end Lexeme

namespace ScanItem

def down (lines : Nat) (item : ScanItem) : ScanItem :=
  { item with token := item.token.move (Position.down lines) }

theorem walk_down (lines inside : Nat) (position : Position) (text : List Char) :
    walk inside (position.down lines) text = (walk inside position text).map (down lines) := by
  induction text generalizing inside position with
  | nil => cases inside <;> rfl
  | cons c text ih =>
    cases inside with
    | succ inside => rw [walk, walk, Position.after_down, ih]
    | zero =>
      rw [walk, walk, Position.after_down]
      split
      · exact ih 0 _
      · simp only [ih, List.map_cons, List.cons.injEq, and_true]
        simp only [ofLexeme]
        split <;> rfl

theorem exists_content_of_fault {position : Position} {first : Char} {text : List Char}
    {lexeme : Lexeme} (h : (ofLexeme position first text lexeme).fault = none) :
    ∃ content, lexeme.content = .ok content := by
  unfold ofLexeme at h
  cases hcontent : lexeme.content with
  | ok content => exact ⟨content, rfl⟩
  | error fault =>
    rw [hcontent] at h
    cases h

theorem ofLexeme_append {position : Position} {first : Char} {text : List Char} {lexeme : Lexeme}
    (h : lexeme.more ≤ text.length) (rest : List Char) :
    ofLexeme position first (text ++ rest) lexeme = ofLexeme position first text lexeme := by
  unfold ofLexeme
  rw [List.take_append_of_le_length h]

theorem walk_append {inside : Nat} {position : Position} {text : List Char}
    (hfault : ∀ item ∈ walk inside position text, item.fault = none)
    (hinside : inside ≤ text.length) (rest : List Char) :
    walk inside position (text ++ '\n' :: rest) =
      walk inside position text ++ walk 0 (position.advance (text ++ ['\n'])) rest := by
  induction text generalizing inside position with
  | nil =>
    cases Nat.le_zero.1 hinside
    rfl
  | cons c text ih =>
    cases inside with
    | succ inside =>
      rw [walk] at hfault
      rw [List.cons_append, walk, walk, ih hfault (Nat.le_of_succ_le_succ hinside)]
      rfl
    | zero =>
      rw [walk] at hfault
      rw [List.cons_append, walk, walk]
      split at hfault
      · next hseparator =>
        rw [if_pos hseparator, if_pos hseparator, ih hfault (Nat.zero_le _)]
        rfl
      · next hseparator =>
        obtain ⟨hfirst, hrest⟩ := List.forall_mem_cons.1 hfault
        obtain ⟨content, hcontent⟩ := exists_content_of_fault hfirst
        obtain ⟨hread, hmore⟩ := Lexeme.read_append hcontent rest
        rw [if_neg hseparator, if_neg hseparator]
        simp only [hread, ih hrest hmore]
        rw [ofLexeme_append hmore]
        rfl

end ScanItem

theorem Scanned.isValid_iff (scanned : Scanned) :
    scanned.isValid = true ↔ ∀ item ∈ scanned.items, item.fault = none := by
  simp [isValid, errors]

theorem items_scan_append {first : String} (h : (scan first).isValid = true) (second : String) :
    (scan (first ++ "\n" ++ second)).items =
      (scan first).items ++ (scan second).items.map
        (ScanItem.down (1 + first.toList.count '\n')) := by
  have htext : (first ++ "\n" ++ second).toList = first.toList ++ '\n' :: second.toList := by
    simp [String.toList_append]
  show ScanItem.walk 0 .start (first ++ "\n" ++ second).toList = _
  rw [htext, ScanItem.walk_append ((Scanned.isValid_iff _).1 h) (Nat.zero_le _),
    Position.advance_line_break, ScanItem.walk_down]
  rfl

theorem isValid_scan_append {first second : String} (hfirst : (scan first).isValid = true)
    (hsecond : (scan second).isValid = true) : (scan (first ++ "\n" ++ second)).isValid = true := by
  rw [Scanned.isValid_iff] at hsecond ⊢
  rw [items_scan_append hfirst, List.forall_mem_append, List.forall_mem_map]
  exact ⟨(Scanned.isValid_iff _).1 hfirst, hsecond⟩

end TreeWalk
