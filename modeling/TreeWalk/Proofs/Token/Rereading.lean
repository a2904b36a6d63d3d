import Mathlib.Data.List.TakeWhile
import TreeWalk.Proofs.Token.Joining

/-!
This module contains the reading of lexemes by themselves: each token that the scanner finds, but
for comments, is found again in the text that it was written with.
-/

namespace TreeWalk

namespace Lexeme

theorem toStringEnd?_take {text : List Char} {found : Nat × List Char}
    (h : toStringEnd? text = some found) :
    toStringEnd? (text.take found.1) = some found := by
  fun_induction toStringEnd? text generalizing found with
  | case1 => cases h
  | case2 text =>
    cases h
    rfl
  | case3 => cases h
  | case4 c text ih =>
    obtain ⟨found, hfound, rfl⟩ := Option.map_eq_some_iff.1 h
    rw [List.take_succ_cons, List.take_succ_cons, toStringEnd?, ih hfound, Option.map_some]
  | case5 c text hquote hlast hescape ih =>
    obtain ⟨found, hfound, rfl⟩ := Option.map_eq_some_iff.1 h
    have hbackslash : c ≠ '\\' := by
      rintro rfl
      cases text with
      | nil => exact hlast rfl rfl
      | cons c text => exact hescape c text rfl rfl
    rw [List.take_succ_cons, Scanner.toStringEnd?_cons hquote hbackslash, ih hfound,
      Option.map_some]

theorem string_take {text : List Char} {content : TokenKind × Option Literal}
    (h : (string text).content = .ok content) :
    string (text.take (string text).more) = string text := by
  unfold string at h ⊢
  cases hend : toStringEnd? text with
  | none =>
    rw [hend] at h
    cases h
  | some found => simp only [token, toStringEnd?_take hend]

theorem slash_take {text : List Char} {literal : Option Literal}
    (h : (slash text).content = .ok (.slash, literal)) :
    slash (text.take (slash text).more) = slash text := by
  unfold slash at h
  split at h
  · cases h
  · split at h <;> cases h
  · next hline hblock => rw [slash.eq_3 text hline hblock]; rfl

theorem isDigit_of_mem_fraction {text : List Char} {c : Char} (h : c ∈ fraction text) :
    c.isDigit = true := by
  unfold fraction at h
  split at h
  · exact List.mem_takeWhile_imp h
  · cases h

theorem take_more_number (first : Char) (text : List Char) :
    let digits := fraction (text.dropWhile Char.isDigit)
    text.take (number first text).more =
      text.takeWhile Char.isDigit ++ if digits = [] then [] else '.' :: digits := by
  intro digits
  rw [number_eq]
  simp only [token]
  split
  · rw [Scanner.take_length_takeWhile, List.append_nil]
  · next hdigits =>
    obtain ⟨rest, hrest⟩ : ∃ rest, text.dropWhile Char.isDigit = '.' :: rest := by
      by_contra hpoint
      exact hdigits (fraction.eq_2 _ fun rest hrest => hpoint ⟨rest, hrest⟩)
    have htext : text.takeWhile Char.isDigit ++ '.' :: rest = text := by
      rw [← hrest, List.takeWhile_append_dropWhile]
    have hrest' : digits = rest.takeWhile Char.isDigit := by simp only [digits, hrest, fraction]
    calc text.take ((text.takeWhile Char.isDigit).length + 1 + digits.length)
      _ = (text.takeWhile Char.isDigit ++ '.' :: rest).take
          ((text.takeWhile Char.isDigit).length + (digits.length + 1)) := by
        rw [htext, Nat.add_assoc, Nat.add_comm 1]
      _ = text.takeWhile Char.isDigit ++ '.' :: digits := by
        rw [List.take_length_add_append, List.take_succ_cons, hrest', Scanner.take_length_takeWhile]

theorem takeWhile_append_fraction {whole digits : List Char}
    (hwhole : ∀ c ∈ whole, c.isDigit = true) (hdigits : ∀ c ∈ digits, c.isDigit = true) :
    let text := whole ++ if digits = [] then [] else '.' :: digits
    text.takeWhile Char.isDigit = whole ∧ fraction (text.dropWhile Char.isDigit) = digits := by
  have htake := List.takeWhile_eq_self_iff.2 hwhole
  have hdrop := List.dropWhile_eq_nil_iff.2 hwhole
  have hpoint : Char.isDigit '.' = false := by decide
  by_cases h : digits = []
  · subst h
    simp only [if_true, List.append_nil, htake, hdrop, fraction, and_self]
  · simp only [if_neg h, takeWhile_append_of_stop hpoint, dropWhile_append_of_stop hpoint,
      htake, hdrop]
    exact ⟨trivial, List.takeWhile_eq_self_iff.2 hdigits⟩

theorem number_take (first : Char) (text : List Char) :
    number first (text.take (number first text).more) = number first text := by
  have hwhole : ∀ c ∈ text.takeWhile Char.isDigit, c.isDigit = true :=
    fun _ => List.mem_takeWhile_imp
  have hdigits : ∀ c ∈ fraction (text.dropWhile Char.isDigit), c.isDigit = true := fun _ =>
    isDigit_of_mem_fraction
  obtain ⟨hwhole, hdigits⟩ := takeWhile_append_fraction hwhole hdigits
  rw [take_more_number, number_eq, hwhole, hdigits]
  rfl

theorem take_more_word (first : Char) (text : List Char) :
    text.take (word first text).more = text.takeWhile isWordPart := by
  have hmore : (word first text).more = (text.takeWhile isWordPart).length := by
    simp only [word]
    split <;> rfl
  rw [hmore, Scanner.take_length_takeWhile]

theorem word_take (first : Char) (text : List Char) :
    word first (text.take (word first text).more) = word first text := by
  rw [take_more_word, word, word, List.takeWhile_idem]

theorem read_take {first : Char} {text : List Char} {kind : TokenKind} {literal : Option Literal}
    (h : (read first text).content = .ok (kind, literal)) (hkind : kind ≠ .comment) :
    read first (text.take (read first text).more) = read first text := by
  obtain ⟨_, _, hread⟩ | ⟨alone, extended, _, hread⟩ | ⟨_, hread⟩ | ⟨_, hread⟩ | ⟨_, hread⟩ |
    ⟨_, hread⟩ | ⟨_, hread⟩ := read_cases first
  all_goals
    rw [hread] at h
    rw [hread, hread]
  · split
    · next hequals =>
      obtain ⟨text, rfl⟩ := List.head?_eq_some_iff.1 hequals
      rfl
    · rfl
  · obtain rfl := (slash_kind h).resolve_left hkind
    exact slash_take h
  · exact string_take h
  · exact number_take first text
  · exact word_take first text

end Lexeme

def Token.Rereads (token : Token) : Prop :=
  ∃ first text, token.lexeme.toList = first :: text ∧ ¬ Lexeme.isSeparator first ∧
    Lexeme.read first text = .token text.length token.kind token.literal

theorem ScanItem.rereads_of_mem_walk {inside : Nat} {position : Position} {text : List Char}
    {item : ScanItem} (h : item ∈ walk inside position text) (hfault : item.fault = none)
    (hcomment : item.token.isComment = false) :
    item.token.Rereads := by
  obtain ⟨front, c, rest, rfl, hseparator, rfl⟩ := exists_read_of_mem_walk h
  obtain ⟨⟨kind, literal⟩, hcontent⟩ := exists_content_of_fault hfault
  obtain ⟨_, hmore⟩ := Lexeme.read_append hcontent []
  rw [ofLexeme_of_ok hcontent] at hcomment ⊢
  refine ⟨c, _, String.toList_ofList, hseparator, ?_⟩
  rw [Lexeme.read_take hcontent (by simpa [Token.isComment] using hcomment),
    List.length_take_of_le hmore]
  cases hread : Lexeme.read c rest
  rw [hread] at hcontent
  cases hcontent
  rfl

end TreeWalk
