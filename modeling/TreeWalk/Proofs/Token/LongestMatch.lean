import TreeWalk.Proofs.Token.Lossless
import TreeWalk.Proofs.Token.Rereading

/-!
This module contains the lexical grammar, and the proof that each token is the longest piece of the
text that the grammar describes at the place of the token.
-/

namespace TreeWalk

def symbols : List (List Char × TokenKind) := [
  (['('], .leftParen), ([')'], .rightParen), (['\x7b'], .leftBrace), (['\x7d'], .rightBrace),
  ([','], .comma), (['.'], .dot), (['-'], .minus), (['+'], .plus), ([';'], .semicolon),
  (['/'], .slash), (['*'], .star), (['!'], .bang), (['!', '='], .bangEqual), (['='], .equal),
  (['=', '='], .equalEqual), (['>'], .greater), (['>', '='], .greaterEqual), (['<'], .less),
  (['<', '='], .lessEqual)]

def keywords : List (String × TokenKind) := [
  ("and", .andWord), ("break", .breakWord), ("class", .classWord), ("else", .elseWord),
  ("false", .falseWord), ("for", .forWord), ("fun", .funWord), ("if", .ifWord), ("nil", .nilWord),
  ("or", .orWord), ("print", .printWord), ("return", .returnWord), ("super", .superWord),
  ("this", .thisWord), ("true", .trueWord), ("var", .varWord), ("while", .whileWord)]

inductive Word : List Char → Prop
  | mk {first : Char} {tail : List Char} (hfirst : Text.isAlphabetic first ∨ first = '_')
    (htail : ∀ c ∈ tail, Text.isAlphabetic c ∨ Text.isNumeric c ∨ c = '_') : Word (first :: tail)

/--
The texts of each kind, but for strings and comments.
-/
inductive LexicalClass : TokenKind → List Char → Prop
  | symbol {kind : TokenKind} {text : List Char} (h : (text, kind) ∈ symbols) :
    LexicalClass kind text
  | number {text : List Char} (h : Numeral text) : LexicalClass .number text
  | keyword {kind : TokenKind} {text : List Char} (h : (String.ofList text, kind) ∈ keywords) :
    LexicalClass kind text
  | identifier {text : List Char} (h : Word text)
    (hname : String.ofList text ∉ keywords.map Prod.fst) :
    LexicalClass .identifier text

def StartsToken (c : Char) : Prop :=
  c = '"' ∨ ∃ kind text, LexicalClass kind (c :: text)

namespace Lexeme

theorem isWordStart_iff {c : Char} : isWordStart c ↔ Text.isAlphabetic c ∨ c = '_' := by
  simp [isWordStart]

theorem isWordPart_iff {c : Char} :
    isWordPart c ↔ Text.isAlphabetic c ∨ Text.isNumeric c ∨ c = '_' := by
  simp [isWordPart, or_assoc]

theorem not_isWordStart_of_isDigit {c : Char} (h : c.isDigit) : ¬ isWordStart c := by
  have hlt : c.toNat < 65 := by
    simp only [Char.isDigit, Bool.and_eq_true, decide_eq_true_eq, UInt32.le_iff_toNat_le] at h
    exact Nat.lt_of_le_of_lt h.2 (by decide)
  have hunderscore : c ≠ '_' := by
    rintro rfl
    exact absurd h (by decide)
  have halphabetic : Text.isAlphabetic c = false := if_pos hlt
  simp [isWordStart, halphabetic, hunderscore]

theorem word_iff {c : Char} {tail : List Char} :
    Word (c :: tail) ↔ isWordStart c ∧ ∀ d ∈ tail, isWordPart d := by
  simp only [isWordStart_iff, isWordPart_iff]
  constructor
  · rintro ⟨hfirst, htail⟩
    exact ⟨hfirst, htail⟩
  · rintro ⟨hfirst, htail⟩
    exact ⟨hfirst, htail⟩

theorem parts_of_mem_keywords : ∀ entry ∈ keywords,
    entry.1.toList.head?.any isWordStart ∧ entry.1.toList.all isWordPart := by
  decide

theorem word_of_mem_keywords {text : List Char} {kind : TokenKind}
    (h : (String.ofList text, kind) ∈ keywords) :
    Word text := by
  have hparts := parts_of_mem_keywords _ h
  simp only [String.toList_ofList] at hparts
  cases text with
  | nil => simp at hparts
  | cons c tail =>
    have hall := List.all_eq_true.1 hparts.2
    exact word_iff.2 ⟨hparts.1, fun d hd => hall d (.tail c hd)⟩

theorem head_of_symbol {entry : List Char × TokenKind} (h : entry ∈ symbols) {c : Char}
    (hc : entry.1.head? = some c) :
    ¬ c.isDigit ∧ ¬ isWordStart c := by
  have hall : ∀ entry ∈ symbols, entry.1.head?.all fun c => !c.isDigit && !isWordStart c := by
    decide
  simpa [hc] using hall entry h

theorem symbol_of_mark : ∀ mark ∈ TokenKind.marks, ([mark.1], mark.2) ∈ symbols ∧
    ∀ entry ∈ symbols, entry.1.head? = some mark.1 → entry.1 = [mark.1] := by
  decide

theorem symbol_of_relation : ∀ relation ∈ TokenKind.relations,
    ([relation.1], relation.2.1) ∈ symbols ∧ ([relation.1, '='], relation.2.2) ∈ symbols ∧
    ∀ entry ∈ symbols, entry.1.head? = some relation.1 →
      entry.1 = [relation.1] ∨ entry.1 = [relation.1, '='] := by
  decide

theorem slash_mem_symbols : (['/'], .slash) ∈ symbols := by
  decide

theorem symbol_of_slash : ∀ entry ∈ symbols, entry.1.head? = some '/' → entry.1 = ['/'] := by
  decide

theorem eq_slash_of_symbol {entry : List Char × TokenKind} (h : entry ∈ symbols) {c : Char}
    (hc : entry.1.head? = some c) (hmark : TokenKind.marks.lookup c = none)
    (hrelation : TokenKind.relations.lookup c = none) : c = '/' := by
  have hall : ∀ entry ∈ symbols, entry.1.head?.all fun c =>
      (TokenKind.marks.lookup c).isSome || (TokenKind.relations.lookup c).isSome || c == '/' := by
    decide
  simpa [hc, hmark, hrelation] using hall entry h

end Lexeme

namespace LexicalClass

open Lexeme

variable {kind : TokenKind} {c : Char} {tail : List Char}

theorem cases_cons (h : LexicalClass kind (c :: tail)) :
    (∃ kind, (c :: tail, kind) ∈ symbols) ∨ c.isDigit ∧ Numeral (c :: tail) ∨ isWordStart c ∧
    Word (c :: tail) := by
  cases h with
  | symbol h => exact .inl ⟨kind, h⟩
  | number h => exact .inr (.inl ⟨(numeral_cons_iff.1 h).1, h⟩)
  | keyword h =>
    have hword := word_of_mem_keywords h
    exact .inr (.inr ⟨(word_iff.1 hword).1, hword⟩)
  | identifier h => exact .inr (.inr ⟨(word_iff.1 h).1, h⟩)

end LexicalClass

theorem Word.exists_class {text : List Char} (h : Word text) : ∃ kind, LexicalClass kind text := by
  by_cases hname : String.ofList text ∈ keywords.map Prod.fst
  · obtain ⟨⟨name, kind⟩, hentry, rfl⟩ := List.mem_map.1 hname
    exact ⟨kind, .keyword hentry⟩
  · exact ⟨.identifier, .identifier h hname⟩

theorem LexicalClass.keyword_iff {kind : TokenKind} {text : List Char} (h : LexicalClass kind text)
    (hword : Word text) :
    (kind ∈ keywords.map Prod.snd ↔ String.ofList text ∈ keywords.map Prod.fst) ∧
      (String.ofList text ∉ keywords.map Prod.fst → kind = .identifier) := by
  cases h with
  | symbol h =>
    obtain ⟨hfirst, htail⟩ := hword
    exact absurd (Lexeme.isWordStart_iff.2 hfirst) (Lexeme.head_of_symbol h rfl).2
  | number h =>
    obtain ⟨hfirst, htail⟩ := hword
    exact absurd (Lexeme.isWordStart_iff.2 hfirst)
      (Lexeme.not_isWordStart_of_isDigit (numeral_cons_iff.1 h).1)
  | keyword h =>
    have hkind := List.mem_map_of_mem (f := Prod.snd) h
    have hname := List.mem_map_of_mem (f := Prod.fst) h
    exact ⟨⟨fun _ => hname, fun _ => hkind⟩, absurd hname⟩
  | identifier h hname =>
    have hkind : TokenKind.identifier ∉ keywords.map Prod.snd := by decide
    exact ⟨⟨fun hmem => absurd hmem hkind, fun hmem => absurd hmem hname⟩, fun _ => rfl⟩

/--
The lexeme is described by the grammar, and nothing longer is that the text begins with at its
place. What a name or a number stands for is what was written.
-/
structure LongestMatch (kind : TokenKind) (literal : Option Literal) (lexeme rest : List Char) :
    Prop where
  described : LexicalClass kind lexeme
  longest {kind : TokenKind} {longer : List Char} :
    LexicalClass kind longer → longer <+: lexeme ++ rest →
    longer.length ≤ lexeme.length
  slash : kind = .slash → rest.head? ≠ some '/' ∧ rest.head? ≠ some '*'
  identifier : kind = .identifier → literal = some (.string (.ofList lexeme))
  number : kind = .number → ∃ value, Number.read? (.ofList lexeme) = some value ∧
    literal = some (.number value)

namespace LongestMatch

variable {kind : TokenKind} {literal : Option Literal} {c : Char} {text : List Char} {more : Nat}

theorem of_take (described : LexicalClass kind (c :: text.take more))
    (longest : ∀ {kind longer}, LexicalClass kind longer → longer <+: c :: text →
      longer.length ≤ more + 1)
    (slash : kind = .slash → (text.drop more).head? ≠ some '/' ∧ (text.drop more).head? ≠ some '*')
    (identifier : kind = .identifier → literal = some (.string (.ofList (c :: text.take more))))
    (number : kind = .number →
      ∃ value, Number.read? (.ofList (c :: text.take more)) = some value ∧
        literal = some (.number value)) :
    LongestMatch kind literal (c :: text.take more) (text.drop more) where
  described := described
  longest := by
    intro kind longer h hbegins
    rw [List.cons_append, List.take_append_drop] at hbegins
    have hlength := hbegins.length_le
    have hmore := longest h hbegins
    rw [List.length_cons] at hlength ⊢
    rw [List.length_take]
    omega
  slash := slash
  identifier := identifier
  number := number

theorem plain (hkind : kind ∉ [.slash, .identifier, .number])
    (described : LexicalClass kind (c :: text.take more))
    (longest : ∀ {kind longer}, LexicalClass kind longer → longer <+: c :: text →
      longer.length ≤ more + 1) :
    LongestMatch kind literal (c :: text.take more) (text.drop more) := by
  simp only [List.mem_cons, List.not_mem_nil, or_false, not_or] at hkind
  exact of_take described longest (absurd · hkind.1) (absurd · hkind.2.1) (absurd · hkind.2.2)

end LongestMatch

namespace Lexeme

variable {c : Char} {text : List Char}

theorem longest_of_head {size : Nat}
    (hsymbol : ∀ entry ∈ symbols, entry.1.head? = some c → entry.1 <+: c :: text →
      entry.1.length ≤ size)
    (hnumber : c.isDigit → ∀ tail, Numeral (c :: tail) → tail <+: text → tail.length < size)
    (hword : isWordStart c → ∀ tail, Word (c :: tail) → tail <+: text → tail.length < size)
    {kind : TokenKind} {longer : List Char} (h : LexicalClass kind longer)
    (hbegins : longer <+: c :: text) :
    longer.length ≤ size := by
  cases longer with
  | nil => exact Nat.zero_le size
  | cons first tail =>
    obtain ⟨rfl, htail⟩ := List.cons_prefix_cons.1 hbegins
    obtain ⟨kind, hmem⟩ | ⟨hdigit, hnumeral⟩ | ⟨hstart, htext⟩ := h.cases_cons
    · exact hsymbol _ hmem rfl hbegins
    · exact hnumber hdigit tail hnumeral htail
    · exact hword hstart tail htext htail

theorem longest_of_symbol {size : Nat} {kind : TokenKind} (hc : ([c], kind) ∈ symbols)
    (hsymbol : ∀ entry ∈ symbols, entry.1.head? = some c → entry.1 <+: c :: text →
      entry.1.length ≤ size)
    {kind : TokenKind} {longer : List Char} (h : LexicalClass kind longer)
    (hbegins : longer <+: c :: text) :
    longer.length ≤ size := by
  obtain ⟨hdigit, hstart⟩ := head_of_symbol hc rfl
  exact longest_of_head hsymbol (absurd · hdigit) (absurd · hstart) h hbegins

theorem length_le_takeWhile {p : Char → Bool} {tail : List Char} (htail : ∀ d ∈ tail, p d)
    (h : tail <+: text) :
    tail.length ≤ (text.takeWhile p).length := by
  obtain ⟨rest, rfl⟩ := h
  rw [List.takeWhile_append_of_pos htail, List.length_append]
  exact Nat.le_add_right _ _

theorem length_takeWhile_le_number (c : Char) (text : List Char) :
    (text.takeWhile Char.isDigit).length ≤ (number c text).more := by
  rw [number_eq]
  simp only [token]
  split <;> omega

theorem length_le_number {tail : List Char} (h : Numeral (c :: tail)) (hbegins : tail <+: text) :
    tail.length ≤ (number c text).more := by
  obtain ⟨_, digits, fraction, rfl, hdigits, hfraction⟩ := numeral_cons_iff.1 h
  by_cases hne : fraction = []
  · rw [if_pos hne, List.append_nil] at hbegins ⊢
    exact Nat.le_trans (length_le_takeWhile hdigits hbegins) (length_takeWhile_le_number c text)
  · rw [if_neg hne] at hbegins ⊢
    obtain ⟨rest, rfl⟩ := hbegins
    have hpoint : Char.isDigit '.' = false := by decide
    have htake : (digits ++ '.' :: (fraction ++ rest)).takeWhile Char.isDigit = digits := by
      rw [takeWhile_append_of_stop hpoint, List.takeWhile_eq_self_iff.2 hdigits]
    have hdrop : (digits ++ '.' :: (fraction ++ rest)).dropWhile Char.isDigit =
        '.' :: (fraction ++ rest) := by
      rw [dropWhile_append_of_stop hpoint, List.dropWhile_eq_nil_iff.2 hdigits, List.nil_append]
    have hlength : fraction.length ≤ ((fraction ++ rest).takeWhile Char.isDigit).length :=
      length_le_takeWhile hfraction (List.prefix_append fraction rest)
    have hpos := List.length_pos_iff.2 hne
    have hne' : (fraction ++ rest).takeWhile Char.isDigit ≠ [] := by
      apply List.length_pos_iff.1
      omega
    rw [List.append_assoc, List.cons_append, number_eq, htake, hdrop]
    simp only [token, Lexeme.fraction, if_neg hne', List.length_append, List.length_cons]
    omega

theorem kind_of_mark : ∀ mark ∈ TokenKind.marks, mark.2 ∉ [.slash, .identifier, .number] := by
  decide

theorem kind_of_relation : ∀ relation ∈ TokenKind.relations,
    relation.2.1 ∉ [.slash, .identifier, .number] ∧
    relation.2.2 ∉ [.slash, .identifier, .number] := by
  decide

theorem keyword_of_lookup {name : String} {kind : TokenKind}
    (h : TokenKind.words.lookup name = some kind) : (name, kind) ∈ keywords := by
  have hwords : ∀ entry ∈ TokenKind.words, entry ∈ keywords := by decide
  exact hwords _ (mem_of_lookup h)

theorem not_keyword_of_lookup {name : String} (h : TokenKind.words.lookup name = none) :
    name ∉ keywords.map Prod.fst := by
  have hwords : ∀ entry ∈ keywords, entry ∈ TokenKind.words := by decide
  intro hmem
  obtain ⟨entry, hentry, rfl⟩ := List.mem_map.1 hmem
  simpa using List.lookup_eq_none_iff.1 h entry (hwords entry hentry)

theorem kind_of_keyword : ∀ entry ∈ keywords, entry.2 ∉ [.slash, .identifier, .number] := by
  decide

theorem longestMatch_mark {kind : TokenKind} (h : (c, kind) ∈ TokenKind.marks) (text : List Char) :
    LongestMatch kind none (c :: text.take 0) (text.drop 0) := by
  obtain ⟨hmem, hsymbol⟩ := symbol_of_mark _ h
  apply LongestMatch.plain (kind_of_mark _ h) (.symbol hmem)
  apply longest_of_symbol hmem
  intro entry hentry hhead _
  rw [hsymbol entry hentry hhead]
  exact Nat.le_refl 1

theorem longestMatch_relation {alone extended : TokenKind}
    (h : (c, alone, extended) ∈ TokenKind.relations) (text : List Char) :
    if text.head? = some '=' then LongestMatch extended none (c :: text.take 1) (text.drop 1)
    else LongestMatch alone none (c :: text.take 0) (text.drop 0) := by
  obtain ⟨halone, hextended, hsymbol⟩ := symbol_of_relation _ h
  obtain ⟨hkind, hkind'⟩ := kind_of_relation _ h
  split
  · next hequals =>
    obtain ⟨rest, rfl⟩ := List.head?_eq_some_iff.1 hequals
    apply LongestMatch.plain hkind' (.symbol hextended)
    apply longest_of_symbol halone
    intro entry hentry hhead _
    obtain hentry | hentry := hsymbol entry hentry hhead
    · simp [hentry]
    · simp [hentry]
  · next hequals =>
    apply LongestMatch.plain hkind (.symbol halone)
    apply longest_of_symbol halone
    intro entry hentry hhead hbegins
    obtain hentry | hentry := hsymbol entry hentry hhead
    · simp [hentry]
    · rw [hentry] at hbegins
      obtain ⟨rest, rfl⟩ := (List.cons_prefix_cons.1 hbegins).2
      exact absurd rfl hequals

theorem longestMatch_slash {literal : Option Literal}
    (h : (slash text).content = .ok (.slash, literal)) :
    LongestMatch .slash literal ('/' :: text.take (slash text).more)
      (text.drop (slash text).more) := by
  unfold slash at h
  split at h
  · cases h
  · split at h <;> cases h
  · next hline hblock =>
    rw [slash.eq_3 text hline hblock]
    cases h
    apply LongestMatch.of_take (.symbol slash_mem_symbols)
    · apply longest_of_symbol slash_mem_symbols
      intro entry hentry hhead _
      rw [symbol_of_slash entry hentry hhead]
      exact Nat.le_refl 1
    · intro _
      constructor
      · intro hhead
        obtain ⟨rest, rfl⟩ := List.head?_eq_some_iff.1 hhead
        exact hline rest rfl
      · intro hhead
        obtain ⟨rest, rfl⟩ := List.head?_eq_some_iff.1 hhead
        exact hblock rest rfl
    · rintro ⟨⟩
    · rintro ⟨⟩

theorem read?_number (hc : c.isDigit) (text : List Char) :
    ∃ value, Number.read? (.ofList (c :: text.take (number c text).more)) = some value ∧
      (number c text).content = .ok (.number, some (.number value)) := by
  have hwhole : ∀ d ∈ c :: text.takeWhile Char.isDigit, d.isDigit :=
    List.forall_mem_cons.2 ⟨hc, fun _ => List.mem_takeWhile_imp⟩
  have hfraction : ∀ d ∈ fraction (text.dropWhile Char.isDigit), d.isDigit := fun _ =>
    isDigit_of_mem_fraction
  refine ⟨_, ?_, rfl⟩
  rw [take_more_number, ← List.cons_append]
  exact Number.read?_digits (List.cons_ne_nil c _) hwhole hfraction

theorem numeral_number (hc : c.isDigit) (text : List Char) :
    Numeral (c :: text.take (number c text).more) :=
  numeral_cons_iff.2 ⟨hc, text.takeWhile Char.isDigit, fraction (text.dropWhile Char.isDigit),
    take_more_number c text, fun _ => List.mem_takeWhile_imp, fun _ => isDigit_of_mem_fraction⟩

theorem longestMatch_number {kind : TokenKind} {literal : Option Literal} (hc : c.isDigit)
    (h : (number c text).content = .ok (kind, literal)) :
    LongestMatch kind literal (c :: text.take (number c text).more)
      (text.drop (number c text).more) := by
  obtain ⟨value, hread, hcontent⟩ := read?_number hc text
  obtain ⟨rfl, rfl⟩ : TokenKind.number = kind ∧ some (.number value) = literal := by
    rw [hcontent] at h
    cases h
    exact ⟨rfl, rfl⟩
  apply LongestMatch.of_take (.number (numeral_number hc text))
  · intro kind longer
    apply longest_of_head
    · intro entry hentry hhead _
      exact absurd hc (head_of_symbol hentry hhead).1
    · intro _ tail hnumeral hbegins
      exact Nat.lt_succ_of_le (length_le_number hnumeral hbegins)
    · intro hstart
      exact absurd hstart (not_isWordStart_of_isDigit hc)
  · rintro ⟨⟩
  · rintro ⟨⟩
  · intro _
    exact ⟨value, hread, rfl⟩

theorem longestMatch_word {kind : TokenKind} {literal : Option Literal} (hc : isWordStart c)
    (h : (word c text).content = .ok (kind, literal)) :
    LongestMatch kind literal (c :: text.take (word c text).more)
      (text.drop (word c text).more) := by
  have htake := take_more_word c text
  have hlongest {kind : TokenKind} {longer : List Char} :
      LexicalClass kind longer → longer <+: c :: text → longer.length ≤ (word c text).more + 1 := by
    apply longest_of_head
    · intro entry hentry hhead _
      exact absurd hc (head_of_symbol hentry hhead).2
    · intro hdigit
      exact absurd hc (not_isWordStart_of_isDigit hdigit)
    · intro _ tail hword hbegins
      have hlength := length_le_takeWhile (word_iff.1 hword).2 hbegins
      rw [← take_more_word c, List.length_take] at hlength
      omega
  simp only [word] at h
  split at h
  · next hkeyword =>
    cases h
    have hmem := keyword_of_lookup hkeyword
    rw [← htake] at hmem
    exact .plain (kind_of_keyword _ hmem) (.keyword hmem) hlongest
  · next hname =>
    cases h
    have hword : Word (c :: text.take (word c text).more) := by
      rw [htake, word_iff]
      exact ⟨hc, fun _ => List.mem_takeWhile_imp⟩
    have hname := not_keyword_of_lookup hname
    rw [← htake] at hname
    apply LongestMatch.of_take (.identifier hword hname) hlongest
    · rintro ⟨⟩
    · intro _
      rw [htake]
    · rintro ⟨⟩

theorem longestMatch_read {kind : TokenKind} {literal : Option Literal}
    (h : (read c text).content = .ok (kind, literal)) (hkind : kind ∉ [.string, .comment]) :
    LongestMatch kind literal (c :: text.take (read c text).more)
      (text.drop (read c text).more) := by
  obtain ⟨mark, hmark, hread⟩ | ⟨alone, extended, hrelation, hread⟩ | ⟨rfl, hread⟩ | ⟨_, hread⟩ |
    ⟨hdigit, hread⟩ | ⟨hstart, hread⟩ | ⟨_, hread⟩ := read_cases c
  all_goals rw [hread] at h ⊢
  · cases h
    exact longestMatch_mark hmark text
  · have hmatch := longestMatch_relation hrelation text
    split at h
    · next hequals =>
      cases h
      rw [if_pos hequals] at hmatch ⊢
      exact hmatch
    · next hequals =>
      cases h
      rw [if_neg hequals] at hmatch ⊢
      exact hmatch
  · obtain rfl | rfl := slash_kind h
    · simp at hkind
    · exact longestMatch_slash h
  · rw [string_kind h] at hkind
    simp at hkind
  · exact longestMatch_number hdigit h
  · exact longestMatch_word hstart h
  · cases h

theorem startsToken_of_symbol {kind : TokenKind} (h : ([c], kind) ∈ symbols) : StartsToken c :=
  .inr ⟨kind, [], .symbol h⟩

theorem slash_of_fault {wrong : Fault} (h : (slash text).content = .error wrong) :
    wrong = .unterminatedComment ∧ slash text = fault text.length wrong := by
  unfold slash at h
  split at h
  · cases h
  · next text =>
    cases hend : toCommentEnd? 0 text with
    | some size =>
      rw [hend] at h
      cases h
    | none =>
      rw [hend] at h
      cases h
      rw [slash, hend, List.length_cons, Nat.add_comm]
      exact ⟨rfl, rfl⟩
  · cases h

theorem string_of_fault {wrong : Fault} (h : (string text).content = .error wrong) :
    wrong = .unterminatedString ∧ string text = fault text.length wrong := by
  unfold string at h ⊢
  split at h
  · cases h
  · cases h
    exact ⟨rfl, rfl⟩

theorem startsToken_cases (c : Char) :
    (StartsToken c ∧ ∀ text wrong, (read c text).content = .error wrong →
      (wrong = .unterminatedComment ∨ wrong = .unterminatedString) ∧
      read c text = fault text.length wrong) ∨
    (¬ StartsToken c ∧ ∀ text, read c text = fault 0 .unexpectedCharacter) := by
  obtain ⟨mark, hmark, hread⟩ | ⟨alone, extended, hrelation, hread⟩ | ⟨rfl, hread⟩ | ⟨rfl, hread⟩ |
    ⟨hdigit, hread⟩ |
    ⟨hstart, hread⟩ | ⟨⟨hmark, hrelation, hslash, hquote, hdigit, hstart⟩, hread⟩ := read_cases c
  case inr.inr.inr.inr.inr.inr =>
    refine .inr ⟨?_, hread⟩
    rintro (hquote' | ⟨kind, tail, hclass⟩)
    · exact hquote hquote'
    obtain ⟨kind, hmem⟩ | ⟨hdigit', _⟩ | ⟨hstart', _⟩ := hclass.cases_cons
    · exact hslash (eq_slash_of_symbol hmem rfl hmark hrelation)
    · exact hdigit hdigit'
    · exact hstart hstart'
  all_goals
    left
    simp only [hread]
  · exact ⟨startsToken_of_symbol (symbol_of_mark _ hmark).1, nofun⟩
  · refine ⟨startsToken_of_symbol (symbol_of_relation _ hrelation).1, ?_⟩
    intro text fault h
    split at h <;> cases h
  · have hstarts : StartsToken '/' := startsToken_of_symbol slash_mem_symbols
    exact ⟨hstarts, fun text wrong h => (slash_of_fault h).imp .inl id⟩
  · exact ⟨.inl rfl, fun text wrong h => (string_of_fault h).imp .inr id⟩
  · exact ⟨.inr ⟨.number, _, .number (numeral_number hdigit [])⟩, nofun⟩
  · obtain ⟨kind, hclass⟩ := (word_iff.2 ⟨hstart, List.forall_mem_nil _⟩).exists_class
    refine ⟨.inr ⟨kind, [], hclass⟩, ?_⟩
    intro text fault h
    simp only [word] at h
    split at h <;> cases h

end Lexeme

namespace ScanItem

variable {position : Position} {text front rest : List Char} {items items' : List ScanItem}
  {c : Char}

def Covers (items : List ScanItem) (position : Position) (text front : List Char) : Prop :=
  ∃ before first behind, text = before ++ first :: behind ∧ before <+: front ∧
    front.length ≤ before.length + (Lexeme.read first behind).more ∧
    ofLexeme (position.advance before) first behind (Lexeme.read first behind) ∈ items

theorem Covers.cons (h : Covers items (position.after c) text front) (hitems : items ⊆ items') :
    Covers items' position (c :: text) (c :: front) := by
  obtain ⟨before, first, behind, rfl, hbefore, hlength, hmem⟩ := h
  refine ⟨c :: before, first, behind, rfl, List.cons_prefix_cons.2 ⟨rfl, hbefore⟩, ?_, hitems hmem⟩
  simp only [List.length_cons]
  omega

theorem covers_walk (inside : Nat) (position : Position) (htext : text = front ++ c :: rest)
    (hc : ¬ Lexeme.isSeparator c) :
    front.length < inside ∨ Covers (walk inside position text) position text front := by
  induction text generalizing inside position front with
  | nil => simp at htext
  | cons d text ih =>
    cases front with
    | nil =>
      obtain ⟨rfl, rfl⟩ := List.cons.inj htext
      cases inside with
      | succ inside => exact .inl (Nat.succ_pos inside)
      | zero =>
        rw [walk, if_neg hc]
        exact .inr ⟨[], d, text, rfl, List.nil_prefix, Nat.zero_le _, .head _⟩
    | cons d front =>
      obtain ⟨rfl, rfl⟩ := List.cons.inj htext
      cases inside with
      | succ inside =>
        rw [walk]
        exact (ih inside _ rfl).imp Nat.succ_lt_succ fun h => h.cons (List.Subset.refl _)
      | zero =>
        right
        rw [walk]
        split
        · exact ((ih 0 _ rfl).resolve_left (Nat.not_lt_zero _)).cons (List.Subset.refl _)
        · obtain hlt | h := ih (Lexeme.read d (front ++ c :: rest)).more (position.after d) rfl
          · exact ⟨[], d, _, rfl, List.nil_prefix, Nat.le_trans hlt (Nat.le_add_left _ _), .head _⟩
          · exact h.cons (List.subset_cons_self _ _)

theorem fault_ofLexeme_eq_some_iff {lexeme : Lexeme} {fault : Fault} :
    (ofLexeme position c text lexeme).fault = some fault ↔ lexeme.content = .error fault := by
  unfold ofLexeme
  cases lexeme.content with
  | ok content => simp
  | error fault' => simp

theorem ofLexeme_of_not_startsToken (h : ¬ StartsToken c) (position : Position) (text : List Char) :
    ofLexeme position c text (Lexeme.read c text) =
      ⟨⟨.invalid, .singleton c, none, position⟩, some .unexpectedCharacter⟩ := by
  rw [((Lexeme.startsToken_cases c).resolve_left fun hstarts => h hstarts.1).2 text,
    String.singleton_eq_ofList]
  rfl

end ScanItem

theorem Scanned.mem_errors_iff {scanned : Scanned} {error : ScanError} :
    error ∈ scanned.errors ↔ ∃ item ∈ scanned.items, item.fault = some error.fault ∧
      item.token = error.token := by
  simp only [errors, List.mem_filterMap, Option.map_eq_some_iff]
  constructor
  · rintro ⟨item, hmem, fault, hfault, rfl⟩
    exact ⟨item, hmem, hfault, rfl⟩
  · rintro ⟨item, hmem, hfault, htoken⟩
    exact ⟨item, hmem, error.fault, hfault, htoken ▸ rfl⟩

variable {source : String}

theorem exists_read_of_mem_scan {item : ScanItem} (h : item ∈ (scan source).items) :
    ∃ front c rest, source.toList = front ++ c :: rest ∧ ¬ Lexeme.isSeparator c ∧
      item = .ofLexeme (.behind front) c rest (Lexeme.read c rest) := by
  obtain ⟨front, c, rest, htext, hc, hitem⟩ := ScanItem.exists_read_of_mem_walk h
  rw [Position.advance_start] at hitem
  exact ⟨front, c, rest, htext, hc, hitem⟩

theorem longestMatch_of_mem_scan {token : Token} (h : token ∈ (scan source).tokens)
    (hkind : token.kind ∉ [.string, .comment, .invalid, .eof]) :
    ∃ front rest, source.toList = front ++ (token.lexeme.toList ++ rest) ∧
      token.position = .behind front ∧
      LongestMatch token.kind token.literal token.lexeme.toList rest := by
  simp only [List.mem_cons, List.not_mem_nil, or_false, not_or] at hkind
  obtain ⟨hstring, hcomment, hinvalid, heof⟩ := hkind
  obtain h | h := List.mem_append.1 h
  · obtain ⟨item, hitem, rfl⟩ := List.mem_map.1 h
    obtain ⟨front, c, rest, htext, _, rfl⟩ := exists_read_of_mem_scan hitem
    cases hcontent : (Lexeme.read c rest).content with
    | error fault => simp [ScanItem.ofLexeme, hcontent] at hinvalid
    | ok content =>
      obtain ⟨kind, literal⟩ := content
      rw [ScanItem.ofLexeme_of_ok hcontent] at hstring hcomment ⊢
      have hmatch := Lexeme.longestMatch_read hcontent (by simpa using ⟨hstring, hcomment⟩)
      rw [String.toList_ofList]
      refine ⟨front, rest.drop (Lexeme.read c rest).more, ?_, rfl, hmatch⟩
      rw [List.cons_append, List.take_append_drop, htext]
  · obtain rfl := List.mem_singleton.1 h
    exact absurd rfl heof

theorem scan_error_cases {error : ScanError} (h : error ∈ (scan source).errors) :
    (∃ front c rest, source.toList = front ++ c :: rest ∧ ¬ Lexeme.isSeparator c ∧ ¬ StartsToken c ∧
      error = ⟨⟨.invalid, .singleton c, none, .behind front⟩, .unexpectedCharacter⟩) ∨
    error.fault = .unterminatedComment ∨ error.fault = .unterminatedString := by
  obtain ⟨item, hitem, hfault, htoken⟩ := Scanned.mem_errors_iff.1 h
  obtain ⟨front, c, rest, htext, hc, rfl⟩ := exists_read_of_mem_scan hitem
  obtain ⟨_, hread⟩ | ⟨hstarts, _⟩ := Lexeme.startsToken_cases c
  · exact .inr (hread rest _ (ScanItem.fault_ofLexeme_eq_some_iff.1 hfault)).1
  · refine .inl ⟨front, c, rest, htext, hc, hstarts, ?_⟩
    rw [ScanItem.ofLexeme_of_not_startsToken hstarts] at hfault htoken
    obtain ⟨token, fault⟩ := error
    cases hfault
    cases htoken
    rfl

theorem unexpected_or_covered {front rest : List Char} {c : Char}
    (htext : source.toList = front ++ c :: rest) (hc : ¬ Lexeme.isSeparator c)
    (hstarts : ¬ StartsToken c) :
    (⟨⟨.invalid, .singleton c, none, .behind front⟩, .unexpectedCharacter⟩ ∈ (scan source).errors) ∨
      ∃ token ∈ (scan source).tokens, ∃ before between, between ≠ [] ∧ front = before ++ between ∧
        token.position = .behind before ∧ between.length < token.lexeme.toList.length := by
  obtain hlt | ⟨before, first, behind, htext', ⟨between, rfl⟩, hlength, hmem⟩ :=
    ScanItem.covers_walk 0 .start htext hc
  · exact absurd hlt (Nat.not_lt_zero _)
  rw [Position.advance_start] at hmem
  cases between with
  | nil =>
    rw [List.append_nil] at htext ⊢
    obtain ⟨rfl, rfl⟩ := List.cons.inj (List.append_cancel_left (htext'.symm.trans htext))
    rw [ScanItem.ofLexeme_of_not_startsToken hstarts] at hmem
    exact .inl (Scanned.mem_errors_iff.2 ⟨_, hmem, rfl, rfl⟩)
  | cons d between =>
    right
    obtain ⟨hlexeme, hposition, _⟩ := ScanItem.token_ofLexeme (.behind before) first behind
    refine ⟨_, List.mem_append_left _ (List.mem_map_of_mem hmem), before, d :: between,
      List.cons_ne_nil _ _, rfl, hposition, ?_⟩
    have hbehind : behind = between ++ c :: rest := by
      rw [htext', List.append_assoc] at htext
      exact (List.cons.inj (List.append_cancel_left htext)).2
    have hshort : between.length < behind.length := by
      rw [hbehind, List.length_append, List.length_cons]
      omega
    rw [hlexeme]
    simp only [List.length_append, List.length_cons, List.length_take] at hlength ⊢
    omega

theorem scan_longest_match (source : String) :
    (∀ token ∈ (scan source).tokens, token.kind ∉ [.string, .comment, .invalid, .eof] →
      (∃ front rest, source.toList = front ++ (token.lexeme.toList ++ rest) ∧
        token.position = .behind front ∧
        LongestMatch token.kind token.literal token.lexeme.toList rest) ∧
      (Word token.lexeme.toList →
        (token.kind ∈ keywords.map Prod.snd ↔ token.lexeme ∈ keywords.map Prod.fst) ∧
        (token.lexeme ∉ keywords.map Prod.fst →
          token.kind = .identifier ∧ token.literal = some (.string token.lexeme)))) ∧
    (∀ error ∈ (scan source).errors, error.fault = .unexpectedCharacter →
      ∃ front c rest, source.toList = front ++ c :: rest ∧ c ∉ [' ', '\t', '\r', '\n'] ∧
        ¬ StartsToken c ∧
        error.token = ⟨.invalid, .singleton c, none, .behind front⟩) ∧
    (∀ front c rest, source.toList = front ++ c :: rest → c ∉ [' ', '\t', '\r', '\n'] →
      ¬ StartsToken c →
      (⟨⟨.invalid, .singleton c, none, .behind front⟩, .unexpectedCharacter⟩ ∈
        (scan source).errors) ∨
      ∃ token ∈ (scan source).tokens, ∃ before between, between ≠ [] ∧ front = before ++ between ∧
        token.position = .behind before ∧ between.length < token.lexeme.toList.length) ∧
    Scanner.run (.ofSource source) = some ((scan source).tokens, (scan source).errors) ∧
    (∀ text, Numeral text → (Number.read? (.ofList text)).isSome) ∧
    ∀ error ∈ (scan source).errors, error.fault.message ≠ "Invalid number literal." := by
  have hseparator {c : Char} : c ∉ [' ', '\t', '\r', '\n'] ↔ ¬ Lexeme.isSeparator c := by
    simp [Lexeme.isSeparator, or_assoc]
  simp only [hseparator]
  refine ⟨?_, ?_, ?_, Scanner.run_eq (.ofSource source),
    fun _ => Number.isSome_read?_of_numeral, ?_⟩
  · intro token hmem hkind
    have hlongest := longestMatch_of_mem_scan hmem hkind
    refine ⟨hlongest, fun hword => ?_⟩
    obtain ⟨_, _, _, _, hmatch⟩ := hlongest
    obtain ⟨hkeyword, hname⟩ := hmatch.described.keyword_iff hword
    have hliteral := hmatch.identifier
    rw [String.ofList_toList] at hkeyword hname hliteral
    exact ⟨hkeyword, fun hmem => ⟨hname hmem, hliteral (hname hmem)⟩⟩
  · intro error hmem hfault
    obtain ⟨front, c, rest, htext, hc, hstarts, rfl⟩ | hunterminated := scan_error_cases hmem
    · exact ⟨front, c, rest, htext, hc, hstarts, rfl⟩
    · simp [hfault] at hunterminated
  · intro front c rest
    exact unexpected_or_covered
  · intro error hmem
    obtain ⟨_, _, _, _, _, _, rfl⟩ | hfault | hfault := scan_error_cases hmem
    · show Fault.unexpectedCharacter.message ≠ _
      decide
    · rw [hfault]
      decide
    · rw [hfault]
      decide

example : (scan "orchid<==").tokens.map (·.kind) = [.identifier, .lessEqual, .equal, .eof] := by
  cbv

end TreeWalk
