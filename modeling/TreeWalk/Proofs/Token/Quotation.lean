import TreeWalk.Proofs.Token.LongestMatch
import TreeWalk.Proofs.Token.Standing

/-!
This module contains the texts that may stand between quotes, and that the scanner finds their end
and reads what they stand for. The quote that ends a string is the first one without an unpaired
backslash in front of it.
-/

namespace TreeWalk

/--
A text in which each quote has a backslash in front of it that belongs to it, and what the text
stands for.
-/
inductive Quotation : List Char → List Char → Prop
  | nil : Quotation [] []
  | escape {c : Char} {text value : List Char} (h : Quotation text value) :
    Quotation ('\\' :: c :: text) (Lexeme.unescape c ++ value)
  | char {c : Char} {text value : List Char} (hquote : c ≠ '"') (hbackslash : c ≠ '\\')
    (h : Quotation text value) :
    Quotation (c :: text) (c :: value)

/--
What a text between quotes stands for, from left to right. A backslash in front of a character that
has no meaning of its own there is a backslash.
-/
def unescaped : List Char → List Char
  | '\\' :: 'n' :: text => '\n' :: unescaped text
  | '\\' :: 't' :: text => '\t' :: unescaped text
  | '\\' :: '"' :: text => '"' :: unescaped text
  | '\\' :: '\\' :: text => '\\' :: unescaped text
  | '\\' :: c :: text => '\\' :: c :: unescaped text
  | c :: text => c :: unescaped text
  | [] => []

/--
The second text is a way to write the first one between quotes: a quote and a backslash have a
backslash in front of them, a line break and a tab may be written as they are or with a letter, and
all else is written as it is.
-/
inductive Encodes : List Char → List Char → Prop
  | nil : Encodes [] []
  | quote {value text : List Char} (h : Encodes value text) :
    Encodes ('"' :: value) ('\\' :: '"' :: text)
  | backslash {value text : List Char} (h : Encodes value text) :
    Encodes ('\\' :: value) ('\\' :: '\\' :: text)
  | lineBreak {value text : List Char} (h : Encodes value text) :
    Encodes ('\n' :: value) ('\\' :: 'n' :: text)
  | tab {value text : List Char} (h : Encodes value text) :
    Encodes ('\t' :: value) ('\\' :: 't' :: text)
  | char {c : Char} {value text : List Char} (hquote : c ≠ '"') (hbackslash : c ≠ '\\')
    (h : Encodes value text) :
    Encodes (c :: value) (c :: text)

def trailingBackslashes (text : List Char) : Nat :=
  (text.reverse.takeWhile (· = '\\')).length

/--
Behind `body` stands a quote that no unpaired backslash is in front of: backslashes pair up from
left to right, so the last one of an even number of them has nothing to do with what follows.
-/
def Closes (text body : List Char) : Prop :=
  body ++ ['"'] <+: text ∧ trailingBackslashes body % 2 = 0

def ClosesFirst (text body : List Char) : Prop :=
  Closes text body ∧ ∀ other, Closes text other → body.length ≤ other.length

theorem trailingBackslashes_le_length (text : List Char) :
    trailingBackslashes text ≤ text.length := by
  have hle := (List.takeWhile_prefix (l := text.reverse) (· = '\\')).length_le
  rwa [List.length_reverse] at hle

theorem trailingBackslashes_cons (c : Char) (text : List Char) :
    trailingBackslashes (c :: text) =
      if trailingBackslashes text = text.length then text.length + (if c = '\\' then 1 else 0)
      else trailingBackslashes text := by
  unfold trailingBackslashes
  rw [List.reverse_cons, List.takeWhile_append, List.length_reverse]
  by_cases hc : c = '\\' <;> split <;> simp [hc]

theorem trailingBackslashes_cons_of_ne {c : Char} (hc : c ≠ '\\') (text : List Char) :
    trailingBackslashes (c :: text) = trailingBackslashes text := by
  rw [trailingBackslashes_cons, if_neg hc]
  split <;> omega

theorem trailingBackslashes_escape (c : Char) (text : List Char) :
    trailingBackslashes ('\\' :: c :: text) % 2 = trailingBackslashes text % 2 := by
  have hle := trailingBackslashes_le_length text
  rw [trailingBackslashes_cons, trailingBackslashes_cons, List.length_cons, if_pos rfl]
  by_cases hc : c = '\\'
  · simp only [if_pos hc]
    split <;> split <;> omega
  · simp only [if_neg hc]
    split <;> split <;> omega

section

variable {c : Char} {text body : List Char}

theorem closes_quote (text : List Char) : Closes ('"' :: text) [] :=
  ⟨⟨text, rfl⟩, rfl⟩

theorem not_closes_nil : ¬ Closes [] body := by
  rintro ⟨hbegins, _⟩
  simp at hbegins

theorem closes_char_iff (hquote : c ≠ '"') (hbackslash : c ≠ '\\') :
    Closes (c :: text) body ↔ ∃ tail, body = c :: tail ∧ Closes text tail := by
  cases body with
  | nil => simp [Closes, Ne.symm hquote]
  | cons d tail =>
    constructor
    · rintro ⟨hbegins, hpaired⟩
      obtain ⟨rfl, hbehind⟩ := List.cons_prefix_cons.1 hbegins
      rw [trailingBackslashes_cons_of_ne hbackslash] at hpaired
      exact ⟨tail, rfl, hbehind, hpaired⟩
    · rintro ⟨_, ⟨⟩, hbehind, hpaired⟩
      rw [← trailingBackslashes_cons_of_ne hbackslash] at hpaired
      exact ⟨List.cons_prefix_cons.2 ⟨rfl, hbehind⟩, hpaired⟩

theorem closes_escape_iff :
    Closes ('\\' :: c :: text) body ↔ ∃ tail, body = '\\' :: c :: tail ∧ Closes text tail := by
  constructor
  · rintro ⟨hbegins, hpaired⟩
    -- the quote is neither the backslash nor what the backslash belongs to
    obtain _ | ⟨d, _ | ⟨e, tail⟩⟩ := body
    · simp at hbegins
    · obtain ⟨rfl, _⟩ := List.cons_prefix_cons.1 hbegins
      exact absurd hpaired (by decide)
    · obtain ⟨rfl, hbehind⟩ := List.cons_prefix_cons.1 hbegins
      obtain ⟨rfl, hrest⟩ := List.cons_prefix_cons.1 hbehind
      rw [trailingBackslashes_escape] at hpaired
      exact ⟨tail, rfl, hrest, hpaired⟩
  · rintro ⟨tail, rfl, hbehind, hpaired⟩
    rw [← trailingBackslashes_escape c] at hpaired
    exact ⟨List.cons_prefix_cons.2 ⟨rfl, List.cons_prefix_cons.2 ⟨rfl, hbehind⟩⟩, hpaired⟩

theorem not_closes_backslash : ¬ Closes ['\\'] body := by
  rintro ⟨hbegins, _⟩
  obtain ⟨rest, heq⟩ := hbegins
  obtain _ | ⟨d, tail⟩ := body <;> simp at heq

end

namespace Quotation

variable {text value text' value' : List Char}

theorem append (h : Quotation text value) (h' : Quotation text' value') :
    Quotation (text ++ text') (value ++ value') := by
  induction h with
  | nil => exact h'
  | escape _ ih =>
    rw [List.append_assoc]
    exact .escape ih
  | char hquote hbackslash _ ih => exact .char hquote hbackslash ih

theorem unescaped_eq (h : Quotation text value) : unescaped text = value := by
  induction h with
  | nil => rfl
  | @escape c text value _ ih =>
    rw [← ih]
    unfold Lexeme.unescape
    split
    · rfl
    · rfl
    · rfl
    · rfl
    · next hline htab hquote hbackslash => exact unescaped.eq_5 c text hline htab hquote hbackslash
  | char _ hbackslash _ ih =>
    rw [unescaped.eq_6, ih]
    all_goals
      intros
      exact hbackslash ‹_›

theorem toStringEnd?_append (h : Quotation text value) (rest : List Char) :
    Lexeme.toStringEnd? (text ++ '"' :: rest) = some (text.length + 1, value) := by
  induction h with
  | nil => rfl
  | escape _ ih => rw [List.cons_append, List.cons_append, Lexeme.toStringEnd?, ih]; rfl
  | char hquote hbackslash _ ih =>
    rw [List.cons_append, Scanner.toStringEnd?_cons hquote hbackslash, ih]
    rfl

end Quotation

theorem Encodes.quotation {value text : List Char} (h : Encodes value text) :
    Quotation text value := by
  induction h with
  | nil => exact .nil
  | quote _ ih | backslash _ ih | lineBreak _ ih | tab _ ih => exact .escape ih
  | char hquote hbackslash _ ih => exact .char hquote hbackslash ih

namespace Lexeme

theorem ne_backslash {c : Char} {text : List Char} (hlast : c = '\\' → text = [] → False)
    (hescape : ∀ d rest, c = '\\' → text = d :: rest → False) : c ≠ '\\' := by
  intro hc
  cases text with
  | nil => exact hlast hc rfl
  | cons d rest => exact hescape d rest hc rfl

theorem closesFirst_of_toStringEnd? {text value : List Char} {size : Nat}
    (h : toStringEnd? text = some (size, value)) :
    ∃ body, ClosesFirst text body ∧ size = body.length + 1 ∧ Quotation body value := by
  fun_induction toStringEnd? text generalizing size value with
  | case1 => cases h
  | case2 text =>
    cases h
    exact ⟨[], ⟨closes_quote text, fun _ _ => Nat.zero_le _⟩, rfl, .nil⟩
  | case3 => cases h
  | case4 c text ih =>
    obtain ⟨⟨size, value⟩, hend, hfound⟩ := Option.map_eq_some_iff.1 h
    cases hfound
    obtain ⟨body, ⟨hcloses, hfirst⟩, rfl, hbody⟩ := ih hend
    refine ⟨'\\' :: c :: body, ⟨closes_escape_iff.2 ⟨body, rfl, hcloses⟩, ?_⟩, rfl, .escape hbody⟩
    intro other hother
    obtain ⟨tail, rfl, htail⟩ := closes_escape_iff.1 hother
    exact Nat.add_le_add_right (hfirst tail htail) 2
  | case5 c text hquote hlast hescape ih =>
    obtain ⟨⟨size, value⟩, hend, hfound⟩ := Option.map_eq_some_iff.1 h
    cases hfound
    obtain ⟨body, ⟨hcloses, hfirst⟩, rfl, hbody⟩ := ih hend
    have hbackslash := ne_backslash hlast hescape
    refine ⟨c :: body, ⟨(closes_char_iff hquote hbackslash).2 ⟨body, rfl, hcloses⟩, ?_⟩, rfl,
      .char hquote hbackslash hbody⟩
    intro other hother
    obtain ⟨tail, rfl, htail⟩ := (closes_char_iff hquote hbackslash).1 hother
    exact Nat.add_le_add_right (hfirst tail htail) 1

theorem not_closes_of_toStringEnd? {text : List Char} (h : toStringEnd? text = none)
    (body : List Char) :
    ¬ Closes text body := by
  fun_induction toStringEnd? text generalizing body with
  | case1 => exact not_closes_nil
  | case2 => cases h
  | case3 => exact not_closes_backslash
  | case4 c text ih =>
    rw [closes_escape_iff]
    rintro ⟨tail, rfl, htail⟩
    exact ih (Option.map_eq_none_iff.1 h) tail htail
  | case5 c text hquote hlast hescape ih =>
    have hbackslash := ne_backslash hlast hescape
    rw [closes_char_iff hquote hbackslash]
    rintro ⟨tail, rfl, htail⟩
    exact ih (Option.map_eq_none_iff.1 h) tail htail

theorem read_quote (text : List Char) : read '"' text = string text :=
  rfl

theorem take_quoted (text rest : List Char) :
    (text ++ '"' :: rest).take (text.length + 1) = text ++ ['"'] := by
  rw [List.append_cons]
  exact List.take_left' (by simp)

theorem drop_quoted (text rest : List Char) :
    (text ++ '"' :: rest).drop (text.length + 1) = rest := by
  rw [List.append_cons]
  exact List.drop_left' (by simp)

theorem read_quotation {text value : List Char} (h : Quotation text value) (rest : List Char) :
    read '"' (text ++ '"' :: rest) =
      token (text.length + 1) .string (some (.string (.ofList value))) := by
  rw [read_quote, string, h.toStringEnd?_append]

theorem read_quote_of_closes {text body : List Char} (h : Closes text body) :
    ∃ more value, read '"' text = token more .string (some (.string value)) := by
  cases hend : toStringEnd? text with
  | none => exact absurd h (not_closes_of_toStringEnd? hend body)
  | some found => exact ⟨found.1, .ofList found.2, by rw [read_quote, string, hend]⟩

theorem read_quote_of_not_closes {text : List Char} (h : ∀ body, ¬ Closes text body) :
    read '"' text = fault text.length .unterminatedString := by
  cases hend : toStringEnd? text with
  | none => rw [read_quote, string, hend]
  | some found =>
    obtain ⟨body, ⟨hcloses, _⟩, _⟩ := closesFirst_of_toStringEnd? hend
    exact absurd hcloses (h body)

theorem eq_quote_of_read {first : Char} {text : List Char} {literal : Option Literal}
    (h : (read first text).content = .ok (.string, literal)) : first = '"' := by
  obtain ⟨kind, hmark, hread⟩ | ⟨alone, extended, hrelation, hread⟩ | ⟨_, hread⟩ | ⟨hquote, _⟩ |
    ⟨_, hread⟩ | ⟨_, hread⟩ | ⟨_, hread⟩ := read_cases first
  case inr.inr.inr.inl => exact hquote
  all_goals rw [hread] at h
  · cases h
    exact absurd rfl ((by decide : ∀ mark ∈ TokenKind.marks, mark.2 ≠ .string) _ hmark)
  · obtain ⟨halone, hextended⟩ := (by decide : ∀ relation ∈ TokenKind.relations,
      relation.2.1 ≠ .string ∧ relation.2.2 ≠ .string) _ hrelation
    split at h <;> cases h
    · exact absurd rfl hextended
    · exact absurd rfl halone
  · obtain h | h := slash_kind h <;> cases h
  · cases h
  · exact absurd (word_kind h) (by decide)
  · cases h

end Lexeme

section

variable {source : String} {before after : List Token} {token : Token} {front rest : List Char}

theorem quotation_of_mem_scan (h : token ∈ (scan source).tokens) (hkind : token.kind = .string) :
    ∃ front body rest, source.toList = front ++ '"' :: (body ++ '"' :: rest) ∧
      ClosesFirst (body ++ '"' :: rest) body ∧
      token = ⟨.string, .ofList ('"' :: (body ++ ['"'])), some (.string (.ofList (unescaped body))),
        .behind front⟩ := by
  obtain h | h := List.mem_append.1 h
  · obtain ⟨item, hitem, rfl⟩ := List.mem_map.1 h
    obtain ⟨front, c, rest, htext, _, rfl⟩ := exists_read_of_mem_scan hitem
    cases hcontent : (Lexeme.read c rest).content with
    | error fault => simp [ScanItem.ofLexeme, hcontent] at hkind
    | ok content =>
      obtain ⟨kind, literal⟩ := content
      rw [ScanItem.ofLexeme_of_ok hcontent] at hkind ⊢
      obtain rfl : kind = .string := hkind
      obtain rfl := Lexeme.eq_quote_of_read hcontent
      rw [Lexeme.read_quote, Lexeme.string] at hcontent ⊢
      cases hend : Lexeme.toStringEnd? rest with
      | none => simp [hend, Lexeme.fault] at hcontent
      | some found =>
        obtain ⟨size, value⟩ := found
        obtain ⟨body, hfirst, rfl, hbody⟩ := Lexeme.closesFirst_of_toStringEnd? hend
        obtain ⟨⟨⟨behind, rfl⟩, _⟩, _⟩ := id hfirst
        rw [hend] at hcontent
        cases hcontent
        rw [List.append_assoc, List.singleton_append] at hfirst htext ⊢
        refine ⟨front, body, behind, htext, hfirst, ?_⟩
        rw [hbody.unescaped_eq]
        show Token.mk _ (.ofList ('"' :: (body ++ '"' :: behind).take (body.length + 1))) _ _ = _
        rw [Lexeme.take_quoted]
  · obtain rfl := List.mem_singleton.1 h
    cases hkind

end

theorem scan_string_literal :
    (∀ (value : String) (encoded rest : List Char), Encodes value.toList encoded →
      let scanned := scan (.ofList ('"' :: (encoded ++ '"' :: rest)))
      let literal := some (.string value)
      (∃ tokens, scanned.tokens =
        ⟨.string, .ofList ('"' :: (encoded ++ ['"'])), literal, .start⟩ :: tokens ∧
        tokens.map (Token.move fun _ => .start) =
          (scan (.ofList rest)).tokens.map (Token.move fun _ => .start)) ∧
      scanned.errors.map (fun error => (error.token.move fun _ => .start, error.fault)) =
        (scan (.ofList rest)).errors.map fun error =>
          (error.token.move fun _ => .start, error.fault)) ∧
    (∀ source, ∀ token ∈ (scan source).tokens, token.kind = .string →
      ∃ front body rest, source.toList = front ++ '"' :: (body ++ '"' :: rest) ∧
        ClosesFirst (body ++ '"' :: rest) body ∧
        token =
          ⟨.string, .ofList ('"' :: (body ++ ['"'])), some (.string (.ofList (unescaped body))),
            .behind front⟩) ∧
    ∀ source before token after front rest, (scan source).tokens = before ++ token :: after →
      source.toList = front ++ '"' :: rest → token.position = .behind front →
      ((∃ body, Closes rest body) → token.kind = .string) ∧
      ((∀ body, ¬ Closes rest body) →
        token = ⟨.invalid, .ofList ('"' :: rest), none, .behind front⟩ ∧
        after = [.endOfText (.behind source.toList)] ∧
        ∃ errors fault, (scan source).errors = errors ++ [⟨token, fault⟩] ∧
          fault.message = "Unterminated string.") := by
  refine ⟨?_, fun _ _ => quotation_of_mem_scan, ?_⟩
  · intro value encoded rest hencodes scanned literal
    have hscan := scan_of_read (by decide) (Lexeme.read_quotation hencodes.quotation rest)
    rwa [Lexeme.take_quoted, Lexeme.drop_quoted, String.ofList_toList] at hscan
  · intro source before token after front rest htokens htext hplace
    constructor
    · rintro ⟨body, hcloses⟩
      obtain ⟨_, _, hread⟩ := Lexeme.read_quote_of_closes hcloses
      exact congrArg Token.kind (eq_of_read_token hread htokens htext hplace).1
    · intro hnone
      obtain ⟨htoken, hafter, errors, herrors⟩ :=
        eq_of_read_fault (Lexeme.read_quote_of_not_closes hnone) htokens htext hplace
      exact ⟨htoken, hafter, errors, _, herrors, rfl⟩

theorem scan_string_literal_of_escapes :
    let source := "\"a\\\\\"\"b\\\"\\"
    let literal := ⟨.string, "\"a\\\\\"", some (.string "a\\"), ⟨1, 1⟩⟩
    let unfinished := ⟨.invalid, "\"b\\\"\\", none, ⟨1, 6⟩⟩
    (scan source).tokens = [literal, unfinished, .endOfText ⟨1, 11⟩] ∧
    (scan source).errors.map (fun error => (error.token.move fun _ => .start, error.fault)) =
      (scan "\"b\\\"\\").errors.map (fun error => (error.token.move fun _ => .start, error.fault)) ∧
    (∃ front body rest, source.toList = front ++ '"' :: (body ++ '"' :: rest) ∧
      ClosesFirst (body ++ '"' :: rest) body ∧
      literal =
        ⟨.string, .ofList ('"' :: (body ++ ['"'])), some (.string (.ofList (unescaped body))),
          .behind front⟩) ∧
    ∃ errors fault, (scan source).errors = errors ++ [⟨unfinished, fault⟩] ∧
      fault.message = "Unterminated string." := by
  intro source literal unfinished
  have htokens : (scan source).tokens = [literal, unfinished, .endOfText ⟨1, 11⟩] := by
    decide +kernel
  obtain ⟨hencoded, hliteral, hplaced⟩ := scan_string_literal
  have hencodes : Encodes "a\\".toList ['a', '\\', '\\'] :=
    .char (by decide) (by decide) (.backslash .nil)
  have hopen : ∀ body, ¬ Closes ['b', '\\', '"', '\\'] body := Lexeme.not_closes_of_toStringEnd? rfl
  have htext : source.toList = ['"', 'a', '\\', '\\', '"'] ++ '"' :: ['b', '\\', '"', '\\'] := by
    decide +kernel
  refine ⟨htokens, (hencoded "a\\" _ ['"', 'b', '\\', '"', '\\'] hencodes).2, ?_, ?_⟩
  · exact hliteral source literal (htokens ▸ .head _) rfl
  · exact ((hplaced source [literal] unfinished _ _ _ htokens htext rfl).2 hopen).2.2

end TreeWalk
