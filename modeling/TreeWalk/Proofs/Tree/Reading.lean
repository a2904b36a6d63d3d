import TreeWalk.Execution
import TreeWalk.Proofs.Grammar.Parsing
import TreeWalk.Proofs.Grammar.Visible
import TreeWalk.Proofs.Number.Reading
import TreeWalk.Proofs.Text.Escape
import TreeWalk.Proofs.Token.Quotation
import TreeWalk.Proofs.Token.Respacing
import TreeWalk.Tree.Dump

/-!
This module contains the written forms of values, run as programs: each value comes out again, but
for strings with characters whose escapes the scanner does not know.
-/

namespace TreeWalk

namespace Text

def ReadsBack (c : Char) : Prop :=
  escape c = [c] ∨ c ∈ ['\n', '\t', '"', '\\']

theorem unescape_letter : ∀ entry ∈ escapes,
    entry.1 ∈ ['\n', '\t', '"', '\\'] ∧ Lexeme.unescape entry.2 = [entry.1] ∨
      entry.1 ∉ ['\n', '\t', '"', '\\'] ∧ Lexeme.unescape entry.2 = ['\\', entry.2] := by
  decide

theorem quotation_codeEscape (c : Char) : Quotation (codeEscape c) (codeEscape c) := by
  have hdigits {text : List Char} (h : ∀ d ∈ text, d ∈ hexDigits) :
      Quotation (text ++ ['\x7d']) (text ++ ['\x7d']) := by
    induction text with
    | nil => exact .char (by decide) (by decide) .nil
    | cons d text ih =>
      obtain ⟨hd, htext⟩ := List.forall_mem_cons.1 h
      have hplain : d ≠ '"' ∧ d ≠ '\\' := by
        constructor <;> rintro rfl <;> exact absurd hd (by decide)
      exact .char hplain.1 hplain.2 (ih htext)
  exact .escape (.char (by decide) (by decide) (hdigits fun _ => mem_hexDigits_of_mem_toDigits))

theorem exists_quotation_escape (c : Char) :
    ∃ value, Quotation (escape c) value ∧ (ReadsBack c → value = [c]) ∧
      (¬ ReadsBack c → 1 < value.length) := by
  obtain ⟨letter, hmem, hc⟩ | ⟨hmem, hc | hc⟩ := escape_cases c
  · refine ⟨Lexeme.unescape letter ++ [], hc ▸ .escape .nil, ?_⟩
    obtain ⟨hknown, hvalue⟩ | ⟨hunknown, hvalue⟩ := unescape_letter _ hmem
    · rw [hvalue]
      exact ⟨fun _ => rfl, fun h => absurd (.inr hknown) h⟩
    · rw [hvalue]
      refine ⟨?_, fun _ => Nat.lt_succ_self 1⟩
      rintro (hself | hknown)
      · simp [hc] at hself
      · exact absurd hknown hunknown
  · have hplain {d : Char} (hd : d ∈ escapes.map Prod.fst) : c ≠ d := by
      rintro rfl
      exact hmem hd
    refine ⟨[c], hc ▸ .char (hplain (by decide)) (hplain (by decide)) .nil, fun _ => rfl,
      fun h => absurd (.inl hc) h⟩
  · refine ⟨codeEscape c, hc ▸ quotation_codeEscape c, ?_, fun _ => by simp [codeEscape]⟩
    rintro (hself | hknown)
    · simp [hc, codeEscape] at hself
    · exact absurd ((by decide : ['\n', '\t', '"', '\\'] ⊆ escapes.map Prod.fst) hknown) hmem

theorem exists_quotation_flatMap_escape (text : List Char) :
    ∃ value, Quotation (text.flatMap escape) value ∧ text.length ≤ value.length ∧
      ((∀ c ∈ text, ReadsBack c) → value = text) ∧
      ((∃ c ∈ text, ¬ ReadsBack c) → text.length < value.length) := by
  induction text with
  | nil => exact ⟨[], .nil, Nat.le_refl _, fun _ => rfl, by simp⟩
  | cons c text ih =>
    obtain ⟨value, hvalue, hle, hall, hlonger⟩ := ih
    obtain ⟨first, hfirst, hself, hlong⟩ := exists_quotation_escape c
    refine ⟨first ++ value, hfirst.append hvalue, ?_⟩
    rw [List.forall_mem_cons, List.exists_mem_cons_iff, List.length_cons, List.length_append]
    by_cases hc : ReadsBack c
    · rw [hself hc]
      refine ⟨?_, fun h => congrArg (c :: ·) (hall h.2), ?_⟩
      · rw [List.length_singleton]
        omega
      · rintro (hnot | hrest)
        · exact absurd hc hnot
        · have hlt := hlonger hrest
          rw [List.length_singleton]
          omega
    · have hlt := hlong hc
      exact ⟨by omega, fun h => absurd h.1 hc, fun _ => by omega⟩

end Text

namespace Lexeme

theorem read_of_isDigit {c : Char} (hc : c.isDigit) (text : List Char) :
    read c text = number c text := by
  obtain ⟨kind, hmark, _⟩ | ⟨alone, extended, hrelation, _⟩ | ⟨rfl, _⟩ | ⟨rfl, _⟩ | ⟨_, hread⟩ |
    ⟨hword, _⟩ | ⟨⟨_, _, _, _, hdigit, _⟩, _⟩ := read_cases c
  · exact absurd hc ((by decide : ∀ mark ∈ TokenKind.marks, ¬ mark.1.isDigit) _ hmark)
  · exact absurd hc
      ((by decide : ∀ relation ∈ TokenKind.relations, ¬ relation.1.isDigit) _ hrelation)
  · exact absurd hc (by decide)
  · exact absurd hc (by decide)
  · exact hread text
  · exact absurd hword (not_isWordStart_of_isDigit hc)
  · exact absurd hc hdigit

theorem not_isSeparator_of_isDigit {c : Char} (hc : c.isDigit) : ¬ isSeparator c := by
  simp only [isSeparator, Bool.or_eq_true, decide_eq_true_eq, not_or]
  refine ⟨⟨⟨?_, ?_⟩, ?_⟩, ?_⟩ <;> rintro rfl <;> exact absurd hc (by decide)

theorem read_digits (stop : Char) {first : Char} {whole digits : List Char} (hfirst : first.isDigit)
    (hwhole : ∀ c ∈ whole, c.isDigit) (hdigits : ∀ c ∈ digits, c.isDigit)
    (hdigit : stop.isDigit = false) (hstop : stop ≠ '.') (rest : List Char) :
    let text := whole ++ if digits = [] then [] else '.' :: digits
    read first (text ++ stop :: rest) =
      token text.length .number (some (.number (Number.ofDigits (first :: whole) digits))) := by
  intro text
  obtain ⟨htake, hfraction⟩ := takeWhile_append_fraction hwhole hdigits
  have hlength : text.length =
      if digits = [] then whole.length else whole.length + 1 + digits.length := by
    simp only [text]
    split <;> simp
    omega
  rw [read_of_isDigit hfirst, (number_append hdigit hstop first text rest).1, number_eq, htake,
    hfraction, hlength]

end Lexeme

namespace ScanItem

theorem walk_minus (position : Position) (text : List Char) :
    walk 0 position ('-' :: text) =
      ⟨⟨.minus, "-", none, position⟩, none⟩ :: walk 0 (position.after '-') text :=
  rfl

theorem walk_semicolon {c : Char} {text : List Char} {kind : TokenKind} {literal : Option Literal}
    (hc : ¬ Lexeme.isSeparator c)
    (hread : Lexeme.read c (text ++ [';']) = .token text.length kind literal)
    (position : Position) :
    ∃ position', walk 0 position (c :: (text ++ [';'])) =
      [⟨⟨kind, .ofList (c :: text), literal, position⟩, none⟩,
        ⟨⟨.semicolon, ";", none, position'⟩, none⟩] := by
  rw [walk_of_read hc hread, List.take_left, List.drop_left]
  exact ⟨_, rfl⟩

end ScanItem

namespace Grammar

theorem Expression.of_unary {tokens : List Token} {expr : Expr}
    (h : Expression .unary tokens expr) :
    Expression .assignment tokens expr :=
  .operation (.operand (.operand (.operand (.operand (.operand (.operand h))))))

end Grammar

/--
The source is a program of one statement, and wherever it is run the statement ends with the value
and changes nothing.
-/
def Yields (source : String) (value : Value) : Prop :=
  (scan source).isValid ∧ (parse (scan source).tokens).isValid ∧
    ∃ statement, (parse (scan source).tokens).statements = [statement] ∧
      ∀ bound machine, statement.interpret bound machine = some (.ok (some value) machine)

theorem yields_of_items {source : String} (items : List ScanItem) {semicolon : Token} {expr : Expr}
    {value : Value} (hitems : (scan source).items = items ++ [⟨semicolon, none⟩])
    (hsemicolon : semicolon.kind = .semicolon)
    (hvisible : ∀ item ∈ items, item.fault = none ∧ item.token.isComment = false)
    (hexpr : Grammar.Expression .unary (items.map ScanItem.token) expr)
    (heval : ∀ environment, expr.eval environment = .ok value environment) :
    Yields source value := by
  have htokens : (Sentence.ofTokens (scan source).tokens).tokens =
      items.map ScanItem.token ++ [semicolon] := by
    rw [Sentence.tokens_scan, hitems, List.map_append]
    apply List.filter_eq_self.2
    rw [List.forall_mem_append, List.forall_mem_map]
    refine ⟨fun item hmem => by rw [(hvisible item hmem).2, Bool.not_false], ?_⟩
    simp [Token.isComment, hsemicolon]
  have hphrase : Grammar.Phrase true .declarations (items.map ScanItem.token ++ [semicolon])
      [.expr expr] := by
    rw [← List.append_nil (items.map ScanItem.token ++ [semicolon])]
    exact .cons (.statement (.expressionStatement (.expression hexpr.of_unary hsemicolon))) .nil
  obtain ⟨hvalid, hstatements⟩ := Grammar.parse_iff.2 (htokens ▸ hphrase)
  refine ⟨?_, hvalid, _, hstatements, fun bound machine => ?_⟩
  · rw [Scanned.isValid_iff, hitems, List.forall_mem_append]
    exact ⟨fun item hmem => (hvisible item hmem).1, by simp⟩
  · obtain ⟨environment, output⟩ := machine
    simp [Stmt.interpret, Stmt.exec, Machine.evaluate, heval, Outcome.andThen, Outcome.atTopLevel]

section

variable {source : String} {c : Char} {text : List Char} {kind : TokenKind}
  {literal : Option Literal} {value : Value}

theorem yields_literal (c : Char) (text : List Char) (htext : source.toList = c :: (text ++ [';']))
    (hc : ¬ Lexeme.isSeparator c)
    (hread : Lexeme.read c (text ++ [';']) = .token text.length kind literal)
    (hkind : kind ≠ .comment)
    (hatom : ∀ token : Token, token.kind = kind → token.literal = literal →
      Grammar.Atom token (.literal value)) :
    Yields source value := by
  obtain ⟨position', hwalk⟩ := ScanItem.walk_semicolon hc hread .start
  rw [← htext] at hwalk
  refine yields_of_items [_] hwalk rfl ?_ (.primary (.atom (hatom _ rfl rfl))) fun _ => rfl
  simpa [Token.isComment] using hkind

theorem yields_negative {x : Float} (htext : source.toList = '-' :: c :: (text ++ [';']))
    (hc : ¬ Lexeme.isSeparator c)
    (hread : Lexeme.read c (text ++ [';']) = .token text.length .number (some (.number x))) :
    Yields source (.number (-x)) := by
  obtain ⟨position', hwalk⟩ := ScanItem.walk_semicolon hc hread (Position.start.after '-')
  have hitems := ScanItem.walk_minus .start (c :: (text ++ [';']))
  rw [← htext, hwalk] at hitems
  refine yields_of_items [_, _] hitems rfl ?_
    (.unary (.inr rfl) (.primary (.atom (.number (.inl rfl) rfl)))) fun _ => rfl
  simp [Token.isComment]

end

theorem yields_nil : Yields "nil;" .nil :=
  yields_literal 'n' ['i', 'l'] rfl (by decide) rfl (by decide)
    fun _ hkind _ => .nilWord hkind

theorem yields_boolean (value : Bool) :
    Yields ((Value.boolean value).dump ++ ";") (.boolean value) := by
  cases value with
  | false =>
    exact yields_literal 'f' ['a', 'l', 's', 'e'] rfl (by decide) rfl (by decide)
      fun _ hkind _ => .falseWord hkind
  | true =>
    exact yields_literal 't' ['r', 'u', 'e'] rfl (by decide) rfl (by decide)
      fun _ hkind _ => .trueWord hkind

theorem yields_number {x : Float} (h : x.isFinite) : Yields (Number.text x ++ ";") (.number x) := by
  obtain ⟨whole, digits, htext, hne, hwhole, hdigits, hx⟩ := Number.exists_text h
  obtain ⟨first, whole, rfl⟩ := List.exists_cons_of_ne_nil hne
  obtain ⟨hfirst, hwhole⟩ := List.forall_mem_cons.1 hwhole
  have hsource : (Number.text x ++ ";").toList = (Number.text x).toList ++ [';'] :=
    String.toList_append
  have hread := Lexeme.read_digits ';' hfirst hwhole hdigits (by decide) (by decide) []
  have hseparator := Lexeme.not_isSeparator_of_isDigit hfirst
  by_cases hsign : (Number.magnitude x).1 = true
  · rw [if_pos hsign] at hx htext
    rw [htext] at hsource
    have hyields := yields_negative hsource hseparator hread
    rwa [← hx] at hyields
  · rw [if_neg hsign] at hx htext
    rw [htext] at hsource
    have hyields := yields_literal _ _ hsource hseparator hread (by decide) fun token hkind =>
      .number (.inl hkind)
    rwa [← hx] at hyields

theorem yields_string {text : String} {value : List Char}
    (h : Quotation (text.toList.flatMap Text.escape) value) :
    Yields (Text.quote text ++ ";") (.string (.ofList value)) := by
  have hsource : (Text.quote text ++ ";").toList =
      '"' :: (text.toList.flatMap Text.escape ++ ['"'] ++ [';']) := by
    rw [String.toList_append, Text.quote, String.toList_ofList]
    rfl
  have hread := Lexeme.read_quotation h [';']
  rw [List.append_cons, ← List.length_singleton (a := '"'), ← List.length_append] at hread
  exact yields_literal _ _ hsource (by decide) hread (by decide) fun token hkind =>
    .string (.inr hkind)

/--
The written form of a value, run as a program, yields the value, bit for bit if it is a number. A
string is made longer if one of its characters has an escape that the scanner does not know.
-/
theorem dump_reads_back (value : Value) (hfinite : ∀ x, value = .number x → x.isFinite) :
    ∃ result, Yields ((Expr.literal value).dump ++ ";") result ∧
      ((∀ text, value ≠ .string text) → result = value) ∧
      ∀ text, value = .string text →
        (result = value ↔ ∀ c ∈ text.toList, Text.ReadsBack c) ∧
        ((∃ c ∈ text.toList, ¬ Text.ReadsBack c) → ∃ longer, result = .string longer ∧
          text.length < longer.length) := by
  cases value with
  | nil => exact ⟨.nil, yields_nil, fun _ => rfl, nofun⟩
  | boolean value => exact ⟨.boolean value, yields_boolean value, fun _ => rfl, nofun⟩
  | number x => exact ⟨.number x, yields_number (hfinite x rfl), fun _ => rfl, nofun⟩
  | string text =>
    obtain ⟨value, hvalue, _, hall, hlonger⟩ := Text.exists_quotation_flatMap_escape text.toList
    refine ⟨_, yields_string hvalue, fun h => absurd rfl (h text), ?_⟩
    rintro _ ⟨⟩
    have hlength : (∃ c ∈ text.toList, ¬ Text.ReadsBack c) →
        text.length < (String.ofList value).length := by
      rw [String.length_ofList, ← String.length_toList]
      exact hlonger
    refine ⟨⟨?_, fun h => by rw [hall h, String.ofList_toList]⟩, fun h => ⟨_, rfl, hlength h⟩⟩
    intro hsame
    by_contra hnot
    have hlt := hlength (by simpa using hnot)
    rw [Value.string.inj hsame] at hlt
    exact Nat.lt_irrefl _ hlt

theorem dump_reads_back_of_negative_zero :
    let zero := Number.ofMagnitude true 0
    zero.isFinite ∧ Yields ((Expr.literal (.number zero)).dump ++ ";") (.number zero) := by
  intro zero
  have hfinite : zero.isFinite := by decide +kernel
  obtain ⟨result, hyields, hsame, _⟩ :=
    dump_reads_back (.number zero) (by rintro _ ⟨⟩; exact hfinite)
  rw [hsame nofun] at hyields
  exact ⟨hfinite, hyields⟩

end TreeWalk
