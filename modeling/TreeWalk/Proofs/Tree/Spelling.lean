import TreeWalk.Proofs.Grammar.Provenance
import TreeWalk.Proofs.Number.Reading
import TreeWalk.Proofs.Token.LongestMatch
import TreeWalk.Proofs.Tree.Dumping
import TreeWalk.Proofs.Tree.Exchange
import TreeWalk.Proofs.Tree.Written

/-!
This module contains the reading of trees off their forms: what a tree that is written in spelled
tokens looks like says all about the tree but for the places of its tokens.
-/

namespace TreeWalk

def Token.ofText? : List Char → Option Token
  | [] => none
  | first :: text =>
    match (Lexeme.read first text).content with
    | .ok (kind, literal) => some ⟨kind, .ofList (first :: text), literal, .start⟩
    | .error _ => none

theorem Token.Rereads.ofText? {token : Token} (h : token.Rereads) :
    Token.ofText? token.lexeme.toList = some (token.move fun _ => .start) := by
  obtain ⟨first, text, hlexeme, _, hread⟩ := h
  rw [hlexeme, Token.ofText?, hread, ← hlexeme, String.ofList_toList]
  rfl

theorem Token.Rereads.described {token : Token} (h : token.Rereads)
    (hkind : token.kind ∉ [.string, .comment]) :
    LexicalClass token.kind token.lexeme.toList := by
  obtain ⟨first, text, hlexeme, _, hread⟩ := h
  have hcontent : (Lexeme.read first text).content = .ok (token.kind, token.literal) := by
    rw [hread]
    rfl
  have hmatch := (Lexeme.longestMatch_read hcontent hkind).described
  rw [hread] at hmatch
  rw [hlexeme]
  exact (List.take_length (l := text)) ▸ hmatch

theorem Word.isWordPart {text : List Char} (h : Word text) : ∀ c ∈ text, Lexeme.isWordPart c := by
  obtain ⟨hfirst, htail⟩ := h
  rw [List.forall_mem_cons]
  simp only [Lexeme.isWordPart_iff]
  exact ⟨hfirst.imp_right .inr, htail⟩

namespace LexicalClass

variable {kind : TokenKind} {text : List Char}

theorem not_endsWord (h : LexicalClass kind text) (hkind : kind ≠ .rightParen) :
    ∀ c ∈ text, ¬ Form.EndsWord c := by
  have hword {c : Char} (hc : Lexeme.isWordPart c) : ¬ Form.EndsWord c := by
    rintro (rfl | rfl) <;> exact absurd hc (by decide)
  have hdigit {c : Char} (hc : c.isDigit) : ¬ Form.EndsWord c := by
    rintro (rfl | rfl) <;> exact absurd hc (by decide)
  cases h with
  | symbol h =>
    have hall : ∀ entry ∈ symbols, entry.2 ≠ .rightParen →
        ' ' ∉ entry.1 ∧ ')' ∉ entry.1 := by decide
    obtain ⟨hspace, hclosing⟩ := hall _ h hkind
    rintro c hc (rfl | rfl)
    · exact hspace hc
    · exact hclosing hc
  | number h =>
    cases h with
    | whole _ hdigits => exact fun c hc => hdigit (hdigits c hc)
    | decimal _ hdigits _ hfraction =>
      rw [List.forall_mem_append, List.forall_mem_cons]
      exact ⟨fun c hc => hdigit (hdigits c hc),
        by simp [Form.EndsWord], fun c hc => hdigit (hfraction c hc)⟩
  | keyword h => exact fun c hc => hword ((Lexeme.word_of_mem_keywords h).isWordPart c hc)
  | identifier h => exact fun c hc => hword (h.isWordPart c hc)

theorem word (h : LexicalClass .identifier text) : Word text := by
  cases h with
  | symbol h => exact absurd rfl ((by decide : ∀ entry ∈ symbols, entry.2 ≠ .identifier) _ h)
  | keyword h => exact absurd rfl ((by decide : ∀ entry ∈ keywords, entry.2 ≠ .identifier) _ h)
  | identifier h => exact h

theorem eq_break (h : LexicalClass .breakWord text) : text = "break".toList := by
  cases h with
  | symbol h => exact absurd rfl ((by decide : ∀ entry ∈ symbols, entry.2 ≠ .breakWord) _ h)
  | keyword h =>
    have hword : String.ofList text = "break" :=
      (by decide : ∀ entry ∈ keywords, entry.2 = .breakWord → entry.1 = "break") _ h rfl
    rw [← hword, String.toList_ofList]

end LexicalClass

structure Spelled (tokens : List Token) : Prop where
  rereads : ∀ token ∈ tokens, token.kind ∉ [.comment, .eof] → token.Rereads
  finite : ∀ token ∈ tokens, ∀ x, token.literal = some (.number x) → x.isFinite

namespace Form

def token? : Form → Option Token
  | atom text => Token.ofText? text
  | _ => none

def ofAtom? (text : List Char) : Option Expr :=
  if ∃ c ∈ text.head?, c.isDigit ∨ c = '-' then
    (Number.read? (.ofList text)).map (.literal ∘ .number)
  else
    (Token.ofText? text).bind Grammar.atom?

theorem ofAtom?_word {text : List Char} (h : ∀ c ∈ text.head?, ¬ (c.isDigit ∨ c = '-')) :
    ofAtom? text = (Token.ofText? text).bind Grammar.atom? := by
  rw [ofAtom?, if_neg]
  rintro ⟨c, hc, hnumber⟩
  exact h c hc hnumber

def expr? : Form → Option Expr
  | atom text => ofAtom? text
  | quoted content => some (.literal (.string (.ofList content)))
  | node head [part] =>
    if head = "group".toList then
      part.expr?.map .group
    else do
      return .unary (← Token.ofText? head) (← part.expr?)
  | node head [first, second] =>
    if head = "assign".toList then do
      return .assign (← first.token?) (← second.expr?)
    else do
      let operator ← Token.ofText? head
      let left ← first.expr?
      let right ← second.expr?
      return if operator.kind ∈ Expr.logicalOperators then .logical left operator right else
        .binary left operator right
  | node _ _ => none

mutual

def stmt? : Form → Option Stmt
  | atom _ | quoted _ => none
  | node head parts =>
    if head = "block".toList then
      (stmts? parts).map .block
    else if head = "print".toList then
      match parts with
      | [value] => value.expr?.map .print
      | _ => none
    else if head = ";".toList then
      match parts with
      | [value] => value.expr?.map .expr
      | _ => none
    else if head = "var".toList then
      match parts with
      | [name] => do return .declare (← name.token?) none
      | [name, initial] => do return .declare (← name.token?) (some (← initial.expr?))
      | _ => none
    else if head = "if".toList then
      match parts with
      | [condition, body] => do return .ifThen (← condition.expr?) (← body.stmt?)
      | [condition, body, alternative] => do
        return .ifElse (← condition.expr?) (← body.stmt?) (← alternative.stmt?)
      | _ => none
    else if head = "while".toList then
      match parts with
      | [condition, body] => do return .whileLoop (← condition.expr?) (← body.stmt?)
      | _ => none
    else
      (Token.ofText? head).map .breakLoop

def stmts? : List Form → Option (List Stmt)
  | [] => some []
  | form :: forms => do return (← form.stmt?) :: (← stmts? forms)

end

end Form

section

variable {tokens : List Token} {token : Token}

theorem Spelled.described (hspelled : Spelled tokens) (hmem : token ∈ tokens)
    (hkind : token.kind ∉ [.string, .comment, .eof]) :
    LexicalClass token.kind token.lexeme.toList := by
  simp only [List.mem_cons, List.not_mem_nil, or_false, not_or] at hkind
  exact (hspelled.rereads token hmem (by simp [hkind])).described (by simp [hkind])

theorem Spelled.finite_of_written {value : Value} (hspelled : Spelled tokens)
    (h : ∀ x, value = .number x → ∃ token ∈ tokens, token.literal = some (.number x)) :
    ∀ x, value = .number x → x.isFinite := by
  intro x hvalue
  obtain ⟨token, hmem, hliteral⟩ := h x hvalue
  exact hspelled.finite token hmem x hliteral

theorem Spelled.proper_name (hspelled : Spelled tokens) (hmem : token ∈ tokens)
    (hkind : token.kind = .identifier) :
    (Form.atom token.lexeme.toList).Proper ∧
      ∀ c ∈ token.lexeme.toList.head?, ¬ (c.isDigit ∨ c = '-') := by
  have hdescribed := hspelled.described hmem (by simp [hkind])
  have hword := (hkind ▸ hdescribed).word
  have hstart : ∀ c ∈ token.lexeme.toList.head?, Lexeme.isWordStart c := by
    generalize token.lexeme.toList = text at hword
    cases hword with
    | mk hfirst _ =>
      rintro _ ⟨⟩
      exact Lexeme.isWordStart_iff.2 hfirst
  refine ⟨.atom (fun c hc => ⟨?_, ?_⟩) (hdescribed.not_endsWord (by simp [hkind])), fun c hc => ?_⟩
  · rintro rfl
    exact absurd (hstart _ hc) (by decide)
  · rintro rfl
    exact absurd (hstart _ hc) (by decide)
  · rintro (hdigit | rfl)
    · exact absurd (hstart _ hc) (Lexeme.not_isWordStart_of_isDigit hdigit)
    · exact absurd (hstart _ hc) (by decide)

theorem Spelled.operator (hspelled : Spelled tokens) (hmem : token ∈ tokens)
    (hkind : token.kind ∈ [.bang, .minus] ∨ token.kind ∈ Expr.binaryOperators ∨
      token.kind ∈ Expr.logicalOperators) :
    (∀ c ∈ token.lexeme.toList, ¬ Form.EndsWord c) ∧
      Token.ofText? token.lexeme.toList = some (token.move fun _ => .start) ∧
      token.lexeme.toList ≠ "group".toList ∧ token.lexeme.toList ≠ "assign".toList := by
  rw [← List.mem_append, ← List.mem_append] at hkind
  have hkinds : ∀ kind ∈ [.bang, .minus] ++ (Expr.binaryOperators ++ Expr.logicalOperators),
      kind ∉ [.string, .comment, .eof] ∧ kind ∉ [.comment, .eof] ∧ kind ≠ .rightParen ∧
      kind ≠ .identifier := by
    decide
  obtain ⟨hdescribed, hrereads, hclosing, hname⟩ := hkinds _ hkind
  have htext := (hspelled.rereads token hmem hrereads).ofText?
  refine ⟨(hspelled.described hmem hdescribed).not_endsWord hclosing, htext, ?_, ?_⟩
  all_goals
    intro hword
    rw [hword] at htext
    exact hname (congrArg Token.kind (Option.some.inj htext)).symm

theorem proper_number {x : Float} (h : x.isFinite) :
    (Form.atom (Number.text x).toList).Proper ∧ ∃ c ∈ (Number.text x).toList.head?, c.isDigit ∨
      c = '-' := by
  obtain ⟨whole, digits, htext, hne, hwhole, hdigits, _⟩ := Number.exists_text h
  obtain ⟨first, whole, rfl⟩ := List.exists_cons_of_ne_nil hne
  have hfirst : ∃ c ∈ (Number.text x).toList.head?, c.isDigit ∨ c = '-' := by
    rw [htext]
    split
    · exact ⟨'-', rfl, .inr rfl⟩
    · exact ⟨first, rfl, .inl (hwhole first (.head whole))⟩
  have hall : ∀ c ∈ (Number.text x).toList, c.isDigit ∨ c = '-' ∨ c = '.' := by
    intro c hc
    rw [htext] at hc
    obtain hsign | hc := List.mem_append.1 hc
    · split at hsign
      · exact .inr (.inl (List.mem_singleton.1 hsign))
      · cases hsign
    obtain hc | hc := List.mem_append.1 hc
    · exact .inl (hwhole c hc)
    · split at hc
      · cases hc
      · obtain rfl | hc := List.mem_cons.1 hc
        · exact .inr (.inr rfl)
        · exact .inl (hdigits c hc)
  refine ⟨.atom (fun c hc => ?_) fun c hc => ?_, hfirst⟩
  · obtain ⟨c', hc', hstart⟩ := hfirst
    obtain rfl := Option.some.inj (hc.symm.trans hc')
    constructor <;> rintro rfl <;> exact absurd hstart (by decide)
  · rintro (rfl | rfl) <;> exact absurd (hall _ hc) (by decide)

theorem proper_literal {value : Value} (h : ∀ x, value = .number x → x.isFinite) :
    value.toForm.Proper := by
  cases value with
  | nil => exact .atom (by simp [Value.text]) (by simp [Value.text, Form.EndsWord])
  | boolean value =>
    cases value <;> exact .atom (by simp [Value.text]) (by simp [Value.text, Form.EndsWord])
  | number x => exact (proper_number (h x rfl)).1
  | string s => exact .quoted

theorem Expr.WrittenIn.proper {expr : Expr} (h : expr.WrittenIn tokens)
    (hspelled : Spelled tokens) :
    expr.toForm.Proper := by
  induction h with
  | literal hnumber => exact proper_literal (hspelled.finite_of_written hnumber)
  | group _ ih => exact .node (by simp [Form.EndsWord]) (by simpa using ih)
  | unary hmem hkind _ ih => exact .node (hspelled.operator hmem (.inl hkind)).1 (by simpa using ih)
  | binary hmem hkind _ _ ihleft ihright =>
    exact .node (hspelled.operator hmem (.inr (.inl hkind))).1 (by simpa using ⟨ihleft, ihright⟩)
  | logical hmem hkind _ _ ihleft ihright =>
    exact .node (hspelled.operator hmem (.inr (.inr hkind))).1 (by simpa using ⟨ihleft, ihright⟩)
  | name hmem hkind => exact (hspelled.proper_name hmem hkind).1
  | assign hmem hkind _ ih =>
    exact .node (by simp [Form.EndsWord]) (by simpa using ⟨(hspelled.proper_name hmem hkind).1, ih⟩)

theorem Stmt.WrittenIn.proper {statement : Stmt} (h : statement.WrittenIn tokens)
    (hspelled : Spelled tokens) :
    statement.toForm.Proper := by
  induction h with
  | print hvalue | expr hvalue =>
    exact .node (by simp [Form.EndsWord]) (by simpa using hvalue.proper hspelled)
  | @declare name initial hmem hkind hinitial =>
    have hname := (hspelled.proper_name hmem hkind).1
    cases initial with
    | none => exact .node (by simp [Form.EndsWord]) (by simpa using hname)
    | some initial =>
      exact .node (by simp [Form.EndsWord])
        (by simpa using ⟨hname, (hinitial initial rfl).proper hspelled⟩)
  | block _ ih =>
    refine .node (by simp [Form.EndsWord]) ?_
    rw [toForms_eq_map, List.forall_mem_map]
    exact ih
  | ifThen hcondition _ ih | whileLoop hcondition _ ih =>
    exact .node (by simp [Form.EndsWord]) (by simpa using ⟨hcondition.proper hspelled, ih⟩)
  | ifElse hcondition _ _ ih ihalternative =>
    exact .node (by simp [Form.EndsWord])
      (by simpa using ⟨hcondition.proper hspelled, ih, ihalternative⟩)
  | breakLoop => exact .node (by simp [Form.EndsWord]) (by simp)

theorem Spelled.token?_name (hspelled : Spelled tokens) (hmem : token ∈ tokens)
    (hkind : token.kind = .identifier) :
    (Form.atom token.lexeme.toList).token? = some (token.move fun _ => .start) :=
  (hspelled.rereads token hmem (by simp [hkind])).ofText?

theorem Spelled.ofAtom?_name (hspelled : Spelled tokens) (hmem : token ∈ tokens)
    (hkind : token.kind = .identifier) :
    Form.ofAtom? token.lexeme.toList = some (.name (token.move fun _ => .start)) := by
  rw [Form.ofAtom?_word (hspelled.proper_name hmem hkind).2,
    (hspelled.rereads token hmem (by simp [hkind])).ofText?]
  simp [Grammar.atom?, hkind]

theorem expr?_literal {value : Value} (h : ∀ x, value = .number x → x.isFinite) :
    value.toForm.expr? = some (.literal value) := by
  cases value with
  | nil => exact Form.ofAtom?_word (by simp [Value.text])
  | boolean value => cases value <;> exact Form.ofAtom?_word (by simp [Value.text])
  | number x =>
    have hfinite := h x rfl
    show Form.ofAtom? (Number.text x).toList = _
    rw [Form.ofAtom?, if_pos (proper_number hfinite).2, String.ofList_toList,
      Number.read?_text hfinite]
    rfl
  | string s =>
    show some (Expr.literal (.string (.ofList s.toList))) = _
    rw [String.ofList_toList]

theorem stmts?_toForms {statements : List Stmt}
    (h : ∀ statement ∈ statements,
      statement.toForm.stmt? = some (statement.mapTokens (Token.move fun _ => .start))) :
    Form.stmts? (Stmt.toForms statements) =
      some (statements.map (Stmt.mapTokens (Token.move fun _ => .start))) := by
  induction statements with
  | nil => rfl
  | cons statement statements ih =>
    obtain ⟨hfirst, hrest⟩ := List.forall_mem_cons.1 h
    rw [Stmt.toForms, Form.stmts?, hfirst, ih hrest]
    rfl

theorem Expr.WrittenIn.expr?_toForm {expr : Expr} (h : expr.WrittenIn tokens)
    (hspelled : Spelled tokens) :
    expr.toForm.expr? = some (expr.mapTokens (Token.move fun _ => .start)) := by
  induction h with
  | literal hnumber => exact expr?_literal (hspelled.finite_of_written hnumber)
  | group _ ih => simp [Expr.toForm, Form.expr?, ih, Expr.mapTokens]
  | unary hmem hkind _ ih =>
    obtain ⟨_, htext, hgroup, _⟩ := hspelled.operator hmem (.inl hkind)
    rw [Expr.toForm, Form.expr?, if_neg hgroup, htext, ih]
    rfl
  | binary hmem hkind _ _ ihleft ihright =>
    obtain ⟨_, htext, _, hassign⟩ := hspelled.operator hmem (.inr (.inl hkind))
    have hlogical :=
      (by decide : ∀ kind ∈ Expr.binaryOperators, kind ∉ Expr.logicalOperators) _ hkind
    rw [Expr.toForm, Form.expr?, if_neg hassign, htext, ihleft, ihright]
    simp [hlogical, Expr.mapTokens]
  | logical hmem hkind _ _ ihleft ihright =>
    obtain ⟨_, htext, _, hassign⟩ := hspelled.operator hmem (.inr (.inr hkind))
    rw [Expr.toForm, Form.expr?, if_neg hassign, htext, ihleft, ihright]
    simp [hkind, Expr.mapTokens]
  | name hmem hkind => exact hspelled.ofAtom?_name hmem hkind
  | assign hmem hkind _ ih =>
    rw [Expr.toForm, Form.expr?, if_pos rfl, hspelled.token?_name hmem hkind, ih]
    rfl

theorem Stmt.WrittenIn.stmt?_toForm {statement : Stmt} (h : statement.WrittenIn tokens)
    (hspelled : Spelled tokens) :
    statement.toForm.stmt? = some (statement.mapTokens (Token.move fun _ => .start)) := by
  induction h with
  | print hvalue | expr hvalue =>
    rw [Stmt.toForm, Form.stmt?]
    simp [hvalue.expr?_toForm hspelled, Stmt.mapTokens]
  | @declare name initial hmem hkind hinitial =>
    have hname := hspelled.token?_name hmem hkind
    cases initial with
    | none =>
      rw [Stmt.toForm, Form.stmt?]
      simp [hname, Stmt.mapTokens]
    | some initial =>
      rw [Stmt.toForm, Form.stmt?]
      simp [hname, (hinitial initial rfl).expr?_toForm hspelled, Stmt.mapTokens]
  | @block body _ ih =>
    rw [Stmt.toForm, Stmt.mapTokens, Stmt.mapAllTokens_eq_map]
    unfold Form.stmt?
    rw [if_pos rfl, stmts?_toForms ih]
    rfl
  | ifThen hcondition _ ih | whileLoop hcondition _ ih =>
    rw [Stmt.toForm, Form.stmt?]
    simp [hcondition.expr?_toForm hspelled, ih, Stmt.mapTokens]
  | ifElse hcondition _ _ ih ihalternative =>
    rw [Stmt.toForm, Form.stmt?]
    simp [hcondition.expr?_toForm hspelled, ih, ihalternative, Stmt.mapTokens]
  | @breakLoop keyword hmem hkind =>
    have htext := (hspelled.rereads keyword hmem (by simp [hkind])).ofText?
    have hword := hspelled.described hmem (by simp [hkind])
    rw [hkind] at hword
    rw [hword.eq_break] at htext
    rw [Stmt.toForm, Stmt.mapTokens]
    unfold Form.stmt?
    simpa using htext

end

theorem spelled_of_isValid {source : String} (h : (scan source).isValid)
    (hfinite : ∀ token ∈ (scan source).tokens, ∀ x, token.literal = some (.number x) → x.isFinite) :
    Spelled (scan source).tokens where
  finite := hfinite
  rereads := by
    intro token hmem hkind
    obtain hmem | hmem := List.mem_append.1 hmem
    · obtain ⟨item, hitem, rfl⟩ := List.mem_map.1 hmem
      apply ScanItem.rereads_of_mem_walk hitem ((Scanned.isValid_iff _).1 h item hitem)
      simp only [List.mem_cons, List.not_mem_nil, or_false, not_or] at hkind
      simp [Token.isComment, hkind]
    · obtain rfl := List.mem_singleton.1 hmem
      exact absurd (by simp [Token.endOfText]) hkind

theorem toForms_proper {tokens : List Token} (hspelled : Spelled tokens) :
    ∀ form ∈ Stmt.toForms (parse tokens).statements, form.Proper := by
  rw [Stmt.toForms_eq_map, List.forall_mem_map]
  exact fun statement hmem => (Grammar.writtenIn_of_mem_parse hmem).proper hspelled

theorem stmts?_toForms_parse {tokens : List Token} (hspelled : Spelled tokens) :
    Form.stmts? (Stmt.toForms (parse tokens).statements) =
      some ((parse tokens).statements.map (Stmt.mapTokens (Token.move fun _ => .start))) :=
  stmts?_toForms fun _ hmem => (Grammar.writtenIn_of_mem_parse hmem).stmt?_toForm hspelled

/--
Programs are told apart by their dumps: if those are equal, so are the statements but for the places
of their tokens. This is true also of what is left of a program with syntax errors.
-/
theorem dump_inj {source source' : String} (hscan : (scan source).isValid)
    (hfinite : ∀ token ∈ (scan source).tokens, ∀ x, token.literal = some (.number x) → x.isFinite)
    (hscan' : (scan source').isValid)
    (hfinite' : ∀ token ∈ (scan source').tokens, ∀ x, token.literal = some (.number x) → x.isFinite)
    (h : (parse (scan source).tokens).statements.map Stmt.dump =
      (parse (scan source').tokens).statements.map Stmt.dump) :
    (parse (scan source).tokens).statements.map (Stmt.mapTokens (Token.move fun _ => .start)) =
      (parse (scan source').tokens).statements.map
        (Stmt.mapTokens (Token.move fun _ => .start)) := by
  have hspelled := spelled_of_isValid hscan hfinite
  have hspelled' := spelled_of_isValid hscan' hfinite'
  have hwritten := congrArg (List.map String.toList) h
  rw [← Stmt.dumpAll_eq_map, ← Stmt.dumpAll_eq_map, Stmt.map_toList_dumpAll,
    Stmt.map_toList_dumpAll] at hwritten
  have hall : Form.writtenAll (Stmt.toForms (parse (scan source).tokens).statements) ++ [] =
      Form.writtenAll (Stmt.toForms (parse (scan source').tokens).statements) ++ [] := by
    rw [Form.writtenAll_eq, Form.writtenAll_eq, hwritten]
  have hforms :=
    (Form.writtenAll_append_inj (toForms_proper hspelled) (toForms_proper hspelled') hall).1
  have hread := congrArg Form.stmts? hforms
  rw [stmts?_toForms_parse hspelled, stmts?_toForms_parse hspelled'] at hread
  exact Option.some.inj hread

theorem dump_inj_of_layout :
    let source := "a=1;"
    let source' := "\na = 1.0;"
    ((scan source).isValid ∧ (scan source').isValid) ∧
      (parse (scan source).tokens).statements.map (Stmt.mapTokens (Token.move fun _ => .start)) =
        (parse (scan source').tokens).statements.map
          (Stmt.mapTokens (Token.move fun _ => .start)) := by
  intro source source'
  let one := Number.ofDigits ['1'] []
  have hvalid : (scan source).isValid = true := by decide +kernel
  have hvalid' : (scan source').isValid = true := by decide +kernel
  have htokens : (scan source).tokens =
      [⟨.identifier, "a", some (.string "a"), ⟨1, 1⟩⟩, ⟨.equal, "=", none, ⟨1, 2⟩⟩,
      ⟨.number, "1", some (.number one), ⟨1, 3⟩⟩, ⟨.semicolon, ";", none, ⟨1, 4⟩⟩,
      .endOfText ⟨1, 5⟩] := by
    decide +kernel
  have htokens' : (scan source').tokens = [⟨.identifier, "a", some (.string "a"), ⟨2, 1⟩⟩,
      ⟨.equal, "=", none, ⟨2, 3⟩⟩, ⟨.number, "1.0", some (.number one), ⟨2, 5⟩⟩,
      ⟨.semicolon, ";", none, ⟨2, 8⟩⟩, .endOfText ⟨2, 9⟩] := by
    decide +kernel
  have hone : one.isFinite := by decide +kernel
  have hfinite : ∀ token ∈ (scan source).tokens, ∀ x, token.literal = some (.number x) →
      x.isFinite := by
    simp [htokens, hone, Token.endOfText]
  have hfinite' : ∀ token ∈ (scan source').tokens, ∀ x, token.literal = some (.number x) →
      x.isFinite := by
    simp [htokens', hone, Token.endOfText]
  have hparse : (parse (scan source).tokens).statements =
      [.expr (.assign ⟨.identifier, "a", some (.string "a"), ⟨1, 1⟩⟩
        (.literal (.number one)))] := by
    rw [htokens]
    generalize one = x
    cbv
  have hparse' : (parse (scan source').tokens).statements =
      [.expr (.assign ⟨.identifier, "a", some (.string "a"), ⟨2, 1⟩⟩
        (.literal (.number one)))] := by
    rw [htokens']
    generalize one = x
    cbv
  refine ⟨⟨hvalid, hvalid'⟩, dump_inj hvalid hfinite hvalid' hfinite' ?_⟩
  rw [hparse, hparse']
  rfl

end TreeWalk
