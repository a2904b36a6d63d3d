import TreeWalk.Proofs.Grammar.Containment
import TreeWalk.Proofs.Grammar.Following

/-!
This module contains the proof that comments are invisible to the parser. It comes to the same
statements and errors as the grammar, also behind an error, and the grammar does not read comments.
-/

namespace TreeWalk

open Grammar

variable {items tokens rest : List Token}

namespace Parser

theorem head_eq_iff {cursor cursor' : Cursor Token} {token : Token} {next : List Token}
    (h : cursor.Faces items (token :: rest)) (h' : cursor'.Faces items next)
    (hnext : next <:+ token :: rest) :
    cursor'.head = cursor.head ↔ ¬ next.length ≤ rest.length := by
  constructor
  · intro hhead
    have hrest : cursor'.rest = cursor.rest := by
      rw [Cursor.rest, Cursor.rest, h'.items_eq, h.items_eq, hhead]
    rw [← h'.visible, hrest, h.visible, List.length_cons]
    exact Nat.not_succ_le_self _
  · intro hlength
    have hwhole : next = token :: rest := hnext.eq_of_length_le (Nat.lt_of_not_le hlength)
    rw [hwhole] at h'
    exact h.head_eq h'

theorem faces_recover {cursor cursor' : Cursor Token} {token : Token} {left : List Token}
    (h : cursor.Faces items (token :: rest)) (h' : cursor'.Faces items left)
    (suffix : left <:+ token :: rest) (errors : List ParseError) :
    ∃ resumed, resumed.Faces items (recover rest left) ∧
      (if cursor'.synchronize.head = cursor.head then (advance ⟨cursor'.synchronize, errors⟩).2
        else ⟨cursor'.synchronize, errors⟩) = ⟨resumed, errors⟩ := by
  have hresumed := h'.synchronize
  have hsuffix : resume left <:+ token :: rest := (resume_suffix left).trans suffix
  simp only [head_eq_iff h hresumed hsuffix]
  by_cases hlength : (resume left).length ≤ rest.length
  · rw [recover, if_pos hlength, if_neg (not_not_intro hlength)]
    exact ⟨_, hresumed, rfl⟩
  · have hwhole : resume left = token :: rest := hsuffix.eq_of_length_le (Nat.lt_of_not_le hlength)
    rw [hwhole] at hresumed
    rw [recover, if_neg hlength, if_pos hlength]
    exact ⟨_, hresumed.peek_cons.2.2.skipComments, rfl⟩

def Finishes (items tokens : List Token) (bound : Nat) : Prop :=
  ∀ p : Parser, p.cursor.Faces items tokens →
    ∃ p' : Parser, p'.errors =
      p.errors ++ (program (Sentence.ofTokens items).ending tokens).errors ∧
      statements bound p = some ((program (Sentence.ofTokens items).ending tokens).statements, p')

namespace Finishes

variable {bound : Nat} {token : Token} {left : List Token} {reported : List ParseError}
  {suffix : left <:+ token :: rest}

theorem nil : Finishes items [] (bound + 1) := by
  intro p h
  rw [program_nil, statements, if_pos (kind_of_faces_nil h)]
  exact ⟨p, (List.append_nil _).symm, rfl⟩

theorem of_ok {statement : Stmt} {progress : left.length + 1 ≤ (token :: rest).length}
    (hreply : declaration (Sentence.ofTokens items).ending (token :: rest) =
      .ok statement left reported suffix progress)
    (hdeclaration : Parsing.Meets items (Parsing.declaration bound)
      (declaration (Sentence.ofTokens items).ending (token :: rest)))
    (hleft : Finishes items left bound) : Finishes items (token :: rest) (bound + 1) := by
  intro p h
  rw [hreply] at hdeclaration
  obtain ⟨cursor, hcursor, hresult⟩ := hdeclaration p.cursor p.errors h
  obtain ⟨p', herrors, hstatements⟩ := hleft ⟨cursor, p.errors ++ reported⟩ hcursor
  have hkind : p.kind ≠ .eof := kind_of_faces_cons h ▸ h.peek_cons.2.1
  rw [program_of_ok hreply, statements, if_neg hkind, hresult]
  simp only [hstatements]
  refine ⟨p', ?_, rfl⟩
  rw [herrors, List.append_assoc]
  rfl

theorem of_error {cause : ParseError}
    (hreply : declaration (Sentence.ofTokens items).ending (token :: rest) =
      .error cause left reported suffix)
    (hdeclaration : Parsing.Meets items (Parsing.declaration bound)
      (declaration (Sentence.ofTokens items).ending (token :: rest)))
    (hrecover : Finishes items (recover rest left) bound) :
    Finishes items (token :: rest) (bound + 1) := by
  intro p h
  rw [hreply] at hdeclaration
  obtain ⟨cursor, hcursor, hresult⟩ := hdeclaration p.cursor p.errors h
  have hkind : p.kind ≠ .eof := kind_of_faces_cons h ▸ h.peek_cons.2.1
  obtain ⟨resumed, hresumed, hgoes⟩ :=
    faces_recover h hcursor suffix (p.errors ++ reported ++ [cause])
  obtain ⟨p', herrors, hstatements⟩ := hrecover ⟨resumed, p.errors ++ reported ++ [cause]⟩ hresumed
  rw [program_of_error hreply, statements, if_neg hkind, hresult]
  simp only [hgoes]
  refine ⟨p', ?_, hstatements⟩
  rw [herrors, Parsed.append_def]
  simp only [List.append_assoc]

end Finishes

theorem eventually_finishes (tokens : List Token) :
    ∀ᶠ bound in Filter.atTop, Finishes items tokens bound := by
  induction tokens using program.induct (Sentence.ofTokens items).ending with
  | case1 =>
    rw [← Filter.map_add_atTop_eq_nat 1, Filter.eventually_map]
    exact .of_forall fun _ => .nil
  | case2 token rest statement left reported suffix progress hreply ih =>
    have hdeclaration := (Parsing.performs_statement items).1 (token :: rest)
    rw [← Filter.map_add_atTop_eq_nat 1, Filter.eventually_map]
    apply (hdeclaration.and ih).mono
    rintro bound ⟨hdeclaration, hleft⟩
    exact .of_ok hreply hdeclaration hleft
  | case3 token rest cause left reported suffix hreply ih =>
    have hdeclaration := (Parsing.performs_statement items).1 (token :: rest)
    rw [← Filter.map_add_atTop_eq_nat 1, Filter.eventually_map]
    apply (hdeclaration.and ih).mono
    rintro bound ⟨hdeclaration, hrecover⟩
    exact .of_error hreply hdeclaration hrecover

theorem run_eq (tokens : List Token) :
    ∀ᶠ bound in Filter.atTop, run bound tokens = some (parse tokens) := by
  have hsees : (Cursor.ofList tokens).Sees tokens (Sentence.ofTokens tokens).tokens :=
    ⟨rfl, by simp [Cursor.ofList], rfl⟩
  apply (eventually_finishes (Sentence.ofTokens tokens).tokens).mono
  intro bound hfinishes
  obtain ⟨p', herrors, hstatements⟩ := hfinishes ⟨_, []⟩ hsees.skipComments
  rw [List.nil_append] at herrors
  rw [run, hstatements, parse_eq]
  show some (Parsed.mk _ p'.errors) = _
  rw [herrors]

end Parser

theorem Sentence.ofTokens_filter (h : ∃ marker ∈ tokens, marker.kind = .eof) :
    ofTokens (tokens.filter (! ·.isComment)) = ofTokens tokens := by
  have hending : (tokens.filter (! ·.isComment)).find? (·.kind = .eof) =
      tokens.find? (·.kind = .eof) := by
    rw [List.find?_filter]
    congr 1
    funext token
    by_cases heof : token.kind = .eof <;> simp [Token.isComment, heof]
  have htokens :
      ((tokens.filter (! ·.isComment)).takeWhile (·.kind ≠ .eof)).filter (! ·.isComment) =
        (tokens.takeWhile (·.kind ≠ .eof)).filter (! ·.isComment) := by
    clear h hending
    induction tokens with
    | nil => rfl
    | cons token tokens ih =>
      by_cases heof : token.kind = .eof
      · simp [Token.isComment, heof]
      · by_cases hcomment : token.isComment <;> simpa [hcomment, heof] using ih
  have hmarker : (tokens.find? (·.kind = .eof)).isSome = true := by simpa using h
  obtain ⟨marker, hmarker⟩ := Option.isSome_iff_exists.1 hmarker
  simp only [ofTokens, htokens, hending, hmarker]

theorem parse_without_comments (h : ∃ marker ∈ tokens, marker.kind = .eof) :
    let visible := tokens.filter (! ·.isComment)
    (∃ least, ∀ bound, least ≤ bound →
      Parser.run bound tokens = some (parse tokens) ∧
      Parser.run bound visible = some (parse tokens)) ∧
      (parse visible).statements = (parse tokens).statements ∧
      (parse visible).errors = (parse tokens).errors := by
  intro visible
  have hparse : parse visible = parse tokens := by rw [parse, parse, Sentence.ofTokens_filter h]
  have hvisible := Parser.run_eq visible
  rw [hparse] at hvisible ⊢
  exact ⟨Filter.eventually_atTop.1 ((Parser.run_eq tokens).and hvisible), rfl, rfl⟩

theorem parse_without_comments_of_errors :
    let comment : Token := ⟨.comment, "//", none, .start⟩
    let nothing : Token := ⟨.nilWord, "nil", none, .start⟩
    let plus : Token := ⟨.plus, "+", none, .start⟩
    let semicolon : Token := ⟨.semicolon, ";", none, .start⟩
    let tokens : List Token :=
      [comment, ⟨.varWord, "var", none, .start⟩, comment, comment, plus, comment, semicolon,
        comment, nothing, comment, semicolon, .endOfText .start]
    (∃ marker ∈ tokens, marker.kind = .eof) ∧
      (parse (tokens.filter (! ·.isComment))).statements = [.expr (.literal .nil)] ∧
      (parse (tokens.filter (! ·.isComment))).errors = [.expected .identifier (.token plus)] := by
  intro comment nothing plus semicolon tokens
  have hmarker : ∃ marker ∈ tokens, marker.kind = .eof := ⟨.endOfText .start, by decide, rfl⟩
  obtain ⟨_, hstatements, herrors⟩ := parse_without_comments hmarker
  have hparse : parse tokens =
      ⟨[.expr (.literal .nil)], [.expected .identifier (.token plus)]⟩ := by cbv
  rw [hstatements, herrors, hparse]
  exact ⟨hmarker, rfl, rfl⟩

end TreeWalk
