import TreeWalk.Proofs.Grammar.Agreement

/-!
This module contains the reading of whole token lists in tandem. Behind an error both go on at the
same place, so both have the same statements and errors up to where the lists part, if they ever do.
-/

namespace TreeWalk

open Grammar

def Parsed.append (parsed parsed' : Parsed) : Parsed :=
  ⟨parsed.statements ++ parsed'.statements, parsed.errors ++ parsed'.errors⟩

instance : Append Parsed :=
  ⟨Parsed.append⟩

theorem Parsed.append_def (parsed parsed' : Parsed) :
    parsed ++ parsed' = ⟨parsed.statements ++ parsed'.statements,
      parsed.errors ++ parsed'.errors⟩ :=
  rfl

theorem Parsed.append_empty (parsed : Parsed) : parsed ++ (⟨[], []⟩ : Parsed) = parsed := by
  simp only [append_def, List.append_nil]

theorem Parsed.append_assoc (parsed parsed' parsed'' : Parsed) :
    parsed ++ parsed' ++ parsed'' = parsed ++ (parsed' ++ parsed'') := by
  simp only [append_def, List.append_assoc]

namespace Grammar

variable {ending : Found} {token : Token} {rest left : List Token} {reported : List ParseError}
  {suffix : left <:+ token :: rest}

theorem program_nil (ending : Found) : program ending [] = ⟨[], []⟩ := by
  rw [program]

theorem program_of_ok {statement : Stmt} {progress : left.length + 1 ≤ (token :: rest).length}
    (h : declaration ending (token :: rest) = .ok statement left reported suffix progress) :
    program ending (token :: rest) = ⟨[statement], reported⟩ ++ program ending left := by
  rw [program, h]
  rfl

theorem program_of_error {cause : ParseError}
    (h : declaration ending (token :: rest) = .error cause left reported suffix) :
    program ending (token :: rest) =
      ⟨[], reported ++ [cause]⟩ ++ program ending (recover rest left) := by
  rw [program, h, Parsed.append_def, List.append_assoc]
  rfl

end Grammar

namespace Tandem

variable {ending ending' : Found} {tandem : Tandem ending ending'}
  {tokens tokens' rest rest' left left' : List Token}

theorem behind_resume (h : tandem.inside tokens tokens') :
    tandem.behind (resume tokens) (resume tokens') := by
  induction tokens generalizing tokens' with
  | nil =>
    obtain ⟨rfl, _⟩ := tandem.nil_inside h
    exact tandem.behind_of_inside h
  | cons first rest ih =>
    have hbehind := tandem.behind_of_inside h
    obtain ⟨rest', rfl, hrest, hinside⟩ := tandem.cons_inside h
    simp only [resume, tandem.kind_token]
    split
    · exact hrest
    · next hsemicolon =>
      split
      · exact hbehind
      · exact ih (hinside hsemicolon)

theorem behind_recover (hrest : tandem.behind rest rest') (hleft : tandem.inside left left') :
    tandem.behind (recover rest left) (recover rest' left') := by
  have hresume := behind_resume hleft
  simp only [recover, tandem.length_le_iff hresume hrest]
  split
  · exact hresume
  · exact hrest

variable (tandem)

def mapParsed (parsed : Parsed) : Parsed :=
  ⟨parsed.statements.map (Stmt.mapTokens tandem.token), parsed.errors.map tandem.error⟩

theorem mapParsed_append (parsed parsed' : Parsed) :
    tandem.mapParsed (parsed ++ parsed') = tandem.mapParsed parsed ++ tandem.mapParsed parsed' := by
  simp only [mapParsed, Parsed.append_def, List.map_append]

theorem exists_program (h : tandem.behind tokens tokens') :
    ∃ front left left', tandem.behind left left' ∧ (tandem.inside left left' → left = []) ∧
      program ending tokens = front ++ program ending left ∧
      program ending' tokens' = tandem.mapParsed front ++ program ending' left' := by
  induction tokens using program.induct ending generalizing tokens' with
  | case1 => exact ⟨⟨[], []⟩, [], tokens', h, fun _ => rfl, rfl, rfl⟩
  | case2 token rest statement left reported suffix progress hreply ih =>
    by_cases hinside : tandem.inside (token :: rest) tokens'
    case neg => exact ⟨⟨[], []⟩, _, _, h, fun hinside' => absurd hinside' hinside, rfl, rfl⟩
    have hagree := tandem.agree_statement.1 _ _ hinside
    obtain ⟨rest', rfl, _⟩ := tandem.cons_inside hinside
    rw [hreply] at hagree
    obtain ⟨left', suffix', progress', hleft, hreply'⟩ := hagree.exists_ok
    obtain ⟨front, parted, parted', hbehind, hparted, hprogram, hprogram'⟩ := ih hleft
    refine ⟨⟨[statement], reported⟩ ++ front, parted, parted', hbehind, hparted, ?_, ?_⟩
    · rw [program_of_ok hreply, hprogram, Parsed.append_assoc]
    · rw [program_of_ok hreply', hprogram', mapParsed_append, Parsed.append_assoc]
      rfl
  | case3 token rest cause left reported suffix hreply ih =>
    by_cases hinside : tandem.inside (token :: rest) tokens'
    case neg => exact ⟨⟨[], []⟩, _, _, h, fun hinside' => absurd hinside' hinside, rfl, rfl⟩
    have hagree := tandem.agree_statement.1 _ _ hinside
    obtain ⟨rest', rfl, hrest, _⟩ := tandem.cons_inside hinside
    rw [hreply] at hagree
    obtain ⟨left', suffix', hleft, hreply'⟩ := hagree.exists_error
    obtain ⟨front, parted, parted', hbehind, hparted, hprogram, hprogram'⟩ :=
      ih (behind_recover hrest hleft)
    refine ⟨⟨[], reported ++ [cause]⟩ ++ front, parted, parted', hbehind, hparted, ?_, ?_⟩
    · rw [program_of_error hreply, hprogram, Parsed.append_assoc]
    · have hfailed : tandem.mapParsed ⟨[], reported ++ [cause]⟩ =
          ⟨[], reported.map tandem.error ++ [tandem.error cause]⟩ := by
        simp [mapParsed]
      rw [program_of_error hreply', hprogram', mapParsed_append, Parsed.append_assoc, hfailed]

end Tandem
end TreeWalk
