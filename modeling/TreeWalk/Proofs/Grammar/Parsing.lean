import TreeWalk.Proofs.Grammar.Ambiguity

/-!
This module contains the main statement about reading whole token lists: there is no error exactly
if the grammar describes the tokens, and then the statements are those that the tokens mean.
-/

namespace TreeWalk.Grammar

open Reply

theorem program_sound {ending : Found} {tokens : List Token}
    (h : (program ending tokens).errors = []) :
    Phrase true .declarations tokens (program ending tokens).statements := by
  induction tokens using program.induct ending with
  | case1 =>
    rw [program]
    exact .nil
  | case2 token rest statement left reported suffix progress hreply ih =>
    rw [program, hreply] at h
    simp only [List.append_eq_nil_iff] at h
    obtain ⟨rfl, herrors⟩ := h
    have hread : (declaration ending (token :: rest)).Reads statement left := by
      rw [hreply]
      exact ⟨rfl, rfl, rfl⟩
    obtain ⟨front, hfront, hstatement⟩ := statement_sound.1 _ _ _ hread
    rw [program_of_reads hread, hfront]
    exact .cons hstatement (ih herrors)
  | case3 token rest cause left reported suffix hreply ih =>
    rw [program, hreply] at h
    simp at h

theorem program_eq_iff {ending : Found} {tokens : List Token} {statements : List Stmt} :
    program ending tokens = ⟨statements, []⟩ ↔ Phrase true .declarations tokens statements := by
  constructor
  · intro h
    have hsound := program_sound (congrArg Parsed.errors h)
    rw [h] at hsound
    exact hsound
  · intro h
    exact (phrase_complete h).2

theorem phrase_forget {nearest : Bool} {symbol : Symbol} {tokens : List Token} {tree : symbol.Tree}
    (h : Phrase nearest symbol tokens tree) : Phrase false symbol tokens tree := by
  induction h with
  | ifElse hkeyword hopening hcondition hclosing _ _ hotherwise _ ihbody ihalternative =>
    exact .ifElse hkeyword hopening hcondition hclosing ihbody nofun hotherwise ihalternative
  | statement _ ih => exact .statement ih
  | print hkeyword hvalue hsemicolon => exact .print hkeyword hvalue hsemicolon
  | block hopening _ hclosing ih => exact .block hopening ih hclosing
  | breakLoop hkeyword hsemicolon => exact .breakLoop hkeyword hsemicolon
  | expressionInitializer _ ih => exact .expressionInitializer ih
  | _ => constructor <;> assumption

/--
The kinds of tokens are those of a program, whichever `if` an `else` may belong to.
-/
def Derivable (kinds : List TokenKind) : Prop :=
  ∃ tokens statements, tokens.map Token.kind = kinds ∧ Phrase false .declarations tokens statements

theorem derivable_iff {tokens : List Token} :
    Derivable (tokens.map Token.kind) ↔
      ∃ statements, Phrase true .declarations tokens statements := by
  constructor
  · rintro ⟨tokens', statements, hkinds, h⟩
    exact describes_of_kinds h hkinds.symm
  · rintro ⟨statements, h⟩
    exact ⟨tokens, statements, rfl, phrase_forget h⟩

theorem parse_iff {tokens : List Token} {statements : List Stmt} :
    (parse tokens).isValid ∧ (parse tokens).statements = statements ↔
      Phrase true .declarations (Sentence.ofTokens tokens).tokens statements := by
  rw [← program_eq_iff, ← parse]
  cases parse tokens
  simp [Parsed.isValid, and_comm]

theorem parse_isValid_iff_derivable (tokens : List Token) :
    let visible := (tokens.takeWhile (·.kind ≠ .eof)).filter (·.kind ≠ .comment)
    ((parse tokens).isValid ↔ Derivable (visible.map Token.kind)) ∧
      ∀ statements, (parse tokens).isValid ∧ (parse tokens).statements = statements ↔
        Phrase true .declarations visible statements := by
  intro visible
  have hvisible : (Sentence.ofTokens tokens).tokens = visible := by
    simp [Sentence.ofTokens, Token.isComment, visible]
  have hparse (statements : List Stmt) :
      (parse tokens).isValid ∧ (parse tokens).statements = statements ↔
        Phrase true .declarations visible statements := by
    rw [parse_iff, hvisible]
  refine ⟨?_, hparse⟩
  rw [derivable_iff]
  constructor
  · intro h
    exact ⟨_, (hparse _).1 ⟨h, rfl⟩⟩
  · rintro ⟨statements, h⟩
    exact ((hparse statements).2 h).1

end TreeWalk.Grammar
