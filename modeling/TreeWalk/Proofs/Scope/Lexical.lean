import TreeWalk.Proofs.Execution.Program
import TreeWalk.Proofs.Scope.Resolution

/-!
This module contains the main statement about scopes: the frames that names are looked up in when a
program runs are those that its text says.
-/

namespace TreeWalk

theorem exists_undefined_iff {statements : List Stmt} {machine : Machine} {token : Token} :
    (∃ bound machine', Stmt.interpretAll bound statements machine =
        some (.error (.evaluation ⟨token, .undefinedName⟩) machine')) ↔
      ∃ path event environment, Occurs (.all statements) machine path event environment ∧
        event.error? environment = some ⟨token, .undefinedName⟩ := by
  have hcause : ∀ keyword, RuntimeError.evaluation ⟨token, .undefinedName⟩ ≠
      .evaluation ⟨keyword, .strayBreak⟩ := nofun
  rw [exists_comm]
  simp only [exists_interpretAll_error_iff hcause]
  constructor
  · rintro ⟨machine', hruns⟩
    exact hruns.exists_occurs rfl rfl
  · rintro ⟨path, event, environment, hoccurs, herror⟩
    exact hoccurs.exists_runs herror

/--
Names are looked up where the text says. Whatever happens at a place in a program happens with the
frames of the blocks around the place, which bind what the blocks have declared before it; so the
place alone decides which block a name belongs to, and a name that belongs to none is a global or
not bound at all.
-/
theorem parse_lexically_scoped (tokens : List Token) (machine : Machine)
    (hvalid : (parse tokens).isValid) (hdepth : machine.environment.depth = 1) :
    let statements := (parse tokens).statements
    (∀ path event environment, Occurs (.all statements) machine path event environment →
      ∃ site, Stmt.siteIn [] statements path = some site ∧
        (∀ statement, event = .start statement → site.statement = statement) ∧
        environment.depth = 1 + site.scope.length ∧ site.scope.Fits environment.blocks ∧
        site.scope.Governs environment event) ∧
    (∀ path body scope index statement environment, Stmt.siteIn [] statements path =
      some ⟨.block body, scope⟩ →
      Occurs (.all statements) machine (path ++ [.member index]) (.start statement) environment →
        body[index]? = some statement ∧ environment.depth = 1 + (scope.length + 1) ∧
        ∀ name, name ∈ environment.names.head environment.names_ne_nil ↔
          name ∈ (body.take index).filterMap Stmt.ownName?) ∧
    ∀ token, (∃ bound machine', Stmt.interpretAll bound statements machine =
        some (.error (.evaluation ⟨token, .undefinedName⟩) machine')) ↔
      ∃ path event environment site, Occurs (.all statements) machine path event environment ∧
        Stmt.siteIn [] statements path = some site ∧ event.name? = some token ∧
        site.scope.resolve token.lexeme = none ∧ environment.globals.get? token.lexeme = none := by
  intro statements
  have hfits : Scope.Fits [] machine.environment.blocks := by
    have hblocks : machine.environment.blocks = [] :=
      List.eq_nil_of_length_eq_zero (Nat.succ.inj hdepth)
    rw [hblocks]
    trivial
  -- every event has a site whose scope fits the open blocks; the rest is read off from that
  have hsite : ∀ path event environment, Occurs (.all statements) machine path event environment →
      ∃ site, Stmt.siteIn [] statements path = some site ∧ site.scope.Fits environment.blocks ∧
        ∀ statement, event = .start statement → site.statement = statement := by
    intro path event environment h
    exact h.fits (scoped_of_parse hvalid) hfits
  have hlength : ∀ (scope : Scope) (environment : Environment), scope.Fits environment.blocks →
      environment.depth = 1 + scope.length := by
    intro scope environment h
    rw [Environment.depth, h.length_eq, Nat.add_comm]
  refine ⟨?_, ?_, ?_⟩
  · intro path event environment h
    obtain ⟨site, hpath, hsite, hstart⟩ := hsite path event environment h
    exact ⟨site, hpath, hstart, hlength _ _ hsite, hsite, hsite.governs event⟩
  · intro path body scope index statement environment hpath h
    obtain ⟨site, hmember, hsite, hstart⟩ := hsite _ _ environment h
    rw [Stmt.siteIn_member hpath] at hmember
    obtain ⟨member, hbody, rfl⟩ := Option.map_eq_some_iff.1 hmember
    cases hstart statement rfl
    refine ⟨hbody, hlength _ _ hsite, ?_⟩
    exact hsite.mem_head_names
  · intro token
    rw [exists_undefined_iff]
    constructor
    · rintro ⟨path, event, environment, h, herror⟩
      obtain ⟨site, hpath, hsite, _⟩ := hsite path event environment h
      exact ⟨path, event, environment, site, h, hpath, hsite.error?_eq_some_iff.1 herror⟩
    · rintro ⟨path, event, environment, site, h, hpath, herror⟩
      obtain ⟨site', hpath', hsite, _⟩ := hsite path event environment h
      cases hpath.symm.trans hpath'
      exact ⟨path, event, environment, h, hsite.error?_eq_some_iff.2 herror⟩

theorem parse_lexically_scoped_of_block :
    let name : Token := ⟨.identifier, "a", none, .start⟩
    let semicolon : Token := ⟨.semicolon, ";", none, .start⟩
    let tokens : List Token :=
      [⟨.leftBrace, "\x7b", none, .start⟩, ⟨.varWord, "var", none, .start⟩, name, semicolon, name,
        semicolon, ⟨.rightBrace, "\x7d", none, .start⟩, name, semicolon]
    let machine := Machine.ofSink .unlimited
    let inside := (machine.openBlock.define name .nil).environment
    ((parse tokens).isValid ∧ machine.environment.depth = 1) ∧
      Occurs (.all (parse tokens).statements) machine [.member 0, .member 1] (.read name) inside ∧
      (∃ site, Stmt.siteIn [] (parse tokens).statements [.member 0, .member 1] = some site ∧
        inside.depth = 1 + site.scope.length ∧ site.scope.Governs inside (.read name)) ∧
      ∃ bound machine', Stmt.interpretAll bound (parse tokens).statements machine =
        some (.error (.evaluation ⟨name, .undefinedName⟩) machine') := by
  intro name semicolon tokens machine inside
  let lookup : Stmt := .expr (.name name)
  let block : Stmt := .block [.declare name none, lookup]
  have hname : Grammar.Expression .assignment [name] (.name name) :=
    .operation
      (.operand
        (.operand (.operand (.operand (.operand (.operand (.primary (.atom (.name rfl)))))))))
  have hexpr : Grammar.Phrase true .declaration [name, semicolon] lookup :=
    .statement (.expressionStatement (.expression hname rfl))
  have hdeclare : Grammar.Phrase true .declaration (tokens.tail.take 3) (.declare name none) :=
    .varDeclaration (.declare rfl rfl rfl)
  have hblock : Grammar.Phrase true .declaration (tokens.take 7) block :=
    .statement (.block rfl (.cons hdeclare (.cons hexpr .nil)) rfl)
  have hphrase : Grammar.Phrase true .declarations (Sentence.ofTokens tokens).tokens [block,
    lookup] :=
    .cons hblock (.cons hexpr .nil)
  obtain ⟨hvalid, hstatements⟩ := Grammar.parse_iff.2 hphrase
  have hscoped := parse_lexically_scoped tokens machine hvalid rfl
  rw [hstatements] at hscoped ⊢
  have hdeclared : (Stmt.declare name none).exec 1 machine.openBlock =
      some (.ok (.normal none) (machine.openBlock.define name .nil)) := rfl
  have hclosed : block.exec 1 machine = some (.ok (.normal none) machine) := rfl
  have hinside : Occurs (.all [block, lookup]) machine [.member 0, .member 1] (.read name) inside :=
    .first (.block (.later hdeclared (.first (.subject rfl .name))))
  have houtside : Occurs (.all [block, lookup]) machine [.member 1]
      (.read name) machine.environment :=
    .later hclosed (.first (.subject rfl .name))
  obtain ⟨site, hsite, _, hdepth, _, hgoverns⟩ := hscoped.1 _ _ _ hinside
  refine ⟨⟨hvalid, rfl⟩, hinside, ⟨site, hsite, hdepth, hgoverns⟩, ?_⟩
  apply (hscoped.2.2 name).2
  exact ⟨_, _, _, _, houtside, rfl, rfl, rfl, rfl⟩

end TreeWalk
