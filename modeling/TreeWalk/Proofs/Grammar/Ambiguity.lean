import TreeWalk.Proofs.Grammar.Soundness
import TreeWalk.Proofs.Grammar.Completeness

/-!
This module contains the proof that the grammar describes the same token lists whether an `else` may
belong to any `if` or only to the nearest one, and that the kinds of the tokens alone decide whether
a list is described.
-/

namespace TreeWalk.Grammar

variable {tokens tokens' : List Token}

theorem exists_atom {token : Token} (h : token.kind ∈ atomKinds) : ∃ e, Atom token e := by
  have hsome : (atom? token).isSome := by
    unfold atom?
    simp only [atomKinds, List.mem_cons, List.not_mem_nil, or_false] at h
    rcases h with h | h | h | h | h | h <;> simp [h]
  obtain ⟨e, he⟩ := Option.isSome_iff_exists.1 hsome
  exact ⟨e, atom_of_atom? he⟩

theorem enclosed_of_kinds {opening closing : Token}
    (h : tokens'.map Token.kind = (opening :: tokens ++ [closing]).map Token.kind) :
    ∃ opening' inner closing', tokens' = opening' :: inner ++ [closing'] ∧
      opening'.kind = opening.kind ∧
      inner.map Token.kind = tokens.map Token.kind ∧ closing'.kind = closing.kind := by
  rw [List.map_append, List.map_eq_append_iff] at h
  obtain ⟨_, _, rfl, hfront, hback⟩ := h
  rw [List.map_cons, List.map_eq_cons_iff] at hfront
  rw [List.map_singleton, List.map_eq_singleton_iff] at hback
  obtain ⟨opening', inner, rfl, hopening, hinner⟩ := hfront
  obtain ⟨closing', rfl, hclosing⟩ := hback
  exact ⟨opening', inner, closing', rfl, hopening, hinner, hclosing⟩

theorem header_of_kinds {keyword opening closing : Token} {front : List Token}
    (h : tokens'.map Token.kind =
      (keyword :: opening :: tokens ++ closing :: front).map Token.kind) :
    ∃ keyword' opening' inner closing' front',
      tokens' = keyword' :: opening' :: inner ++ closing' :: front' ∧
      keyword'.kind = keyword.kind ∧ opening'.kind = opening.kind ∧
      inner.map Token.kind = tokens.map Token.kind ∧
      closing'.kind = closing.kind ∧ front'.map Token.kind = front.map Token.kind := by
  rw [List.map_append, List.map_eq_append_iff] at h
  obtain ⟨_, _, rfl, hheader, hback⟩ := h
  rw [List.map_cons, List.map_cons, List.map_eq_cons_iff] at hheader
  rw [List.map_cons, List.map_eq_cons_iff] at hback
  obtain ⟨keyword', _, rfl, hkeyword, hheader⟩ := hheader
  obtain ⟨opening', inner, rfl, hopening, hinner⟩ := List.map_eq_cons_iff.1 hheader
  obtain ⟨closing', front', rfl, hclosing, hfront⟩ := hback
  exact ⟨keyword', opening', inner, closing', front', rfl, hkeyword, hopening, hinner,
    hclosing, hfront⟩

theorem expression_of_kinds {precedence : Precedence} {e : Expr}
    (h : Expression precedence tokens e) (hkinds : tokens'.map Token.kind = tokens.map Token.kind) :
    ∃ e', Expression precedence tokens' e' := by
  induction h generalizing tokens' with
  | assign htarget hequals _ ih =>
    simp only [List.map_cons, List.map_eq_cons_iff] at hkinds
    obtain ⟨target, _, rfl, htarget', equals, rest, rfl, hequals', hrest⟩ := hkinds
    obtain ⟨value, hvalue⟩ := ih hrest
    exact ⟨_, .assign (htarget'.trans htarget) (hequals'.trans hequals) hvalue⟩
  | operation _ ih =>
    obtain ⟨value, hvalue⟩ := ih hkinds
    exact ⟨value, .operation hvalue⟩
  | operand _ ih =>
    obtain ⟨value, hvalue⟩ := ih hkinds
    exact ⟨value, .operand hvalue⟩
  | operator _ hoperator _ ihleft ihright =>
    simp only [List.map_append, List.map_cons, List.map_eq_append_iff,
      List.map_eq_cons_iff] at hkinds
    obtain ⟨front, _, rfl, hfront, operator, back, rfl, hoperator', hback⟩ := hkinds
    obtain ⟨left, hleft⟩ := ihleft hfront
    obtain ⟨right, hright⟩ := ihright hback
    exact ⟨_, .operator hleft (hoperator' ▸ hoperator) hright⟩
  | unary hoperator _ ih =>
    simp only [List.map_cons, List.map_eq_cons_iff] at hkinds
    obtain ⟨operator, rest, rfl, hoperator', hrest⟩ := hkinds
    obtain ⟨operand, hoperand⟩ := ih hrest
    exact ⟨_, .unary (hoperator' ▸ hoperator) hoperand⟩
  | primary _ ih =>
    obtain ⟨value, hvalue⟩ := ih hkinds
    exact ⟨value, .primary hvalue⟩
  | atom hvalue =>
    simp only [List.map_cons, List.map_nil, List.map_eq_cons_iff, List.map_eq_nil_iff] at hkinds
    obtain ⟨token, _, rfl, htoken, rfl⟩ := hkinds
    obtain ⟨value, hvalue'⟩ := exists_atom (htoken ▸ atom_front hvalue)
    exact ⟨value, .atom hvalue'⟩
  | group hopening _ hclosing ih =>
    obtain ⟨opening, inner, closing, rfl, hopening', hinner, hclosing'⟩ := enclosed_of_kinds hkinds
    obtain ⟨e, he⟩ := ih hinner
    exact ⟨_, .group (hopening'.trans hopening) he (hclosing'.trans hclosing)⟩

theorem optionalExpression_of_kinds {e : Option Expr} (h : OptionalExpression tokens e)
    (hkinds : tokens'.map Token.kind = tokens.map Token.kind) :
    ∃ e', OptionalExpression tokens' e' := by
  cases h with
  | absent =>
    rw [List.map_nil, List.map_eq_nil_iff] at hkinds
    subst hkinds
    exact ⟨none, .absent⟩
  | present hvalue =>
    obtain ⟨value, hvalue'⟩ := expression_of_kinds hvalue hkinds
    exact ⟨some value, .present hvalue'⟩

theorem exists_phrase_else {symbol : Symbol} {body : symbol.Tree} {alternative : Stmt}
    {otherwise : Token} {dangling : Bool} (hsymbol : symbol = .statement true)
    (hbody : Phrase true symbol tokens body) (hotherwise : otherwise.kind = .elseWord)
    (halternative : Phrase true (.statement dangling) tokens' alternative) :
    ∃ dangling' s, Phrase true (.statement dangling') (tokens ++ otherwise :: tokens') s := by
  -- the `else` follows the last statement inside, down to an `if` whose body can be followed by it
  induction hbody with
  | @ifThen keyword opening closing test front condition body dangling' hkeyword hopening hcondition
    hclosing hbody ih =>
    cases dangling' with
    | false =>
      refine ⟨dangling, .ifElse condition body alternative, ?_⟩
      exact .ifElse hkeyword hopening hcondition hclosing hbody
        (fun _ => rfl) hotherwise halternative
    | true =>
      obtain ⟨dangling', s, hs⟩ := ih rfl
      refine ⟨true, .ifThen condition s, ?_⟩
      rw [List.append_assoc, List.cons_append]
      exact .ifThen hkeyword hopening hcondition hclosing hs
  | @ifElse keyword opening closing otherwise' test front back condition body alternative' dangling₁
    dangling₂ hkeyword hopening hcondition hclosing hbody hnearest hotherwise' _ _ ih =>
    cases hsymbol
    obtain ⟨dangling', s, hs⟩ := ih rfl
    refine ⟨dangling', .ifElse condition body s, ?_⟩
    rw [List.append_assoc, List.cons_append]
    exact .ifElse hkeyword hopening hcondition hclosing hbody hnearest hotherwise' hs
  | @whileLoop keyword opening closing test front condition body dangling' hkeyword hopening
      hcondition hclosing _ ih =>
    cases hsymbol
    obtain ⟨dangling', s, hs⟩ := ih rfl
    refine ⟨dangling', .whileLoop condition s, ?_⟩
    rw [List.append_assoc, List.cons_append]
    exact .whileLoop hkeyword hopening hcondition hclosing hs
  | @forLoop keyword opening semicolon closing start test step front initializer condition increment
    body dangling'
    hkeyword hopening hinitializer hcondition hsemicolon hincrement hclosing _ _ ih =>
    cases hsymbol
    obtain ⟨dangling', s, hs⟩ := ih rfl
    rw [List.append_assoc, List.cons_append]
    exact ⟨dangling', _,
      .forLoop hkeyword hopening hinitializer hcondition hsemicolon hincrement hclosing hs⟩
  | _ => cases hsymbol

/--
Some tree makes the tokens a phrase in which each `else` belongs to the nearest `if`. Which `if`s
are left open may change on the way.
-/
def Symbol.Describes : Symbol → List Token → Prop
  | statement _, tokens => ∃ dangling s, Phrase true (.statement dangling) tokens s
  | symbol, tokens => ∃ tree, Phrase true symbol tokens tree

theorem describes_of_kinds {nearest : Bool} {symbol : Symbol} {tree : symbol.Tree}
    (h : Phrase nearest symbol tokens tree)
    (hkinds : tokens'.map Token.kind = tokens.map Token.kind) :
    symbol.Describes tokens' := by
  induction h generalizing tokens' with
  | nil =>
    rw [List.map_nil, List.map_eq_nil_iff] at hkinds
    subst hkinds
    exact ⟨[], .nil⟩
  | cons _ _ ihfirst ihrest =>
    rw [List.map_append, List.map_eq_append_iff] at hkinds
    obtain ⟨front, back, rfl, hfront, hback⟩ := hkinds
    obtain ⟨s, hs⟩ := ihfirst hfront
    obtain ⟨body, hbody⟩ := ihrest hback
    exact ⟨_, .cons hs hbody⟩
  | varDeclaration _ ih =>
    obtain ⟨s, hs⟩ := ih hkinds
    exact ⟨s, .varDeclaration hs⟩
  | statement _ ih =>
    obtain ⟨dangling, s, hs⟩ := ih hkinds
    exact ⟨s, .statement hs⟩
  | declare hkeyword hname hsemicolon =>
    simp only [List.map_cons, List.map_nil, List.map_eq_cons_iff, List.map_eq_nil_iff] at hkinds
    obtain ⟨keyword, _, rfl, hkeyword', name, _, rfl, hname', semicolon, _, rfl, hsemicolon',
      rfl⟩ := hkinds
    exact ⟨_,
      .declare (hkeyword'.trans hkeyword) (hname'.trans hname) (hsemicolon'.trans hsemicolon)⟩
  | define hkeyword hname hequals hinitial hsemicolon =>
    obtain ⟨keyword, _, semicolon, rfl, hkeyword', hinner, hsemicolon'⟩ := enclosed_of_kinds hkinds
    obtain ⟨name, _, rfl, hname', hinner⟩ := List.map_eq_cons_iff.1 hinner
    obtain ⟨equals, inner, rfl, hequals', hinner⟩ := List.map_eq_cons_iff.1 hinner
    obtain ⟨e, he⟩ := expression_of_kinds hinitial hinner
    exact ⟨_, .define (hkeyword'.trans hkeyword) (hname'.trans hname) (hequals'.trans hequals) he
      (hsemicolon'.trans hsemicolon)⟩
  | expressionStatement _ ih =>
    obtain ⟨s, hs⟩ := ih hkinds
    exact ⟨false, s, .expressionStatement hs⟩
  | expression hvalue hsemicolon =>
    simp only [List.map_append, List.map_cons, List.map_nil, List.map_eq_append_iff,
      List.map_eq_cons_iff, List.map_eq_nil_iff] at hkinds
    obtain ⟨inner, _, rfl, hinner, semicolon, _, rfl, hsemicolon', rfl⟩ := hkinds
    obtain ⟨e, he⟩ := expression_of_kinds hvalue hinner
    exact ⟨_, .expression he (hsemicolon'.trans hsemicolon)⟩
  | print hkeyword hvalue hsemicolon =>
    obtain ⟨keyword, inner, semicolon, rfl, hkeyword', hinner, hsemicolon'⟩ :=
      enclosed_of_kinds hkinds
    obtain ⟨e, he⟩ := expression_of_kinds hvalue hinner
    exact ⟨false, _, .print (hkeyword'.trans hkeyword) he (hsemicolon'.trans hsemicolon)⟩
  | block hopening _ hclosing ih =>
    obtain ⟨opening, inner, closing, rfl, hopening', hinner, hclosing'⟩ := enclosed_of_kinds hkinds
    obtain ⟨body, hbody⟩ := ih hinner
    exact ⟨false, _, .block (hopening'.trans hopening) hbody (hclosing'.trans hclosing)⟩
  | ifThen hkeyword hopening hcondition hclosing _ ih =>
    obtain ⟨keyword, opening, inner, closing, front, rfl, hkeyword', hopening', hinner, hclosing',
      hfront⟩ := header_of_kinds hkinds
    obtain ⟨e, he⟩ := expression_of_kinds hcondition hinner
    obtain ⟨dangling, s, hs⟩ := ih hfront
    exact ⟨true, _, .ifThen (hkeyword'.trans hkeyword) (hopening'.trans hopening) he
      (hclosing'.trans hclosing) hs⟩
  | ifElse hkeyword hopening hcondition hclosing _ _ hotherwise _ ihbody ihalternative =>
    rw [List.map_append, List.map_eq_append_iff] at hkinds
    obtain ⟨_, _, rfl, hheader, hback⟩ := hkinds
    rw [List.map_cons, List.map_eq_cons_iff] at hback
    obtain ⟨keyword, opening, inner, closing, front, rfl, hkeyword', hopening', hinner, hclosing',
      hfront⟩ := header_of_kinds hheader
    obtain ⟨otherwise, back, rfl, hotherwise', hback⟩ := hback
    obtain ⟨e, he⟩ := expression_of_kinds hcondition hinner
    obtain ⟨dangling, s, hs⟩ := ihbody hfront
    obtain ⟨dangling', s', hs'⟩ := ihalternative hback
    -- where the body has become open for an `else`, this one goes to an `if` inside the body
    cases dangling with
    | false =>
      exact ⟨dangling', _,
        .ifElse (hkeyword'.trans hkeyword) (hopening'.trans hopening) he (hclosing'.trans hclosing)
          hs (fun _ => rfl) (hotherwise'.trans hotherwise) hs'⟩
    | true =>
      obtain ⟨_, s'', hs''⟩ := exists_phrase_else rfl hs (hotherwise'.trans hotherwise) hs'
      refine ⟨true, .ifThen e s'', ?_⟩
      rw [List.append_assoc, List.cons_append]
      exact .ifThen (hkeyword'.trans hkeyword) (hopening'.trans hopening) he
        (hclosing'.trans hclosing) hs''
  | whileLoop hkeyword hopening hcondition hclosing _ ih =>
    obtain ⟨keyword, opening, inner, closing, front, rfl, hkeyword', hopening', hinner, hclosing',
      hfront⟩ := header_of_kinds hkinds
    obtain ⟨e, he⟩ := expression_of_kinds hcondition hinner
    obtain ⟨dangling, s, hs⟩ := ih hfront
    exact ⟨dangling, _,
      .whileLoop (hkeyword'.trans hkeyword) (hopening'.trans hopening) he
        (hclosing'.trans hclosing) hs⟩
  | forLoop hkeyword hopening _ hcondition hsemicolon hincrement hclosing _ ihinitializer ihbody =>
    simp only [List.map_append, List.map_cons, List.map_eq_append_iff,
      List.map_eq_cons_iff] at hkinds
    obtain ⟨_, _, rfl, ⟨_, _, rfl,
      ⟨_, test, rfl, ⟨keyword, _, rfl, hkeyword', opening, start, rfl, hopening', hstart⟩, htest⟩,
      semicolon, step, rfl, hsemicolon', hstep⟩, closing, front, rfl, hclosing', hfront⟩ := hkinds
    obtain ⟨initializer, hinitializer⟩ := ihinitializer hstart
    obtain ⟨condition, hcondition'⟩ := optionalExpression_of_kinds hcondition htest
    obtain ⟨increment, hincrement'⟩ := optionalExpression_of_kinds hincrement hstep
    obtain ⟨dangling, s, hs⟩ := ihbody hfront
    exact ⟨dangling, _,
      .forLoop (hkeyword'.trans hkeyword) (hopening'.trans hopening) hinitializer hcondition'
        (hsemicolon'.trans hsemicolon) hincrement' (hclosing'.trans hclosing) hs⟩
  | breakLoop hkeyword hsemicolon =>
    simp only [List.map_cons, List.map_nil, List.map_eq_cons_iff, List.map_eq_nil_iff] at hkinds
    obtain ⟨keyword, _, rfl, hkeyword', semicolon, _, rfl, hsemicolon', rfl⟩ := hkinds
    exact ⟨false, _, .breakLoop (hkeyword'.trans hkeyword) (hsemicolon'.trans hsemicolon)⟩
  | noInitializer hsemicolon =>
    simp only [List.map_cons, List.map_nil, List.map_eq_cons_iff, List.map_eq_nil_iff] at hkinds
    obtain ⟨semicolon, _, rfl, hsemicolon', rfl⟩ := hkinds
    exact ⟨none, .noInitializer (hsemicolon'.trans hsemicolon)⟩
  | varInitializer _ ih =>
    obtain ⟨s, hs⟩ := ih hkinds
    exact ⟨some s, .varInitializer hs⟩
  | expressionInitializer _ ih =>
    obtain ⟨s, hs⟩ := ih hkinds
    exact ⟨some s, .expressionInitializer hs⟩

end TreeWalk.Grammar
