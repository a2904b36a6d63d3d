import TreeWalk.Proofs.Token.Layout

/-!
This module contains what stands at a place of a text: the lexeme that is read there, and what is
left of the text behind it. What is left is scanned as a text of its own is, but for the places.
-/

namespace TreeWalk

namespace ScanItem

def move (place : Position → Position) (item : ScanItem) : ScanItem :=
  { item with token := item.token.move place }

theorem walk_unplaced (inside : Nat) (position position' : Position) (text : List Char) :
    (walk inside position text).map (move fun _ => .start) =
      (walk inside position' text).map (move fun _ => .start) := by
  induction text generalizing inside position position' with
  | nil => cases inside <;> rfl
  | cons c text ih =>
    cases inside with
    | succ inside => exact ih inside _ _
    | zero =>
      rw [walk, walk]
      split
      · exact ih 0 _ _
      · simp only [List.map_cons, List.cons.injEq]
        refine ⟨?_, ih _ _ _⟩
        simp only [ofLexeme]
        split <;> rfl

theorem walk_length (position : Position) (text : List Char) :
    walk text.length position text = [] := by
  rw [walk_eq, List.drop_length, walk]

theorem ofLexeme_fault_length (position : Position) (c : Char) (text : List Char) (wrong : Fault) :
    ofLexeme position c text (.fault text.length wrong) =
      ⟨⟨.invalid, .ofList (c :: text), none, position⟩, some wrong⟩ := by
  simp only [ofLexeme, Lexeme.fault, List.take_length]

end ScanItem

namespace Scanned

theorem map_token_items (scanned : Scanned) (place : Position → Position) :
    (scanned.items.map ScanItem.token).map (Token.move place) =
      (scanned.items.map (ScanItem.move place)).map ScanItem.token := by
  rw [List.map_map, List.map_map]
  rfl

theorem map_fault_errors (scanned : Scanned) (place : Position → Position) :
    scanned.errors.map (fun error => (error.token.move place, error.fault)) =
      (scanned.items.map (ScanItem.move place)).filterMap fun item =>
        item.fault.map (item.token, ·) := by
  rw [errors, List.map_filterMap, List.filterMap_map]
  refine congrArg (List.filterMap · scanned.items) (funext fun item => ?_)
  show Option.map _ (Option.map _ item.fault) = Option.map _ item.fault
  rw [Option.map_map]
  rfl

theorem unplaced_walk (position finish : Position) (text : List Char) :
    let scanned : Scanned := ⟨ScanItem.walk 0 position text, finish⟩
    scanned.tokens.map (Token.move fun _ => .start) =
      (scan (.ofList text)).tokens.map (Token.move fun _ => .start) ∧
    scanned.errors.map (fun error => (error.token.move fun _ => .start, error.fault)) =
      (scan (.ofList text)).errors.map fun error =>
        (error.token.move fun _ => .start, error.fault) := by
  intro scanned
  have hitems : scanned.items.map (ScanItem.move fun _ => .start) =
      (scan (.ofList text)).items.map (ScanItem.move fun _ => .start) := by
    show _ = (ScanItem.walk 0 .start (String.ofList text).toList).map _
    rw [String.toList_ofList, ScanItem.walk_unplaced 0 .start position]
  constructor
  · rw [tokens, tokens, List.map_append, List.map_append, map_token_items, map_token_items, hitems]
    rfl
  · rw [map_fault_errors, map_fault_errors, hitems]

end Scanned

theorem scan_of_read {c : Char} {text : List Char} {more : Nat} {kind : TokenKind}
    {literal : Option Literal} (hc : ¬ Lexeme.isSeparator c)
    (hread : Lexeme.read c text = .token more kind literal) :
    let scanned := scan (.ofList (c :: text))
    let behind := scan (.ofList (text.drop more))
    (∃ tokens, scanned.tokens = ⟨kind, .ofList (c :: text.take more), literal, .start⟩ :: tokens ∧
      tokens.map (Token.move fun _ => .start) = behind.tokens.map (Token.move fun _ => .start)) ∧
    scanned.errors.map (fun error => (error.token.move fun _ => .start, error.fault)) =
      behind.errors.map fun error => (error.token.move fun _ => .start, error.fault) := by
  intro scanned behind
  have hitems : scanned.items = ⟨⟨kind, .ofList (c :: text.take more), literal, .start⟩, none⟩ ::
      ScanItem.walk 0 (Position.start.advance (c :: text.take more)) (text.drop more) := by
    show ScanItem.walk 0 .start (String.ofList (c :: text)).toList = _
    rw [String.toList_ofList, ScanItem.walk_lexeme hc, hread]
    rfl
  obtain ⟨htokens, herrors⟩ :=
    Scanned.unplaced_walk (Position.start.advance (c :: text.take more)) scanned.finish
      (text.drop more)
  constructor
  · refine ⟨_, ?_, htokens⟩
    rw [Scanned.tokens, hitems]
    rfl
  · rw [← herrors, Scanned.errors, hitems]
    rfl

variable {source : String} {before after : List Token} {token : Token} {front rest : List Char}
  {c : Char}

theorem exists_items_of_tokens_scan (htokens : (scan source).tokens = before ++ token :: after)
    (htext : source.toList = front ++ c :: rest) (hplace : token.position = .behind front) :
    let lexeme := Lexeme.read c rest
    let item := ScanItem.ofLexeme (.behind front) c rest lexeme
    let behind := ScanItem.walk lexeme.more (.behind (front ++ [c])) rest
    token = item.token ∧ after = behind.map ScanItem.token ++ [.endOfText (.behind source.toList)] ∧
      ∃ items, (scan source).items = items ++ item :: behind := by
  intro lexeme item behind
  have hending : (scan source).finish = .behind source.toList := Position.advance_start _
  have hprefix : front <+: source.toList := ⟨_, htext.symm⟩
  rw [Scanned.tokens, hending] at htokens
  have hends : token ≠ .endOfText (.behind source.toList) := by
    rintro rfl
    have hfront := Position.eq_of_behind_eq List.prefix_rfl hprefix hplace
    have hlength := congrArg List.length (hfront.symm.trans htext)
    simp at hlength
  obtain ⟨between, rfl, hending⟩ | ⟨between, hitems, hafter⟩ := List.append_eq_append_iff.1 htokens
  · exact absurd
      (List.eq_of_mem_singleton (hending ▸ List.mem_append_right between (.head after))) hends
  cases between with
  | nil => exact absurd (List.head_eq_of_cons_eq hafter) hends
  | cons first between =>
    obtain ⟨rfl, rfl⟩ := List.cons.inj hafter
    obtain ⟨items, found, hscan, rfl, hfound⟩ := List.map_eq_append_iff.1 hitems
    obtain ⟨item', after', rfl, rfl, rfl⟩ := List.map_eq_cons_iff.1 hfound
    obtain ⟨front', c', rest', htext', _, rfl, rfl⟩ := ScanItem.exists_read_of_walk_eq hscan
    obtain ⟨_, hposition, _⟩ := ScanItem.token_ofLexeme (Position.start.advance front') c' rest'
    rw [hposition, Position.advance_start] at hplace
    obtain rfl := Position.eq_of_behind_eq ⟨_, htext'.symm⟩ hprefix hplace
    obtain ⟨rfl, rfl⟩ := List.cons.inj (List.append_cancel_left (htext'.symm.trans htext))
    rw [Position.advance_start, Position.advance_start] at hscan ⊢
    exact ⟨rfl, rfl, items, hscan⟩

theorem eq_of_read_token {more : Nat} {kind : TokenKind} {literal : Option Literal}
    (hread : Lexeme.read c rest = .token more kind literal)
    (htokens : (scan source).tokens = before ++ token :: after)
    (htext : source.toList = front ++ c :: rest) (hplace : token.position = .behind front) :
    token = ⟨kind, .ofList (c :: rest.take more), literal, .behind front⟩ ∧
      after = (ScanItem.walk 0 (.behind (front ++ c :: rest.take more)) (rest.drop more)).map
        ScanItem.token ++ [.endOfText (.behind source.toList)] := by
  obtain ⟨htoken, hafter, _⟩ := exists_items_of_tokens_scan htokens htext hplace
  rw [hread] at htoken hafter
  rw [htoken, hafter, ScanItem.walk_eq, Position.advance_behind, List.append_assoc]
  exact ⟨rfl, rfl⟩

theorem eq_of_read_fault {fault : Fault} (hread : Lexeme.read c rest = .fault rest.length fault)
    (htokens : (scan source).tokens = before ++ token :: after)
    (htext : source.toList = front ++ c :: rest) (hplace : token.position = .behind front) :
    token = ⟨.invalid, .ofList (c :: rest), none, .behind front⟩ ∧
    after = [.endOfText (.behind source.toList)] ∧
      ∃ errors, (scan source).errors = errors ++ [⟨token, fault⟩] := by
  obtain ⟨htoken, hafter, items, hitems⟩ := exists_items_of_tokens_scan htokens htext hplace
  rw [hread, ScanItem.ofLexeme_fault_length] at htoken hitems
  rw [hread] at hafter
  simp only [Lexeme.fault, ScanItem.walk_length, List.map_nil, List.nil_append] at hafter hitems
  refine ⟨htoken, hafter, items.filterMap fun item => item.fault.map (⟨item.token, ·⟩), ?_⟩
  rw [Scanned.errors, hitems, List.filterMap_append, htoken]
  rfl

end TreeWalk
