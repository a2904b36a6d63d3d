import TreeWalk.Proofs.Token.LongestMatch
import TreeWalk.Proofs.Token.Standing

/-!
This module contains the relation between the errors of a text and its invalid tokens: they are the
same, one by one. Only the last error can be a string or a comment that does not end. Behind each
other one the text is scanned as if nothing had been in front of it.
-/

namespace TreeWalk

def Fault.IsUnterminated (fault : Fault) : Prop :=
  "Unterminated ".toList <+: fault.message.toList

theorem Fault.isUnterminated_iff {fault : Fault} :
    fault.IsUnterminated ↔ fault = .unterminatedComment ∨ fault = .unterminatedString := by
  unfold IsUnterminated
  cases fault <;> decide

namespace Position

def Before (position other : Position) : Prop :=
  position.line < other.line ∨ position.line = other.line ∧ position.column < other.column

variable {position other further : Position}

theorem Before.trans (h : position.Before other) (h' : other.Before further) :
    position.Before further := by
  unfold Before at *
  omega

theorem before_after (position : Position) (c : Char) : position.Before (position.after c) := by
  unfold Before after
  split
  · exact .inl (Nat.lt_succ_self _)
  · exact .inr ⟨rfl, Nat.lt_succ_self _⟩

theorem Before.advance (h : position.Before other) (text : List Char) :
    position.Before (other.advance text) := by
  induction text generalizing other with
  | nil => exact h
  | cons c text ih => exact ih (h.trans (before_after other c))

end Position

namespace ScanItem

def error? (item : ScanItem) : Option ScanError :=
  item.fault.map (⟨item.token, ·⟩)

theorem error?_eq_some_iff {item : ScanItem} {error : ScanError} :
    item.error? = some error ↔ item = ⟨error.token, some error.fault⟩ := by
  obtain ⟨token, fault⟩ := item
  obtain ⟨token', fault'⟩ := error
  cases fault <;> simp [error?, and_comm]

theorem kind_ofLexeme_eq_invalid_iff (position : Position) (c : Char) (text : List Char) :
    let item := ofLexeme position c text (Lexeme.read c text)
    item.token.kind = .invalid ↔ item.fault.isSome := by
  intro item
  cases hcontent : (Lexeme.read c text).content with
  | ok content =>
    have hkind := Lexeme.read_kind hcontent
    simp only [List.mem_cons, not_or] at hkind
    simp [item, ofLexeme_of_ok hcontent, hkind.1]
  | error wrong => simp [item, ofLexeme, hcontent]

theorem map_token_errors {items : List ScanItem}
    (h : ∀ item ∈ items, item.token.kind = .invalid ↔ item.fault.isSome) :
    (items.filterMap error?).map ScanError.token =
      (items.map token).filter (·.kind = .invalid) := by
  induction items with
  | nil => rfl
  | cons item items ih =>
    rw [List.forall_mem_cons] at h
    rw [List.map_cons, List.filter_cons, ← ih h.2, List.filterMap_cons]
    cases hfault : item.fault with
    | none => simp [error?, h.1, hfault]
    | some wrong => simp [error?, h.1, hfault]

theorem before_of_mem_walk {inside : Nat} {position : Position} {c : Char} {text : List Char}
    {item : ScanItem} (h : item ∈ walk inside (position.after c) text) :
    position.Before item.token.position := by
  obtain ⟨front, c', rest, _, _, rfl⟩ := exists_read_of_mem_walk h
  obtain ⟨_, hposition, _⟩ := token_ofLexeme ((position.after c).advance front) c' rest
  rw [hposition]
  exact (position.before_after c).advance front

theorem pairwise_walk (inside : Nat) (position : Position) (text : List Char) :
    (walk inside position text).Pairwise fun item item' =>
      item.token.position.Before item'.token.position := by
  induction text generalizing inside position with
  | nil => cases inside <;> exact .nil
  | cons c text ih =>
    cases inside with
    | succ inside => exact ih inside _
    | zero =>
      rw [walk]
      split
      · exact ih 0 _
      · refine .cons (fun item hitem => ?_) (ih _ _)
        rw [(token_ofLexeme position c text).2.1]
        exact before_of_mem_walk hitem

end ScanItem

variable {source : String} {before after : List ScanError} {error : ScanError}

theorem map_token_errors_scan (source : String) :
    (scan source).errors.map ScanError.token = (scan source).tokens.filter (·.kind = .invalid) := by
  have hending : [Token.endOfText (scan source).finish].filter (·.kind = .invalid) = [] := rfl
  rw [Scanned.tokens, List.filter_append, hending, List.append_nil]
  apply ScanItem.map_token_errors
  intro item hitem
  obtain ⟨front, c, rest, _, _, rfl⟩ := exists_read_of_mem_scan hitem
  exact ScanItem.kind_ofLexeme_eq_invalid_iff (.behind front) c rest

theorem isValid_scan_iff :
    (scan source).isValid ↔ ∀ token ∈ (scan source).tokens, token.kind ≠ .invalid := by
  rw [Scanned.isValid, List.isEmpty_iff, ← List.map_eq_nil_iff (f := ScanError.token),
    map_token_errors_scan, List.filter_eq_nil_iff]
  simp only [decide_eq_true_eq, ne_eq]

theorem pairwise_errors_scan (source : String) :
    (scan source).errors.Pairwise fun error error' =>
      error.token.position.Before error'.token.position := by
  apply List.Pairwise.filterMap ScanItem.error? _ (ScanItem.pairwise_walk 0 .start source.toList)
  intro item item' hbefore error herror error' herror'
  rw [ScanItem.error?_eq_some_iff.1 herror, ScanItem.error?_eq_some_iff.1 herror'] at hbefore
  exact hbefore

theorem exists_read_of_errors_scan (h : (scan source).errors = before ++ error :: after) :
    ∃ front c rest tokens, source.toList = front ++ c :: rest ∧
      (Lexeme.read c rest).content = .error error.fault ∧
      ScanItem.ofLexeme (.behind front) c rest (Lexeme.read c rest) =
        ⟨error.token, some error.fault⟩ ∧
      let behind := ScanItem.walk (Lexeme.read c rest).more (.behind (front ++ [c])) rest
      after = behind.filterMap ScanItem.error? ∧
      (scan source).tokens =
        tokens ++ error.token ::
          (behind.map ScanItem.token ++ [.endOfText (.behind source.toList)]) := by
  obtain ⟨items, found, hscan, _, hfound⟩ := List.filterMap_eq_append_iff.1 h
  obtain ⟨clean, item, behind, rfl, _, herror, rfl⟩ := List.filterMap_eq_cons_iff.1 hfound
  rw [← List.append_assoc] at hscan
  obtain ⟨front, c, rest, htext, _, hitem, hbehind⟩ := ScanItem.exists_read_of_walk_eq hscan
  rw [Position.advance_start] at hitem hbehind
  obtain rfl := ScanItem.error?_eq_some_iff.1 herror
  subst hbehind
  refine ⟨front, c, rest, (items ++ clean).map ScanItem.token, htext, ?_, hitem.symm, rfl, ?_⟩
  · rw [← ScanItem.fault_ofLexeme_eq_some_iff, ← hitem]
  · rw [Scanned.tokens, hscan]
    simp [scan, Position.advance_start]

theorem exists_lexeme_of_isUnterminated (h : (scan source).errors = before ++ error :: after)
    (hfault : error.fault.IsUnterminated) :
    after = [] ∧ ∃ front tokens, source.toList = front ++ error.token.lexeme.toList ∧
      error.token.position = .behind front ∧
      (scan source).tokens = tokens ++ [error.token, .endOfText (.behind source.toList)] := by
  obtain ⟨front, c, rest, tokens, htext, hcontent, hitem, hafter, htokens⟩ :=
    exists_read_of_errors_scan h
  obtain ⟨_, hread⟩ | ⟨_, hread⟩ := Lexeme.startsToken_cases c
  · obtain ⟨_, hread⟩ := hread rest error.fault hcontent
    rw [hread, ScanItem.ofLexeme_fault_length] at hitem
    have htoken : _ = error.token := congrArg ScanItem.token hitem
    simp only [hread, Lexeme.fault, ScanItem.walk_length] at hafter htokens
    refine ⟨hafter, front, tokens, ?_, ?_, htokens⟩
    · rw [← htoken, String.toList_ofList, htext]
    · rw [← htoken]
  · rw [hread] at hcontent
    obtain hunexpected : Fault.unexpectedCharacter = error.fault := Except.error.inj hcontent
    rw [← hunexpected, Fault.isUnterminated_iff] at hfault
    simp at hfault

theorem exists_character_of_not_isUnterminated (h : (scan source).errors = before ++ error :: after)
    (hfault : ¬ error.fault.IsUnterminated) :
    ∃ front c rest tokens behind, source.toList = front ++ c :: rest ∧
      error = ⟨⟨.invalid, .singleton c, none, .behind front⟩, .unexpectedCharacter⟩ ∧
      (scan source).tokens = tokens ++ error.token :: behind ∧
      behind.map (Token.move fun _ => .start) =
        (scan (.ofList rest)).tokens.map (Token.move fun _ => .start) ∧
      after.map (fun error => (error.token.move fun _ => .start, error.fault)) =
        (scan (.ofList rest)).errors.map fun error =>
          (error.token.move fun _ => .start, error.fault) := by
  obtain ⟨front, c, rest, tokens, htext, hcontent, hitem, hafter, htokens⟩ :=
    exists_read_of_errors_scan h
  obtain ⟨_, hread⟩ | ⟨hstarts, hread⟩ := Lexeme.startsToken_cases c
  · exact absurd (Fault.isUnterminated_iff.2 (hread rest error.fault hcontent).1) hfault
  · rw [ScanItem.ofLexeme_of_not_startsToken hstarts] at hitem
    have herror := ScanItem.error?_eq_some_iff.2 hitem
    obtain rfl := Option.some.inj herror
    obtain ⟨hunplaced, hunplaced'⟩ :=
      Scanned.unplaced_walk (.behind (front ++ [c])) (.behind source.toList) rest
    rw [hread] at hafter htokens
    rw [hafter]
    exact ⟨front, c, rest, tokens, _, htext, rfl, htokens, hunplaced, hunplaced'⟩

theorem scan_invalid (source : String) :
    Scanner.run (.ofSource source) = some ((scan source).tokens, (scan source).errors) ∧
    (scan source).errors.map ScanError.token = (scan source).tokens.filter (·.kind = .invalid) ∧
    ((scan source).isValid ↔ ∀ token ∈ (scan source).tokens, token.kind ≠ .invalid) ∧
    (scan source).errors.Pairwise
      (fun error error' => error.token.position.Before error'.token.position) ∧
    ∀ before error after, (scan source).errors = before ++ error :: after →
      (error.fault.IsUnterminated →
        after = [] ∧ (∀ earlier ∈ before, ¬ earlier.fault.IsUnterminated) ∧
        ∃ front tokens, source.toList = front ++ error.token.lexeme.toList ∧
          error.token.position = .behind front ∧
          (scan source).tokens = tokens ++ [error.token, .endOfText (.behind source.toList)]) ∧
      (¬ error.fault.IsUnterminated →
        ∃ front c rest tokens behind, source.toList = front ++ c :: rest ∧
        error = ⟨⟨.invalid, .singleton c, none, .behind front⟩, .unexpectedCharacter⟩ ∧
        (scan source).tokens = tokens ++ error.token :: behind ∧
        behind.map (Token.move fun _ => .start) =
          (scan (.ofList rest)).tokens.map (Token.move fun _ => .start) ∧
        after.map (fun error => (error.token.move fun _ => .start, error.fault)) =
          (scan (.ofList rest)).errors.map fun error =>
            (error.token.move fun _ => .start, error.fault)) := by
  refine ⟨Scanner.run_eq (.ofSource source), map_token_errors_scan source, isValid_scan_iff,
    pairwise_errors_scan source, fun before error after h => ⟨fun hfault => ?_, ?_⟩⟩
  case refine_2 => exact exists_character_of_not_isUnterminated h
  obtain ⟨hafter, hlast⟩ := exists_lexeme_of_isUnterminated h hfault
  refine ⟨hafter, ?_, hlast⟩
  intro earlier hmem hearlier
  obtain ⟨before, between, rfl⟩ := List.append_of_mem hmem
  rw [List.append_assoc, List.cons_append] at h
  have hbehind := (exists_lexeme_of_isUnterminated h hearlier).1
  simp at hbehind

example : (scan "#x@\n\"a").errors.map (fun error => (error.token.lexeme, error.fault)) =
    [("#", .unexpectedCharacter), ("@", .unexpectedCharacter), ("\"a", .unterminatedString)] := by
  cbv

end TreeWalk
