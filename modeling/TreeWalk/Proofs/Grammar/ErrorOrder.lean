import Mathlib.Data.List.Count
import TreeWalk.Proofs.Grammar.Blame

/-!
This module contains the proof that syntax errors come in the order of the tokens and without
echoes: no token is blamed twice but a word that ends a statement and does not begin the next one.
-/

namespace TreeWalk

namespace TokenKind

/--
How often a token of this kind can be blamed. The reserved words among the places to go on at begin
no statement, so one of them that was blamed for what stands in front of it is blamed again as the
beginning of a statement.
-/
def mostBlames : TokenKind → Nat
  | classWord | funWord | returnWord => 2
  | _ => 1

def mostBlamesAhead (kind : TokenKind) : Nat :=
  if kind.startsStatement then kind.mostBlames - 1 else kind.mostBlames

theorem mostBlamesAhead_le (kind : TokenKind) : kind.mostBlamesAhead ≤ kind.mostBlames := by
  unfold mostBlamesAhead
  split
  · exact Nat.sub_le _ 1
  · exact Nat.le_refl _

theorem mostBlames_eq (kind : TokenKind) :
    kind.mostBlames = if kind ∈ [classWord, funWord, returnWord] then 2 else 1 := by
  cases kind <;> rfl

theorem mostBlames_pos (kind : TokenKind) : 0 < kind.mostBlames := by
  cases kind <;> decide

theorem mostBlamesAhead_add_one {kind : TokenKind} (h : kind.startsStatement) :
    kind.mostBlamesAhead + 1 = kind.mostBlames := by
  rw [mostBlamesAhead, if_pos h]
  exact Nat.sub_add_cancel kind.mostBlames_pos

def opening : List TokenKind :=
  [varWord, printWord, ifWord, whileWord, forWord]

theorem mostBlamesAhead_pos {kind : TokenKind} (h : kind ∉ opening) : 0 < kind.mostBlamesAhead := by
  revert h
  cases kind <;> decide

end TokenKind

def echoes (tokens : List Token) : List Token :=
  tokens.flatMap fun token => List.replicate token.kind.mostBlames token

theorem echoes_cons (token : Token) (tokens : List Token) :
    echoes (token :: tokens) = List.replicate token.kind.mostBlames token ++ echoes tokens :=
  rfl

theorem echoes_append (tokens tokens' : List Token) :
    echoes (tokens ++ tokens') = echoes tokens ++ echoes tokens' :=
  List.flatMap_append

theorem cons_sublist_replicate_append {token : Token} {count : Nat} {tokens tokens' : List Token}
    (hcount : 0 < count) (h : tokens.Sublist tokens') :
    (token :: tokens).Sublist (List.replicate count token ++ tokens') := by
  have htoken : [token].Sublist (List.replicate count token) :=
    List.replicate_sublist_replicate token |>.2 hcount
  exact htoken.append h

theorem sublist_echoes (tokens : List Token) : tokens.Sublist (echoes tokens) := by
  induction tokens with
  | nil => exact List.nil_sublist _
  | cons token tokens ih =>
    rw [echoes_cons]
    exact cons_sublist_replicate_append token.kind.mostBlames_pos ih

theorem echoes_sublist_of_suffix {tokens tokens' : List Token} (h : tokens <:+ tokens') :
    (echoes tokens).Sublist (echoes tokens') := by
  obtain ⟨front, rfl⟩ := h
  rw [echoes_append]
  exact List.sublist_append_right _ _

def echoesAhead : List Token → List Token
  | [] => []
  | token :: tokens => List.replicate token.kind.mostBlamesAhead token ++ echoes tokens

theorem echoesAhead_sublist (tokens : List Token) :
    (echoesAhead tokens).Sublist (echoes tokens) := by
  cases tokens with
  | nil => exact List.nil_sublist _
  | cons token tokens =>
    exact (List.replicate_sublist_replicate token |>.2 token.kind.mostBlamesAhead_le).append_right _

namespace Grammar

variable {ending : Found} {token : Token} {rest left : List Token} {reported : List ParseError}
  {suffix : left <:+ token :: rest}

theorem exists_behind_of_opening (h : token.kind ∈ TokenKind.opening) :
    ∃ (used : Nat) (reply : Reply Stmt used rest), declaration ending (token :: rest) =
      reply.behind token := by
  rw [declaration]
  split
  · exact ⟨_, _, rfl⟩
  · next hvar =>
    rw [statement]
    obtain hkind | hkind | hkind | hkind : token.kind = .printWord ∨ token.kind = .ifWord ∨
        token.kind = .whileWord ∨ token.kind = .forWord := by
      simpa [TokenKind.opening, hvar] using h
    all_goals
      simp only [hkind]
      exact ⟨_, _, rfl⟩

theorem not_opening_of_error {cause : ParseError} {reported : List ParseError}
    {suffix : token :: rest <:+ token :: rest}
    (h : declaration ending (token :: rest) = .error cause (token :: rest) reported suffix) :
    token.kind ∉ TokenKind.opening := by
  intro hopening
  obtain ⟨used, reply, hreply⟩ : ∃ (used : Nat) (reply : Reply Stmt used rest),
      declaration ending (token :: rest) = reply.behind token :=
    exists_behind_of_opening hopening
  rw [hreply] at h
  cases reply with
  | ok => cases h
  | error cause' left reported' suffix' =>
    cases h
    exact absurd suffix'.length_le (Nat.not_succ_le_self _)

def blamed (ending : Found) (tokens : List Token) : List Token :=
  (program ending tokens).errors.map ParseError.token

theorem blamed_of_ok {statement : Stmt} {progress : left.length + 1 ≤ (token :: rest).length}
    (h : declaration ending (token :: rest) = .ok statement left reported suffix progress) :
    blamed ending (token :: rest) = reported.map ParseError.token ++ blamed ending left := by
  rw [blamed, program_of_ok h, Parsed.append_def, List.map_append]
  rfl

theorem blamed_of_error {cause : ParseError}
    (h : declaration ending (token :: rest) = .error cause left reported suffix) :
    blamed ending (token :: rest) =
      reported.map ParseError.token ++ cause.token :: blamed ending (recover rest left) := by
  rw [blamed, program_of_error h, Parsed.append_def, List.map_append, List.map_append,
    List.append_assoc]
  rfl

theorem map_token_invalidTarget (equals : List Token) :
    (equals.map ParseError.invalidTarget).map ParseError.token = equals := by
  rw [List.map_map]
  exact List.map_id equals

theorem sublist_echoes_of_suffix {next : List Token}
    (h : (blamed ending next).Sublist (echoesAhead next ++ [ending.blamed]))
    (hnext : next <:+ rest) :
    (blamed ending next).Sublist (echoes rest ++ [ending.blamed]) := by
  have hrest := (echoesAhead_sublist next).trans (echoes_sublist_of_suffix hnext)
  exact h.trans (hrest.append_right _)

theorem sublist_echoes_of_resume
    (h : (blamed ending (resume left)).Sublist (echoesAhead (resume left) ++ [ending.blamed])) :
    ((Reply.found ending left).blamed :: blamed ending (resume left)).Sublist
      (echoes left ++ [ending.blamed]) := by
  cases left with
  | nil =>
    rw [resume, blamed, program_nil]
    exact List.Sublist.refl _
  | cons token rest =>
    show (token :: _).Sublist _
    rw [echoes_cons, List.append_assoc]
    by_cases hstart : token.kind ≠ .semicolon ∧ token.kind.startsStatement = true
    · obtain ⟨hsemicolon, hstart⟩ := hstart
      have hresume : resume (token :: rest) = token :: rest := by
        rw [resume, if_neg hsemicolon, if_pos hstart]
      rw [hresume] at h ⊢
      rw [← TokenKind.mostBlamesAhead_add_one hstart, List.replicate_succ,
        List.cons_append, ← List.append_assoc]
      exact h.cons_cons token
    · have hresume : resume (token :: rest) <:+ rest := by
        rw [resume]
        split
        · exact List.suffix_refl rest
        · next hsemicolon =>
          rw [if_neg fun hkind => hstart ⟨hsemicolon, hkind⟩]
          exact resume_suffix rest
      exact cons_sublist_replicate_append token.kind.mostBlames_pos
        (sublist_echoes_of_suffix h hresume)

theorem blamed_sublist (ending : Found) (tokens : List Token) :
    (blamed ending tokens).Sublist (echoesAhead tokens ++ [ending.blamed]) := by
  induction tokens using program.induct ending with
  | case1 =>
    rw [blamed, program_nil]
    exact List.nil_sublist _
  | case2 token rest statement left reported suffix progress hreply ih =>
    obtain ⟨taken, equals, rfl, hequals, rfl⟩ := exists_taken_of_ok hreply
    have hleft := sublist_echoes_of_suffix ih (List.suffix_refl left)
    rw [blamed_of_ok hreply, map_token_invalidTarget, echoesAhead, echoes_append, List.append_assoc,
      List.append_assoc]
    have hall := (hequals.trans (sublist_echoes taken)).append hleft
    exact hall.trans (List.sublist_append_right _ _)
  | case3 token rest cause left reported suffix hreply ih =>
    obtain ⟨hfound, ⟨rfl, rfl⟩ | ⟨taken, equals, rfl, hequals, rfl⟩⟩ := exists_taken_of_error hreply
    -- nothing was taken, so the statement failed at its first token, which is passed
    · have hnext := recover_cons_suffix token rest
      have hpos := TokenKind.mostBlamesAhead_pos (not_opening_of_error hreply)
      rw [blamed_of_error hreply, ParseError.token_of_found? hfound, echoesAhead, List.append_assoc]
      exact cons_sublist_replicate_append hpos (sublist_echoes_of_suffix ih hnext)
    · rw [recover_append] at ih
      rw [blamed_of_error hreply, map_token_invalidTarget, recover_append,
        ParseError.token_of_found? hfound, echoesAhead, echoes_append, List.append_assoc,
        List.append_assoc]
      have hall := (hequals.trans (sublist_echoes taken)).append (sublist_echoes_of_resume ih)
      exact hall.trans (List.sublist_append_right _ _)

end Grammar

/--
Each of the blamed tokens stands at its place among the tokens. The places never go back, there is
no comment at any of them, and none is there more often than the token at it can be blamed.
-/
structure Placed (tokens blamed : List Token) (places : List Nat) : Prop where
  found : places.map (tokens[·]?) = blamed.map some
  ordered : places.Pairwise (· ≤ ·)
  visible : ∀ place ∈ places, ∀ token ∈ tokens[place]?, token.isComment = false
  bounded : ∀ place, places.count place ≤ (tokens[place]?.map (·.kind.mostBlames)).getD 0

namespace Placed

variable {token : Token} {tokens blamed : List Token} {places : List Nat}

theorem nil : Placed [] [] [] where
  found := rfl
  ordered := .nil
  visible := nofun
  bounded := fun _ => Nat.zero_le _

theorem cons {count : Nat} (hcount : count ≤ token.kind.mostBlames)
    (hvisible : 0 < count → token.isComment = false) (h : Placed tokens blamed places) :
    Placed (token :: tokens) (List.replicate count token ++ blamed)
      (List.replicate count 0 ++ places.map (· + 1)) where
  found := by
    have hfound := h.found
    simp only [List.map_append, List.map_replicate, List.map_map]
    rw [← hfound]
    rfl
  ordered := by
    rw [List.pairwise_append, List.pairwise_map]
    refine ⟨List.pairwise_replicate.2 (.inr (Nat.le_refl 0)), ?_, ?_⟩
    · exact h.ordered.imp fun hle => Nat.succ_le_succ hle
    · intro place hplace place' _
      rw [(List.mem_replicate.1 hplace).2]
      exact Nat.zero_le _
  visible := by
    intro place hplace
    obtain hplace | hplace := List.mem_append.1 hplace
    · obtain ⟨hne, rfl⟩ := List.mem_replicate.1 hplace
      rintro _ ⟨⟩
      exact hvisible (Nat.pos_of_ne_zero hne)
    · obtain ⟨before, hmem, rfl⟩ := List.mem_map.1 hplace
      exact h.visible before hmem
  bounded := by
    intro place
    rw [List.count_append, List.count_replicate]
    cases place with
    | zero =>
      have hzero : (places.map (· + 1)).count 0 = 0 := List.count_eq_zero.2 (by simp)
      simpa [hzero] using hcount
    | succ place =>
      have hinjective : Function.Injective fun place : Nat => place + 1 := fun _ _ => Nat.succ.inj
      have hsucc := List.count_map_of_injective places (· + 1) hinjective place
      simpa [hsucc] using h.bounded place

theorem lt_length (h : Placed tokens blamed places) {place : Nat} (hplace : place ∈ places) :
    place < tokens.length := by
  have hmem : tokens[place]? ∈ places.map (tokens[·]?) := List.mem_map_of_mem hplace
  rw [h.found] at hmem
  obtain ⟨token, _, htoken⟩ := List.mem_map.1 hmem
  exact (List.getElem?_eq_some_iff.1 htoken.symm).1

theorem append (h : Placed tokens blamed places) (behind : List Token) :
    Placed (tokens ++ behind) blamed places where
  found := by
    rw [← h.found]
    apply List.map_congr_left
    intro place hplace
    exact List.getElem?_append_left (h.lt_length hplace)
  ordered := h.ordered
  visible := by
    intro place hplace
    rw [List.getElem?_append_left (h.lt_length hplace)]
    exact h.visible place hplace
  bounded := by
    intro place
    by_cases hplace : place ∈ places
    · rw [List.getElem?_append_left (h.lt_length hplace)]
      exact h.bounded place
    · rw [List.count_eq_zero.2 hplace]
      exact Nat.zero_le _

end Placed

theorem exists_placed {tokens blamed : List Token}
    (h : blamed.Sublist (echoes (tokens.filter (! ·.isComment)))) :
    ∃ places, Placed tokens blamed places := by
  induction tokens generalizing blamed with
  | nil =>
    cases h
    exact ⟨[], .nil⟩
  | cons token tokens ih =>
    by_cases hcomment : token.isComment
    · rw [List.filter_cons_of_neg (by simp [hcomment])] at h
      obtain ⟨places, hplaces⟩ := ih h
      exact ⟨_, hplaces.cons (Nat.zero_le _) (absurd · (Nat.lt_irrefl 0))⟩
    · rw [List.filter_cons_of_pos (by simp [hcomment]), echoes_cons, List.sublist_append_iff] at h
      obtain ⟨first, others, rfl, hfirst, hothers⟩ := h
      obtain ⟨count, hcount, rfl⟩ := List.sublist_replicate_iff.1 hfirst
      obtain ⟨places, hplaces⟩ := ih hothers
      exact ⟨_, hplaces.cons hcount fun _ => by simpa using hcomment⟩

theorem errors_sublist {front : List Token} {marker : Token}
    (hfront : ∀ token ∈ front, token.kind ≠ .eof) (hmarker : marker.kind = .eof)
    (behind : List Token) :
    ((parse (front ++ marker :: behind)).errors.map ParseError.token).Sublist
      (echoes ((front ++ [marker]).filter (! ·.isComment))) := by
  have hvisible : marker.isComment = false := by simp [Token.isComment, hmarker]
  have hmost : echoes [marker] = [marker] := by simp [echoes, TokenKind.mostBlames, hmarker]
  have hparse : (parse (front ++ marker :: behind)).errors.map ParseError.token =
      Grammar.blamed (.token marker) (front.filter (! ·.isComment)) := by
    rw [parse, Sentence.ofTokens_append_marker hfront hmarker]
    rfl
  rw [hparse, List.filter_append, echoes_append, List.filter_cons_of_pos (by simp [hvisible]),
    List.filter_nil, hmost]
  exact (Grammar.blamed_sublist _ _).trans ((echoesAhead_sublist _).append_right [marker])

theorem parse_errors_ordered {tokens : List Token} (h : ∃ marker ∈ tokens, marker.kind = .eof) :
    ∃ places : List Nat,
      places.map (tokens[·]?) = (parse tokens).errors.map (fun error => some error.token) ∧
      places.Pairwise (· ≤ ·) ∧
      (∀ place ∈ places, (∀ token ∈ tokens.take place, token.kind ≠ .eof) ∧
        ∀ token ∈ tokens[place]?, token.kind ≠ .comment) ∧
      ∀ place token, tokens[place]? = some token →
        places.count place ≤ if token.kind ∈ [.classWord, .funWord, .returnWord] then 2 else 1 := by
  have hfind : (tokens.find? (·.kind = .eof)).isSome = true := by simpa using h
  obtain ⟨marker, hfind⟩ := Option.isSome_iff_exists.1 hfind
  obtain ⟨hmarker, front, behind, rfl, hfront⟩ := List.find?_eq_some_iff_append.1 hfind
  have hmarker : marker.kind = .eof := by simpa using hmarker
  have hfront : ∀ token ∈ front, token.kind ≠ .eof := by simpa using hfront
  obtain ⟨places, hfirst⟩ := exists_placed (errors_sublist hfront hmarker behind)
  have hsplit : (front ++ [marker]) ++ behind = front ++ marker :: behind :=
    List.append_cons .. |>.symm
  have hplaced := hsplit ▸ hfirst.append behind
  refine ⟨places, ?_, hplaced.ordered, ?_, ?_⟩
  · rw [hplaced.found, List.map_map]
    rfl
  · intro place hplace
    have hlength : place ≤ front.length := by simpa [Nat.lt_succ_iff] using hfirst.lt_length hplace
    constructor
    · intro token htoken
      rw [List.take_append_of_le_length hlength] at htoken
      exact hfront token (List.mem_of_mem_take htoken)
    · intro token htoken
      simpa [Token.isComment] using hplaced.visible place hplace token htoken
  · intro place token htoken
    have hcount := hplaced.bounded place
    rw [htoken] at hcount
    rw [← TokenKind.mostBlames_eq]
    exact hcount

theorem parse_errors_ordered_of_reserved_word :
    let word : Token := ⟨.classWord, "class", none, .start⟩
    let minus : Token := ⟨.minus, "-", none, .start⟩
    let semicolon : Token := ⟨.semicolon, ";", none, .start⟩
    let tokens : List Token :=
      [minus, ⟨.comment, "//", none, .start⟩, word, semicolon, .endOfText .start, semicolon]
    (∃ marker ∈ tokens, marker.kind = .eof) ∧
      (parse tokens).errors.map ParseError.token = [word, word, semicolon] ∧
      ∃ places : List Nat, places.map (tokens[·]?) = [some word, some word, some semicolon] ∧
        places.count 2 ≤ 2 := by
  intro word minus semicolon tokens
  have hmarker : ∃ marker ∈ tokens, marker.kind = .eof := ⟨.endOfText .start, by decide, rfl⟩
  have herrors : (parse tokens).errors.map ParseError.token = [word, word, semicolon] := by cbv
  obtain ⟨places, hfound, _, _, hcount⟩ := parse_errors_ordered hmarker
  have hblamed : (parse tokens).errors.map (fun error => some error.token) =
      [some word, some word, some semicolon] := by
    cbv
  rw [hblamed] at hfound
  exact ⟨hmarker, herrors, places, hfound, hcount 2 word rfl⟩

end TreeWalk
