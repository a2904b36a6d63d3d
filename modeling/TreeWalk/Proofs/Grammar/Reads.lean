import TreeWalk.Grammar.Program

/-!
This module contains what it means that a reply reads something without a single error, with one
equation for each operation on replies. Later proofs see replies only through these equations.
-/

namespace TreeWalk.Reply

variable {α β : Type} {used n : Nat} {tokens : List Token}

def Reads (reply : Reply α used tokens) (tree : α) (rest : List Token) : Prop :=
  match reply with
  | ok tree' rest' reported _ _ => tree' = tree ∧ rest' = rest ∧ reported = []
  | error _ _ _ _ => False

def Stops (kinds : List TokenKind) (tokens : List Token) : Prop :=
  ∀ token ∈ tokens.head?, token.kind ∉ kinds

@[simp]
theorem stops_nil (kinds : List TokenKind) : Stops kinds [] := by
  simp [Stops]

@[simp]
theorem stops_cons_iff {kinds : List TokenKind} {token : Token} {rest : List Token} :
    Stops kinds (token :: rest) ↔ token.kind ∉ kinds := by
  simp [Stops]

theorem Reads.progress {reply : Reply α used tokens} {tree : α} {rest : List Token}
    (h : reply.Reads tree rest) :
    rest.length + used ≤ tokens.length := by
  cases reply with
  | error => exact absurd h id
  | ok tree' rest' reported suffix progress =>
    obtain ⟨_, rfl, _⟩ := h
    exact progress

@[simp]
theorem reads_done_iff {tree tree' : α} {rest : List Token} :
    (done tree tokens).Reads tree' rest ↔ tree = tree' ∧ tokens = rest := by
  simp [done, Reads]

@[simp]
theorem not_reads_fail {cause : ParseError} {tree : α} {rest : List Token} :
    ¬ (fail cause tokens : Reply α used tokens).Reads tree rest :=
  id

@[simp]
theorem reads_first_iff {tree tree' : α} {token : Token} {rest rest' : List Token} :
    (first tree token rest).Reads tree' rest' ↔ tree = tree' ∧ rest = rest' := by
  simp [first, Reads]

@[simp]
theorem reads_map_iff {f : α → β} {reply : Reply α used tokens} {tree : β} {rest : List Token} :
    (reply.map f).Reads tree rest ↔ ∃ inner, reply.Reads inner rest ∧ f inner = tree := by
  cases reply with
  | error => simp [map, Reads]
  | ok inner =>
    constructor
    · rintro ⟨htree, hrest, hreported⟩
      exact ⟨inner, ⟨rfl, hrest, hreported⟩, htree⟩
    · rintro ⟨_, ⟨rfl, hrest, hreported⟩, htree⟩
      exact ⟨htree, hrest, hreported⟩

@[simp]
theorem reads_weaken_iff {reply : Reply α used tokens} {tree : α} {rest : List Token} :
    reply.weaken.Reads tree rest ↔ reply.Reads tree rest := by
  cases reply <;> exact Iff.rfl

@[simp]
theorem reads_behind_iff {token : Token} {reply : Reply α n tokens} {tree : α} {rest : List Token} :
    (reply.behind token).Reads tree rest ↔ reply.Reads tree rest := by
  cases reply <;> exact Iff.rfl

@[simp]
theorem not_reads_report {cause : ParseError} {reply : Reply α used tokens} {tree : α}
    {rest : List Token} :
    ¬ (reply.report cause).Reads tree rest := by
  cases reply <;> simp [report, Reads]

-- A continuation is handed the progress made so far, but what it reads never depends on it.
theorem reads_andThen_iff_of {reply : Reply α used tokens}
    {next : α → (rest : List Token) → rest.length + used ≤ tokens.length → Reply β n rest}
    {tree : β} {rest : List Token} {Next : α → List Token → Prop}
    (h : ∀ inner middle progress, (next inner middle progress).Reads tree rest ↔
      Next inner middle) :
    (reply.andThen next).Reads tree rest ↔
      ∃ inner middle, reply.Reads inner middle ∧ Next inner middle := by
  cases reply with
  | error => simp [andThen, Reads]
  | ok inner middle reported suffix progress =>
    have hnext := h inner middle progress
    simp only [andThen]
    constructor
    · intro hreads
      refine ⟨inner, middle, ⟨rfl, rfl, ?_⟩, hnext.1 ?_⟩
      all_goals cases hreply : next inner middle progress <;> simp_all [Reads]
    · rintro ⟨_, _, ⟨rfl, rfl, rfl⟩, hreads⟩
      have hreads := hnext.2 hreads
      cases hreply : next inner middle progress <;> simp_all [Reads]

@[simp]
theorem reads_andThen_iff {reply : Reply α used tokens}
    {next : α → (rest : List Token) → Reply β n rest} {tree : β} {rest : List Token} :
    (reply.andThen fun inner middle _ => next inner middle).Reads tree rest ↔
      ∃ inner middle, reply.Reads inner middle ∧ (next inner middle).Reads tree rest :=
  reads_andThen_iff_of fun _ _ _ => Iff.rfl

@[simp]
theorem reads_expect_iff {ending : Found} {kind : TokenKind} {token : Token} {rest : List Token} :
    (expect ending kind tokens).Reads token rest ↔ tokens = token :: rest ∧ token.kind = kind := by
  cases tokens with
  | nil => simp [expect]
  | cons front behind =>
    by_cases hfront : front.kind = kind
    · simp only [expect, if_pos hfront, reads_first_iff, List.cons.injEq]
      constructor
      · rintro ⟨rfl, rfl⟩
        exact ⟨⟨rfl, rfl⟩, hfront⟩
      · exact And.left
    · simp only [expect, if_neg hfront, not_reads_fail, List.cons.injEq, false_iff]
      rintro ⟨⟨rfl, rfl⟩, hkind⟩
      exact hfront hkind

theorem reads_accept_some_iff {kind : TokenKind} {token : Token} {rest : List Token} :
    (accept kind tokens).Reads (some token) rest ↔ tokens = token :: rest ∧ token.kind = kind := by
  cases tokens with
  | nil => simp [accept]
  | cons front behind =>
    by_cases hfront : front.kind = kind
    · simp only [accept, if_pos hfront, reads_weaken_iff, reads_first_iff, Option.some.injEq,
        List.cons.injEq]
      constructor
      · rintro ⟨rfl, rfl⟩
        exact ⟨⟨rfl, rfl⟩, hfront⟩
      · exact And.left
    · simp only [accept, if_neg hfront, reads_done_iff, List.cons.injEq, reduceCtorEq, false_and,
        false_iff]
      rintro ⟨⟨rfl, rfl⟩, hkind⟩
      exact hfront hkind

theorem reads_accept_none_iff {kind : TokenKind} {rest : List Token} :
    (accept kind tokens).Reads none rest ↔ tokens = rest ∧ Stops [kind] tokens := by
  cases tokens with
  | nil => simp [accept]
  | cons front behind => by_cases hfront : front.kind = kind <;> simp [accept, hfront]

theorem reads_closed_iff {reply : Reply α used tokens} {f : α → β} {ending : Found}
    {kind : TokenKind} {tree : β} {rest : List Token} :
    (reply.andThen fun inner middle _ => (expect ending kind middle).map fun _ => f inner).Reads
        tree rest ↔
      ∃ inner closing, reply.Reads inner (closing :: rest) ∧ closing.kind = kind ∧
        f inner = tree := by
  simp only [reads_andThen_iff, reads_map_iff, reads_expect_iff]
  constructor
  · rintro ⟨inner, middle, hinner, closing, ⟨rfl, hclosing⟩, htree⟩
    exact ⟨inner, closing, hinner, hclosing, htree⟩
  · rintro ⟨inner, closing, hinner, hclosing, htree⟩
    exact ⟨inner, closing :: rest, hinner, closing, ⟨rfl, hclosing⟩, htree⟩

end TreeWalk.Reply
