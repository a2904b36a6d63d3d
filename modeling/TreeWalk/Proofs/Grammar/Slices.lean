import TreeWalk.Proofs.Grammar.Containment
import TreeWalk.Proofs.Grammar.Locality
import Mathlib.Data.List.Basic

/-!
This module contains the parts of a list of tokens that its statements are read from. Whatever
stands around such a part, also an error, has no influence on its statement.
-/

namespace TreeWalk

open Grammar

/--
The slices stand in the tokens one behind the other, and no token is in two of them. Those that are
in none are skipped.
-/
inductive Slices : (slices : List (List Token)) → (skipped tokens : List Token) → Prop
  | nil : Slices [] [] []
  | skip {slices : List (List Token)} {skipped tokens : List Token} (token : Token)
    (h : Slices slices skipped tokens) :
    Slices slices (token :: skipped) (token :: tokens)
  | slice {slices : List (List Token)} {skipped tokens : List Token} (slice : List Token)
    (h : Slices slices skipped tokens) : Slices (slice :: slices) skipped (slice ++ tokens)

namespace Slices

variable {slices : List (List Token)} {skipped tokens : List Token}

theorem skip_append (front : List Token) (h : Slices slices skipped tokens) :
    Slices slices (front ++ skipped) (front ++ tokens) := by
  induction front with
  | nil => exact h
  | cons token front ih => exact ih.skip token

theorem subset_of_mem {slice : List Token} (h : Slices slices skipped tokens)
    (hslice : slice ∈ slices) :
    slice ⊆ tokens := by
  induction h with
  | nil => cases hslice
  | skip token _ ih => exact List.subset_cons_of_subset token (ih hslice)
  | slice front _ ih =>
    cases hslice with
    | head => exact List.subset_append_left _ _
    | tail _ hslice => exact List.subset_append_of_subset_right front (ih hslice)

theorem exists_of_filter {seen : Token → Bool} (h : Slices slices skipped (tokens.filter seen)) :
    ∃ slices' skipped', Slices slices' skipped' tokens ∧ slices'.map (List.filter seen) = slices ∧
      skipped'.filter seen = skipped := by
  generalize hfilter : tokens.filter seen = filtered at h
  induction h generalizing tokens with
  | nil => exact ⟨[], tokens, by simpa using Slices.nil.skip_append tokens, rfl, hfilter⟩
  | skip token _ ih =>
    obtain ⟨front, rest, rfl, hfront, htoken, rfl⟩ := List.filter_eq_cons_iff.1 hfilter
    obtain ⟨slices, skipped, hslices, rfl, rfl⟩ := ih rfl
    refine ⟨slices, front ++ token :: skipped, (hslices.skip token).skip_append front, rfl, ?_⟩
    rw [List.filter_append, List.filter_cons_of_pos htoken, List.filter_eq_nil_iff.2 hfront]
    rfl
  | slice slice _ ih =>
    obtain ⟨front, rest, rfl, rfl, rfl⟩ := List.filter_eq_append_iff.1 hfilter
    obtain ⟨slices, skipped, hslices, rfl, rfl⟩ := ih rfl
    exact ⟨front :: slices, skipped, hslices.slice front, rfl, rfl⟩

end Slices

/--
Read alone, each slice gives one statement and no errors but invalid targets. Together these are the
statements that are read from the tokens, and some of the errors; if there are none, no token is
skipped.
-/
structure Grammar.Sliced (ending : Found) (slices : List (List Token))
    (skipped tokens : List Token) : Prop where
  arranged : Slices slices skipped tokens
  alone : ∀ slice ∈ slices, ∀ ending', program ending' slice = program ending slice
  targets : ∀ slice ∈ slices, InvalidTargets slice (program ending slice).errors
  statements :
    slices.map (fun slice => (program ending slice).statements) =
      (program ending tokens).statements.map ([·])
  errors :
    (slices.flatMap fun slice => (program ending slice).errors).Sublist
      (program ending tokens).errors
  complete : (program ending tokens).errors = [] → skipped = []

namespace Grammar

variable {ending : Found}

theorem recover_suffix {token : Token} {rest left : List Token} (suffix : left <:+ token :: rest) :
    recover rest left <:+ token :: rest := by
  simp only [recover]
  split
  · exact (resume_suffix left).trans suffix
  · exact List.suffix_cons token rest

theorem exists_slice {token : Token} {rest left : List Token} {statement : Stmt}
    {reported : List ParseError} {suffix : left <:+ token :: rest}
    {progress : left.length + 1 ≤ (token :: rest).length}
    (h : declaration ending (token :: rest) = .ok statement left reported suffix progress) :
    ∃ slice, slice ++ left = token :: rest ∧ InvalidTargets slice reported ∧
      ∀ ending', program ending' slice = ⟨[statement], reported⟩ := by
  obtain ⟨slice, hslice⟩ := suffix
  have hwithin (ending' : Found) := (within_statement ending ending' left).1 _ slice hslice.symm
  simp only [h] at hwithin
  refine ⟨slice, hslice, (hwithin ending [] rfl (Nat.le_refl _)).1, ?_⟩
  intro ending'
  obtain ⟨_, hsuffix, hprogress, hreply⟩ := hwithin ending' [] rfl (Nat.le_refl _)
  cases slice with
  | nil => exact absurd hprogress (Nat.not_succ_le_zero _)
  | cons token slice => rw [program_of_ok hreply, program_nil, Parsed.append_empty]

theorem exists_sliced (ending : Found) (tokens : List Token) :
    ∃ slices skipped, Sliced ending slices skipped tokens := by
  induction tokens using program.induct ending with
  | case1 =>
    refine ⟨[], [], .nil, List.forall_mem_nil _, List.forall_mem_nil _, ?_, ?_, fun _ => rfl⟩
    · rw [program_nil]
      rfl
    · exact List.nil_sublist _
  | case2 token rest statement left reported suffix progress hreply ih =>
    obtain ⟨slices, skipped, h⟩ := ih
    obtain ⟨slice, hslice, htargets, hprogram⟩ := exists_slice hreply
    have hwhole := program_of_ok hreply
    rw [Parsed.append_def] at hwhole
    refine ⟨slice :: slices, skipped, hslice ▸ h.arranged.slice slice, ?_, ?_, ?_, ?_, ?_⟩
    · refine List.forall_mem_cons.2 ⟨?_, h.alone⟩
      intro ending'
      rw [hprogram, hprogram]
    · refine List.forall_mem_cons.2 ⟨?_, h.targets⟩
      rw [hprogram]
      exact htargets
    · rw [List.map_cons, h.statements, hwhole, hprogram]
      rfl
    · rw [List.flatMap_cons, hwhole, hprogram]
      exact h.errors.append_left reported
    · intro herrors
      rw [hwhole] at herrors
      exact h.complete (List.append_eq_nil_iff.1 herrors).2
  | case3 token rest cause left reported suffix hreply ih =>
    obtain ⟨slices, skipped, h⟩ := ih
    obtain ⟨front, hfront⟩ := recover_suffix suffix
    have hwhole := program_of_error hreply
    rw [Parsed.append_def, List.nil_append] at hwhole
    refine ⟨slices, front ++ skipped, hfront ▸ h.arranged.skip_append front, h.alone, h.targets,
      ?_, ?_, ?_⟩
    · rw [h.statements, hwhole]
    · rw [hwhole]
      exact h.errors.trans (List.sublist_append_right _ _)
    · intro herrors
      simp [hwhole] at herrors

end Grammar

theorem parse_slices (tokens : List Token) :
    ∃ slices skipped, Slices slices skipped (tokens.takeWhile (·.kind ≠ .eof)) ∧
      slices.map (fun slice => (parse slice).statements) = (parse tokens).statements.map ([·]) ∧
      (∀ slice ∈ slices, InvalidTargets slice (parse slice).errors) ∧
      (slices.flatMap fun slice => (parse slice).errors).Sublist (parse tokens).errors ∧
      ((parse tokens).errors = [] → ∀ token ∈ skipped, token.kind = .comment) := by
  obtain ⟨visible, unseen, h⟩ :=
    exists_sliced (Sentence.ofTokens tokens).ending (Sentence.ofTokens tokens).tokens
  obtain ⟨slices, skipped, hslices, rfl, rfl⟩ := h.arranged.exists_of_filter
  have hparse : ∀ slice ∈ slices,
      parse slice = program (Sentence.ofTokens tokens).ending (slice.filter (! ·.isComment)) := by
    intro slice hslice
    have hmarker : ∀ token ∈ slice, token.kind ≠ .eof := by
      intro token htoken
      simpa using List.mem_takeWhile_imp (hslices.subset_of_mem hslice htoken)
    rw [parse_eq, Sentence.tokens_of_ne_eof hmarker]
    exact h.alone _ (List.mem_map_of_mem hslice) _
  refine ⟨slices, skipped, hslices, ?_, ?_, ?_, ?_⟩
  · have hstatements := h.statements
    rw [List.map_map] at hstatements
    rw [parse_eq tokens, ← hstatements]
    apply List.map_congr_left
    intro slice hslice
    rw [hparse slice hslice]
    rfl
  · intro slice hslice
    rw [hparse slice hslice]
    exact (h.targets _ (List.mem_map_of_mem hslice)).mono (List.filter_subset_self slice)
  · have herrors := h.errors
    rw [List.flatMap_map] at herrors
    have hsame : (slices.flatMap fun slice => (parse slice).errors) =
        slices.flatMap fun slice => (program _ (slice.filter (! ·.isComment))).errors :=
      List.flatMap_congr fun slice hslice => congrArg Parsed.errors (hparse slice hslice)
    rw [hsame]
    exact herrors
  · intro herrors token htoken
    have hcomment := List.filter_eq_nil_iff.1 (h.complete herrors) token htoken
    simpa [Token.isComment] using hcomment

end TreeWalk
