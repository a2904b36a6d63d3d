import TreeWalk.Proofs.Execution.Frames
import TreeWalk.Proofs.Scope.Site

/-!
This module contains the relation between a scope and the frames of open blocks, and what it says
about the frame in which a name is found.
-/

namespace TreeWalk

open Environment (Grows)

namespace Scope

/--
The frames are those of the blocks in the scope, and each binds exactly the names that the scope
lists for its block.
-/
def Fits : Scope → List Frame → Prop
  | [], [] => True
  | names :: scope, frame :: blocks =>
    (∀ name, name ∈ frame.names ↔ name ∈ names) ∧ Fits scope blocks
  | _, _ => False

variable {scope : Scope} {blocks blocks' : List Frame} {name : String} {value : Value}

theorem Fits.length_eq (h : scope.Fits blocks) : blocks.length = scope.length := by
  fun_induction Fits scope blocks with
  | case1 => rfl
  | case2 names scope frame blocks ih => exact congrArg (· + 1) (ih h.2)
  | case3 => exact h.elim

theorem Fits.of_names_eq (h : scope.Fits blocks)
    (hnames : blocks'.map Frame.names = blocks.map Frame.names) :
    scope.Fits blocks' := by
  fun_induction Fits scope blocks generalizing blocks' with
  | case1 =>
    rw [List.map_nil, List.map_eq_nil_iff] at hnames
    rw [hnames]
    trivial
  | case2 names scope frame blocks ih =>
    obtain ⟨frame', blocks', rfl, hframe, hblocks⟩ := List.map_eq_cons_iff.1 hnames
    refine ⟨?_, ih h.2 hblocks⟩
    rw [hframe]
    exact h.1
  | case3 => exact h.elim

theorem Fits.split (h : scope.Fits blocks) {index : Nat}
    (hresolve : scope.resolve name = some index) :
    ∃ inner frame outer value, blocks = inner ++ frame :: outer ∧ inner.length = index ∧
      (∀ other ∈ inner, other.get? name = none) ∧ frame.get? name = some value := by
  fun_induction Fits scope blocks generalizing index with
  | case1 => cases hresolve
  | case2 names scope frame blocks ih =>
    rw [resolve, List.findIdx?_cons] at hresolve
    -- a frame binds what its block declares, so both searches stop in the same block
    by_cases hname : name ∈ names
    · rw [if_pos (decide_eq_true hname)] at hresolve
      cases hresolve
      obtain ⟨value, hvalue⟩ := Option.isSome_iff_exists.1 (Frame.mem_names.1 ((h.1 name).2 hname))
      exact ⟨[], frame, blocks, value, rfl, rfl, nofun, hvalue⟩
    · rw [if_neg (by simpa using hname)] at hresolve
      obtain ⟨index, hindex, rfl⟩ := Option.map_eq_some_iff.1 hresolve
      obtain ⟨inner, frame', outer, value, rfl, rfl, hinner, hvalue⟩ := ih h.2 hindex
      have hframe : frame.get? name = none := by rwa [← h.1 name, Frame.not_mem_names] at hname
      exact ⟨frame :: inner, frame', outer, value, rfl, rfl,
        List.forall_mem_cons.2 ⟨hframe, hinner⟩, hvalue⟩
  | case3 => exact h.elim

theorem Fits.unbound (h : scope.Fits blocks) (hresolve : scope.resolve name = none) :
    ∀ frame ∈ blocks, frame.get? name = none := by
  fun_induction Fits scope blocks with
  | case1 => exact nofun
  | case2 names scope frame blocks ih =>
    rw [resolve, List.findIdx?_eq_none_iff, List.forall_mem_cons] at hresolve
    obtain ⟨hname, hscope⟩ := hresolve
    have hframe : frame.get? name = none := by
      rw [← Frame.not_mem_names, h.1 name]
      simpa using hname
    have hblocks := ih h.2 (List.findIdx?_eq_none_iff.2 hscope)
    exact List.forall_mem_cons.2 ⟨hframe, hblocks⟩
  | case3 => exact h.elim

theorem Fits.of_names {before after : Environment} (h : scope.Fits before.blocks)
    (hnames : after.names = before.names) : scope.Fits after.blocks :=
  h.of_names_eq (Environment.map_names_blocks hnames)

theorem Fits.of_grows {before after : Environment} {statement : Stmt} (h : scope.Fits before.blocks)
    (hgrows : Grows statement.ownName?.toList before after)
    (hown : ∀ name ∈ statement.ownName?, name ∈ after.names.head after.names_ne_nil) :
    (scope.behind [statement]).Fits after.blocks := by
  obtain ⟨blocks, globals⟩ := before
  obtain ⟨blocks', globals'⟩ := after
  have hlength : blocks'.length = blocks.length := Nat.succ.inj hgrows.depth_eq
  fun_induction Fits scope blocks with
  | case1 =>
    rw [List.eq_nil_of_length_eq_zero hlength]
    trivial
  | case2 names scope frame blocks _ =>
    -- only the innermost frame can have gained a name
    obtain ⟨frame', blocks', rfl⟩ := List.exists_cons_of_length_eq_add_one hlength
    refine ⟨?_, h.2.of_names_eq ?_⟩
    · intro name
      have hmem : name ∈ [statement].filterMap Stmt.ownName? ↔
          name ∈ statement.ownName?.toList := by simp
      rw [List.mem_append, ← h.1 name, hmem]
      constructor
      · exact hgrows.gained name
      · rintro (hname | hname)
        · exact hgrows.kept name hname
        · exact hown name (by simpa using hname)
    · have houter : Environment.names ⟨blocks', globals'⟩ = Environment.names ⟨blocks, globals⟩ :=
        hgrows.outer
      exact Environment.map_names_blocks houter
  | case3 => exact h.elim

theorem Fits.mem_head_names {names : List String} {environment : Environment}
    (h : Fits (names :: scope) environment.blocks) (name : String) :
    name ∈ environment.names.head environment.names_ne_nil ↔ name ∈ names := by
  obtain ⟨blocks, globals⟩ := environment
  cases blocks with
  | nil => exact h.elim
  | cons frame blocks => exact h.1 name

end Scope

namespace Environment

variable {name : String} {value : Value} {inner : List Frame}

theorem findSome?_of_unbound (h : ∀ frame ∈ inner, frame.get? name = none) (outer : List Frame) :
    (inner ++ outer).findSome? (·.get? name) = outer.findSome? (·.get? name) := by
  rw [List.findSome?_append, List.findSome?_eq_none_iff.2 h, Option.none_or]

theorem assignIn?_of_unbound (h : ∀ frame ∈ inner, frame.get? name = none) (value : Value)
    (outer : List Frame) :
    assignIn? name value (inner ++ outer) = (assignIn? name value outer).map (inner ++ ·) := by
  induction inner with
  | nil => simp
  | cons frame inner ih =>
    rw [List.forall_mem_cons] at h
    rw [List.cons_append, assignIn?, h.1]
    simp only [ih h.2, Option.map_map]
    rfl

end Environment
end TreeWalk
