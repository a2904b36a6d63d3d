import TreeWalk.Proofs.Environment.Names

/-!
This module contains the arena of an environment: its frames from the outermost one inward, each
linked by index to the one around it, and the index of the innermost one.
-/

namespace TreeWalk

structure Link where
  frame : Frame
  parent : Option Nat

structure Arena where
  links : List Link
  current : Nat

namespace Arena

def ofGlobals (globals : Frame) : Arena :=
  ⟨[⟨globals, none⟩], 0⟩

def push (frame : Frame) (arena : Arena) : Arena :=
  ⟨arena.links ++ [⟨frame, some arena.current⟩], arena.links.length⟩

def openBlock (arena : Arena) : Arena :=
  arena.push .empty

/--
Drop the current frame and those behind it. A frame without a parent stays.
-/
def closeBlock (arena : Arena) : Arena :=
  match arena.links[arena.current]? with
  | some ⟨_, some parent⟩ => ⟨arena.links.take arena.current, parent⟩
  | _ => arena

def define (arena : Arena) (name : String) (value : Value) : Arena :=
  let insert := fun link : Link => { link with frame := link.frame.insert name value }
  { arena with links := arena.links.modify arena.current insert }

def parents (arena : Arena) : List (Option Nat) :=
  arena.links.map Link.parent

def names (arena : Arena) (index : Nat) : List String :=
  (arena.links[index]?.map (·.frame.names)).getD []

theorem closeBlock_push (frame : Frame) (arena : Arena) :
    (arena.push frame).closeBlock = arena := by
  unfold closeBlock push
  simp only [List.getElem?_concat_length, List.take_left]

theorem define_push (frame : Frame) (arena : Arena) (name : String) (value : Value) :
    (arena.push frame).define name value = arena.push (frame.insert name value) := by
  unfold define push
  simp only [List.modify_eq_take_drop, List.take_left, List.drop_left, List.modifyHead_cons]

theorem length_links_push (frame : Frame) (arena : Arena) :
    (arena.push frame).links.length = arena.links.length + 1 := by
  simp [push]

theorem parents_push (frame : Frame) (arena : Arena) :
    (arena.push frame).parents = arena.parents ++ [some arena.current] := by
  simp [push, parents]

theorem names_push (frame : Frame) (arena : Arena) (index : Nat) :
    (arena.push frame).names index =
      if index = arena.links.length then frame.names else arena.names index := by
  unfold names push
  split
  · next h => rw [h, List.getElem?_concat_length, Option.map_some, Option.getD_some]
  · next h =>
    rw [List.getElem?_append]
    split
    · rfl
    · next hlength =>
      rw [List.getElem?_eq_none (by simp; omega), List.getElem?_eq_none (by omega)]

/--
Both arenas have the same frames and links, which bind the same names, but that the current frame of
the second one may also bind some of the added names.
-/
structure Grows (added : List String) (before after : Arena) : Prop where
  size : after.links.length = before.links.length
  current : after.current = before.current
  parents : after.parents = before.parents
  others :
    ∀ index, index ≠ before.current → ∀ name, name ∈ after.names index ↔ name ∈ before.names index
  kept : ∀ name ∈ before.names before.current, name ∈ after.names before.current
  gained : ∀ name ∈ after.names before.current, name ∈ before.names before.current ∨ name ∈ added

end Arena

namespace Environment

variable {environment before after : Environment} {added : List String}

def arena (environment : Environment) : Arena :=
  environment.blocks.foldr Arena.push (.ofGlobals environment.globals)

theorem arena_block (frame : Frame) (blocks : List Frame) (globals : Frame) :
    arena ⟨frame :: blocks, globals⟩ = (arena ⟨blocks, globals⟩).push frame :=
  rfl

theorem arena_openBlock (environment : Environment) :
    environment.openBlock.arena = environment.arena.openBlock :=
  rfl

theorem arena_closeBlock (environment : Environment) :
    environment.closeBlock.arena = environment.arena.closeBlock := by
  obtain ⟨blocks, globals⟩ := environment
  cases blocks with
  | nil => rfl
  | cons frame blocks =>
    rw [arena_block, Arena.closeBlock_push]
    rfl

theorem arena_define (environment : Environment) (name : String) (value : Value) :
    (environment.define name value).arena = environment.arena.define name value := by
  obtain ⟨blocks, globals⟩ := environment
  cases blocks with
  | nil => rfl
  | cons frame blocks =>
    rw [arena_block, Arena.define_push]
    rfl

theorem length_links_arena (environment : Environment) :
    environment.arena.links.length = environment.depth := by
  obtain ⟨blocks, globals⟩ := environment
  induction blocks with
  | nil => rfl
  | cons frame blocks ih =>
    rw [arena_block, Arena.length_links_push, ih]
    rfl

theorem current_arena (environment : Environment) :
    environment.arena.current = environment.blocks.length := by
  obtain ⟨blocks, globals⟩ := environment
  cases blocks with
  | nil => rfl
  | cons frame blocks => exact length_links_arena ⟨blocks, globals⟩

theorem parents_arena (environment : Environment) :
    environment.arena.parents = none :: (List.range environment.blocks.length).map some := by
  obtain ⟨blocks, globals⟩ := environment
  induction blocks with
  | nil => rfl
  | cons frame blocks ih =>
    rw [arena_block, Arena.parents_push, ih, current_arena]
    simp [List.range_succ]

theorem names_arena (environment : Environment) (index : Nat) :
    environment.arena.names index = environment.names.reverse[index]?.getD [] := by
  obtain ⟨blocks, globals⟩ := environment
  induction blocks with
  | nil => cases index <;> rfl
  | cons frame blocks ih =>
    have hnames : names ⟨frame :: blocks, globals⟩ = frame.names :: names ⟨blocks, globals⟩ := rfl
    rw [arena_block, Arena.names_push, length_links_arena, hnames, List.reverse_cons,
      List.getElem?_append]
    split
    · next h =>
      subst h
      simp
    · next h =>
      rw [ih]
      split
      · rfl
      · next hlength =>
        rw [List.getElem?_eq_none (by omega), List.getElem?_eq_none (by simp at hlength ⊢; omega)]

theorem names_arena_current (environment : Environment) :
    environment.arena.names environment.arena.current =
      environment.names.head environment.names_ne_nil := by
  obtain ⟨blocks, globals⟩ := environment
  cases blocks with
  | nil => rfl
  | cons frame blocks =>
    rw [arena_block, Arena.names_push]
    exact if_pos rfl

theorem names_arena_of_ne (environment : Environment) {index : Nat}
    (h : index ≠ environment.arena.current) :
    environment.arena.names index = environment.names.tail.reverse[index]?.getD [] := by
  obtain ⟨blocks, globals⟩ := environment
  cases blocks with
  | nil =>
    cases index with
    | zero => exact absurd rfl h
    | succ index => rfl
  | cons frame blocks =>
    rw [arena_block, Arena.names_push]
    exact (if_neg h).trans (names_arena ⟨blocks, globals⟩ index)

theorem Grows.arena (h : Grows added before after) :
    Arena.Grows added before.arena after.arena := by
  have hdepth : after.blocks.length = before.blocks.length := Nat.succ.inj h.depth_eq
  have hcurrent : after.arena.current = before.arena.current := by
    rw [current_arena, current_arena, hdepth]
  apply Arena.Grows.mk
  · rw [length_links_arena, length_links_arena, h.depth_eq]
  · exact hcurrent
  · rw [parents_arena, parents_arena, hdepth]
  · intro index hindex name
    rw [names_arena_of_ne before hindex, names_arena_of_ne after (hcurrent ▸ hindex), h.outer]
  · rw [names_arena_current, ← hcurrent, names_arena_current]
    exact h.kept
  · rw [names_arena_current, ← hcurrent, names_arena_current]
    exact h.gained

end Environment
end TreeWalk
