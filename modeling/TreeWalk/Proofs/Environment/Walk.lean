import TreeWalk.Evaluation
import TreeWalk.Proofs.Environment.Arena

/-!
This module contains the walk along the links of an arena, from the current frame outward, by which
a name is read or assigned to. In the arena of an environment it ends, and it finds what the
environment finds.
-/

namespace TreeWalk

def Frame.replace? (name : String) (value : Value) (frame : Frame) : Option Frame :=
  (frame.get? name).map fun _ => frame.insert name value

namespace Arena

variable {α : Type} {visit : Frame → Option α} {arena : Arena} {bound index : Nat}

/--
Every index that is followed lies in the arena, and following links leads to the outermost frame.
-/
structure WellLinked (arena : Arena) : Prop where
  last : arena.current + 1 = arena.links.length
  outermost : ∀ link, arena.links[0]? = some link → link.parent = none
  inner : ∀ index link, arena.links[index + 1]? = some link → link.parent = some index

def walk (visit : Frame → Option α) (arena : Arena) : Nat → Option Nat → Option (Option (Nat × α))
  | _, none => some none
  | 0, some _ => none
  | bound + 1, some index =>
    match arena.links[index]? with
    | none => none
    | some link =>
      match visit link.frame with
      | some found => some (some (index, found))
      | none => walk visit arena bound link.parent

/--
Go outward from the current frame. A walk through more frames than there are would come to one of
them again, so it would not end.
-/
def find (visit : Frame → Option α) (arena : Arena) : Option (Option (Nat × α)) :=
  arena.walk visit arena.links.length (some arena.current)

def read (arena : Arena) (name : Token) : Option (Except EvalError Value) :=
  (arena.find (·.get? name.lexeme)).map fun
    | some (_, value) => .ok value
    | none => .error ⟨name, .undefinedName⟩

def assign (arena : Arena) (name : Token) (value : Value) :
    Option (Except EvalError Unit × Arena) :=
  (arena.find (Frame.replace? name.lexeme value)).map fun
    | some (index, frame) =>
      (.ok (), { arena with links := arena.links.modify index ({ · with frame }) })
    | none => (.error ⟨name, .undefinedName⟩, arena)

theorem walk_none (visit : Frame → Option α) (arena : Arena) (bound : Nat) :
    arena.walk visit bound none = some none := by
  rw [walk]

theorem walk_some {link : Link} (h : arena.links[index]? = some link) :
    arena.walk visit (bound + 1) (some index) =
      match visit link.frame with
      | some found => some (some (index, found))
      | none => arena.walk visit bound link.parent := by
  rw [walk, h]

theorem WellLinked.exists_link (h : arena.WellLinked) (hindex : index ≤ arena.current) :
    ∃ link, arena.links[index]? = some link ∧
      link.parent = if index = 0 then none else some (index - 1) := by
  have hlength := h.last
  have hlink := List.getElem?_eq_getElem (l := arena.links) (i := index) (by omega)
  refine ⟨_, hlink, ?_⟩
  cases index with
  | zero => exact h.outermost _ hlink
  | succ index => exact h.inner index _ hlink

theorem WellLinked.le_of_walk (h : arena.WellLinked) {start : Nat} (hstart : start ≤ arena.current)
    {found : α} (hwalk : arena.walk visit bound (some start) = some (some (index, found))) :
    index ≤ start := by
  induction bound generalizing start with
  | zero => cases hwalk
  | succ bound ih =>
    obtain ⟨link, hlink, hparent⟩ := h.exists_link hstart
    rw [walk_some hlink, hparent] at hwalk
    split at hwalk
    · cases hwalk
      exact Nat.le_refl _
    · cases start with
      | zero =>
        rw [if_pos rfl, walk_none] at hwalk
        cases hwalk
      | succ start =>
        rw [if_neg (Nat.succ_ne_zero start)] at hwalk
        exact Nat.le_succ_of_le (ih (Nat.le_of_succ_le hstart) hwalk)

theorem WellLinked.walk_push (h : arena.WellLinked) (frame : Frame) {start : Nat}
    (hstart : start ≤ arena.current) :
    (arena.push frame).walk visit bound (some start) = arena.walk visit bound (some start) := by
  have hlast := h.last
  induction bound generalizing start with
  | zero => rfl
  | succ bound ih =>
    obtain ⟨link, hlink, hparent⟩ := h.exists_link hstart
    have hpushed : (arena.push frame).links[start]? = some link := by
      rw [push, List.getElem?_append_left (by omega), hlink]
    rw [walk_some hlink, walk_some hpushed, hparent]
    cases start with
    | zero => simp only [if_pos, walk_none]
    | succ start =>
      simp only [Nat.succ_ne_zero, if_false, Nat.add_sub_cancel, ih (Nat.le_of_succ_le hstart)]

theorem WellLinked.find_push (h : arena.WellLinked) (visit : Frame → Option α) (frame : Frame) :
    (arena.push frame).find visit =
      match visit frame with
      | some found => some (some (arena.links.length, found))
      | none => arena.find visit := by
  have hlink : (arena.push frame).links[(arena.push frame).current]? =
      some ⟨frame, some arena.current⟩ :=
    List.getElem?_concat_length
  rw [find, length_links_push, walk_some hlink, h.walk_push frame (Nat.le_refl _)]
  rfl

theorem modify_append_left {links : List Link} (h : index < links.length) (f : Link → Link)
    (links' : List Link) :
    (links ++ links').modify index f = links.modify index f ++ links' := by
  rw [List.modify_eq_take_drop, List.modify_eq_take_drop, List.take_append_of_le_length (by omega),
    List.drop_append_of_le_length (by omega), List.drop_eq_getElem_cons h, List.cons_append,
    List.modifyHead_cons, List.modifyHead_cons, List.append_assoc, List.cons_append]

theorem WellLinked.assign_push (h : arena.WellLinked) (frame : Frame) (name : Token)
    (value : Value) :
    (arena.push frame).assign name value =
      match frame.replace? name.lexeme value with
      | some frame => some (.ok (), arena.push frame)
      | none =>
        (arena.assign name value).map fun (result, arena) => (result, arena.push frame) := by
  rw [assign, assign, h.find_push]
  cases frame.replace? name.lexeme value with
  | some after => simp [push, List.modify_eq_take_drop]
  | none =>
    simp only
    cases hwalk : arena.find (Frame.replace? name.lexeme value) with
    | none => rfl
    | some found =>
      cases found with
      | none => rfl
      | some found =>
        obtain ⟨index, after⟩ := found
        have hindex : index < arena.links.length := by
          have hle := h.le_of_walk (Nat.le_refl _) hwalk
          have hlast := h.last
          omega
        simp only [Option.map_some, push, modify_append_left hindex, List.length_modify]

end Arena

namespace Environment

theorem wellLinked_arena (environment : Environment) : environment.arena.WellLinked := by
  have hparents := parents_arena environment
  constructor
  · rw [current_arena, length_links_arena]
    rfl
  · intro link hlink
    have hparent : environment.arena.parents[0]? = some link.parent := by
      simp [Arena.parents, hlink]
    simpa [hparents] using hparent.symm
  · intro index link hlink
    have hparent : environment.arena.parents[index + 1]? = some link.parent := by
      simp [Arena.parents, hlink]
    rw [hparents, List.getElem?_cons_succ, List.getElem?_map] at hparent
    obtain ⟨index', hindex', hparent⟩ := Option.map_eq_some_iff.1 hparent
    obtain ⟨_, rfl⟩ := List.getElem?_eq_some_iff.1 hindex'
    rw [← hparent, List.getElem_range]

theorem find_globals {α : Type} (visit : Frame → Option α) (globals : Frame) :
    (arena ⟨[], globals⟩).find visit = some ((visit globals).map fun found => (0, found)) := by
  have hlink : (arena ⟨[], globals⟩).links[0]? = some ⟨globals, none⟩ := rfl
  have hfind : (arena ⟨[], globals⟩).find visit = (arena ⟨[], globals⟩).walk visit 1 (some 0) := rfl
  rw [hfind, Arena.walk_some hlink]
  cases visit globals <;> rfl

theorem map_find_arena {α : Type} (visit : Frame → Option α) (environment : Environment) :
    (environment.arena.find visit).map (·.map Prod.snd) =
      some (environment.frames.findSome? visit) := by
  obtain ⟨blocks, globals⟩ := environment
  induction blocks with
  | nil =>
    rw [find_globals, frames, List.nil_append, List.findSome?_singleton]
    cases visit globals <;> rfl
  | cons frame blocks ih =>
    have hframes : frames ⟨frame :: blocks, globals⟩ = frame :: frames ⟨blocks, globals⟩ := rfl
    rw [arena_block, (wellLinked_arena ⟨blocks, globals⟩).find_push, hframes, List.findSome?_cons]
    cases visit frame with
    | some found => rfl
    | none => exact ih

theorem read_arena (environment : Environment) (name : Token) :
    environment.arena.read name = some (environment.read name) := by
  have hfind := map_find_arena (·.get? name.lexeme) environment
  obtain ⟨found, hfound, hget⟩ := Option.map_eq_some_iff.1 hfind
  rw [Arena.read, hfound, read, get?, ← hget]
  cases found <;> rfl

theorem assign?_block (frame : Frame) (blocks : List Frame) (globals : Frame) (name : String)
    (value : Value) :
    assign? ⟨frame :: blocks, globals⟩ name value =
      match frame.replace? name value with
      | some frame => some ⟨frame :: blocks, globals⟩
      | none => (assign? ⟨blocks, globals⟩ name value).map fun environment =>
        { environment with blocks := frame :: environment.blocks } := by
  simp only [assign?, assignIn?, Frame.replace?]
  cases frame.get? name with
  | some _ => rfl
  | none =>
    cases assignIn? name value blocks with
    | some _ => rfl
    | none => cases globals.get? name <;> rfl

theorem assign_arena (environment : Environment) (name : Token) (value : Value) :
    environment.arena.assign name value =
      match environment.assign name value with
      | .ok after => some (.ok (), after.arena)
      | .error error => some (.error error, environment.arena) := by
  obtain ⟨blocks, globals⟩ := environment
  induction blocks with
  | nil =>
    rw [Arena.assign, find_globals]
    simp only [assign, assign?, assignIn?, Frame.replace?]
    cases globals.get? name.lexeme <;> rfl
  | cons frame blocks ih =>
    rw [arena_block, (wellLinked_arena ⟨blocks, globals⟩).assign_push, ih]
    simp only [assign, assign?_block]
    cases frame.replace? name.lexeme value with
    | some after => rfl
    | none => cases assign? ⟨blocks, globals⟩ name.lexeme value <;> rfl

end Environment
end TreeWalk
