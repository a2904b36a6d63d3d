import TreeWalk.Environment

/-!
This module contains the names that are bound in each frame of an environment, and what each
operation does to them.
-/

namespace TreeWalk

theorem Frame.names_insert_of_mem {frame : Frame} {name : String} {value : Value}
    (h : name ∈ frame.names) :
    (frame.insert name value).names = frame.names := by
  obtain ⟨bindings⟩ := frame
  simp only [names, insert] at h ⊢
  induction bindings with
  | nil => simp at h
  | cons binding bindings ih =>
    by_cases hname : name = binding.1
    · simp [insert.go, hname]
    · have hmem : name ∈ bindings.map Prod.fst := by simpa [hname] using h
      simp [insert.go, hname, ih hmem]

theorem Frame.not_mem_names {frame : Frame} {name : String} :
    name ∉ frame.names ↔ frame.get? name = none := by
  rw [mem_names, Bool.not_eq_true, Option.isSome_eq_false_iff, Option.isNone_iff_eq_none]

namespace Environment

variable {environment before after middle : Environment} {name : String} {value : Value}

def names (environment : Environment) : List (List String) :=
  environment.frames.map Frame.names

@[simp]
theorem length_names (environment : Environment) :
    environment.names.length = environment.depth := by
  simp [names]

theorem names_ne_nil (environment : Environment) : environment.names ≠ [] := by
  simp [names, frames]

theorem names_closeBlock (h : environment.names.tail ≠ []) :
    environment.closeBlock.names = environment.names.tail := by
  obtain ⟨blocks, globals⟩ := environment
  cases blocks with
  | nil => exact absurd rfl h
  | cons => rfl

theorem mem_names_define (environment : Environment) (name : String) (value : Value) :
    name ∈ (environment.define name value).names.head
      (environment.define name value).names_ne_nil := by
  obtain ⟨blocks, globals⟩ := environment
  cases blocks <;> exact Frame.mem_names_insert.2 (.inl rfl)

theorem map_names_blocks (h : after.names = before.names) :
    after.blocks.map Frame.names = before.blocks.map Frame.names := by
  have hlast := congrArg List.dropLast h
  simpa [names, frames] using hlast

theorem map_names_assignIn? {scopes scopes' : List Frame}
    (h : assignIn? name value scopes = some scopes') :
    scopes'.map Frame.names = scopes.map Frame.names := by
  induction scopes generalizing scopes' with
  | nil => cases h
  | cons frame scopes ih =>
    unfold assignIn? at h
    split at h
    · next hget =>
      cases h
      have hmem : name ∈ frame.names := Frame.mem_names.2 (by simp [hget])
      simp [Frame.names_insert_of_mem hmem]
    · obtain ⟨scopes', hscopes', rfl⟩ := Option.map_eq_some_iff.1 h
      simp [ih hscopes']

theorem names_assign? (h : before.assign? name value = some after) :
    after.names = before.names := by
  apply map_names_assignIn?
  rw [← map_frames_assign?, h]
  rfl

structure Grows (added : List String) (before after : Environment) : Prop where
  outer : after.names.tail = before.names.tail
  kept : ∀ name ∈ before.names.head before.names_ne_nil, name ∈ after.names.head after.names_ne_nil
  gained :
    ∀ name ∈ after.names.head after.names_ne_nil, name ∈ before.names.head before.names_ne_nil ∨
      name ∈ added

namespace Grows

variable {added added' : List String}

theorem of_names_eq (h : after.names = before.names) : Grows added before after where
  outer := by rw [h]
  kept := by simp [h]
  gained := by
    intro name hname
    exact .inl (by simpa [h] using hname)

theorem refl (added : List String) (environment : Environment) :
    Grows added environment environment :=
  of_names_eq rfl

theorem trans (h : Grows added before middle) (h' : Grows added middle after) :
    Grows added before after where
  outer := h'.outer.trans h.outer
  kept name hname := h'.kept name (h.kept name hname)
  gained name hname := by
    obtain hmiddle | hadded := h'.gained name hname
    · exact h.gained name hmiddle
    · exact .inr hadded

theorem mono (h : Grows added before after) (hadded : added ⊆ added') :
    Grows added' before after where
  outer := h.outer
  kept := h.kept
  gained name hname := (h.gained name hname).imp_right (hadded ·)

theorem depth_eq (h : Grows added before after) : after.depth = before.depth := by
  have hlength := congrArg List.length h.outer
  have hbefore : before.depth = before.blocks.length + 1 := rfl
  have hafter : after.depth = after.blocks.length + 1 := rfl
  simp only [List.length_tail, length_names] at hlength
  omega

theorem define (environment : Environment) (name : String) (value : Value) :
    Grows [name] environment (environment.define name value) where
  outer := by
    obtain ⟨blocks, globals⟩ := environment
    cases blocks <;> rfl
  kept := by
    obtain ⟨blocks, globals⟩ := environment
    intro name' hname'
    cases blocks <;> exact Frame.mem_names_insert.2 (.inr hname')
  gained := by
    obtain ⟨blocks, globals⟩ := environment
    intro name' hname'
    rw [List.mem_singleton]
    cases blocks <;> exact (Frame.mem_names_insert.1 hname').symm

theorem closeBlock (h : Grows added before.openBlock after) :
    after.closeBlock.names = before.names := by
  have houter : after.names.tail = before.names := h.outer
  rw [names_closeBlock (houter ▸ before.names_ne_nil), houter]

end Grows
end Environment
end TreeWalk
