import TreeWalk.Environment.Frame

/-!
This module contains the names that are visible at a place in a program. There is always a global
frame, and a frame for each block that is open; the view of an environment is the list of its frames
from the innermost one outward.
-/

namespace TreeWalk

/--
The frames of the open blocks, the innermost one first, and the frame of the globals.
-/
structure Environment where
  blocks : List Frame
  globals : Frame
  deriving DecidableEq

namespace Environment

def empty : Environment := ⟨[], .empty⟩

def frames (environment : Environment) : List Frame :=
  environment.blocks ++ [environment.globals]

def depth (environment : Environment) : Nat :=
  environment.blocks.length + 1

def openBlock (environment : Environment) : Environment :=
  { environment with blocks := .empty :: environment.blocks }

def closeBlock (environment : Environment) : Environment :=
  { environment with blocks := environment.blocks.tail }

def define (environment : Environment) (name : String) (value : Value) : Environment :=
  match environment.blocks with
  | [] => { environment with globals := environment.globals.insert name value }
  | frame :: blocks => { environment with blocks := frame.insert name value :: blocks }

def get? (environment : Environment) (name : String) : Option Value :=
  environment.frames.findSome? (·.get? name)

def assignIn? (name : String) (value : Value) : List Frame → Option (List Frame)
  | [] => none
  | frame :: frames =>
    match frame.get? name with
    | some _ => some (frame.insert name value :: frames)
    | none => (assignIn? name value frames).map (frame :: ·)

def assign? (environment : Environment) (name : String) (value : Value) : Option Environment :=
  match assignIn? name value environment.blocks with
  | some blocks => some { environment with blocks }
  | none =>
    match environment.globals.get? name with
    | some _ => some { environment with globals := environment.globals.insert name value }
    | none => none

@[simp]
theorem length_frames (environment : Environment) :
    environment.frames.length = environment.depth := by
  simp [frames, depth]

@[simp]
theorem frames_openBlock (environment : Environment) :
    environment.openBlock.frames = .empty :: environment.frames :=
  rfl

@[simp]
theorem closeBlock_openBlock (environment : Environment) :
    environment.openBlock.closeBlock = environment :=
  rfl

theorem frames_define (environment : Environment) (name : String) (value : Value) :
    (environment.define name value).frames =
      environment.frames.modifyHead (·.insert name value) := by
  obtain ⟨blocks, globals⟩ := environment
  cases blocks <;> rfl

theorem assignIn?_append (name : String) (value : Value) (frames : List Frame) (frame : Frame) :
    assignIn? name value (frames ++ [frame]) =
      match assignIn? name value frames with
      | some frames => some (frames ++ [frame])
      | none => (frame.get? name).map fun _ => frames ++ [frame.insert name value] := by
  induction frames with
  | nil => simp only [List.nil_append, assignIn?]; cases frame.get? name <;> rfl
  | cons first frames ih =>
    simp only [List.cons_append, assignIn?]
    cases first.get? name with
    | some _ => rfl
    | none =>
      simp only [ih]
      cases assignIn? name value frames with
      | some _ => rfl
      | none => cases frame.get? name <;> rfl

theorem map_frames_assign? (environment : Environment) (name : String) (value : Value) :
    (environment.assign? name value).map frames = assignIn? name value environment.frames := by
  rw [frames, assignIn?_append, assign?]
  cases assignIn? name value environment.blocks with
  | some _ => rfl
  | none => cases environment.globals.get? name <;> rfl

end Environment
end TreeWalk
