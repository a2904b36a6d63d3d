import TreeWalk.Value

/-!
This module contains the names of one scope and their values. A frame is seen through `get?`; the
lemmas say what each operation does to it.
-/

namespace TreeWalk

/--
The names that are bound in a scope, in the order of their declaration, each with its value.
-/
structure Frame where
  bindings : List (String × Value)
  deriving DecidableEq

namespace Frame

def empty : Frame := ⟨[]⟩

def get? (frame : Frame) (name : String) : Option Value :=
  frame.bindings.lookup name

def names (frame : Frame) : List String :=
  frame.bindings.map Prod.fst

def insert (frame : Frame) (name : String) (value : Value) : Frame :=
  ⟨go frame.bindings⟩
where
  go : List (String × Value) → List (String × Value)
    | [] => [(name, value)]
    | binding :: bindings =>
      if name = binding.1 then (name, value) :: bindings else binding :: go bindings

@[simp]
theorem get?_empty (name : String) : empty.get? name = none :=
  rfl

theorem get?_insert (frame : Frame) (name : String) (value : Value) (name' : String) :
    (frame.insert name value).get? name' =
      if name' = name then some value else frame.get? name' := by
  obtain ⟨bindings⟩ := frame
  simp only [get?, insert]
  induction bindings with
  | nil =>
    by_cases h : name' = name
    · simp [insert.go, h]
    · simp [insert.go, List.lookup_cons, h, beq_false_of_ne h]
  | cons binding bindings ih =>
    obtain ⟨bound, old⟩ := binding
    by_cases h : name = bound
    · subst h
      by_cases h' : name' = name
      · simp [insert.go, h']
      · simp [insert.go, List.lookup_cons, h', beq_false_of_ne h']
    · by_cases h' : name' = bound
      · have : bound ≠ name := fun he => h he.symm
        simp [insert.go, h, h', this]
      · simp [insert.go, h, List.lookup_cons, beq_false_of_ne h', ih]

theorem mem_names {frame : Frame} {name : String} :
    name ∈ frame.names ↔ (frame.get? name).isSome := by
  obtain ⟨bindings⟩ := frame
  simp only [names, get?]
  induction bindings with
  | nil => simp
  | cons binding bindings ih =>
    by_cases h : name = binding.1
    · simp [h]
    · rw [List.lookup_cons, beq_false_of_ne h, List.map_cons, List.mem_cons, ih]
      simp [h]

theorem mem_names_insert {frame : Frame} {name : String} {value : Value} {name' : String} :
    name' ∈ (frame.insert name value).names ↔ name' = name ∨ name' ∈ frame.names := by
  rw [mem_names, mem_names, get?_insert]
  split <;> simp_all

end Frame
end TreeWalk
