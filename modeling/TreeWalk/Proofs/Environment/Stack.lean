import Mathlib.Data.Finmap
import TreeWalk.Proofs.Environment.Walk

/-!
This module contains the proof that an environment and its arena answer every sequence of accesses
like a stack of finite maps.
-/

namespace TreeWalk

inductive Access
  | openBlock
  | closeBlock
  | define (name : String) (value : Value)
  | read (name : Token)
  | assign (name : Token) (value : Value)

abbrev Answer := Except EvalError (Option Value)

/--
The answers to a sequence of accesses, each with the depth behind it, and the state that they leave.
-/
def transcript {σ : Type} (depth : σ → Nat) (step : Access → σ → Option (Answer × σ)) :
    List Access → σ → Option (List (Answer × Nat) × σ)
  | [], state => some ([], state)
  | access :: accesses, state =>
    (step access state).bind fun (answer, state) =>
      (transcript depth step accesses state).map fun (answers, final) =>
        ((answer, depth state) :: answers, final)

theorem exists_transcript {σ : Type} (depth : σ → Nat) (step : Access → σ → Answer × σ)
    (accesses : List Access) (state : σ) :
    ∃ answers final,
      transcript depth (fun access state => some (step access state)) accesses state =
        some (answers, final) ∧
      ∀ (τ : Type) (view : σ → τ) (depth' : τ → Nat) (step' : Access → τ → Option (Answer × τ)),
        (∀ state, depth' (view state) = depth state) →
        (∀ access state, step' access (view state) = some ((step access state).map id view)) →
          transcript depth' step' accesses (view state) = some (answers, view final) := by
  induction accesses generalizing state with
  | nil => exact ⟨[], state, rfl, fun _ _ _ _ _ _ => rfl⟩
  | cons access accesses ih =>
    cases hnext : step access state with
    | mk answer next =>
      obtain ⟨answers, final, h, hview⟩ := ih next
      refine ⟨(answer, depth next) :: answers, final, ?_, ?_⟩
      · simp only [transcript, hnext, Option.bind_some, h, Option.map_some]
      · intro τ view depth' step' hdepth hstep
        simp only [transcript, hstep, hnext, Prod.map, Option.bind_some,
          hview τ view depth' step' hdepth hstep, Option.map_some, hdepth, id_eq]

abbrev NameMap := Finmap fun _ : String => Value

abbrev MapStack := List NameMap

namespace MapStack

def pop : MapStack → MapStack
  | _ :: below :: stack => below :: stack
  | stack => stack

def binder? (stack : MapStack) (name : String) : Option Nat :=
  stack.findIdx? (name ∈ ·)

def binding? (stack : MapStack) (index : Nat) (name : String) : Option Value :=
  stack[index]?.bind (·.lookup name)

def get? (stack : MapStack) (name : String) : Option Value :=
  (stack.binder? name).bind (stack.binding? · name)

def assign? (stack : MapStack) (name : String) (value : Value) : Option MapStack :=
  (stack.binder? name).map fun index => stack.modify index (·.insert name value)

def access : Access → MapStack → Answer × MapStack
  | .openBlock, stack => (.ok none, ∅ :: stack)
  | .closeBlock, stack => (.ok none, stack.pop)
  | .define name value, stack => (.ok none, stack.modifyHead (·.insert name value))
  | .read name, stack =>
    match stack.get? name.lexeme with
    | some value => (.ok (some value), stack)
    | none => (.error ⟨name, .undefinedName⟩, stack)
  | .assign name value, stack =>
    match stack.assign? name.lexeme value with
    | some stack => (.ok none, stack)
    | none => (.error ⟨name, .undefinedName⟩, stack)

end MapStack

namespace Frame

def toMap (frame : Frame) : NameMap :=
  (frame.bindings.map fun (name, value) => ⟨name, value⟩).toFinmap

@[simp]
theorem lookup_toMap (frame : Frame) (name : String) :
    frame.toMap.lookup name = frame.get? name := by
  rw [toMap, Finmap.dlookup_list_toFinmap, get?]
  induction frame.bindings with
  | nil => rfl
  | cons binding bindings ih =>
    obtain ⟨bound, value⟩ := binding
    by_cases h : name = bound
    · subst h
      rw [List.map_cons, List.dlookup_cons_eq, List.lookup_cons_self]
    · rw [List.map_cons, List.dlookup_cons_ne _ _ h, ih, List.lookup_cons, beq_false_of_ne h]

theorem toMap_insert (frame : Frame) (name : String) (value : Value) :
    (frame.insert name value).toMap = frame.toMap.insert name value := by
  apply Finmap.ext_lookup
  intro name'
  rw [lookup_toMap, get?_insert]
  by_cases h : name' = name
  · subst h
    rw [if_pos rfl, Finmap.lookup_insert]
  · rw [if_neg h, Finmap.lookup_insert_of_ne _ h, lookup_toMap]

theorem mem_toMap {frame : Frame} {name : String} :
    name ∈ frame.toMap ↔ (frame.get? name).isSome := by
  rw [← Finmap.lookup_isSome, lookup_toMap]

end Frame

namespace MapStack

theorem binder?_map_cons (frame : Frame) (frames : List Frame) (name : String) :
    binder? ((frame :: frames).map Frame.toMap) name =
      match frame.get? name with
      | some _ => some 0
      | none => (binder? (frames.map Frame.toMap) name).map (· + 1) := by
  rw [binder?, List.map_cons, List.findIdx?_cons]
  cases hget : frame.get? name <;> simp [Frame.mem_toMap, hget, binder?]

theorem get?_map (frames : List Frame) (name : String) :
    get? (frames.map Frame.toMap) name = frames.findSome? (·.get? name) := by
  induction frames with
  | nil => rfl
  | cons frame frames ih =>
    rw [get?, binder?_map_cons, List.findSome?_cons, ← ih, get?]
    cases hget : frame.get? name with
    | some value => simp [binding?, hget]
    | none =>
      simp only [Option.bind_map]
      rfl

theorem assign?_map (frames : List Frame) (name : String) (value : Value) :
    assign? (frames.map Frame.toMap) name value =
      (Environment.assignIn? name value frames).map (List.map Frame.toMap) := by
  induction frames with
  | nil => rfl
  | cons frame frames ih =>
    rw [assign?] at ih ⊢
    rw [binder?_map_cons, Environment.assignIn?]
    cases frame.get? name with
    | some _ => simp [Frame.toMap_insert]
    | none =>
      have hbelow := congrArg (Option.map (frame.toMap :: ·)) ih
      rw [Option.map_map, Option.map_map] at hbelow
      rw [Option.map_map, Option.map_map]
      exact hbelow

theorem binder?_eq_some_iff {stack : MapStack} {name : String} {index : Nat} :
    stack.binder? name = some index ↔
      (∃ value, stack.binding? index name = some value) ∧
      ∀ above < index, stack.binding? above name = none := by
  rw [binder?, List.findIdx?_eq_some_iff_getElem]
  simp only [binding?, decide_eq_true_eq, Finmap.mem_iff, not_exists]
  constructor
  · rintro ⟨hindex, ⟨value, hvalue⟩, habove⟩
    refine ⟨⟨value, by simp [hindex, hvalue]⟩, ?_⟩
    intro above hlt
    rw [List.getElem?_eq_getElem (Nat.lt_trans hlt hindex), Option.bind_some,
      Option.eq_none_iff_forall_ne_some]
    exact habove above hlt
  · rintro ⟨⟨value, hvalue⟩, habove⟩
    obtain ⟨map, hmap, hvalue⟩ := Option.bind_eq_some_iff.1 hvalue
    obtain ⟨hindex, rfl⟩ := List.getElem?_eq_some_iff.1 hmap
    refine ⟨hindex, ⟨value, hvalue⟩, ?_⟩
    intro above hlt other hother
    have hunbound := habove above hlt
    simp [List.getElem?_eq_getElem (Nat.lt_trans hlt hindex), hother] at hunbound

theorem binding?_modify {stack : MapStack} {index : Nat} (hindex : index < stack.length)
    (name : String) (value : Value) (index' : Nat) (name' : String) :
    binding? (stack.modify index (·.insert name value)) index' name' =
      if index' = index ∧ name' = name then some value else stack.binding? index' name' := by
  rw [binding?, List.getElem?_modify, binding?]
  by_cases hsame : index = index'
  · subst hsame
    by_cases hname : name' = name
    · subst hname
      simp [hindex, Finmap.lookup_insert]
    · simp [hindex, hname, Finmap.lookup_insert_of_ne]
  · simp [hsame, Ne.symm hsame]

end MapStack

namespace Environment

def maps (environment : Environment) : MapStack :=
  environment.frames.map Frame.toMap

theorem length_maps (environment : Environment) : environment.maps.length = environment.depth := by
  rw [maps, List.length_map, length_frames]

theorem maps_openBlock (environment : Environment) :
    environment.openBlock.maps = ∅ :: environment.maps :=
  rfl

theorem maps_closeBlock (environment : Environment) :
    environment.closeBlock.maps = environment.maps.pop := by
  obtain ⟨blocks, globals⟩ := environment
  cases blocks with
  | nil => rfl
  | cons frame blocks => cases blocks <;> rfl

theorem maps_define (environment : Environment) (name : String) (value : Value) :
    (environment.define name value).maps = environment.maps.modifyHead (·.insert name value) := by
  obtain ⟨blocks, globals⟩ := environment
  cases blocks <;> simp [define, maps, frames, Frame.toMap_insert]

theorem get?_maps (environment : Environment) (name : String) :
    environment.maps.get? name = environment.get? name :=
  MapStack.get?_map environment.frames name

theorem assign?_maps (environment : Environment) (name : String) (value : Value) :
    environment.maps.assign? name value = (environment.assign? name value).map maps := by
  rw [maps, MapStack.assign?_map, ← map_frames_assign?, Option.map_map]
  rfl

def access : Access → Environment → Answer × Environment
  | .openBlock, environment => (.ok none, environment.openBlock)
  | .closeBlock, environment => (.ok none, environment.closeBlock)
  | .define name value, environment => (.ok none, environment.define name value)
  | .read name, environment => ((environment.read name).map some, environment)
  | .assign name value, environment =>
    match environment.assign name value with
    | .ok environment => (.ok none, environment)
    | .error error => (.error error, environment)

theorem access_maps (access : Access) (environment : Environment) :
    MapStack.access access environment.maps = (environment.access access).map id maps := by
  cases access with
  | openBlock =>
    rw [MapStack.access, ← maps_openBlock]
    rfl
  | closeBlock =>
    rw [MapStack.access, ← maps_closeBlock]
    rfl
  | define name value =>
    rw [MapStack.access, ← maps_define]
    rfl
  | read name =>
    rw [MapStack.access, get?_maps, Environment.access, read]
    cases environment.get? name.lexeme <;> rfl
  | assign name value =>
    rw [MapStack.access, assign?_maps, Environment.access, assign]
    cases environment.assign? name.lexeme value <;> rfl

end Environment

def Arena.depth (arena : Arena) : Nat :=
  arena.links.length

/--
The access to an arena. There is no answer if it would use an index outside the arena, or if it does
not end.
-/
def Arena.access : Access → Arena → Option (Answer × Arena)
  | .openBlock, arena => some (.ok none, arena.openBlock)
  | .closeBlock, arena => arena.links[arena.current]?.map fun _ => (.ok none, arena.closeBlock)
  | .define name value, arena =>
    arena.links[arena.current]?.map fun _ => (.ok none, arena.define name value)
  | .read name, arena => (arena.read name).map fun result => (result.map some, arena)
  | .assign name value, arena =>
    (arena.assign name value).map fun (result, arena) => (result.map fun _ => none, arena)

namespace Environment

theorem depth_arena (environment : Environment) : environment.arena.depth = environment.depth :=
  length_links_arena environment

theorem access_arena (access : Access) (environment : Environment) :
    environment.arena.access access = some ((environment.access access).map id arena) := by
  obtain ⟨link, hlink, _⟩ := environment.wellLinked_arena.exists_link (Nat.le_refl _)
  cases access with
  | openBlock =>
    rw [Arena.access, ← arena_openBlock]
    rfl
  | closeBlock =>
    rw [Arena.access, hlink, ← arena_closeBlock]
    rfl
  | define name value =>
    rw [Arena.access, hlink, ← arena_define]
    rfl
  | read name =>
    rw [Arena.access, read_arena]
    rfl
  | assign name value =>
    rw [Arena.access, assign_arena, Environment.access]
    cases environment.assign name value <;> rfl

variable {environment after : Environment} {name : Token} {value : Value}

theorem assign_eq_error_iff {error : EvalError} :
    environment.assign name value = .error error ↔ environment.read name = .error error := by
  have hassign := environment.assign?_maps name.lexeme value
  have hread := environment.get?_maps name.lexeme
  rw [MapStack.assign?] at hassign
  rw [MapStack.get?] at hread
  rw [assign, read]
  cases hbinder : environment.maps.binder? name.lexeme with
  | none =>
    rw [hbinder, Option.map_none, eq_comm, Option.map_eq_none_iff] at hassign
    rw [hbinder, Option.bind_none] at hread
    simp [hassign, ← hread]
  | some index =>
    obtain ⟨⟨old, hold⟩, _⟩ := MapStack.binder?_eq_some_iff.1 hbinder
    rw [hbinder, Option.map_some, eq_comm, Option.map_eq_some_iff] at hassign
    obtain ⟨after, hafter, _⟩ := hassign
    rw [hbinder, Option.bind_some, hold] at hread
    rw [hafter, ← hread]
    constructor <;> intro h <;> cases h

theorem exists_overwritten (h : environment.assign name value = .ok after) :
    ∃ index old, environment.read name = .ok old ∧
      environment.maps.binding? index name.lexeme = some old ∧
      (∀ above < index, environment.maps.binding? above name.lexeme = none) ∧
      after.maps.length = environment.maps.length ∧
      ∀ index' name', after.maps.binding? index' name' =
        if index' = index ∧ name' = name.lexeme then some value
        else environment.maps.binding? index' name' := by
  have hassign := environment.assign?_maps name.lexeme value
  have hread := environment.get?_maps name.lexeme
  have hafter : environment.assign? name.lexeme value = some after := by
    unfold assign at h
    split at h
    · next hafter =>
      cases h
      exact hafter
    · cases h
  rw [hafter, Option.map_some, MapStack.assign?, Option.map_eq_some_iff] at hassign
  obtain ⟨index, hbinder, hmaps⟩ := hassign
  obtain ⟨⟨old, hold⟩, habove⟩ := MapStack.binder?_eq_some_iff.1 hbinder
  rw [MapStack.get?, hbinder, Option.bind_some, hold] at hread
  have hindex : index < environment.maps.length := (List.findIdx?_eq_some_iff_getElem.1 hbinder).1
  refine ⟨index, old, ?_, hold, habove, ?_, ?_⟩
  · rw [read, ← hread]
  · rw [← hmaps, List.length_modify]
  · rw [← hmaps]
    exact MapStack.binding?_modify hindex name.lexeme value

end Environment

/--
An environment, its arena and a stack of maps answer every sequence of accesses alike, and none of
them ever leaves the arena. An assignment fails exactly if reading the name does, and otherwise it
changes the binding that is read, and no other one.
-/
theorem environment_refines_stack (accesses : List Access) :
    ∃ answers environment,
      transcript Environment.depth (fun access environment => some (environment.access access))
          accesses .empty =
        some (answers, environment) ∧
      transcript Arena.depth Arena.access accesses (.ofGlobals .empty) =
        some (answers, environment.arena) ∧
      environment.arena.WellLinked ∧
      transcript List.length (fun access stack => some (MapStack.access access stack))
          accesses [∅] =
        some (answers, environment.maps) ∧
      ∀ (name : Token) (value : Value),
        (∀ error, environment.assign name value = .error error ↔
          environment.read name = .error error) ∧
        ∀ after, environment.assign name value = .ok after → ∃ index old,
          environment.read name = .ok old ∧ environment.maps.binding? index name.lexeme = some old ∧
          (∀ above < index, environment.maps.binding? above name.lexeme = none) ∧
          after.maps.length = environment.maps.length ∧
          ∀ index' name', after.maps.binding? index' name' =
            if index' = index ∧ name' = name.lexeme then some value
            else environment.maps.binding? index' name' := by
  obtain ⟨answers, environment, h, hview⟩ :=
    exists_transcript Environment.depth (fun access environment => environment.access access)
      accesses .empty
  have harena := hview _ Environment.arena _ _ Environment.depth_arena Environment.access_arena
  have hmaps :=
    hview _ Environment.maps List.length (fun access stack => some (MapStack.access access stack))
      Environment.length_maps fun access environment =>
        congrArg some (Environment.access_maps access environment)
  refine ⟨answers, environment, h, harena, environment.wellLinked_arena, hmaps, ?_⟩
  intro name value
  exact ⟨fun error => Environment.assign_eq_error_iff, fun after => Environment.exists_overwritten⟩

end TreeWalk
