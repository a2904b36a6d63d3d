import TreeWalk.Proofs.Execution.ForLoop
import TreeWalk.Proofs.Execution.Program

/-!
This module contains the runs of a program with a block around it. The names that it declares are in
a frame of their own there, above the global one; looked at together, the two frames are what the
program alone makes of the global one.
-/

namespace TreeWalk

namespace Environment

theorem get?_global (globals : Frame) (name : String) :
    get? ⟨[], globals⟩ name = globals.get? name := by
  show [globals].findSome? _ = _
  rw [List.findSome?_cons]
  cases globals.get? name <;> rfl

/--
The names are looked up alike. What the global frame of the first environment binds is divided in
the second one: some of it is in the frame of a block that is open there, below the innermost
`depth` ones, and the rest is global.
-/
inductive Divided : Nat → Environment → Environment → Prop
  | here {whole inner outer : Frame}
    (h : ∀ name, whole.get? name = (inner.get? name).or (outer.get? name)) :
    Divided 0 ⟨[], whole⟩ ⟨[inner], outer⟩
  | inside {depth : Nat} {a b : Environment} (frame : Frame) (h : Divided depth a b) :
    Divided (depth + 1) (a.push frame) (b.push frame)

namespace Divided

variable {depth : Nat} {a b : Environment}

theorem openBlock {environment : Environment} (h : environment.depth = 1) :
    Divided 0 environment environment.openBlock := by
  obtain ⟨blocks, globals⟩ := environment
  obtain rfl : blocks = [] := List.length_eq_zero_iff.1 (Nat.succ.inj h)
  exact .here fun _ => rfl

theorem get? (h : Divided depth a b) (name : String) : b.get? name = a.get? name := by
  induction h with
  | @here whole inner outer h =>
    show (push inner ⟨[], outer⟩).get? name = _
    rw [get?_push, get?_global, get?_global, h]
  | inside frame _ ih => rw [get?_push, get?_push, ih]

theorem assign? (h : Divided depth a b) (name : String) (value : Value) :
    Option.Rel (Divided depth) (a.assign? name value) (b.assign? name value) := by
  induction h with
  | @here whole inner outer h =>
    show Option.Rel _ _ ((push inner ⟨[], outer⟩).assign? name value)
    rw [assign?_push]
    simp only [Environment.assign?, assignIn?, h name]
    -- the value goes to the frame of the block if that binds the name, and to the global one
    -- otherwise
    cases hinner : inner.get? name with
    | some _ =>
      refine .some (.here fun name' => ?_)
      rw [Frame.get?_insert, Frame.get?_insert, h]
      split <;> rfl
    | none =>
      cases outer.get? name with
      | none => exact .none
      | some _ =>
        refine .some (.here fun name' => ?_)
        rw [Frame.get?_insert, Frame.get?_insert, h]
        split
        · next hname => rw [hname, hinner]; rfl
        · rfl
  | inside frame h ih => exact rel_assign?_push (fun frame {_ _} => .inside frame) h ih frame

end Divided

def division : Simulation fun _ => True where
  Related := Divided
  get? := Divided.get?
  assign? := Divided.assign?
  define := by
    rintro _ _ _ (@⟨whole, inner, outer, h⟩ | ⟨frame, h⟩) name _ value
    · refine .here fun name' => ?_
      rw [Frame.get?_insert, Frame.get?_insert, h]
      split <;> rfl
    · exact h.inside _
  openBlock h := h.inside .empty
  closeBlock := by
    rintro depth a b (_ | ⟨frame, h⟩)
    exact h

end Environment

def Outcome.seen {α : Type} (outcome : Outcome α) : Option RuntimeError × Sink :=
  (outcome.ending.1, outcome.machine.output)

theorem Outcome.Alike.seen_eq {R : Environment → Environment → Prop}
    {first second : Outcome Completion} (h : Alike R first second) :
    second.atTopLevel.seen = first.atTopLevel.seen := by
  cases h with
  | ok completion => cases completion <;> rfl
  | error => rfl

theorem Outcome.seen_atTopLevel_closeBlock (outcome : Outcome Completion) :
    (outcome.mapMachine Machine.closeBlock).atTopLevel.seen = outcome.atTopLevel.seen := by
  cases outcome with
  | ok completion => cases completion <;> rfl
  | error => rfl

namespace Stmt

theorem map_seen_interpretAll (bound : Nat) (statements : List Stmt) (machine : Machine) :
    (interpretAll bound statements machine).map Outcome.seen =
      (execAll bound statements machine).map (·.atTopLevel.seen) := by
  induction statements generalizing machine with
  | nil => rfl
  | cons statement statements ih =>
    rw [interpretAll, interpret, execAll]
    rcases statement.exec bound machine with _ | ⟨_ | _, machine⟩ | _
    · rfl
    · rw [← ih machine]
      simp only [Option.map_some, Outcome.atTopLevel]
      rcases interpretAll bound statements machine with _ | ⟨_ | _⟩ <;> rfl
    · rfl
    · rfl

theorem map_seen_interpretAll_block {machine : Machine} (h : machine.environment.depth = 1)
    (bound : Nat) (statements : List Stmt) :
    (interpretAll bound [block statements] machine).map Outcome.seen =
      (interpretAll bound statements machine).map Outcome.seen := by
  obtain ⟨environment, output⟩ := machine
  have halike :=
    Environment.division.alike_execAll bound statements (.openBlock h) (fun _ _ _ => trivial) output
  rw [map_seen_interpretAll, map_seen_interpretAll, execAll, exec, Machine.openBlock]
  generalize execAll bound statements ⟨environment, output⟩ = first at halike
  generalize execAll bound statements ⟨environment.openBlock, output⟩ = second at halike
  cases halike with
  | none => rfl
  | @some first second halike =>
    have hseen := (Outcome.seen_atTopLevel_closeBlock second).trans halike.seen_eq
    rw [Option.map_some, Option.map_some, ← hseen]
    rcases second with ⟨_ | _⟩ | _ <;> rfl

theorem names_of_interpretAll_block {statements : List Stmt} {bound : Nat} {machine : Machine}
    {outcome : Outcome (List Value)}
    (h : interpretAll bound [block statements] machine = some outcome) :
    outcome.machine.environment.names = machine.environment.names := by
  rw [interpretAll, interpret, exec] at h
  rcases hbody : execAll bound statements machine.openBlock with _ | completion
  · rw [hbody] at h
    cases h
  · have hnames := ((runs_of_execAll statements hbody).grows).closeBlock
    rw [hbody] at h
    rcases completion with ⟨_ | _, machine'⟩ | ⟨_, machine'⟩ <;> cases h <;> exact hnames

end Stmt
end TreeWalk
