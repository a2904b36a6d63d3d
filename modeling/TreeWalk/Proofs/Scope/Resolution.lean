import TreeWalk.Proofs.Execution.Faults
import TreeWalk.Proofs.Scope.Fit
import TreeWalk.Proofs.Scope.Members

/-!
This module contains what scopes say about events: at each one the open blocks are those around its
place, and what is read or assigned to is found where the scope says.
-/

namespace TreeWalk

theorem Expr.names_of_eval {expr : Expr} {value : Value} {environment environment' : Environment}
    (h : expr.eval environment = .ok value environment') :
    environment'.names = environment.names := by
  have hnames := expr.names_eval environment
  rw [h] at hnames
  exact hnames

theorem Expr.Performs.names_eq {expr : Expr} {event : Event}
    {environment environment' : Environment} (h : expr.Performs environment event environment') :
    environment'.names = environment.names := by
  induction h with
  | name => rfl
  | binaryRight hleft _ ih => exact ih.trans (names_of_eval hleft)
  | logicalRight hleft _ _ ih => exact ih.trans (names_of_eval hleft)
  | assign hvalue => exact names_of_eval hvalue
  | group _ ih | unary _ ih | binaryLeft _ ih | logicalLeft _ ih | assigned _ ih => exact ih

theorem Stmt.mem_names_of_exec {statement : Stmt} {bound : Nat} {value : Option Value}
    {machine machine' : Machine}
    (h : statement.exec bound machine = some (.ok (.normal value) machine')) :
    ∀ name ∈ statement.ownName?,
      name ∈ machine'.environment.names.head machine'.environment.names_ne_nil := by
  cases statement with
  | declare token initial =>
    rintro _ ⟨⟩
    cases runs_of_exec _ h with
    | declare => exact Environment.mem_names_define _ _ _
    | define => exact Environment.mem_names_define _ _ _
  | _ => exact nofun

namespace Scope

variable {scope : Scope}

theorem Fits.of_value {expr : Expr} {value : Value} {machine machine' : Machine}
    (h : scope.Fits machine.environment.blocks)
    (hvalue : machine.evaluate expr = .ok value machine') :
    scope.Fits machine'.environment.blocks :=
  h.of_names (Machine.names_of_value hvalue)

theorem Fits.of_exec {statement : Stmt} {bound : Nat} {value : Option Value}
    {machine machine' : Machine} (h : scope.Fits machine.environment.blocks)
    (hscoped : statement.Scoped)
    (hexec : statement.exec bound machine = some (.ok (.normal value) machine')) :
    (scope.behind [statement]).Fits machine'.environment.blocks := by
  have hgrows := Stmt.grows_of_exec hexec
  rw [hscoped.declared_eq] at hgrows
  exact h.of_grows hgrows (Stmt.mem_names_of_exec hexec)

end Scope

def Task.site (scope : Scope) : Task → Path → Option Site
  | one statement, path => statement.site scope path
  | all statements, path => Stmt.siteIn scope statements path
  | loop condition body _, path => (Stmt.whileLoop condition body).site scope path

theorem Occurs.fits {task : Task} {machine : Machine} {path : Path} {event : Event}
    {environment : Environment} (h : Occurs task machine path event environment) {scope : Scope}
    (hscoped : task.Scoped) (hfits : scope.Fits machine.environment.blocks) :
    ∃ site, task.site scope path = some site ∧ site.scope.Fits environment.blocks ∧
      ∀ statement, event = .start statement → site.statement = statement := by
  -- the scope of the place is followed along the path, and the frames along the run
  induction h generalizing scope with
  | start =>
    refine ⟨_, rfl, hfits, ?_⟩
    rintro _ ⟨⟩
    rfl
  | subject _ h =>
    refine ⟨_, rfl, hfits.of_names h.names_eq, ?_⟩
    intro statement hevent
    exact absurd hevent (h.ne_start statement)
  | block _ ih =>
    cases hscoped with
    | block hbody =>
      have hopened : Scope.Fits ([] :: scope) (.empty :: _) := ⟨fun name => Iff.rfl, hfits⟩
      obtain ⟨site, hsite, hrest⟩ := ih hbody hopened
      exact ⟨site, Stmt.site_block_of_siteIn hsite, hrest⟩
  | ifTrue hvalue _ _ ih =>
    cases hscoped with
    | ifThen hbody => exact ih hbody (hfits.of_value hvalue)
  | ifElseTrue hvalue _ _ ih =>
    cases hscoped with
    | ifElse hbody => exact ih hbody (hfits.of_value hvalue)
  | ifElseFalse hvalue _ _ ih =>
    cases hscoped with
    | ifElse _ _ halternative => exact ih halternative (hfits.of_value hvalue)
  | whileLoop _ ih => exact ih hscoped hfits
  | first _ ih =>
    obtain ⟨site, hsite, hrest⟩ := ih (hscoped _ (List.mem_cons_self ..)) hfits
    refine ⟨site, ?_, hrest⟩
    rw [Task.site, Stmt.siteIn_member_zero]
    exact hsite
  | later hstatement _ ih =>
    rw [Task.Scoped, List.forall_mem_cons] at hscoped
    obtain ⟨site, hsite, hrest⟩ := ih hscoped.2 (hfits.of_exec hscoped.1 hstatement)
    refine ⟨site, ?_, hrest⟩
    rw [Task.site, Stmt.siteIn_member_succ]
    exact hsite
  | condition h =>
    refine ⟨_, rfl, hfits.of_names h.names_eq, ?_⟩
    intro statement hevent
    exact absurd hevent (h.ne_start statement)
  | round hvalue _ _ ih =>
    cases hscoped with
    | whileLoop hbody => exact ih hbody (hfits.of_value hvalue)
  | rounds hvalue _ hbody _ ih =>
    -- the body declares no name of its own, so a round leaves the scope of the loop as it is
    have hloop := hscoped
    cases hscoped with
    | whileLoop hscoped hown =>
      have hround := (hfits.of_value hvalue).of_exec hscoped hbody
      rw [Scope.behind_of_ownName?_eq_none _ hown] at hround
      exact ih hloop hround

def Scope.Governs (scope : Scope) (environment : Environment) : Event → Prop
  | .start _ => True
  | .read name =>
    match scope.resolve name.lexeme with
    | some index =>
      ∃ frame value, environment.blocks[index]? = some frame ∧ frame.get? name.lexeme = some value ∧
        environment.read name = .ok value
    | none => environment.read name =
      match environment.globals.get? name.lexeme with
      | some value => .ok value
      | none => .error ⟨name, .undefinedName⟩
  | .assign target value =>
    match scope.resolve target.lexeme with
    | some index => ∃ frame, environment.blocks[index]? = some frame ∧ target.lexeme ∈ frame.names ∧
      environment.assign target value = .ok { environment with
        blocks := environment.blocks.set index (frame.insert target.lexeme value) }
    | none => environment.assign target value =
      match environment.globals.get? target.lexeme with
      | some _ => .ok { environment with globals := environment.globals.insert target.lexeme value }
      | none => .error ⟨target, .undefinedName⟩

theorem Scope.Fits.governs {scope : Scope} {environment : Environment}
    (h : scope.Fits environment.blocks) (event : Event) : scope.Governs environment event := by
  cases event with
  | start => trivial
  | read name =>
    unfold Governs
    simp only
    split
    · next index hresolve =>
      obtain ⟨inner, frame, outer, value, hblocks, rfl, hinner, hvalue⟩ := h.split hresolve
      refine ⟨frame, value, by simp [hblocks], hvalue, ?_⟩
      have hget : environment.get? name.lexeme = some value := by
        rw [Environment.get?, Environment.frames, hblocks, List.append_assoc,
          Environment.findSome?_of_unbound hinner]
        simp [hvalue]
      rw [Environment.read, hget]
    · next hresolve =>
      have hget : environment.get? name.lexeme = environment.globals.get? name.lexeme := by
        rw [Environment.get?, Environment.frames,
          Environment.findSome?_of_unbound (h.unbound hresolve)]
        simp
      cases hglobal : environment.globals.get? name.lexeme <;>
        simp [Environment.read, hget, hglobal]
  | assign target value =>
    unfold Governs
    simp only
    split
    · next index hresolve =>
      obtain ⟨inner, frame, outer, value', hblocks, rfl, hinner, hvalue⟩ := h.split hresolve
      refine ⟨frame, by simp [hblocks], Frame.mem_names.2 (by simp [hvalue]), ?_⟩
      rw [Environment.assign, Environment.assign?, hblocks, Environment.assignIn?_of_unbound hinner]
      simp [Environment.assignIn?, hvalue]
    · next hresolve =>
      have hblocks : Environment.assignIn? target.lexeme value environment.blocks = none := by
        rw [← List.append_nil environment.blocks,
          Environment.assignIn?_of_unbound (h.unbound hresolve)]
        rfl
      rw [Environment.assign, Environment.assign?, hblocks]
      cases environment.globals.get? target.lexeme <;> rfl

theorem Scope.Fits.error?_eq {scope : Scope} {environment : Environment}
    (h : scope.Fits environment.blocks) {event : Event} {name : Token}
    (hname : event.name? = some name) :
    event.error? environment =
      if scope.resolve name.lexeme = none ∧ environment.globals.get? name.lexeme = none then
        some ⟨name, .undefinedName⟩
      else none := by
  have hgoverns := h.governs event
  cases event with
  | start => cases hname
  | read =>
    cases hname
    simp only [Governs] at hgoverns
    split at hgoverns
    · next hresolve =>
      obtain ⟨frame, value, _, _, hread⟩ := hgoverns
      simp [Event.error?, hread, hresolve]
    · next hresolve =>
      rw [Event.error?, hgoverns]
      cases environment.globals.get? name.lexeme <;> simp [hresolve]
  | assign =>
    cases hname
    simp only [Governs] at hgoverns
    split at hgoverns
    · next hresolve =>
      obtain ⟨frame, _, _, hassign⟩ := hgoverns
      simp [Event.error?, hassign, hresolve]
    · next hresolve =>
      rw [Event.error?, hgoverns]
      cases environment.globals.get? name.lexeme <;> simp [hresolve]

theorem Scope.Fits.error?_eq_some_iff {scope : Scope} {environment : Environment}
    (h : scope.Fits environment.blocks) {event : Event} {token : Token} :
    event.error? environment = some ⟨token, .undefinedName⟩ ↔ event.name? = some token ∧
      scope.resolve token.lexeme = none ∧ environment.globals.get? token.lexeme = none := by
  cases hname : event.name? with
  | none =>
    cases event with
    | start => exact ⟨nofun, nofun⟩
    | read | assign => cases hname
  | some name =>
    rw [h.error?_eq hname]
    constructor
    · intro herror
      split at herror
      · next hunbound =>
        cases herror
        exact ⟨rfl, hunbound⟩
      · cases herror
    · rintro ⟨⟨⟩, hunbound⟩
      exact if_pos hunbound

end TreeWalk
