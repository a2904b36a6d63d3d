import TreeWalk.Tree

/-!
This module contains the places in a program and the names that are in scope there. They depend on
the text of the program alone: a scope lists, for each block around a place, the names that the
members of the block before the place declare.
-/

namespace TreeWalk

def Stmt.ownName? : Stmt → Option String
  | declare name _ => some name.lexeme
  | _ => none

/--
The names that each block around a place declares before it, from the innermost block outward.
-/
abbrev Scope := List (List String)

namespace Scope

def behind (members : List Stmt) : Scope → Scope
  | [] => []
  | names :: scope => (names ++ members.filterMap Stmt.ownName?) :: scope

def resolve (scope : Scope) (name : String) : Option Nat :=
  scope.findIdx? (name ∈ ·)

@[simp]
theorem behind_nil (scope : Scope) : scope.behind [] = scope := by
  cases scope with
  | nil => rfl
  | cons names scope => simp [behind]

theorem behind_of_ownName?_eq_none (scope : Scope) {statement : Stmt}
    (h : statement.ownName? = none) :
    scope.behind [statement] = scope := by
  cases scope with
  | nil => rfl
  | cons names scope => simp [behind, h]

@[simp]
theorem behind_behind (scope : Scope) (members members' : List Stmt) :
    (scope.behind members).behind members' = scope.behind (members ++ members') := by
  cases scope with
  | nil => rfl
  | cons names scope => simp [behind]

end Scope

inductive Step
  | member (index : Nat)
  | body
  | alternative

abbrev Path := List Step

structure Site where
  statement : Stmt
  scope : Scope

namespace Stmt

def site (scope : Scope) : Stmt → Path → Option Site
  | statement, [] => some ⟨statement, scope⟩
  | block body, .member index :: path =>
    body[index]?.bind fun statement =>
      statement.site (Scope.behind (body.take index) ([] :: scope)) path
  | ifThen _ body, .body :: path => body.site scope path
  | ifElse _ body _, .body :: path => body.site scope path
  | ifElse _ _ alternative, .alternative :: path => alternative.site scope path
  | whileLoop _ body, .body :: path => body.site scope path
  | _, _ :: _ => none

def siteIn (scope : Scope) (statements : List Stmt) : Path → Option Site
  | .member index :: path =>
    statements[index]?.bind fun statement =>
      statement.site (scope.behind (statements.take index)) path
  | _ => none

theorem site_block_of_siteIn {scope : Scope} {body : List Stmt} {path : Path} {site : Site}
    (h : siteIn ([] :: scope) body path = some site) :
    (block body).site scope path = some site := by
  unfold siteIn at h
  split at h
  · rw [Stmt.site]
    exact h
  · cases h

theorem siteIn_member_zero (scope : Scope) (statement : Stmt) (statements : List Stmt)
    (path : Path) :
    siteIn scope (statement :: statements) (.member 0 :: path) = statement.site scope path := by
  simp [siteIn]

theorem siteIn_member_succ (scope : Scope) (statement : Stmt) (statements : List Stmt) (index : Nat)
    (path : Path) :
    siteIn scope (statement :: statements) (.member (index + 1) :: path) =
      siteIn (scope.behind [statement]) statements (.member index :: path) := by
  simp [siteIn]

theorem site_append (scope : Scope) (statement : Stmt) (path path' : Path) :
    statement.site scope (path ++ path') = (statement.site scope path).bind fun found =>
      found.statement.site found.scope path' := by
  fun_induction site scope statement path with
  | case1 statement => rfl
  | case2 scope body index path ih =>
    rw [List.cons_append, site]
    cases body[index]? with
    | none => rfl
    | some member => exact ih member
  | case3 scope condition body path ih => exact ih
  | case4 scope condition body alternative path ih => exact ih
  | case5 scope condition body alternative path ih => exact ih
  | case6 scope condition body path ih => exact ih
  -- the first step leads nowhere, and neither does a longer path
  | case7 scope statement step path hblock hthen helse halternative hwhile =>
    rw [List.cons_append, site]
    · rfl
    · exact hblock
    · exact hthen
    · exact helse
    · exact halternative
    · exact hwhile

theorem siteIn_member {scope scope' : Scope} {statements body : List Stmt} {path : Path}
    {index : Nat} (h : siteIn scope statements path = some ⟨block body, scope'⟩) :
    siteIn scope statements (path ++ [.member index]) =
      body[index]?.map fun member => ⟨member, (body.take index).filterMap ownName? :: scope'⟩ := by
  unfold siteIn at h
  split at h
  · next first path =>
    obtain ⟨statement, hstatement, hsite⟩ := Option.bind_eq_some_iff.1 h
    rw [List.cons_append, siteIn, hstatement, Option.bind_some, site_append, hsite,
      Option.bind_some, site]
    cases body[index]? with
    | none => rfl
    | some member => simp [site, Scope.behind]
  · cases h

end Stmt
end TreeWalk
