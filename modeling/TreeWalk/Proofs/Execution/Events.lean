import TreeWalk.Proofs.Execution.Runs
import TreeWalk.Proofs.Scope.Site

/-!
This module contains what happens on the way while statements run, whether they end or not:
statements start, and names are read and assigned to. Each event is known by its place in the
program and the environment in which it happens.
-/

namespace TreeWalk

inductive Event
  | start (statement : Stmt)
  | read (name : Token)
  | assign (target : Token) (value : Value)

/--
The evaluation of an expression comes to an event in an environment. Operands are evaluated from
left to right, the right one of a logical operator only if the left one does not decide.
-/
inductive Expr.Performs : Expr → Environment → Event → Environment → Prop
  | name {token : Token} {environment : Environment} :
    Performs (.name token) environment (.read token) environment
  | group {inner : Expr} {event : Event} {environment environment' : Environment}
    (h : Performs inner environment event environment') :
    Performs (.group inner) environment event environment'
  | unary {operator : Token} {operand : Expr} {event : Event}
    {environment environment' : Environment} (h : Performs operand environment event environment') :
    Performs (.unary operator operand) environment event environment'
  | binaryLeft {operator : Token} {left right : Expr} {event : Event}
    {environment environment' : Environment} (h : Performs left environment event environment') :
    Performs (.binary left operator right) environment event environment'
  | binaryRight {operator : Token} {left right : Expr} {value : Value} {event : Event}
    {environment environment' environment'' : Environment}
    (hleft : left.eval environment = .ok value environment')
    (h : Performs right environment' event environment'') :
    Performs (.binary left operator right) environment event environment''
  | logicalLeft {operator : Token} {left right : Expr} {event : Event}
    {environment environment' : Environment} (h : Performs left environment event environment') :
    Performs (.logical left operator right) environment event environment'
  | logicalRight {operator : Token} {left right : Expr} {value : Value} {event : Event}
    {environment environment' environment'' : Environment}
    (hleft : left.eval environment = .ok value environment')
    (hundecided : Operation.decided? operator value = .ok none)
    (h : Performs right environment' event environment'') :
    Performs (.logical left operator right) environment event environment''
  | assigned {target : Token} {expr : Expr} {event : Event} {environment environment' : Environment}
    (h : Performs expr environment event environment') :
    Performs (.assign target expr) environment event environment'
  | assign {target : Token} {expr : Expr} {value : Value} {environment environment' : Environment}
    (hvalue : expr.eval environment = .ok value environment') :
    Performs (.assign target expr) environment (.assign target value) environment'

theorem Expr.Performs.ne_start {expr : Expr} {event : Event}
    {environment environment' : Environment} (h : expr.Performs environment event environment')
    (statement : Stmt) : event ≠ .start statement := by
  induction h with
  | name | assign => exact nofun
  | _ => assumption

/--
A run comes to an event at the end of a path, in an environment. Only what stands before the event
has to end.
-/
inductive Occurs : Task → Machine → Path → Event → Environment → Prop
  | start {statement : Stmt} {machine : Machine} :
    Occurs (.one statement) machine [] (.start statement) machine.environment
  | subject {statement : Stmt} {subject : Expr} {machine : Machine} {event : Event}
    {environment : Environment} (hsubject : statement.subject? = some subject)
    (h : subject.Performs machine.environment event environment) :
    Occurs (.one statement) machine [] event environment
  | block {body : List Stmt} {machine : Machine} {path : Path} {event : Event}
    {environment : Environment} (h : Occurs (.all body) machine.openBlock path event environment) :
    Occurs (.one (.block body)) machine path event environment
  | ifTrue {condition : Expr} {body : Stmt} {value : Value} {machine machine' : Machine}
    {path : Path} {event : Event} {environment : Environment}
    (hvalue : machine.evaluate condition = .ok value machine') (htrue : value.isTruthy = true)
    (h : Occurs (.one body) machine' path event environment) :
    Occurs (.one (.ifThen condition body)) machine (.body :: path) event environment
  | ifElseTrue {condition : Expr} {body alternative : Stmt} {value : Value}
    {machine machine' : Machine} {path : Path} {event : Event} {environment : Environment}
    (hvalue : machine.evaluate condition = .ok value machine') (htrue : value.isTruthy = true)
    (h : Occurs (.one body) machine' path event environment) :
    Occurs (.one (.ifElse condition body alternative)) machine (.body :: path) event environment
  | ifElseFalse {condition : Expr} {body alternative : Stmt} {value : Value}
    {machine machine' : Machine} {path : Path} {event : Event} {environment : Environment}
    (hvalue : machine.evaluate condition = .ok value machine') (hfalse : value.isTruthy = false)
    (h : Occurs (.one alternative) machine' path event environment) :
    Occurs (.one (.ifElse condition body alternative)) machine
      (.alternative :: path) event environment
  | whileLoop {condition : Expr} {body : Stmt} {machine : Machine} {path : Path} {event : Event}
    {environment : Environment}
    (h : Occurs (.loop condition body none) machine path event environment) :
    Occurs (.one (.whileLoop condition body)) machine path event environment
  | first {statement : Stmt} {statements : List Stmt} {machine : Machine} {path : Path}
    {event : Event} {environment : Environment}
    (h : Occurs (.one statement) machine path event environment) :
    Occurs (.all (statement :: statements)) machine (.member 0 :: path) event environment
  | later {bound : Nat} {statement : Stmt} {statements : List Stmt} {value : Option Value}
    {machine machine' : Machine} {index : Nat} {path : Path} {event : Event}
    {environment : Environment}
    (hstatement : statement.exec bound machine = some (.ok (.normal value) machine'))
    (h : Occurs (.all statements) machine' (.member index :: path) event environment) :
    Occurs (.all (statement :: statements)) machine (.member (index + 1) :: path) event environment
  | condition {condition : Expr} {body : Stmt} {last : Option Value} {machine : Machine}
    {event : Event} {environment : Environment}
    (h : condition.Performs machine.environment event environment) :
    Occurs (.loop condition body last) machine [] event environment
  | round {condition : Expr} {body : Stmt} {last : Option Value} {value : Value}
    {machine machine' : Machine} {path : Path} {event : Event} {environment : Environment}
    (hvalue : machine.evaluate condition = .ok value machine') (htrue : value.isTruthy = true)
    (h : Occurs (.one body) machine' path event environment) :
    Occurs (.loop condition body last) machine (.body :: path) event environment
  | rounds {bound : Nat} {condition : Expr} {body : Stmt} {last value' : Option Value}
    {value : Value} {machine machine' machine'' : Machine} {path : Path} {event : Event}
    {environment : Environment} (hvalue : machine.evaluate condition = .ok value machine')
    (htrue : value.isTruthy = true)
    (hbody : body.exec bound machine' = some (.ok (.normal value') machine''))
    (h : Occurs (.loop condition body value') machine'' path event environment) :
    Occurs (.loop condition body last) machine path event environment

end TreeWalk
