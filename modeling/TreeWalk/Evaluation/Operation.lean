import TreeWalk.Evaluation.Error

/-!
This module contains the operations of the language on values. Which operation an operator token
asks for is decided by its kind alone.
-/

namespace TreeWalk.Operation

def onNumbers (operator : Token) (left right : Value)
    (operation : Float → Float → Except EvalError Value) : Except EvalError Value :=
  match left, right with
  | .number x, .number y => operation x y
  | _, _ => .error ⟨operator, .expectedNumbers left.type right.type⟩

def add (operator : Token) : Value → Value → Except EvalError Value
  | .number x, .number y => .ok (.number (x + y))
  | .string s, .string t => .ok (.string (s ++ t))
  | left, right => .error ⟨operator, .expectedNumbersOrStrings left.type right.type⟩

def divide (operator : Token) (x y : Float) : Except EvalError Value :=
  if y == 0 then .error ⟨operator, .zeroDivision⟩ else .ok (.number (x / y))

def binary (operator : Token) (left right : Value) : Except EvalError Value :=
  match operator.kind with
  | .plus => add operator left right
  | .minus => onNumbers operator left right fun x y => .ok (.number (x - y))
  | .star => onNumbers operator left right fun x y => .ok (.number (x * y))
  | .slash => onNumbers operator left right (divide operator)
  | .greater => onNumbers operator left right fun x y => .ok (.boolean (x > y))
  | .greaterEqual => onNumbers operator left right fun x y => .ok (.boolean (x ≥ y))
  | .less => onNumbers operator left right fun x y => .ok (.boolean (x < y))
  | .lessEqual => onNumbers operator left right fun x y => .ok (.boolean (x ≤ y))
  | .equalEqual => .ok (.boolean (left.same right))
  | .bangEqual => .ok (.boolean (!left.same right))
  | _ => .error ⟨operator, .unknownOperator⟩

def negate (operator : Token) : Value → Except EvalError Value
  | .number x => .ok (.number (-x))
  | operand => .error ⟨operator, .expectedNumber operand.type⟩

def unary (operator : Token) (operand : Value) : Except EvalError Value :=
  match operator.kind with
  | .minus => negate operator operand
  | .bang => .ok (.boolean (!operand.isTruthy))
  | _ => .error ⟨operator, .unknownOperator⟩

/--
What the left operand of a logical operator decides: the value of the whole, or nothing if that is
the right operand.
-/
def decided? (operator : Token) (left : Value) : Except EvalError (Option Value) :=
  match operator.kind with
  | .orWord => .ok (if left.isTruthy then some left else none)
  | .andWord => .ok (if left.isTruthy then none else some left)
  | _ => .error ⟨operator, .unknownOperator⟩

end TreeWalk.Operation
