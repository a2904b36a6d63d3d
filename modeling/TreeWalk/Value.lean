import TreeWalk.Number.Text

/-!
This module contains the values of the language.
-/

namespace TreeWalk

inductive Value
  | nil
  | boolean (value : Bool)
  | number (value : Float)
  | string (value : String)
  deriving DecidableEq

inductive ValueType
  | nil
  | boolean
  | number
  | string
  deriving DecidableEq

def ValueType.name : ValueType → String
  | nil => "nil"
  | boolean => "boolean"
  | number => "number"
  | string => "string"

namespace Value

def type : Value → ValueType
  | nil => .nil
  | boolean _ => .boolean
  | number _ => .number
  | string _ => .string

/--
What a condition with this value counts as: only `nil` and `false` are false.
-/
def isTruthy : Value → Bool
  | nil => false
  | boolean value => value
  | number _ | string _ => true

/--
Equality in the language. Values of different types differ, and numbers are compared as numbers:
zero equals zero whatever its sign, and what is not a number differs from itself.
-/
def same : Value → Value → Bool
  | nil, nil => true
  | boolean a, boolean b => a = b
  | number x, number y => x == y
  | string s, string t => s = t
  | _, _ => false

def text : Value → String
  | nil => "nil"
  | boolean true => "true"
  | boolean false => "false"
  | number x => Number.text x
  | string s => s

end Value
end TreeWalk
