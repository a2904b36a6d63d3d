import TreeWalk.Number.Shortest

/-!
This module contains the written form of floating point numbers: a sign, and the shortest decimal
number that reads back or a word for what is not finite.
-/

namespace TreeWalk.Number

def signBit : Nat := 0x8000000000000000

def ofMagnitude (negative : Bool) (bits : Nat) : Float :=
  .ofBits <| .ofNat <| if negative then signBit + bits else bits

def magnitude (x : Float) : Bool × Nat :=
  (signBit ≤ x.toBits.toNat, x.toBits.toNat % signBit)

def ofDigits (whole fraction : List Char) : Float :=
  ofMagnitude false (Decimal.ofDigits whole fraction).bits

/--
The written form of a number. It has a sign even if the number is zero, and none if it is no number.
-/
def text (x : Float) : String :=
  let (negative, bits) := magnitude x
  if infinityBits < bits then
    "NaN"
  else
    let body := if bits = infinityBits then ['i', 'n', 'f'] else (shortest bits).positional
    .ofList <| if negative then '-' :: body else body

def read? (text : String) : Option Float :=
  match text.toList with
  | ['N', 'a', 'N'] => some (ofMagnitude false (infinityBits + 1))
  | '-' :: body => (readMagnitude? body).map (ofMagnitude true)
  | body => (readMagnitude? body).map (ofMagnitude false)
where
  readMagnitude? : List Char → Option Nat
    | ['i', 'n', 'f'] => some infinityBits
    | body => (Decimal.read? body).map Decimal.bits

end TreeWalk.Number
