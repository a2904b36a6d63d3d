import TreeWalk.Number.Magnitude

/-!
This module contains decimal numbers, the magnitude that a decimal number denotes, and their written
forms: without an exponent, which is how they are written here, and with one, which is understood
when they are read.
-/

namespace TreeWalk.Number

/--
The number `digits * 10 ^ exponent`.
-/
structure Decimal where
  digits : Nat
  exponent : Int
  deriving DecidableEq

namespace Decimal

def bits (d : Decimal) : Nat :=
  nearest ((d.digits * Nat.pow 10 d.exponent.toNat) <<< fineness) (Nat.pow 10 (-d.exponent).toNat)

def ofDigits (whole fraction : List Char) : Decimal :=
  ⟨Nat.ofDigitChars 10 (whole ++ fraction) 0, -fraction.length⟩

def fraction (places part : Nat) : List Char :=
  let digits := Nat.toDigits 10 part
  let padded := List.replicate (places - digits.length) '0' ++ digits
  match (padded.reverse.dropWhile (· == '0')).reverse with
  | [] => []
  | digits => '.' :: digits

def positional (d : Decimal) : List Char :=
  let places := (-d.exponent).toNat
  let scaled := d.digits * Nat.pow 10 d.exponent.toNat
  Nat.toDigits 10 (scaled / Nat.pow 10 places) ++ fraction places (scaled % Nat.pow 10 places)

def readInteger? : List Char → Option Int
  | '-' :: digits => (readNat? digits).map fun n => -(n : Int)
  | '+' :: digits => (readNat? digits).map fun n => (n : Int)
  | digits => (readNat? digits).map fun n => (n : Int)
where
  readNat? (digits : List Char) : Option Nat :=
    if digits ≠ [] ∧ digits.all Char.isDigit then some (Nat.ofDigitChars 10 digits 0) else none

/--
Move the point. A text of `size` characters is zero, or lies between `10 ^ -size` and `10 ^ size`,
so a move of more than `size + 400` places leaves the finite magnitudes whatever its length; it is
cut down to that.
-/
def shift (d : Decimal) (size : Nat) (places : Int) : Decimal :=
  { d with exponent := d.exponent + max (-(size + 400 : Int)) (min (size + 400 : Int) places) }

def read? (text : List Char) : Option Decimal :=
  let whole := text.takeWhile Char.isDigit
  let rest := text.dropWhile Char.isDigit
  let fraction := match rest with
    | '.' :: rest => rest.takeWhile Char.isDigit
    | _ => []
  -- a point without digits behind it is no part of the number
  let rest := if fraction = [] then rest else rest.drop (fraction.length + 1)
  if whole = [] then
    none
  else
    match rest with
    | [] => some (ofDigits whole fraction)
    | mark :: places =>
      if mark = 'e' ∨ mark = 'E' then
        (readInteger? places).map (ofDigits whole fraction |>.shift text.length)
      else
        none

end Decimal
end TreeWalk.Number
