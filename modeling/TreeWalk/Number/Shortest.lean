import TreeWalk.Number.Decimal

/-!
This module contains the choice of the decimal number that stands for a magnitude: the one with the
fewest digits that reads back as the magnitude, and of those the nearest. The main statement is
`bits_shortest`: the choice always reads back.
-/

namespace TreeWalk.Number

def digitCount (n : Nat) : Nat :=
  let guess := n.log2 * 30103 / 100000
  if n < Nat.pow 10 guess then guess else if n < Nat.pow 10 (guess + 1) then guess + 1
  else guess + 2

/--
The digits of the exact decimal value of a magnitude. As many of them stand behind the point as
binary digits can.
-/
def exactDigits (bits : Nat) : Nat :=
  units bits * Nat.pow 5 fineness

def exact (bits : Nat) : Decimal :=
  ⟨exactDigits bits, -fineness⟩

/--
The decimal number with `count` digits that reads back as the magnitude. Only the two neighbours of
the exact value can do so; of the two the nearer one is taken, and the upper one if they are equally
near.
-/
def withDigits? (bits count : Nat) : Option Decimal :=
  let exact := exactDigits bits
  let dropped := digitCount exact - count
  let step := Nat.pow 10 dropped
  let below : Decimal := ⟨exact / step, dropped - fineness⟩
  let above : Decimal := ⟨exact / step + 1, dropped - fineness⟩
  if below.bits = bits ∧ (above.bits ≠ bits ∨ 2 * (exact % step) < step) then
    some below
  else if above.bits = bits then
    some above
  else
    none

/--
The decimal number with the fewest digits that reads back as the magnitude. Seventeen digits are
always enough for that; the exact value stands behind them so that the answer reads back in any
case.
-/
def shortest (bits : Nat) : Decimal :=
  ((List.range 17).findSome? (withDigits? bits <| · + 1)).getD (exact bits)

theorem bits_withDigits? {bits count : Nat} {d : Decimal} (h : withDigits? bits count = some d) :
    d.bits = bits := by
  simp only [withDigits?] at h
  split at h
  · next hb => cases h; exact hb.1
  · split at h
    · next ha => cases h; exact ha
    · cases h

theorem mul_five_pow_shiftLeft (n count : Nat) :
    (n * Nat.pow 5 count) <<< count = n * Nat.pow 10 count := by
  rw [Nat.shiftLeft_eq, Nat.mul_assoc, Nat.pow_eq, Nat.pow_eq, ← Nat.mul_pow]

theorem ten_pow_pos (count : Nat) : 0 < Nat.pow 10 count :=
  Nat.pow_pos (Nat.succ_pos 9)

theorem bits_exact {bits : Nat} (h : bits < infinityBits) : (exact bits).bits = bits := by
  have hmul : nearest (units bits * Nat.pow 10 fineness) (1 * Nat.pow 10 fineness) =
      nearest (units bits) 1 :=
    nearest_mul_mul (ten_pow_pos fineness)
  rw [nearest_units h, Nat.one_mul] at hmul
  simp only [Decimal.bits, exact, exactDigits, Int.neg_neg, Int.toNat_natCast,
    Int.toNat_neg_natCast]
  rw [show Nat.pow 10 0 = 1 from rfl, Nat.mul_one, mul_five_pow_shiftLeft, hmul]

theorem bits_shortest {bits : Nat} (h : bits < infinityBits) : (shortest bits).bits = bits := by
  unfold shortest
  cases hfind : (List.range 17).findSome? (withDigits? bits <| · + 1) with
  | none => exact bits_exact h
  | some d =>
    obtain ⟨count, _, hcount⟩ := List.exists_of_findSome?_eq_some hfind
    exact bits_withDigits? hcount

end TreeWalk.Number
