/-!
This module contains the magnitudes of the floating point numbers of 64 bits, as whole multiples of
the least positive one, and the rounding of a quotient to the nearest of them. The main statements
are `nearest_units`, a magnitude rounds to itself, and `nearest_mul_mul`, rounding depends on the
value of the quotient only.
-/

namespace TreeWalk.Number

/--
The least positive magnitude is `2 ^ -fineness`, the unit in which all magnitudes are counted.
-/
def fineness : Nat := 1074

/--
The bits of infinity. The smaller bit patterns are the finite magnitudes, in ascending order.
-/
def infinityBits : Nat := 0x7FF0000000000000

/--
The number of magnitudes that share an exponent. The bits in front of them are the exponent's.
-/
def binade : Nat := 0x10000000000000

def units (bits : Nat) : Nat :=
  if bits / binade = 0 then bits else (binade + bits % binade) <<< (bits / binade - 1)

/--
The integer nearest to a quotient; of two equally near ones the even one.
-/
def roundHalfEven (num den : Nat) : Nat :=
  if 2 * (num % den) < den ∨ 2 * (num % den) = den ∧ num / den % 2 = 0 then num / den
  else num / den + 1

theorem roundHalfEven_mul_right {n den : Nat} (h : 0 < den) : roundHalfEven (n * den) den = n := by
  simp [roundHalfEven, Nat.mul_mod_left, h]

theorem roundHalfEven_mul_mul {num den c : Nat} (h : 0 < c) :
    roundHalfEven (num * c) (den * c) = roundHalfEven num den := by
  unfold roundHalfEven
  rw [Nat.mul_div_mul_right _ _ h, Nat.mul_mod_mul_right, ← Nat.mul_assoc]
  simp only [Nat.mul_lt_mul_right h, Nat.mul_right_cancel_iff h]

/--
The bits of the magnitude nearest to `num / den` units; of two equally near ones the one with even
bits. A quotient with 53 binary digits or fewer in front of the point has its own bits, and each
further digit moves the bits up by one exponent.
-/
def nearest (num den : Nat) : Nat :=
  let exponent := (num / den).log2 - 52
  min infinityBits (exponent * binade + roundHalfEven num (den <<< exponent))

theorem nearest_mul_mul {num den c : Nat} (h : 0 < c) :
    nearest (num * c) (den * c) = nearest num den := by
  simp only [nearest, Nat.shiftLeft_eq]
  rw [Nat.mul_div_mul_right _ _ h, Nat.mul_right_comm, roundHalfEven_mul_mul h]

theorem units_of_lt {bits : Nat} (h : bits < binade) : units bits = bits := by
  rw [units, if_pos (Nat.div_eq_of_lt h)]

theorem units_of_le {bits : Nat} (h : binade ≤ bits) :
    units bits = (binade + bits % binade) <<< (bits / binade - 1) := by
  have hne : bits / binade ≠ 0 := by unfold binade at *; omega
  rw [units, if_neg hne]

theorem log2_units {bits : Nat} (h : binade ≤ bits) : (units bits).log2 = bits / binade + 51 := by
  have hpos := Nat.two_pow_pos (bits / binade - 1)
  rw [units_of_le h, Nat.shiftLeft_eq,
    Nat.log2_eq_iff (Nat.mul_ne_zero (by simp [binade]) (by omega))]
  rw [show bits / binade + 51 = 52 + (bits / binade - 1) by unfold binade at *; omega]
  rw [show 52 + (bits / binade - 1) + 1 = 53 + (bits / binade - 1) by omega]
  rw [Nat.pow_add, Nat.pow_add]
  unfold binade
  exact ⟨Nat.mul_le_mul_right _ (by omega), Nat.mul_lt_mul_of_pos_right (by omega) hpos⟩

theorem nearest_units {bits : Nat} (h : bits < infinityBits) : nearest (units bits) 1 = bits := by
  simp only [nearest, Nat.div_one, Nat.shiftLeft_eq, Nat.one_mul]
  -- the magnitudes of the first binade are their own bits; in the others the exponent is read off
  -- the logarithm
  by_cases hsmall : bits < binade
  · have hlog : bits.log2 - 52 = 0 := by
      by_cases h0 : bits = 0
      · subst h0; rfl
      · have := (Nat.log2_lt h0).2 (show bits < 2 ^ 52 from hsmall)
        omega
    have hround : roundHalfEven (bits * 1) 1 = bits := roundHalfEven_mul_right (by decide)
    rw [Nat.mul_one] at hround
    rw [units_of_lt hsmall, hlog]
    simp only [Nat.zero_mul, Nat.zero_add, Nat.pow_zero, hround]
    omega
  · have hle : binade ≤ bits := by omega
    rw [log2_units hle, units_of_le hle, Nat.shiftLeft_eq]
    rw [show bits / binade + 51 - 52 = bits / binade - 1 by omega]
    rw [roundHalfEven_mul_right (Nat.two_pow_pos _)]
    unfold binade at *
    omega

end TreeWalk.Number
