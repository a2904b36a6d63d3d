import Mathlib
import TreeWalk.Number.Text

/-!
This module contains floating point numbers as signed magnitudes: every number is its sign and the
bits of its magnitude, the finite ones are those with a finite magnitude, and negation turns the
sign around.
-/

namespace TreeWalk.Number

open Float.Model Float.Model.UnpackedFloat

theorem isFinite_unpack {spec : Format} (b : BitVec spec.numBits) :
    (unpack spec b).isFinite ↔ unpackExponent b ≠ -1#_ := by
  fun_cases UnpackedFloat.unpack spec b with
  | case1 _ exponent _ _ hexponent | case2 _ exponent hexponent =>
    exact ⟨nofun, fun hne => absurd hexponent hne⟩
  | case3 _ exponent _ _ hexponent | case4 _ exponent _ _ _ hexponent
  | case5 _ exponent _ _ _ hexponent =>
    exact ⟨fun _ => hexponent, fun _ => rfl⟩

theorem neg_unpack {spec : Format} (sign : Sign) (exponent : BitVec spec.exponentBits)
    (mantissa : BitVec spec.mantissaBitsWithoutImplicit) :
    (unpack spec (packComponents spec sign exponent mantissa)).neg =
      unpack spec (packComponents spec (-sign) exponent mantissa) := by
  unfold UnpackedFloat.unpack
  simp only [unpackExponent_packComponents, unpackMantissa_packComponents,
    unpackSign_packComponents, Sign.ofBitVec_toBitVec]
  split
  · split <;> rfl
  · split
    · split <;> rfl
    · rfl

def sign : Bool → Sign
  | true => .negative
  | false => .positive

def pattern (negative : Bool) (bits : Nat) : UInt64 :=
  .ofNat (if negative then signBit + bits else bits)

section

variable {negative : Bool} {bits : Nat}

theorem toBitVec_pattern (h : bits < signBit) :
    (pattern negative bits).toBitVec =
      packComponents .binary64 (sign negative) (.ofNat 11 (bits / binade)) (.ofNat 52 bits) := by
  have hor (a b : Nat) (i : Nat) (hb : b < 2 ^ i) : a <<< i ||| b = a * 2 ^ i + b := by
    rw [← Nat.shiftLeft_add_eq_or_of_lt hb, Nat.shiftLeft_eq]
  apply BitVec.eq_of_toNat_eq
  rw [packComponents, BitVec.toNat_append, BitVec.toNat_append, hor _ _ _ (BitVec.isLt _),
    hor _ _ _ (BitVec.isLt _)]
  unfold pattern binade
  unfold signBit at *
  cases negative <;> simp [sign, Sign.toBitVec] <;> omega

theorem exponent_eq_neg_one_iff (h : bits < signBit) :
    (.ofNat 11 (bits / binade) : BitVec 11) = -1#11 ↔ infinityBits ≤ bits := by
  unfold infinityBits binade
  unfold signBit at h
  rw [← BitVec.toNat_inj, BitVec.toNat_ofNat]
  simp
  omega

theorem isFinite_unpack_pattern (h : bits < signBit) :
    (unpack .binary64 (pattern negative bits).toBitVec).isFinite ↔ bits < infinityBits := by
  rw [toBitVec_pattern h, isFinite_unpack, unpackExponent_packComponents, Ne,
    exponent_eq_neg_one_iff h, Nat.not_le]

theorem infinityBits_lt : infinityBits < signBit := by
  decide

theorem toBits_ofMagnitude (h : bits ≤ infinityBits) :
    (ofMagnitude negative bits).toBits = pattern negative bits := by
  have hlt : bits < signBit := Nat.lt_of_le_of_lt h infinityBits_lt
  have hnumber : @isNaNBits .binary64 (pattern negative bits).toBitVec = false := by
    rw [toBitVec_pattern hlt, isNaNBits, decide_eq_false_iff_not, unpackExponent_packComponents,
      unpackMantissa_packComponents]
    rintro ⟨hexponent, hmantissa⟩
    obtain rfl := Nat.le_antisymm h ((exponent_eq_neg_one_iff hlt).1 hexponent)
    exact hmantissa rfl
  have hpack := @pack_unpack .binary64 (pattern negative bits).toBitVec (by decide)
  rw [hnumber] at hpack
  exact UInt64.toBitVec_inj.1 hpack

theorem neg_ofMagnitude (h : bits ≤ infinityBits) :
    -ofMagnitude negative bits = ofMagnitude (!negative) bits := by
  have hlt : bits < signBit := Nat.lt_of_le_of_lt h infinityBits_lt
  have hsign : -sign negative = sign (!negative) := by cases negative <;> rfl
  apply Float.toBits_inj.1
  apply UInt64.toBitVec_inj.1
  have hneg : (-ofMagnitude negative bits).toBits.toBitVec =
      (unpack .binary64 (ofMagnitude negative bits).toBits.toBitVec).neg.pack .binary64 := rfl
  have hself : (ofMagnitude (!negative) bits).toBits.toBitVec =
      (unpack .binary64 (pattern (!negative) bits).toBitVec).pack .binary64 := rfl
  rw [hneg, hself, toBits_ofMagnitude h, toBitVec_pattern hlt, toBitVec_pattern hlt,
    neg_unpack, hsign]

end

theorem magnitude_lt (x : Float) : (magnitude x).2 < signBit :=
  Nat.mod_lt _ (by decide)

theorem toBits_eq_pattern (x : Float) : x.toBits = pattern (magnitude x).1 (magnitude x).2 := by
  have hlt := x.toBits.toNat_lt
  have hbits : (if (magnitude x).1 then signBit + (magnitude x).2 else (magnitude x).2) =
      x.toBits.toNat := by
    unfold magnitude signBit
    split
    · simp_all
      omega
    · simp_all
  rw [pattern, hbits, UInt64.ofNat_toNat]

theorem ofMagnitude_magnitude (x : Float) : ofMagnitude (magnitude x).1 (magnitude x).2 = x := by
  show Float.ofBits (pattern _ _) = x
  rw [← toBits_eq_pattern, Float.ofBits_toBits]

theorem isFinite_iff (x : Float) : x.isFinite ↔ (magnitude x).2 < infinityBits := by
  rw [← @isFinite_unpack_pattern (magnitude x).1 _ (magnitude_lt x), ← toBits_eq_pattern]
  rfl

end TreeWalk.Number
