import TreeWalk.Proofs.Number.Bits
import TreeWalk.Proofs.Token.Numeral

/-!
This module contains the written form of the finite numbers: a sign, digits, and maybe a point with
digits behind it. Read back, it is the number.
-/

namespace TreeWalk.Number

namespace Decimal

def padded (places part : Nat) : List Char :=
  List.replicate (places - (Nat.toDigits 10 part).length) '0' ++ Nat.toDigits 10 part

theorem isDigit_of_mem_padded {places part : Nat} {c : Char} (h : c ∈ padded places part) :
    c.isDigit := by
  obtain h | h := List.mem_append.1 h
  · obtain ⟨_, rfl⟩ := List.mem_replicate.1 h
    decide
  · exact Nat.isDigit_of_mem_toDigits (by decide) (by decide) h

theorem length_padded {places part : Nat} (h : part < 10 ^ places) :
    (padded places part).length = places ∨ part = 0 := by
  rw [padded, List.length_append, List.length_replicate]
  cases places with
  | zero => exact .inr (Nat.lt_one_iff.1 h)
  | succ places =>
    have hle := (Nat.length_toDigits_le_iff (by decide) (Nat.succ_pos places)).2 h
    omega

theorem ofDigitChars_append_padded (whole : List Char) (places part : Nat) :
    Nat.ofDigitChars 10 (whole ++ padded places part) 0 =
      10 ^ (padded places part).length * Nat.ofDigitChars 10 whole 0 + part := by
  have hpart : Nat.ofDigitChars 10 (padded places part) 0 = part := by
    rw [padded, Nat.ofDigitChars_append, Nat.ofDigitChars_replicate_zero, Nat.mul_zero,
      Nat.ofDigitChars_ten_toDigits]
  rw [Nat.ofDigitChars_append, Nat.ofDigitChars_eq_ofDigitChars_zero, hpart]

theorem fraction_eq (places part : Nat) :
    let digits := ((padded places part).reverse.dropWhile (· == '0')).reverse
    fraction places part = if digits = [] then [] else '.' :: digits := by
  intro digits
  unfold fraction
  simp only []
  split
  · next hempty => exact (if_pos hempty).symm
  · next hne => exact (if_neg hne).symm

theorem exists_fraction (places part : Nat) : ∃ digits count,
    fraction places part = (if digits = [] then [] else '.' :: digits) ∧
      padded places part = digits ++ List.replicate count '0' := by
  have hsplit :=
    List.takeWhile_append_dropWhile (p := (· == '0')) (l := (padded places part).reverse)
  obtain ⟨count, hzeros⟩ : ∃ count, (padded places part).reverse.takeWhile (· == '0') =
      List.replicate count '0' :=
    ⟨_, List.eq_replicate_of_mem fun c hc => by simpa using List.mem_takeWhile_imp hc⟩
  refine ⟨((padded places part).reverse.dropWhile (· == '0')).reverse, count,
    fraction_eq places part, ?_⟩
  rw [← List.reverse_replicate, ← hzeros, ← List.reverse_append, hsplit, List.reverse_reverse]

theorem bits_eq_of_mul_eq {n scaled places length : Nat}
    (h : n * 10 ^ places = scaled * 10 ^ length) :
    nearest (n <<< fineness) (10 ^ length) = nearest (scaled <<< fineness) (10 ^ places) := by
  rw [← @nearest_mul_mul _ _ (10 ^ places) (Nat.pow_pos (by decide)),
    ← @nearest_mul_mul (scaled <<< fineness) _ (10 ^ length) (Nat.pow_pos (by decide)),
    Nat.shiftLeft_eq, Nat.shiftLeft_eq, Nat.mul_right_comm n, h, Nat.mul_right_comm scaled,
    Nat.mul_comm (10 ^ length)]

theorem exists_positional (d : Decimal) : ∃ whole digits,
    d.positional = whole ++ (if digits = [] then [] else '.' :: digits) ∧ whole ≠ [] ∧
      (∀ c ∈ whole, c.isDigit) ∧ (∀ c ∈ digits, c.isDigit) ∧
      (ofDigits whole digits).bits = d.bits := by
  let places := (-d.exponent).toNat
  let scaled := d.digits * 10 ^ d.exponent.toNat
  let part := scaled % 10 ^ places
  obtain ⟨digits, count, hfraction, hpadded⟩ := exists_fraction places part
  have hpart : part < 10 ^ places := Nat.mod_lt _ (Nat.pow_pos (by decide))
  have hdigits : ∀ c ∈ digits, c.isDigit := fun c hc =>
    isDigit_of_mem_padded (hpadded ▸ List.mem_append_left _ hc)
  refine ⟨Nat.toDigits 10 (scaled / 10 ^ places), digits, congrArg _ hfraction, Nat.toDigits_ne_nil,
    fun c => Nat.isDigit_of_mem_toDigits (by decide) (by decide), hdigits, ?_⟩
  let whole := Nat.toDigits 10 (scaled / 10 ^ places)
  let value := Nat.ofDigitChars 10 (whole ++ digits) 0
  have hlength : (padded places part).length = digits.length + count := by
    rw [hpadded, List.length_append, List.length_replicate]
  have hvalue : value * 10 ^ count =
      10 ^ (digits.length + count) * (scaled / 10 ^ places) + part := by
    have hread := ofDigitChars_append_padded whole places part
    rwa [hlength, Nat.ofDigitChars_ten_toDigits, hpadded, ← List.append_assoc,
      Nat.ofDigitChars_append, Nat.ofDigitChars_replicate_zero, Nat.mul_comm] at hread
  have hscaled : 10 ^ places * (scaled / 10 ^ places) + part = scaled :=
    Nat.div_add_mod scaled (10 ^ places)
  have hequal : value * 10 ^ places = scaled * 10 ^ digits.length := by
    apply Nat.mul_right_cancel (Nat.pow_pos (n := count) (by decide : 0 < 10))
    calc value * 10 ^ places * 10 ^ count
      _ = (10 ^ (digits.length + count) * (scaled / 10 ^ places) + part) * 10 ^ places := by
        rw [Nat.mul_right_comm, hvalue]
      _ = (10 ^ places * (scaled / 10 ^ places) + part) * 10 ^ (digits.length + count) := by
        obtain hplaces | hzero := length_padded hpart
        · rw [← hlength, hplaces]
        · rw [hzero]
          ring
      _ = scaled * 10 ^ digits.length * 10 ^ count := by
        rw [hscaled, Nat.pow_add, ← Nat.mul_assoc]
  simpa [Decimal.bits, ofDigits] using bits_eq_of_mul_eq hequal

end Decimal

theorem exists_text {x : Float} (h : x.isFinite) : ∃ whole digits,
    (text x).toList = (if (magnitude x).1 then ['-'] else []) ++
        (whole ++ if digits = [] then [] else '.' :: digits) ∧
      whole ≠ [] ∧ (∀ c ∈ whole, c.isDigit) ∧ (∀ c ∈ digits, c.isDigit) ∧
      x = if (magnitude x).1 then -ofDigits whole digits else ofDigits whole digits := by
  have hlt := (isFinite_iff x).1 h
  obtain ⟨whole, digits, hpositional, hne, hwhole, hdigits, hbits⟩ :=
    (shortest (magnitude x).2).exists_positional
  rw [bits_shortest hlt] at hbits
  refine ⟨whole, digits, ?_, hne, hwhole, hdigits, ?_⟩
  · unfold text
    simp only [if_neg (Nat.not_lt.2 hlt.le), if_neg hlt.ne, String.toList_ofList, hpositional]
    split <;> rfl
  · have hself := ofMagnitude_magnitude x
    unfold ofDigits
    rw [hbits]
    split
    · next hsign => rw [neg_ofMagnitude hlt.le, Bool.not_false, ← hsign, hself]
    · next hsign => rw [← Bool.eq_false_of_not_eq_true hsign, hself]

theorem Decimal.bits_le (d : Decimal) : d.bits ≤ infinityBits :=
  Nat.min_le_left _ _

theorem read?_sign {first : Char} (h : first.isDigit) (text : List Char) :
    read? (.ofList ('-' :: first :: text)) = (read? (.ofList (first :: text))).map fun x => -x := by
  have hsign : read? (.ofList ('-' :: first :: text)) =
      (read?.readMagnitude? (first :: text)).map (ofMagnitude true) := by
    rw [read?, String.toList_ofList]
    rfl
  have hneg : ofMagnitude true ∘ Decimal.bits = (fun x => -x) ∘ fun d =>
    ofMagnitude false d.bits := by
    funext d
    rw [Function.comp_apply, Function.comp_apply, neg_ofMagnitude d.bits_le, Bool.not_false]
  rw [hsign, readMagnitude?_of_isDigit h, read?_of_isDigit h, Option.map_map, Option.map_map, hneg]

theorem read?_text {x : Float} (h : x.isFinite) : read? (text x) = some x := by
  obtain ⟨whole, digits, htext, hne, hwhole, hdigits, hx⟩ := exists_text h
  have hread := read?_digits hne hwhole hdigits
  rw [← String.ofList_toList (s := text x), htext]
  by_cases hsign : (magnitude x).1 = true
  · rw [if_pos hsign] at hx ⊢
    obtain ⟨first, whole, rfl⟩ := List.exists_cons_of_ne_nil hne
    rw [List.cons_append] at hread
    rw [List.singleton_append, List.cons_append, read?_sign (hwhole first (.head whole)), hread,
      Option.map_some, ← hx]
  · rw [if_neg hsign] at hx ⊢
    rw [List.nil_append, hread, ← hx]

end TreeWalk.Number
