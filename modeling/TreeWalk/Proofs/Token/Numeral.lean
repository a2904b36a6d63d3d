import Mathlib.Data.List.TakeWhile
import TreeWalk.Number.Text

/-!
This module contains the numbers that a program can be written with, and that all of them are read.
-/

namespace TreeWalk

inductive Numeral : List Char → Prop
  | whole {digits : List Char} (hne : digits ≠ []) (hdigits : ∀ c ∈ digits, c.isDigit) :
    Numeral digits
  | decimal {digits fraction : List Char} (hne : digits ≠ []) (hdigits : ∀ c ∈ digits, c.isDigit)
    (hne' : fraction ≠ []) (hfraction : ∀ c ∈ fraction, c.isDigit) :
    Numeral (digits ++ '.' :: fraction)

theorem numeral_cons_iff {c : Char} {tail : List Char} :
    Numeral (c :: tail) ↔ c.isDigit ∧ ∃ digits fraction : List Char,
      tail = digits ++ (if fraction = [] then [] else '.' :: fraction) ∧ (∀ d ∈ digits, d.isDigit) ∧
        ∀ d ∈ fraction, d.isDigit := by
  constructor
  · intro h
    generalize htext : c :: tail = text at h
    cases h with
    | whole hne hdigits =>
      subst htext
      obtain ⟨hc, htail⟩ := List.forall_mem_cons.1 hdigits
      exact ⟨hc, tail, [], (List.append_nil tail).symm, htail, List.forall_mem_nil _⟩
    | @decimal digits fraction hne hdigits hne' hfraction =>
      obtain ⟨first, digits, rfl⟩ := List.exists_cons_of_ne_nil hne
      obtain ⟨rfl, htail⟩ := List.cons.inj htext
      obtain ⟨hc, hdigits⟩ := List.forall_mem_cons.1 hdigits
      exact ⟨hc, digits, fraction, by rw [if_neg hne', htail]; rfl, hdigits, hfraction⟩
  · rintro ⟨hc, digits, fraction, rfl, hdigits, hfraction⟩
    have hwhole : ∀ d ∈ c :: digits, d.isDigit := List.forall_mem_cons.2 ⟨hc, hdigits⟩
    split
    · rw [List.append_nil]
      exact .whole (List.cons_ne_nil c digits) hwhole
    · next hne => exact .decimal (List.cons_ne_nil c digits) hwhole hne hfraction

namespace Number

theorem ne_of_isDigit {first c : Char} (h : first.isDigit) (hc : c.isDigit = false) :
    first ≠ c := by
  rintro rfl
  simp [h] at hc

theorem readMagnitude?_of_isDigit {first : Char} (h : first.isDigit) (text : List Char) :
    read?.readMagnitude? (first :: text) = (Decimal.read? (first :: text)).map Decimal.bits := by
  rw [read?.readMagnitude?]
  rintro ⟨⟩
  exact ne_of_isDigit h (c := 'i') (by decide) rfl

theorem read?_of_isDigit {first : Char} (h : first.isDigit) (text : List Char) :
    read? (.ofList (first :: text)) =
      (Decimal.read? (first :: text)).map fun decimal => ofMagnitude false decimal.bits := by
  rw [read?, String.toList_ofList]
  split
  · next heq =>
    cases heq
    exact absurd rfl (ne_of_isDigit h (c := 'N') (by decide))
  · next heq =>
    cases heq
    exact absurd rfl (ne_of_isDigit h (c := '-') (by decide))
  · rw [readMagnitude?_of_isDigit h, Option.map_map]
    rfl

variable {digits fraction : List Char}

theorem Decimal.read?_whole (hne : digits ≠ []) (hdigits : ∀ c ∈ digits, c.isDigit) :
    Decimal.read? digits = some (ofDigits digits []) := by
  have htake := List.takeWhile_eq_self_iff.2 hdigits
  have hdrop := List.dropWhile_eq_nil_iff.2 hdigits
  simp [Decimal.read?, htake, hdrop, hne]

theorem Decimal.read?_point (hne : digits ≠ []) (hdigits : ∀ c ∈ digits, c.isDigit)
    (hne' : fraction ≠ []) (hfraction : ∀ c ∈ fraction, c.isDigit) :
    Decimal.read? (digits ++ '.' :: fraction) = some (ofDigits digits fraction) := by
  have hpoint : ¬ Char.isDigit '.' := by decide
  have htake : (digits ++ '.' :: fraction).takeWhile Char.isDigit = digits := by
    rw [List.takeWhile_append_of_pos hdigits, List.takeWhile_cons_of_neg hpoint, List.append_nil]
  have hdrop : (digits ++ '.' :: fraction).dropWhile Char.isDigit = '.' :: fraction := by
    rw [List.dropWhile_append_of_pos hdigits, List.dropWhile_cons_of_neg hpoint]
  have htake' := List.takeWhile_eq_self_iff.2 hfraction
  simp [Decimal.read?, htake, hdrop, htake', hne, hne']

theorem read?_whole (hne : digits ≠ []) (hdigits : ∀ c ∈ digits, c.isDigit) :
    read? (.ofList digits) = some (ofDigits digits []) := by
  obtain ⟨first, digits, rfl⟩ := List.exists_cons_of_ne_nil hne
  rw [read?_of_isDigit (hdigits first (.head digits)), Decimal.read?_whole hne hdigits]
  rfl

theorem read?_point (hne : digits ≠ []) (hdigits : ∀ c ∈ digits, c.isDigit) (hne' : fraction ≠ [])
    (hfraction : ∀ c ∈ fraction, c.isDigit) :
    read? (.ofList (digits ++ '.' :: fraction)) = some (ofDigits digits fraction) := by
  obtain ⟨first, digits, rfl⟩ := List.exists_cons_of_ne_nil hne
  rw [List.cons_append, read?_of_isDigit (hdigits first (.head digits)), ← List.cons_append,
    Decimal.read?_point hne hdigits hne' hfraction]
  rfl

theorem read?_digits (hne : digits ≠ []) (hdigits : ∀ c ∈ digits, c.isDigit)
    (hfraction : ∀ c ∈ fraction, c.isDigit) :
    read? (.ofList (digits ++ if fraction = [] then [] else '.' :: fraction)) =
      some (ofDigits digits fraction) := by
  split
  · next hempty => rw [List.append_nil, hempty, read?_whole hne hdigits]
  · next hne' => exact read?_point hne hdigits hne' hfraction

theorem isSome_read?_of_numeral {text : List Char} (h : Numeral text) :
    (read? (.ofList text)).isSome := by
  cases h with
  | whole hne hdigits => rw [read?_whole hne hdigits, Option.isSome_some]
  | decimal hne hdigits hne' hfraction =>
    rw [read?_point hne hdigits hne' hfraction, Option.isSome_some]

end Number
end TreeWalk
