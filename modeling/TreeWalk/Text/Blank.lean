import TreeWalk.Text.Ranges

/-!
This module contains the characters with the Unicode property White_Space, and cutting them off both
ends of a text.
-/

namespace TreeWalk.Text

/--
The code points with the property White_Space.
-/
def blankRanges : List (Nat × Nat) := [
  (0x0009, 0x000D), (0x0020, 0x0020), (0x0085, 0x0085), (0x00A0, 0x00A0), (0x1680, 0x1680),
  (0x2000, 0x200A), (0x2028, 0x2029), (0x202F, 0x202F), (0x205F, 0x205F), (0x3000, 0x3000)]

def isBlank (c : Char) : Bool :=
  covers blankRanges c.toNat

theorem blankRanges_ascending : ascending blankRanges := by
  decide

theorem blankRanges_nonempty : ∀ r ∈ blankRanges, r.1 ≤ r.2 := by
  decide

theorem isBlank_iff {c : Char} :
    isBlank c ↔ ∃ r ∈ blankRanges, r.1 ≤ c.toNat ∧ c.toNat ≤ r.2 :=
  covers_iff blankRanges_ascending blankRanges_nonempty

def strip (text : List Char) : List Char :=
  ((text.dropWhile isBlank).reverse.dropWhile isBlank).reverse

end TreeWalk.Text
