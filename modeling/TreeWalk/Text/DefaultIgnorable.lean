import TreeWalk.Text.Ranges

/-!
This module contains the characters with the Unicode property Default_Ignorable_Code_Point, which
are left blank when they are printed: besides formats and marks these are the fillers of the Hangul
script, which count as letters.
-/

namespace TreeWalk.Text

/--
The code points with the property Default_Ignorable_Code_Point, version 17.0.
-/
def defaultIgnorableRanges : List (Nat × Nat) := [
  (0x00AD, 0x00AD), (0x034F, 0x034F), (0x061C, 0x061C), (0x115F, 0x1160), (0x17B4, 0x17B5),
  (0x180B, 0x180F), (0x200B, 0x200F), (0x202A, 0x202E), (0x2060, 0x206F), (0x3164, 0x3164),
  (0xFE00, 0xFE0F), (0xFEFF, 0xFEFF), (0xFFA0, 0xFFA0), (0xFFF0, 0xFFF8), (0x1BCA0, 0x1BCA3),
  (0x1D173, 0x1D17A), (0xE0000, 0xE0FFF)]

def isDefaultIgnorable (c : Char) : Bool :=
  covers defaultIgnorableRanges c.toNat

theorem defaultIgnorableRanges_ascending : ascending defaultIgnorableRanges := by
  decide

theorem defaultIgnorableRanges_nonempty : ∀ r ∈ defaultIgnorableRanges, r.1 ≤ r.2 := by
  decide

theorem isDefaultIgnorable_iff {c : Char} :
    isDefaultIgnorable c ↔ ∃ r ∈ defaultIgnorableRanges, r.1 ≤ c.toNat ∧ c.toNat ≤ r.2 :=
  covers_iff defaultIgnorableRanges_ascending defaultIgnorableRanges_nonempty

end TreeWalk.Text
