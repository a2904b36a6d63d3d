/-!
This module contains the look-up of a code point in a table of ranges. The main statement is
`covers_iff`: on an ascending table the look-up finds exactly the code points that lie in one of its
ranges.
-/

namespace TreeWalk.Text

/--
Whether a code point lies in one of the given closed ranges. The ranges are ascending, so the search
ends at the first one that begins beyond the code point.
-/
def covers : List (Nat × Nat) → Nat → Bool
  | [], _ => false
  | (first, last) :: ranges, n => if n < first then false else n ≤ last || covers ranges n

def ascending : List (Nat × Nat) → Bool
  | [] => true
  | [_] => true
  | (_, last) :: (first, last') :: ranges => last < first && ascending ((first, last') :: ranges)

theorem covers_iff {ranges : List (Nat × Nat)} {n : Nat} (h : ascending ranges)
    (hne : ∀ r ∈ ranges, r.1 ≤ r.2) :
    covers ranges n ↔ ∃ r ∈ ranges, r.1 ≤ n ∧ n ≤ r.2 := by
  have key : ∀ (ranges : List (Nat × Nat)) (a : Nat × Nat), ascending (a :: ranges) →
      (∀ r ∈ a :: ranges, r.1 ≤ r.2) →
      ∀ r ∈ ranges, a.1 ≤ r.1 := by
    intro ranges
    induction ranges with
    | nil => intro a _ _ r hr; cases hr
    | cons b ranges ih =>
      intro a ha hne r hr
      simp only [ascending, Bool.and_eq_true, decide_eq_true_eq] at ha
      have hab : a.1 ≤ b.1 := by have := hne a (by simp); omega
      rcases List.mem_cons.1 hr with rfl | hr
      · exact hab
      · exact Nat.le_trans hab (ih b ha.2 (fun r hr => hne r (by simp_all)) r hr)
  -- where the search ends early, the ranges that are left begin even later
  induction ranges with
  | nil => simp [covers]
  | cons a ranges ih =>
    have hrest : ascending ranges := by
      cases ranges with
      | nil => rfl
      | cons b ranges => simp only [ascending, Bool.and_eq_true] at h; exact h.2
    have ih := ih hrest (fun r hr => hne r (by simp_all))
    have hkey := key ranges a h hne
    obtain ⟨first, last⟩ := a
    by_cases hlt : n < first
    · simp only [covers, hlt, if_true, Bool.false_eq_true, false_iff, not_exists, not_and]
      intro r hr hle
      rcases List.mem_cons.1 hr with rfl | hr
      · simp only at hle; omega
      · have := hkey r hr; simp only at this; omega
    · simp only [covers, hlt, if_false, Bool.or_eq_true, decide_eq_true_eq, ih, List.mem_cons,
        exists_eq_or_imp]
      constructor
      · rintro (h | h)
        · exact Or.inl ⟨by omega, h⟩
        · exact Or.inr h
      · rintro (h | h)
        · exact Or.inl h.2
        · exact Or.inr h

end TreeWalk.Text
