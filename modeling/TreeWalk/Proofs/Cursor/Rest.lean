import TreeWalk.Cursor

/-!
This module contains the items that a cursor has still in front of it, and what its moves take away
from them.
-/

namespace TreeWalk.Cursor

variable {α : Type}

def rest (cursor : Cursor α) : List α :=
  cursor.items.drop cursor.head

def forward (cursor : Cursor α) (count : Nat) : Cursor α :=
  cursor.moveTo (cursor.head + count)

@[simp]
theorem rest_forward (cursor : Cursor α) (count : Nat) :
    (cursor.forward count).rest = cursor.rest.drop count := by
  unfold rest forward moveTo
  rw [List.drop_drop]
  by_cases h : cursor.head + count ≤ cursor.items.length
  · simp only [Nat.min_eq_left h]
  · have hhead : min (cursor.head + count) cursor.items.length = cursor.items.length := by omega
    simp only [hhead]
    rw [List.drop_length, List.drop_eq_nil_of_le (by omega)]

@[simp]
theorem forward_zero (cursor : Cursor α) : cursor.forward 0 = cursor := by
  obtain ⟨items, head, recording, head_le⟩ := cursor
  simp only [forward, moveTo, Nat.add_zero, Nat.min_eq_left head_le]

@[simp]
theorem forward_forward (cursor : Cursor α) (count count' : Nat) :
    (cursor.forward count).forward count' = cursor.forward (count + count') := by
  simp only [forward, moveTo]
  congr 1
  omega

theorem forward_of_length_le {cursor : Cursor α} {count : Nat} (h : cursor.rest.length ≤ count) :
    cursor.forward count = cursor.forward cursor.rest.length := by
  have hle := cursor.head_le
  rw [rest, List.length_drop] at h ⊢
  simp only [forward, moveTo]
  congr 1
  omega

theorem isFinished_iff {cursor : Cursor α} : cursor.isFinished ↔ cursor.rest = [] := by
  have hle := cursor.head_le
  rw [isFinished, rest, decide_eq_true_iff, List.drop_eq_nil_iff]
  omega

theorem peek_eq (cursor : Cursor α) : cursor.peek = cursor.rest.head? := by
  rw [peek, rest, List.head?_drop]

theorem peekAt_one (cursor : Cursor α) : cursor.peekAt 1 = cursor.rest[1]? := by
  rw [rest, List.getElem?_drop]
  rfl

theorem peekAt_neg_one {cursor : Cursor α} (h : cursor.rest = []) :
    cursor.peekAt (-1) = cursor.items.getLast? := by
  obtain ⟨items, head, recording, head_le⟩ := cursor
  obtain rfl : head = items.length := by
    have hle : items.length ≤ head := List.drop_eq_nil_iff.1 h
    omega
  cases items with
  | nil => rfl
  | cons item items =>
    have hindex : ((items.length + 1 : Nat) : Int) + -1 = .ofNat items.length := by
      rw [Int.ofNat_eq_natCast]
      omega
    rw [List.getLast?_eq_getElem?]
    simp only [peekAt, List.length_cons, hindex, Nat.add_sub_cancel]

theorem rest_of_peek {cursor : Cursor α} {first : α} (h : cursor.peek = some first) :
    ∃ items, cursor.rest = first :: items := by
  rw [peek_eq] at h
  exact List.head?_eq_some_iff.1 h

theorem rest_of_peek_peekAt {cursor : Cursor α} {first second : α} (h : cursor.peek = some first)
    (h' : cursor.peekAt 1 = some second) : ∃ items, cursor.rest = first :: second :: items := by
  obtain ⟨items, hrest⟩ := rest_of_peek h
  rw [peekAt_one, hrest, List.getElem?_cons_succ, ← List.head?_eq_getElem?] at h'
  obtain ⟨items, rfl⟩ := List.head?_eq_some_iff.1 h'
  exact ⟨items, hrest⟩

theorem peek_and_any_peekAt_iff {cursor : Cursor α} {first : α} {wanted : α → Bool} :
    cursor.peek = some first ∧ (cursor.peekAt 1).any wanted ↔
      ∃ second items, cursor.rest = first :: second :: items ∧ wanted second := by
  constructor
  · rintro ⟨hpeek, hnext⟩
    obtain ⟨second, hpeekAt, hsecond⟩ := (Option.any_eq_true _ _).1 hnext
    obtain ⟨items, hrest⟩ := rest_of_peek_peekAt hpeek hpeekAt
    exact ⟨second, items, hrest, hsecond⟩
  · rintro ⟨second, items, hrest, hsecond⟩
    rw [peek_eq, peekAt_one, hrest]
    exact ⟨rfl, hsecond⟩

theorem advance_eq (cursor : Cursor α) : cursor.advance = cursor.forward 1 :=
  rfl

theorem of_skipIf_true {wanted : α → Bool} {cursor cursor' : Cursor α}
    (h : cursor.skipIf wanted = (true, cursor')) :
    cursor' = cursor.advance ∧ ∃ item, cursor.peek = some item ∧ wanted item = true := by
  unfold skipIf at h
  cases hpeek : cursor.peek with
  | none =>
    rw [hpeek] at h
    cases h
  | some item =>
    rw [hpeek] at h
    split at h
    · next hwanted =>
      cases h
      exact ⟨rfl, item, rfl, hwanted⟩
    · cases h

theorem of_skipIf_false {wanted : α → Bool} {cursor cursor' : Cursor α}
    (h : cursor.skipIf wanted = (false, cursor')) :
    cursor' = cursor ∧ ∀ item ∈ cursor.peek, wanted item = false := by
  unfold skipIf at h
  split at h
  · cases h
  · next hwanted =>
    cases h
    refine ⟨rfl, ?_⟩
    intro item hitem
    rw [Option.mem_def.1 hitem] at hwanted
    simpa using hwanted

theorem rewind_advance {cursor : Cursor α} {item : α} (h : cursor.peek = some item) :
    cursor.advance.rewind 1 = cursor := by
  obtain ⟨items, head, recording, head_le⟩ := cursor
  have hlt : head < items.length := (List.getElem?_eq_some_iff.1 h).1
  simp only [advance, rewind, moveTo, Cursor.mk.injEq, true_and, and_true]
  omega

theorem rest_eq_cons {cursor : Cursor α} {item : α} (h : cursor.peek = some item) :
    cursor.rest = item :: cursor.advance.rest := by
  obtain ⟨rest, hrest⟩ := rest_of_peek h
  rw [advance_eq, rest_forward, hrest]
  rfl

theorem length_rest_advance_lt {cursor : Cursor α} {item : α} (h : cursor.peek = some item) :
    cursor.advance.rest.length < cursor.rest.length := by
  rw [rest_eq_cons h, List.length_cons]
  exact Nat.lt_succ_self _

theorem advanceUntil_eq (cursor : Cursor α) (wanted : α → Bool) :
    cursor.advanceUntil wanted =
      let steps := (cursor.rest.takeWhile (! wanted ·)).length
      (steps, cursor.forward steps) :=
  rfl

theorem stopRecording_forward (cursor : Cursor α) (count : Nat) (reset : Bool) :
    (cursor.startRecording.forward count).stopRecording reset =
      some (cursor.rest.take count,
        { cursor.forward count with recording := if reset then none else some cursor.head }) := by
  have hwritten :
      (cursor.items.take (min (cursor.head + count) cursor.items.length)).drop cursor.head =
      cursor.rest.take count := by
    rw [rest, List.drop_take, List.take_eq_take_iff, List.length_drop]
    omega
  simp only [stopRecording, forward, moveTo, startRecording, Option.map_some, hwritten]
  cases reset <;> rfl

end TreeWalk.Cursor
