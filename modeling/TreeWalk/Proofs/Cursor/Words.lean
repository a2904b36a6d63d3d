import TreeWalk.Proofs.Cursor.Clamped

/-!
This module contains a cursor that counts in machine words, and the proof that it answers like a
cursor that counts in numbers. None of its moves gets out of its list, and no sum that wraps around
shows.
-/

namespace TreeWalk

/--
A list of items, and words for the place of the head and for that where a recording was started.
They may be any words, but the list is not longer than a signed word can tell.
-/
structure WordCursor (α : Type) where
  items : List α
  head : UInt64
  recording : Option UInt64
  fits : (items.length : Int) ≤ Int64.maxValue.toInt

namespace WordCursor

open Cursor (Move Answer)

variable {α : Type}

def ofList (items : List α) (fits : (items.length : Int) ≤ Int64.maxValue.toInt) : WordCursor α :=
  ⟨items, 0, none, fits⟩

theorem length_items_lt (words : WordCursor α) : words.items.length < 0x8000000000000000 := by
  have hmax : Int64.maxValue.toInt = 0x7FFFFFFFFFFFFFFF := rfl
  have hfits := words.fits
  omega

def length (words : WordCursor α) : UInt64 :=
  words.items.length.toUInt64

theorem toNat_length (words : WordCursor α) : words.length.toNat = words.items.length :=
  UInt64.toNat_ofNat_of_lt' (Nat.lt_trans words.length_items_lt (by decide))

def peek (words : WordCursor α) : Option α :=
  words.items[words.head.toNat]?

def peekAt (words : WordCursor α) (offset : Int64) : Option α :=
  let index := words.head.toInt64 + offset
  if index < 0 then none else words.items[index.toUInt64.toNat]?

def isFinished (words : WordCursor α) : Bool :=
  words.length ≤ words.head

def advance (words : WordCursor α) : WordCursor α :=
  if words.head < words.length then { words with head := words.head + 1 } else words

theorem items_advance (words : WordCursor α) : words.advance.items = words.items := by
  unfold advance
  split <;> rfl

theorem recording_advance (words : WordCursor α) : words.advance.recording = words.recording := by
  unfold advance
  split <;> rfl

theorem toNat_head_advance (words : WordCursor α) :
    words.advance.head.toNat =
      if words.head.toNat < words.items.length then words.head.toNat + 1 else words.head.toNat := by
  have hlength := words.length_items_lt
  simp only [advance, UInt64.lt_iff_toNat_lt, toNat_length]
  split
  · rw [UInt64.toNat_add, UInt64.toNat_one]
    omega
  · rfl

def consume (words : WordCursor α) : Option α × WordCursor α :=
  (words.peek, words.advance)

def rewind (words : WordCursor α) (count : UInt64) : WordCursor α :=
  { words with head := if count ≤ words.head then words.head - count else 0 }

def matchAny (words : WordCursor α) (candidates : List (α → Bool)) : Bool × WordCursor α :=
  match words.peek with
  | some item => if candidates.any (· item) then (true, words.advance) else (false, words)
  | none => (false, words)

def advanceUntil (target : α → Bool) (steps : UInt64) (words : WordCursor α) :
    UInt64 × WordCursor α :=
  match hpeek : words.peek with
  | some item =>
    if target item then (steps, words) else advanceUntil target (steps + 1) words.advance
  | none => (steps, words)
termination_by words.items.length - words.head.toNat
decreasing_by
  obtain ⟨hlt, _⟩ := List.getElem?_eq_some_iff.1 hpeek
  rw [toNat_head_advance, if_pos hlt, items_advance]
  omega

theorem advanceUntil_of_stop {target : α → Bool} {steps : UInt64} {words : WordCursor α}
    (h : ∀ item ∈ words.peek, target item = true) :
    advanceUntil target steps words = (steps, words) := by
  rw [advanceUntil]
  split
  · next item hpeek => exact if_pos (h item hpeek)
  · rfl

theorem advanceUntil_of_pass {target : α → Bool} {steps : UInt64} {words : WordCursor α} {item : α}
    (hpeek : words.peek = some item) (htarget : target item = false) :
    advanceUntil target steps words = advanceUntil target (steps + 1) words.advance := by
  rw [advanceUntil]
  split
  · next item' hpeek' =>
    cases hpeek.symm.trans hpeek'
    exact if_neg (Bool.eq_false_iff.1 htarget)
  · next hpeek' => cases hpeek.symm.trans hpeek'

def startRecording (words : WordCursor α) : WordCursor α :=
  { words with recording := some words.head }

def slice? (items : List α) (start stop : UInt64) : Option (List α) :=
  if start ≤ stop ∧ stop.toNat ≤ items.length then some (items.extract start.toNat stop.toNat)
  else none

def stopRecording (words : WordCursor α) (reset : Bool) : Option (Answer α × WordCursor α) :=
  match words.recording with
  | none => some (.failure Cursor.noRecordingMessage, words)
  | some start =>
    let after := if reset then { words with recording := none } else words
    (slice? words.items (if start ≤ words.head then start else words.head) words.head).map
      (.recorded ·, after)

def step (words : WordCursor α) : Move α → Option (Answer α × WordCursor α)
  | .peek => some (.item words.peek, words)
  | .peekAt offset => some (.item (words.peekAt offset), words)
  | .isFinished => some (.flag words.isFinished, words)
  | .advance => some (.done, words.advance)
  | .consume => some (words.consume.map .item id)
  | .rewind count => some (.done, words.rewind count)
  | .matchAny candidates => some ((words.matchAny candidates).map .flag id)
  | .advanceUntil target => some ((advanceUntil target 0 words).map (.count ·.toNat) id)
  | .startRecording => some (.done, words.startRecording)
  | .stopRecording reset => words.stopRecording reset

def after (words : WordCursor α) (moves : List (Move α)) : Option (WordCursor α) :=
  moves.foldlM (fun words move => (words.step move).map Prod.snd) words

structure Represents (words : WordCursor α) (cursor : Cursor α) : Prop where
  items : words.items = cursor.items
  head : words.head.toNat = cursor.head
  recording : words.recording.map UInt64.toNat = cursor.recording

namespace Represents

variable {words : WordCursor α} {cursor : Cursor α}

theorem peek (h : words.Represents cursor) : words.peek = cursor.peek := by
  rw [WordCursor.peek, Cursor.peek, h.items, h.head]

theorem length_items_lt (h : words.Represents cursor) : cursor.items.length < 0x8000000000000000 :=
  h.items ▸ words.length_items_lt

theorem peekAt (h : words.Represents cursor) (offset : Int64) :
    words.peekAt offset = cursor.peekAt offset.toInt := by
  have hlength := h.length_items_lt
  have hle := cursor.head_le
  have hhead : words.head.toInt64.toInt = cursor.head := by
    rw [← UInt64.ofNat_toNat (x := words.head), h.head, UInt64.toInt64_ofNat']
    exact Int64.toInt_ofNat_of_lt (Nat.lt_of_le_of_lt hle hlength)
  have hlower := offset.le_toInt
  have hupper := offset.toInt_lt
  -- the sum of the words is right, or it has wrapped around and is negative
  have hsum : (words.head.toInt64 + offset).toInt = cursor.head + offset.toInt ∨
      (words.head.toInt64 + offset).toInt < 0 ∧
      (cursor.items.length : Int) ≤ cursor.head + offset.toInt := by
    rw [Int64.toInt_add, hhead, Int.bmod_def]
    split <;> omega
  simp only [WordCursor.peekAt, Int64.lt_iff_toInt_lt, Int64.toInt_zero, h.items]
  split
  · next hnegative =>
    obtain hsum | ⟨_, houtside⟩ := hsum
    · exact (Cursor.peekAt_of_neg (hsum ▸ hnegative)).symm
    · obtain ⟨place, hplace⟩ :=
        Int.eq_ofNat_of_zero_le (Int.le_trans (Int.natCast_nonneg _) houtside)
      rw [Cursor.peekAt_of_eq hplace.symm, List.getElem?_eq_none (by omega)]
  · next hnonneg =>
    obtain hsum | ⟨hnegative, _⟩ := hsum
    · have hle' : 0 ≤ words.head.toInt64 + offset := by
        rw [Int64.le_iff_toInt_le, Int64.toInt_zero]
        exact Int.not_lt.1 hnonneg
      rw [Int64.toNat_toUInt64_of_le hle', ← Int64.toNat_toInt, hsum]
      exact (Cursor.peekAt_of_eq (by omega)).symm
    · exact absurd hnegative hnonneg

theorem isFinished (h : words.Represents cursor) : words.isFinished = cursor.isFinished := by
  have hle := cursor.head_le
  rw [WordCursor.isFinished, Cursor.isFinished, decide_eq_decide, UInt64.le_iff_toNat_le,
    toNat_length, h.items, h.head]
  omega

theorem advance (h : words.Represents cursor) : words.advance.Represents cursor.advance := by
  have hle := cursor.head_le
  refine ⟨words.items_advance.trans h.items, ?_, words.recording_advance ▸ h.recording⟩
  show words.advance.head.toNat = min (cursor.head + 1) cursor.items.length
  rw [toNat_head_advance, h.head, h.items]
  split <;> omega

theorem rewind (h : words.Represents cursor) (count : UInt64) :
    (words.rewind count).Represents (cursor.rewind count.toNat) := by
  have hle := cursor.head_le
  refine ⟨h.items, ?_, h.recording⟩
  show (if _ then _ else _ : UInt64).toNat = min (cursor.head - count.toNat) cursor.items.length
  split
  · next hcount =>
    rw [UInt64.toNat_sub_of_le _ _ hcount, h.head]
    omega
  · next hcount =>
    rw [UInt64.le_iff_toNat_le, h.head] at hcount
    rw [UInt64.toNat_zero]
    omega

theorem matchAny (h : words.Represents cursor) (candidates : List (α → Bool)) :
    let moved := cursor.skipIf fun item => candidates.any (· item)
    (words.matchAny candidates).1 = moved.1 ∧ (words.matchAny candidates).2.Represents moved.2 := by
  simp only [WordCursor.matchAny, Cursor.skipIf, h.peek]
  cases cursor.peek with
  | none => exact ⟨rfl, h⟩
  | some item =>
    simp only [Option.any_some]
    split
    · exact ⟨rfl, h.advance⟩
    · exact ⟨rfl, h⟩

theorem advanceUntil (h : words.Represents cursor) (target : α → Bool) {steps : UInt64}
    (hsteps : steps.toNat + cursor.rest.length < 0x8000000000000000) :
    let moved := WordCursor.advanceUntil target steps words
    moved.1.toNat = steps.toNat + (cursor.advanceUntil target).1 ∧
      moved.2.Represents (cursor.advanceUntil target).2 := by
  intro moved
  induction hrest : cursor.rest generalizing words cursor steps with
  | nil =>
    have hpeek : cursor.peek = none := by rw [Cursor.peek_eq, hrest, List.head?_nil]
    have hmoved : moved = (steps, words) := advanceUntil_of_stop (by simp [h.peek, hpeek])
    rw [Cursor.advanceUntil_of_stop (by simp [hpeek]), hmoved]
    exact ⟨rfl, h⟩
  | cons item rest ih =>
    have hpeek : cursor.peek = some item := by rw [Cursor.peek_eq, hrest, List.head?_cons]
    cases htarget : target item with
    | true =>
      have hmoved : moved = (steps, words) :=
        advanceUntil_of_stop (by simpa [h.peek, hpeek] using htarget)
      rw [Cursor.advanceUntil_of_stop (by simpa [hpeek] using htarget), hmoved]
      exact ⟨rfl, h⟩
    | false =>
      have hadvance : cursor.rest = item :: cursor.advance.rest := Cursor.rest_eq_cons hpeek
      have hmoved : moved = WordCursor.advanceUntil target (steps + 1) words.advance :=
        advanceUntil_of_pass (h.peek.trans hpeek) htarget
      rw [hadvance] at hrest hsteps
      cases hrest
      rw [List.length_cons] at hsteps
      have hstep : (steps + 1).toNat = steps.toNat + 1 := by
        rw [UInt64.toNat_add, UInt64.toNat_one]
        omega
      have hsteps' : (steps + 1).toNat + cursor.advance.rest.length < 0x8000000000000000 := by omega
      obtain ⟨hcount, hwords⟩ := ih h.advance hsteps' rfl
      rw [Cursor.advanceUntil_of_pass hpeek htarget, hmoved]
      refine ⟨?_, hwords⟩
      rw [hcount, hstep]
      omega

theorem slice (h : words.Represents cursor) (start : UInt64) :
    slice? words.items (if start ≤ words.head then start else words.head) words.head =
      some ((cursor.items.take cursor.head).drop start.toNat) := by
  have hstart : (if start ≤ words.head then start else words.head).toNat =
      min start.toNat cursor.head := by
    rw [← h.head]
    split
    · next hle => exact (Nat.min_eq_left (UInt64.le_iff_toNat_le.1 hle)).symm
    · next hgt => exact (Nat.min_eq_right (Nat.le_of_not_le (mt UInt64.le_iff_toNat_le.2 hgt))).symm
  have hle : (if start ≤ words.head then start else words.head) ≤ words.head := by
    rw [UInt64.le_iff_toNat_le, hstart, h.head]
    exact Nat.min_le_right _ _
  have hfits : words.head.toNat ≤ words.items.length := by
    rw [h.head, h.items]
    exact cursor.head_le
  rw [slice?, if_pos ⟨hle, hfits⟩, hstart, h.head, h.items, Cursor.drop_take_eq_extract]

theorem stopRecording (h : words.Represents cursor) (reset : Bool) :
    ∃ words', words.stopRecording reset = some ((cursor.step (.stopRecording reset)).1, words') ∧
      words'.Represents (cursor.step (.stopRecording reset)).2 := by
  have hrecording := h.recording
  simp only [WordCursor.stopRecording, Cursor.step, Cursor.stopRecording]
  cases hstart : words.recording with
  | none =>
    rw [hstart] at hrecording
    rw [← hrecording]
    exact ⟨words, rfl, h⟩
  | some start =>
    rw [hstart] at hrecording
    simp only [← hrecording, h.slice start]
    cases reset with
    | true => exact ⟨_, rfl, h.items, h.head, rfl⟩
    | false => exact ⟨words, rfl, h⟩

theorem step (h : words.Represents cursor) (move : Move α) :
    ∃ words', words.step move = some ((cursor.step move).1, words') ∧
      words'.Represents (cursor.step move).2 := by
  cases move with
  | peek => exact ⟨words, by rw [WordCursor.step, h.peek]; rfl, h⟩
  | peekAt offset => exact ⟨words, by rw [WordCursor.step, h.peekAt]; rfl, h⟩
  | isFinished => exact ⟨words, by rw [WordCursor.step, h.isFinished]; rfl, h⟩
  | advance => exact ⟨words.advance, rfl, h.advance⟩
  | consume =>
    exact ⟨words.advance, by rw [WordCursor.step, WordCursor.consume, h.peek]; rfl, h.advance⟩
  | rewind count => exact ⟨words.rewind count, rfl, h.rewind count⟩
  | matchAny candidates =>
    obtain ⟨hfound, hmoved⟩ := h.matchAny candidates
    exact ⟨_,
      congrArg (fun found => some (Answer.flag found, (words.matchAny candidates).2)) hfound,
      hmoved⟩
  | advanceUntil target =>
    have hsteps : (0 : UInt64).toNat + cursor.rest.length < 0x8000000000000000 := by
      rw [UInt64.toNat_zero, Nat.zero_add, Cursor.rest, List.length_drop]
      exact Nat.lt_of_le_of_lt (Nat.sub_le _ _) h.length_items_lt
    obtain ⟨hcount, hmoved⟩ := h.advanceUntil target hsteps
    rw [UInt64.toNat_zero, Nat.zero_add] at hcount
    exact ⟨_,
      congrArg (fun count => some (Answer.count count, (WordCursor.advanceUntil target 0 words).2))
        hcount, hmoved⟩
  | startRecording => exact ⟨words.startRecording, rfl, h.items, h.head, congrArg some h.head⟩
  | stopRecording reset => exact h.stopRecording reset

theorem after (h : words.Represents cursor) (moves : List (Move α)) :
    ∃ words', words.after moves = some words' ∧ words'.Represents (cursor.after moves) := by
  induction moves generalizing words cursor with
  | nil => exact ⟨words, rfl, h⟩
  | cons move moves ih =>
    obtain ⟨words', hstep, hwords'⟩ := h.step move
    obtain ⟨words'', hafter, hwords''⟩ := ih hwords'
    refine ⟨words'', ?_, hwords''⟩
    rw [WordCursor.after, List.foldlM_cons, hstep]
    exact hafter

theorem ofList (items : List α) (fits : (items.length : Int) ≤ Int64.maxValue.toInt) :
    (WordCursor.ofList items fits).Represents (.ofList items) :=
  ⟨rfl, rfl, rfl⟩

end Represents

theorem eq_of_step_failure {words words' : WordCursor α} {move : Move α} {message : String}
    (h : words.step move = some (.failure message, words')) : words' = words := by
  cases move with
  | stopRecording reset =>
    rw [step, stopRecording] at h
    split at h
    · cases h
      rfl
    · obtain ⟨_, _, hanswer⟩ := Option.map_eq_some_iff.1 h
      cases hanswer
  | _ => cases h

end WordCursor

/--
After any moves, a cursor of words answers the next move as an index does that is kept between the
ends of its list. Its head is such an index, and its recording is the one that was started last, if
it has not been ended.
-/
theorem cursor_refines_clamped_index {α : Type} {items : List α}
    (hfits : (items.length : Int) ≤ Int64.maxValue.toInt) (moves : List (Cursor.Move α))
    (move : Cursor.Move α) :
    let cursor := (Cursor.ofList items).after moves
    (∃ words words',
      (WordCursor.ofList items hfits).after moves = some words ∧ words.Represents cursor ∧
      words.step move = some ((cursor.step move).1, words') ∧
      words'.Represents (cursor.step move).2 ∧
      ∀ message, (cursor.step move).1 = .failure message → words' = words) ∧
    cursor.items = items ∧ cursor.head ≤ items.length ∧
    (∀ start, cursor.recording = some start ↔ Cursor.RecordedFrom items moves start) ∧
    ∀ answer head, Cursor.Clamped items cursor.recording cursor.head move answer head ↔
      answer = (cursor.step move).1 ∧ head = (cursor.step move).2.head := by
  intro cursor
  have hitems : cursor.items = items := Cursor.items_after _ _
  have hclamped := cursor.clamped_step move
  obtain ⟨words, hafter, hwords⟩ := (WordCursor.Represents.ofList items hfits).after moves
  obtain ⟨words', hstep, hwords'⟩ := hwords.step move
  rw [hitems] at hclamped
  refine ⟨⟨words, words', hafter, hwords, hstep, hwords', ?_⟩, hitems,
    hitems ▸ cursor.head_le, ?_, ?_⟩
  · intro message hmessage
    exact WordCursor.eq_of_step_failure (hmessage ▸ hstep)
  · intro start
    exact Cursor.recording_after_iff
  · intro answer head
    constructor
    · intro h
      exact h.unique hclamped
    · rintro ⟨rfl, rfl⟩
      exact hclamped

theorem cursor_refines_clamped_index_of_wrapped_sum :
    let items := [1, 2]
    let move : Cursor.Move Nat := .peekAt Int64.maxValue
    ∃ (hfits : (items.length : Int) ≤ Int64.maxValue.toInt) (words : WordCursor Nat),
      (WordCursor.ofList items hfits).after [.advance] = some words ∧
      words.head.toInt64 + Int64.maxValue < 0 ∧
      (words.step move).map Prod.fst = some (.item none) ∧
      Cursor.Clamped items none 1 move (.item none) 1 := by
  intro items move
  have hfits : (items.length : Int) ≤ Int64.maxValue.toInt := by decide
  have hafter : (WordCursor.ofList items hfits).after [.advance] = some ⟨items, 1, none, hfits⟩ :=
    rfl
  obtain ⟨⟨_, _, hafter', _, hstep, _⟩, _, _, _, hclamped⟩ :=
    cursor_refines_clamped_index hfits [.advance] move
  cases hafter.symm.trans hafter'
  have hwraps : (1 : UInt64).toInt64 + Int64.maxValue < 0 := by decide
  exact ⟨hfits, _, hafter, hwraps, congrArg (Option.map Prod.fst) hstep,
    (hclamped _ _).2 ⟨rfl, rfl⟩⟩

end TreeWalk
