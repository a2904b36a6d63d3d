import TreeWalk.Proofs.Cursor.Rest

/-!
This module contains what the moves of a cursor come to for an index into its list that never leaves
the list.
-/

namespace TreeWalk.Cursor

/--
A move with the arguments that a machine can give to it. An item is compared with another one by a
test, which need not be an equality.
-/
inductive Move (α : Type)
  | peek
  | peekAt (offset : Int64)
  | isFinished
  | advance
  | consume
  | rewind (count : UInt64)
  | matchAny (candidates : List (α → Bool))
  | advanceUntil (target : α → Bool)
  | startRecording
  | stopRecording (reset : Bool)

inductive Answer (α : Type)
  | done
  | item (found : Option α)
  | flag (holds : Bool)
  | count (steps : Nat)
  | recorded (items : List α)
  | failure (message : String)

def Move.keepsRecording {α : Type} : Move α → Bool
  | startRecording | stopRecording true => false
  | _ => true

variable {α : Type}

def step (cursor : Cursor α) : Move α → Answer α × Cursor α
  | .peek => (.item cursor.peek, cursor)
  | .peekAt offset => (.item (cursor.peekAt offset.toInt), cursor)
  | .isFinished => (.flag cursor.isFinished, cursor)
  | .advance => (.done, cursor.advance)
  | .consume => cursor.consume.map .item id
  | .rewind count => (.done, cursor.rewind count.toNat)
  | .matchAny candidates => (cursor.skipIf fun item => candidates.any (· item)).map .flag id
  | .advanceUntil target => (cursor.advanceUntil target).map .count id
  | .startRecording => (.done, cursor.startRecording)
  | .stopRecording reset =>
    match cursor.stopRecording reset with
    | some (items, cursor) => (.recorded items, cursor)
    | none => (.failure noRecordingMessage, cursor)

def after (cursor : Cursor α) (moves : List (Move α)) : Cursor α :=
  moves.foldl (fun cursor move => (cursor.step move).2) cursor

/--
The answer to a move at an index between the two ends of a list, and the index that it leads to.
There may be a recording that was started at some other index.
-/
inductive Clamped (items : List α) (start : Option Nat) (index : Nat) :
    Move α → Answer α → Nat → Prop
  | peek : Clamped items start index .peek (.item items[index]?) index
  | peekAt {offset : Int64} {place : Nat} {item : α} (hplace : (place : Int) = index + offset.toInt)
    (hitem : items[place]? = some item) :
    Clamped items start index (.peekAt offset) (.item (some item)) index
  | peekOutside {offset : Int64}
    (houtside : ∀ place : Nat, (place : Int) = index + offset.toInt → items.length ≤ place) :
    Clamped items start index (.peekAt offset) (.item none) index
  | isFinished : Clamped items start index .isFinished (.flag (index = items.length)) index
  | advance : Clamped items start index .advance .done (min (index + 1) items.length)
  | consume :
    Clamped items start index .consume (.item items[index]?) (min (index + 1) items.length)
  | rewind {count : UInt64} : Clamped items start index (.rewind count) .done (index - count.toNat)
  | matched {candidates : List (α → Bool)} {candidate : α → Bool} {item : α}
    (hitem : items[index]? = some item) (hmember : candidate ∈ candidates)
    (hmatch : candidate item = true) :
    Clamped items start index (.matchAny candidates) (.flag true) (index + 1)
  | unmatched {candidates : List (α → Bool)}
    (hmatch : ∀ item, items[index]? = some item →
      ∀ candidate ∈ candidates, candidate item = false) :
    Clamped items start index (.matchAny candidates) (.flag false) index
  | advanceUntil {target : α → Bool} {steps : Nat}
    (hpassed : ∀ place, index ≤ place → place < index + steps → ∃ item, items[place]? = some item ∧
      target item = false)
    (hstop : ∀ item, items[index + steps]? = some item → target item = true) :
    Clamped items start index (.advanceUntil target) (.count steps) (index + steps)
  | startRecording : Clamped items start index .startRecording .done index
  | stopRecording {reset : Bool} {place : Nat} (hstart : start = some place) :
    Clamped items start index (.stopRecording reset)
      (.recorded (items.extract (min place index) index)) index
  | noRecording {reset : Bool} (hstart : start = none) :
    Clamped items start index (.stopRecording reset) (.failure noRecordingMessage) index

namespace Clamped

variable {items : List α} {start : Option Nat} {index index' index'' : Nat} {move : Move α}
  {answer answer' : Answer α}

theorem le_of_passed {target : α → Bool} {steps steps' : Nat}
    (hpassed : ∀ place, index ≤ place → place < index + steps → ∃ item, items[place]? = some item ∧
      target item = false)
    (hstop : ∀ item, items[index + steps']? = some item → target item = true) : steps ≤ steps' := by
  apply Nat.le_of_not_lt
  intro hlt
  obtain ⟨item, hitem, hpass⟩ :=
    hpassed (index + steps') (Nat.le_add_right _ _) (Nat.add_lt_add_left hlt _)
  cases hpass.symm.trans (hstop item hitem)

theorem unique (h : Clamped items start index move answer index')
    (h' : Clamped items start index move answer' index'') :
    answer = answer' ∧ index' = index'' := by
  cases h with
  | peek | isFinished | advance | consume | rewind | startRecording =>
    cases h'
    exact ⟨rfl, rfl⟩
  | peekAt hplace hitem =>
    cases h' with
    | peekAt hplace' hitem' =>
      obtain rfl := Int.ofNat.inj (hplace.trans hplace'.symm)
      cases hitem.symm.trans hitem'
      exact ⟨rfl, rfl⟩
    | peekOutside houtside =>
      have hle := houtside _ hplace
      rw [List.getElem?_eq_none hle] at hitem
      cases hitem
  | peekOutside houtside =>
    cases h' with
    | peekAt hplace hitem =>
      have hle := houtside _ hplace
      rw [List.getElem?_eq_none hle] at hitem
      cases hitem
    | peekOutside => exact ⟨rfl, rfl⟩
  | matched hitem hmember hmatch =>
    cases h' with
    | matched => exact ⟨rfl, rfl⟩
    | unmatched hmatch' => cases hmatch.symm.trans (hmatch' _ hitem _ hmember)
  | unmatched hmatch =>
    cases h' with
    | matched hitem hmember hmatch' => cases hmatch'.symm.trans (hmatch _ hitem _ hmember)
    | unmatched => exact ⟨rfl, rfl⟩
  | @advanceUntil _ steps hpassed hstop =>
    cases h' with
    | @advanceUntil _ steps' hpassed' hstop' =>
      obtain rfl := Nat.le_antisymm (le_of_passed hpassed hstop') (le_of_passed hpassed' hstop)
      exact ⟨rfl, rfl⟩
  | stopRecording hstart =>
    cases h' with
    | stopRecording hstart' =>
      cases hstart.symm.trans hstart'
      exact ⟨rfl, rfl⟩
    | noRecording hstart' => cases hstart.symm.trans hstart'
  | noRecording hstart =>
    cases h' with
    | stopRecording hstart' => cases hstart.symm.trans hstart'
    | noRecording => exact ⟨rfl, rfl⟩

end Clamped

theorem peekAt_of_eq {cursor : Cursor α} {offset : Int} {place : Nat}
    (h : (place : Int) = cursor.head + offset) :
    cursor.peekAt offset = cursor.items[place]? := by
  rw [peekAt, ← h]

theorem peekAt_of_neg {cursor : Cursor α} {offset : Int} (h : cursor.head + offset < 0) :
    cursor.peekAt offset = none := by
  unfold peekAt
  split
  · next hplace => exact absurd h (hplace ▸ Int.not_lt.2 (Int.natCast_nonneg _))
  · rfl

theorem clamped_peekAt (cursor : Cursor α) (offset : Int64) :
    Clamped cursor.items cursor.recording cursor.head (.peekAt offset)
      (.item (cursor.peekAt offset.toInt)) cursor.head := by
  by_cases hnegative : cursor.head + offset.toInt < 0
  · rw [peekAt_of_neg hnegative]
    exact .peekOutside fun place hplace => by omega
  · obtain ⟨place, hplace⟩ := Int.eq_ofNat_of_zero_le (Int.not_lt.1 hnegative)
    rw [peekAt_of_eq hplace.symm]
    cases hitem : cursor.items[place]? with
    | some item => exact .peekAt hplace.symm hitem
    | none =>
      apply Clamped.peekOutside
      intro place' hplace'
      obtain rfl := Int.ofNat.inj (hplace'.trans hplace)
      exact List.getElem?_eq_none_iff.1 hitem

theorem clamped_matchAny (cursor : Cursor α) (candidates : List (α → Bool)) :
    let moved := cursor.skipIf fun item => candidates.any (· item)
    Clamped cursor.items cursor.recording cursor.head (.matchAny candidates)
      (.flag moved.1) moved.2.head := by
  intro moved
  cases hmoved : moved with
  | mk found cursor' =>
    cases found with
    | true =>
      obtain ⟨rfl, item, hitem, hfound⟩ := of_skipIf_true hmoved
      obtain ⟨candidate, hmember, hmatch⟩ := List.any_eq_true.1 hfound
      have hlt : cursor.head < cursor.items.length := (List.getElem?_eq_some_iff.1 hitem).1
      have hhead : cursor.advance.head = cursor.head + 1 := Nat.min_eq_left hlt
      rw [hhead]
      exact .matched hitem hmember hmatch
    | false =>
      obtain ⟨rfl, hunmatched⟩ := of_skipIf_false hmoved
      apply Clamped.unmatched
      intro item hitem candidate hmember
      exact Bool.eq_false_iff.2 (List.any_eq_false.1 (hunmatched item hitem) candidate hmember)

theorem advanceUntil_fst (cursor : Cursor α) (target : α → Bool) :
    (cursor.advanceUntil target).1 = cursor.rest.findIdx target := by
  have hnot : (fun item => ! ! target item) = target := funext fun item => Bool.not_not _
  rw [advanceUntil_eq, List.takeWhile_eq_take_findIdx_not, List.length_take, hnot,
    Nat.min_eq_left List.findIdx_le_length]

theorem advanceUntil_of_stop {cursor : Cursor α} {target : α → Bool}
    (h : ∀ item ∈ cursor.peek, target item = true) : cursor.advanceUntil target = (0, cursor) := by
  rw [advanceUntil_eq]
  cases hrest : cursor.rest with
  | nil => exact Prod.ext rfl cursor.forward_zero
  | cons item rest =>
    have htarget := h item (by rw [peek_eq, hrest]; rfl)
    simp [htarget]

theorem advanceUntil_of_pass {cursor : Cursor α} {target : α → Bool} {item : α}
    (hpeek : cursor.peek = some item) (htarget : target item = false) :
    cursor.advanceUntil target =
      ((cursor.advance.advanceUntil target).1 + 1, (cursor.advance.advanceUntil target).2) := by
  simp only [advanceUntil_eq, rest_eq_cons hpeek, htarget, Bool.not_false, List.takeWhile_cons,
    if_true, List.length_cons, advance_eq, forward_forward, Nat.add_comm 1]

theorem clamped_advanceUntil (cursor : Cursor α) (target : α → Bool) :
    let moved := cursor.advanceUntil target
    Clamped cursor.items cursor.recording cursor.head (.advanceUntil target)
      (.count moved.1) moved.2.head := by
  intro moved
  have hsteps : moved.1 = cursor.rest.findIdx target := cursor.advanceUntil_fst target
  have hlength : cursor.rest.length = cursor.items.length - cursor.head := List.length_drop
  have hhead : moved.2.head = cursor.head + moved.1 := by
    have hle : moved.1 ≤ cursor.rest.length := hsteps ▸ List.findIdx_le_length
    have hfits : cursor.head + moved.1 ≤ cursor.items.length := by
      have head_le := cursor.head_le
      omega
    exact Nat.min_eq_left hfits
  rw [hhead]
  apply Clamped.advanceUntil
  · intro place hle hlt
    obtain ⟨step, rfl⟩ := Nat.exists_eq_add_of_le hle
    have hstep : step < cursor.rest.findIdx target := by omega
    have hitem := List.getElem?_eq_getElem (Nat.lt_of_lt_of_le hstep List.findIdx_le_length)
    rw [← List.getElem?_drop]
    exact ⟨_, hitem, List.not_of_lt_findIdx hstep⟩
  · intro item hitem
    rw [hsteps, ← List.getElem?_drop] at hitem
    obtain ⟨hlt, rfl⟩ := List.getElem?_eq_some_iff.1 hitem
    exact List.findIdx_getElem

theorem drop_take_eq_extract (items : List α) (start stop : Nat) :
    (items.take stop).drop start = items.extract (min start stop) stop := by
  rw [List.drop_take, List.extract_eq_take_drop]
  by_cases h : start ≤ stop
  · rw [Nat.min_eq_left h]
  · have hnone : stop - start = 0 := by omega
    rw [Nat.min_eq_right (by omega), hnone, Nat.sub_self, List.take_zero, List.take_zero]

theorem clamped_step (cursor : Cursor α) (move : Move α) :
    Clamped cursor.items cursor.recording cursor.head move (cursor.step move).1
      (cursor.step move).2.head := by
  cases move with
  | peek => exact .peek
  | peekAt offset => exact cursor.clamped_peekAt offset
  | isFinished => exact .isFinished
  | advance => exact .advance
  | consume => exact .consume
  | rewind count =>
    have hhead : min (cursor.head - count.toNat) cursor.items.length =
        cursor.head - count.toNat := by
      have hle := cursor.head_le
      omega
    show Clamped _ _ _ _ _ (min _ _)
    rw [hhead]
    exact .rewind
  | matchAny candidates => exact cursor.clamped_matchAny candidates
  | advanceUntil target => exact cursor.clamped_advanceUntil target
  | startRecording => exact .startRecording
  | stopRecording reset =>
    simp only [step, stopRecording]
    cases hstart : cursor.recording with
    | none => exact .noRecording rfl
    | some start =>
      simp only [Option.map_some, drop_take_eq_extract]
      cases reset <;> exact .stopRecording rfl

/--
A recording is going on behind the moves, and the last start of a recording among them was where the
head is `start`.
-/
def RecordedFrom (items : List α) (moves : List (Move α)) (start : Nat) : Prop :=
  ∃ earlier later, moves = earlier ++ .startRecording :: later ∧
    (∀ move ∈ later, move.keepsRecording = true) ∧
    ((ofList items).after earlier).head = start

theorem after_cons (cursor : Cursor α) (move : Move α) (moves : List (Move α)) :
    cursor.after (move :: moves) = (cursor.step move).2.after moves :=
  rfl

theorem after_append (cursor : Cursor α) (moves moves' : List (Move α)) :
    cursor.after (moves ++ moves') = (cursor.after moves).after moves' :=
  List.foldl_append

theorem items_step (cursor : Cursor α) (move : Move α) :
    (cursor.step move).2.items = cursor.items := by
  cases move with
  | matchAny candidates =>
    simp only [step, skipIf]
    split <;> rfl
  | stopRecording reset =>
    simp only [step, stopRecording]
    cases cursor.recording with
    | none => rfl
    | some start => cases reset <;> rfl
  | _ => rfl

theorem items_after (cursor : Cursor α) (moves : List (Move α)) :
    (cursor.after moves).items = cursor.items := by
  induction moves generalizing cursor with
  | nil => rfl
  | cons move moves ih => rw [after_cons, ih, items_step]

theorem recording_step_of_keepsRecording {move : Move α} (h : move.keepsRecording = true)
    (cursor : Cursor α) :
    (cursor.step move).2.recording = cursor.recording := by
  cases move with
  | startRecording => cases h
  | matchAny candidates =>
    simp only [step, skipIf]
    split <;> rfl
  | stopRecording reset =>
    cases reset with
    | true => cases h
    | false =>
      simp only [step, stopRecording]
      cases hstart : cursor.recording <;> simp [hstart]
  | _ => rfl

theorem recording_step_cases (cursor : Cursor α) (move : Move α) :
    move.keepsRecording = true ∧ (cursor.step move).2.recording = cursor.recording ∨
      move = .startRecording ∧ (cursor.step move).2.recording = some cursor.head ∨
      (cursor.step move).2.recording = none := by
  cases hkeeps : move.keepsRecording with
  | true => exact .inl ⟨rfl, recording_step_of_keepsRecording hkeeps cursor⟩
  | false =>
    cases move with
    | startRecording => exact .inr (.inl ⟨rfl, rfl⟩)
    | stopRecording reset =>
      cases reset with
      | true =>
        right; right
        simp only [step, stopRecording]
        cases hstart : cursor.recording <;> simp [hstart]
      | false => cases hkeeps
    | _ => cases hkeeps

theorem recording_after_of_keepsRecording {moves : List (Move α)}
    (h : ∀ move ∈ moves, move.keepsRecording = true) (cursor : Cursor α) :
    (cursor.after moves).recording = cursor.recording := by
  induction moves generalizing cursor with
  | nil => rfl
  | cons move moves ih =>
    rw [List.forall_mem_cons] at h
    rw [after_cons, ih h.2, recording_step_of_keepsRecording h.1]

theorem recording_after_cases {cursor : Cursor α} {moves : List (Move α)} {start : Nat}
    (h : (cursor.after moves).recording = some start) :
    cursor.recording = some start ∨
      ∃ earlier later, moves = earlier ++ .startRecording :: later ∧
        (∀ move ∈ later, move.keepsRecording = true) ∧ (cursor.after earlier).head = start := by
  suffices (cursor.recording = some start ∧ ∀ move ∈ moves, move.keepsRecording = true) ∨
      _ from this.imp_left And.left
  induction moves generalizing cursor with
  | nil => exact .inl ⟨h, nofun⟩
  | cons move moves ih =>
    obtain ⟨hstart, hkeeps⟩ | ⟨earlier, later, rfl, hlater, hhead⟩ := ih h
    · obtain ⟨hkeep, hrecording⟩ | ⟨rfl, hrecording⟩ | hrecording :=
        cursor.recording_step_cases move
      · exact .inl ⟨hrecording.symm.trans hstart, List.forall_mem_cons.2 ⟨hkeep, hkeeps⟩⟩
      · exact .inr ⟨[], moves, rfl, hkeeps, Option.some.inj (hrecording.symm.trans hstart)⟩
      · cases hrecording.symm.trans hstart
    · exact .inr ⟨move :: earlier, later, rfl, hlater, hhead⟩

theorem recording_after_iff {items : List α} {moves : List (Move α)} {start : Nat} :
    ((ofList items).after moves).recording = some start ↔ RecordedFrom items moves start := by
  constructor
  · intro h
    obtain hnone | hrecorded := recording_after_cases h
    · cases hnone
    · exact hrecorded
  · rintro ⟨earlier, later, rfl, hlater, rfl⟩
    rw [after_append, after_cons, recording_after_of_keepsRecording hlater]
    rfl

end TreeWalk.Cursor
