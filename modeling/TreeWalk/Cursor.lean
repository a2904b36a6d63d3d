/-!
This module contains a read head over a list of items. No move takes it out of the list, and it can
give back the items that it has passed since a recording was started.
-/

namespace TreeWalk

/--
A list of items, the number of items behind the head, and the number that were behind it when the
recording was started that is going on, if one is.
-/
structure Cursor (α : Type) where
  items : List α
  head : Nat
  recording : Option Nat
  head_le : head ≤ items.length

namespace Cursor

variable {α : Type}

def ofList (items : List α) : Cursor α :=
  ⟨items, 0, none, Nat.zero_le _⟩

def peek (cursor : Cursor α) : Option α :=
  cursor.items[cursor.head]?

def peekAt (cursor : Cursor α) (offset : Int) : Option α :=
  match (cursor.head : Int) + offset with
  | .ofNat index => cursor.items[index]?
  | .negSucc _ => none

def isFinished (cursor : Cursor α) : Bool :=
  cursor.head = cursor.items.length

def moveTo (cursor : Cursor α) (head : Nat) : Cursor α :=
  { cursor with head := min head cursor.items.length, head_le := Nat.min_le_right .. }

def advance (cursor : Cursor α) : Cursor α :=
  cursor.moveTo (cursor.head + 1)

def consume (cursor : Cursor α) : Option α × Cursor α :=
  (cursor.peek, cursor.advance)

def rewind (cursor : Cursor α) (count : Nat) : Cursor α :=
  cursor.moveTo (cursor.head - count)

def skipIf (cursor : Cursor α) (wanted : α → Bool) : Bool × Cursor α :=
  if cursor.peek.any wanted then (true, cursor.advance) else (false, cursor)

def advanceUntil (cursor : Cursor α) (wanted : α → Bool) : Nat × Cursor α :=
  let steps := ((cursor.items.drop cursor.head).takeWhile (! wanted ·)).length
  (steps, cursor.moveTo (cursor.head + steps))

def startRecording (cursor : Cursor α) : Cursor α :=
  { cursor with recording := some cursor.head }

/--
The items from the start of the recording to the head, none if the head was moved in front of the
start. The recording ends if `reset` is set. Without a recording there is no answer.
-/
def stopRecording (cursor : Cursor α) (reset : Bool) : Option (List α × Cursor α) :=
  cursor.recording.map fun start =>
    ((cursor.items.take cursor.head).drop start,
      if reset then { cursor with recording := none } else cursor)

def noRecordingMessage : String :=
  "stop_recording called without an active recording"

end Cursor
end TreeWalk
