/-!
This module contains sinks for output, which may have room for a limited number of bytes only.
-/

namespace TreeWalk

/--
The bytes that a sink has taken, and how many more it can take; without such a number it takes all.
-/
structure Sink where
  written : ByteArray
  room : Option Nat

namespace Sink

def ofRoom (room : Option Nat) : Sink :=
  ⟨.empty, room⟩

def unlimited : Sink :=
  ofRoom none

/--
Write bytes. If they do not fit, those that do are written, and the answer is `false`.
-/
def write : Sink → ByteArray → Bool × Sink
  | ⟨written, none⟩, bytes => (true, ⟨written ++ bytes, none⟩)
  | ⟨written, some room⟩, bytes =>
    if bytes.size ≤ room then
      (true, ⟨written ++ bytes, some (room - bytes.size)⟩)
    else
      (false, ⟨written ++ bytes.extract 0 room, some 0⟩)

def writeLine (sink : Sink) (line : String) : Bool × Sink :=
  sink.write (line ++ "\n").toUTF8

def writeLines (sink : Sink) : List String → Bool × Sink
  | [] => (true, sink)
  | line :: lines =>
    match sink.writeLine line with
    | (true, sink) => sink.writeLines lines
    | (false, sink) => (false, sink)

def drain (sink : Sink) : ByteArray × Sink :=
  (sink.written, { sink with written := .empty })

def fullMessage : String := "sink full"

end Sink
end TreeWalk
