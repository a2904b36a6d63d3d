import TreeWalk.Text.DefaultIgnorable
import TreeWalk.Text.GraphemeExtend
import TreeWalk.Text.Unprintable

/-!
This module contains the quoted form of a text, in which every character that would not show or not
stand on its own is escaped.
-/

namespace TreeWalk.Text

def escapes : List (Char × Char) := [
  ('"', '"'), ('\\', '\\'), ('\n', 'n'), ('\r', 'r'), ('\t', 't'), ('\x00', '0')]

/--
The voicing marks of halfwidth katakana. They extend the grapheme before them, but they have a width
of their own and show without it.
-/
def halfwidthVoicingMarks : List Char := ['\uff9e', '\uff9f']

/--
Whether a character shows only together with the one before it.
-/
def isCombining (c : Char) : Bool :=
  isGraphemeExtend c && c ∉ halfwidthVoicingMarks

def isVisible (c : Char) : Bool :=
  !isCombining c && !isDefaultIgnorable c && !isUnprintable c

def escape (c : Char) : List Char :=
  match escapes.lookup c with
  | some letter => ['\\', letter]
  | none => if isVisible c then [c] else ['\\', 'u', '\x7b'] ++ Nat.toDigits 16 c.toNat ++ ['\x7d']

def quote (text : String) : String :=
  .ofList ('"' :: text.toList.flatMap escape ++ ['"'])

end TreeWalk.Text
