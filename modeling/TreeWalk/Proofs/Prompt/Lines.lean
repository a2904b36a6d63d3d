import TreeWalk.Prompt

/-!
This module contains the lines of an input, and what the prompt does with each of them.
-/

namespace TreeWalk

theorem Text.strip_eq_iff {word text : List Char} (hfirst : ∀ c ∈ word.head?, isBlank c = false)
    (hlast : ∀ c ∈ word.getLast?, isBlank c = false) (hword : word ≠ []) :
    strip text = word ↔
      ∃ before after, (∀ c ∈ before, isBlank c = true) ∧ (∀ c ∈ after, isBlank c = true) ∧
        text = before ++ word ++ after := by
  constructor
  · rintro rfl
    let rest := text.dropWhile isBlank
    refine ⟨text.takeWhile isBlank, (rest.reverse.takeWhile isBlank).reverse, ?_, ?_, ?_⟩
    · exact List.all_eq_true.1 List.all_takeWhile
    · intro c hc
      exact List.all_eq_true.1 List.all_takeWhile c (List.mem_reverse.1 hc)
    · rw [List.append_assoc, strip, ← List.reverse_append, List.takeWhile_append_dropWhile,
        List.reverse_reverse, List.takeWhile_append_dropWhile]
  · rintro ⟨before, after, hbefore, hafter, rfl⟩
    have hstop {items : List Char} (h : ∀ c ∈ items.head?, isBlank c = false) :
        items.dropWhile isBlank = items := by
      cases items with
      | nil => rfl
      | cons c items => exact List.dropWhile_cons_of_neg (by simp [h c rfl])
    have hfront : (before ++ word ++ after).dropWhile isBlank = word ++ after := by
      rw [List.append_assoc, List.dropWhile_append_of_pos hbefore]
      obtain ⟨c, word, rfl⟩ := List.exists_cons_of_ne_nil hword
      exact hstop hfirst
    have hback : (word ++ after).reverse.dropWhile isBlank = word.reverse := by
      rw [List.reverse_append,
        List.dropWhile_append_of_pos fun c hc => hafter c (List.mem_reverse.1 hc)]
      exact hstop (List.head?_reverse ▸ hlast)
    rw [strip, hfront, hback, List.reverse_reverse]

namespace Prompt

/--
The lines of an input. Each ends with its line break, but there may be no line break behind the last
one.
-/
inductive Splits : List UInt8 → List (List UInt8) → Prop
  | nil : Splits [] []
  | last {text : List UInt8} (htext : 10 ∉ text) (hne : text ≠ []) : Splits text [text]
  | line {text input : List UInt8} {lines : List (List UInt8)} (htext : 10 ∉ text)
    (hinput : Splits input lines) :
    Splits (text ++ 10 :: input) ((text ++ [10]) :: lines)

theorem splits_splitLines (input : List UInt8) : Splits input (splitLines input) := by
  induction input with
  | nil => exact .nil
  | cons byte input ih =>
    unfold splitLines
    split
    · next h =>
      subst h
      have hnil : 10 ∉ ([] : List UInt8) := List.not_mem_nil
      exact .line hnil ih
    · next h =>
      split
      · next hlines =>
        rw [hlines] at ih
        cases ih
        exact .last (by simp [Ne.symm h]) (List.cons_ne_nil _ _)
      · next line lines hlines =>
        rw [hlines] at ih
        have hbyte {text : List UInt8} (htext : 10 ∉ text) : 10 ∉ byte :: text := by
          simp [Ne.symm h, htext]
        cases ih with
        | last htext _ => exact .last (hbyte htext) (List.cons_ne_nil _ _)
        | line htext hinput => exact .line (hbyte htext) hinput

theorem splitLines_of_not_mem {text : List UInt8} (htext : 10 ∉ text) (hne : text ≠ []) :
    splitLines text = [text] := by
  induction text with
  | nil => exact absurd rfl hne
  | cons byte text ih =>
    obtain ⟨hbyte, htext⟩ := not_or.1 (mt List.mem_cons.2 htext)
    rw [splitLines, if_neg (Ne.symm hbyte)]
    by_cases h : text = []
    · subst h
      rfl
    · rw [ih htext h]

theorem splitLines_append {text : List UInt8} (htext : 10 ∉ text) (input : List UInt8) :
    splitLines (text ++ 10 :: input) = (text ++ [10]) :: splitLines input := by
  induction text with
  | nil => rfl
  | cons byte text ih =>
    obtain ⟨hbyte, htext⟩ := not_or.1 (mt List.mem_cons.2 htext)
    rw [List.cons_append, splitLines, if_neg (Ne.symm hbyte), ih htext]
    rfl

variable {input : List UInt8} {lines lines' : List (List UInt8)}

theorem Splits.eq_splitLines (h : Splits input lines) : lines = splitLines input := by
  induction h with
  | nil => rfl
  | last htext hne => exact (splitLines_of_not_mem htext hne).symm
  | line htext _ ih => rw [splitLines_append htext, ih]

theorem Splits.sublist (h : Splits input lines) (hsublist : lines'.Sublist lines) :
    Splits lines'.flatten lines' := by
  induction h generalizing lines' with
  | nil =>
    cases hsublist
    exact .nil
  | @last text htext hne =>
    cases hsublist with
    | cons _ hsublist =>
      cases hsublist
      exact .nil
    | cons_cons _ hsublist =>
      cases hsublist
      rw [List.flatten_singleton]
      exact .last htext hne
  | @line text _ _ htext _ ih =>
    cases hsublist with
    | cons _ hsublist => exact ih hsublist
    | cons_cons _ hsublist =>
      rw [List.flatten_cons, List.append_assoc]
      exact .line htext (ih hsublist)

def encode (text : String) : List UInt8 :=
  text.toUTF8.data.toList

theorem decode_eq_ok_iff {line : List UInt8} {text : String} :
    decode ⟨line.toArray⟩ = .ok text ↔ encode text = line := by
  constructor
  · intro h
    unfold decode String.fromUTF8? at h
    split at h
    · next hvalid =>
      obtain ⟨_, htext⟩ := Option.dite_none_right_eq_some.1 hvalid
      cases h
      cases htext
      rfl
    · cases h
  · rintro rfl
    have hvalid : String.fromUTF8? ⟨(encode text).toArray⟩ = some text := dif_pos text.isValidUTF8
    rw [decode, hvalid]

theorem decode_encode (text : String) : decode ⟨(encode text).toArray⟩ = .ok text :=
  decode_eq_ok_iff.2 rfl

theorem decode_of_not_encode {line : List UInt8} (h : ∀ text, encode text ≠ line) :
    decode ⟨line.toArray⟩ = .error .notText := by
  cases hline : decode ⟨line.toArray⟩ with
  | ok text => exact absurd (decode_eq_ok_iff.1 hline) (h text)
  | error error =>
    unfold decode at hline
    split at hline
    · cases hline
    · exact hline.symm

def Leaves (text : String) : Prop :=
  ∃ before after, (∀ c ∈ before, Text.isBlank c = true) ∧ (∀ c ∈ after, Text.isBlank c = true) ∧
    text.toList = before ++ "exit".toList ++ after

theorem strip_eq_exit_iff {text : String} :
    Text.strip text.toList = "exit".toList ↔ Leaves text := by
  have hword : "exit".toList = ['e', 'x', 'i', 't'] := rfl
  rw [Leaves, hword]
  refine Text.strip_eq_iff ?_ ?_ (List.cons_ne_nil _ _)
  · rintro c ⟨⟩
    decide +kernel
  · rintro c ⟨⟩
    decide +kernel

inductive Ending
  | endOfInput
  | leave
  | notText

def Ending.code : Ending → Nat
  | endOfInput | leave => Transcript.success
  | notText => Transcript.ioError

def Ending.messages : Ending → List String
  | endOfInput | leave => []
  | notText => ["Failed to read line: stream did not contain valid UTF-8"]

/--
The lines from the first one on are sources, up to one that ends the prompt or to the end of the
input.
-/
inductive Script : List (List UInt8) → List String → Ending → Prop
  | endOfInput : Script [] [] .endOfInput
  | leave {text : String} {lines : List (List UInt8)} (htext : Leaves text) :
    Script (encode text :: lines) [] .leave
  | notText {line : List UInt8} {lines : List (List UInt8)} (hline : ∀ text, encode text ≠ line) :
    Script (line :: lines) [] .notText
  | source {source : String} {lines : List (List UInt8)} {sources : List String} {ending : Ending}
    (hsource : ¬ Leaves source) (hlines : Script lines sources ending) :
    Script (encode source :: lines) (source :: sources) ending

theorem exists_script (lines : List (List UInt8)) :
    ∃ sources ending, Script lines sources ending := by
  induction lines with
  | nil => exact ⟨[], .endOfInput, .endOfInput⟩
  | cons line lines ih =>
    by_cases htext : ∃ text, encode text = line
    · obtain ⟨text, rfl⟩ := htext
      by_cases hleaves : Leaves text
      · exact ⟨[], .leave, .leave hleaves⟩
      · obtain ⟨sources, ending, hlines⟩ := ih
        exact ⟨text :: sources, ending, .source hleaves hlines⟩
    · exact ⟨[], .notText, .notText (not_exists.1 htext)⟩

theorem Script.append {sources sources' : List String} {ending : Ending}
    (h : Script lines sources .endOfInput) (h' : Script lines' sources' ending) :
    Script (lines ++ lines') (sources ++ sources') ending := by
  generalize hending : Ending.endOfInput = reached at h
  induction h with
  | endOfInput => exact h'
  | leave | notText => cases hending
  | source hsource _ ih => exact .source hsource (ih hending)

end Prompt
end TreeWalk
