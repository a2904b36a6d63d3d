import TreeWalk.Proofs.Text.Escape
import TreeWalk.Tree

/-!
This module contains the forms that written trees consist of: words, quoted texts, and lists in
parentheses with a word at the front. The main statement is `Form.written_append_inj`, no two forms
are written alike, whatever follows them.
-/

namespace TreeWalk

inductive Form
  | atom (text : List Char)
  | quoted (content : List Char)
  | node (head : List Char) (parts : List Form)

namespace Form

mutual

def written : Form → List Char
  | atom text => text
  | quoted content => '"' :: (content.flatMap Text.escape ++ ['"'])
  | node head parts => '(' :: (head ++ writtenAll parts)

def writtenAll : List Form → List Char
  | [] => [')']
  | form :: forms => ' ' :: (form.written ++ writtenAll forms)

end

theorem writtenAll_eq (forms : List Form) :
    writtenAll forms = (forms.map written).flatMap (' ' :: ·) ++ [')'] := by
  induction forms with
  | nil => rfl
  | cons form forms ih => simp [writtenAll, ih]

def EndsWord (c : Char) : Prop :=
  c = ' ' ∨ c = ')'

instance : DecidablePred EndsWord := fun c =>
  inferInstanceAs (Decidable (c = ' ' ∨ c = ')'))

inductive Proper : Form → Prop
  | atom {text : List Char} (hfirst : ∀ c ∈ text.head?, c ≠ '"' ∧ c ≠ '(')
    (htext : ∀ c ∈ text, ¬ EndsWord c) :
    Proper (atom text)
  | quoted {content : List Char} : Proper (quoted content)
  | node {head : List Char} {parts : List Form} (hhead : ∀ c ∈ head, ¬ EndsWord c)
    (hparts : ∀ part ∈ parts, part.Proper) : Proper (node head parts)

theorem endsWord_head_writtenAll (forms : List Form) (rest : List Char) :
    ∀ c ∈ (writtenAll forms ++ rest).head?, EndsWord c := by
  cases forms with
  | nil => simp [writtenAll, EndsWord]
  | cons form forms => simp [writtenAll, EndsWord]

theorem atom_append_ne {text rest tail : List Char} {c : Char}
    (hfirst : ∀ d ∈ text.head?, d ≠ '"' ∧ d ≠ '(') (hrest : ∀ d ∈ rest.head?, EndsWord d)
    (hc : c = '"' ∨ c = '(') : text ++ rest ≠ c :: tail := by
  intro h
  cases text with
  | nil =>
    rw [List.nil_append] at h
    rw [h] at hrest
    have hends := hrest c rfl
    obtain rfl | rfl := hc <;> simp [EndsWord] at hends
  | cons d text =>
    obtain ⟨rfl, _⟩ := List.cons.inj h
    obtain rfl | rfl := hc
    · exact (hfirst _ rfl).1 rfl
    · exact (hfirst _ rfl).2 rfl

mutual

theorem written_append_inj {form other : Form} {rest rest' : List Char} (hform : form.Proper)
    (hother : other.Proper) (hrest : ∀ c ∈ rest.head?, EndsWord c)
    (hrest' : ∀ c ∈ rest'.head?, EndsWord c) (h : form.written ++ rest = other.written ++ rest') :
    form = other ∧ rest = rest' := by
  cases hform with
  | @atom text hfirst htext =>
    cases hother with
    | atom _ htext' =>
      obtain ⟨rfl, hrest⟩ := Text.eq_of_append_eq htext htext' hrest hrest' h
      exact ⟨rfl, hrest⟩
    | quoted => exact absurd h (atom_append_ne hfirst hrest (.inl rfl))
    | node => exact absurd h (atom_append_ne hfirst hrest (.inr rfl))
  | @quoted content =>
    cases hother with
    | atom hfirst' => exact absurd h.symm (atom_append_ne hfirst' hrest' (.inl rfl))
    | quoted =>
      simp only [written, List.cons_append, List.append_assoc, List.cons.injEq, true_and] at h
      obtain ⟨rfl, hrest⟩ := Text.flatMap_escape_append_inj h
      exact ⟨rfl, hrest⟩
    | node => exact absurd (List.cons.inj h).1 (by decide)
  | @node head parts hhead hparts =>
    cases hother with
    | atom hfirst' => exact absurd h.symm (atom_append_ne hfirst' hrest' (.inr rfl))
    | quoted => exact absurd (List.cons.inj h).1 (by decide)
    | node hhead' hparts' =>
      simp only [written, List.cons_append, List.append_assoc, List.cons.injEq, true_and] at h
      obtain ⟨rfl, hwritten⟩ := Text.eq_of_append_eq hhead hhead' (endsWord_head_writtenAll _ _)
        (endsWord_head_writtenAll _ _) h
      obtain ⟨rfl, hrest⟩ := writtenAll_append_inj hparts hparts' hwritten
      exact ⟨rfl, hrest⟩

theorem writtenAll_append_inj {forms others : List Form} {rest rest' : List Char}
    (hforms : ∀ form ∈ forms, form.Proper) (hothers : ∀ other ∈ others, other.Proper)
    (h : writtenAll forms ++ rest = writtenAll others ++ rest') :
    forms = others ∧ rest = rest' := by
  cases forms with
  | nil =>
    cases others with
    | nil => exact ⟨rfl, (List.cons.inj h).2⟩
    | cons other others => exact absurd (List.cons.inj h).1 (by decide)
  | cons form forms =>
    cases others with
    | nil => exact absurd (List.cons.inj h).1 (by decide)
    | cons other others =>
      obtain ⟨hform, htail⟩ := List.forall_mem_cons.1 hforms
      obtain ⟨hother, htail'⟩ := List.forall_mem_cons.1 hothers
      simp only [writtenAll, List.cons_append, List.append_assoc, List.cons.injEq, true_and] at h
      obtain ⟨rfl, hwritten⟩ := written_append_inj hform hother (endsWord_head_writtenAll _ _)
        (endsWord_head_writtenAll _ _) h
      obtain ⟨rfl, hrest⟩ := writtenAll_append_inj htail htail' hwritten
      exact ⟨rfl, hrest⟩

end

end Form
end TreeWalk
