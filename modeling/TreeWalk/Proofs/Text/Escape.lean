import Mathlib.Data.List.Basic
import TreeWalk.Text.Quoted

/-!
This module contains the forms that escapes have, and that a quoted text can be told from any other
one wherever it ends: no escape is the beginning of another one.
-/

namespace TreeWalk.Text

def hexDigits : List Char :=
  ['0', '1', '2', '3', '4', '5', '6', '7', '8', '9', 'a', 'b', 'c', 'd', 'e', 'f']

theorem digitChar_mem_hexDigits : ∀ digit < 16, Nat.digitChar digit ∈ hexDigits := by
  decide

theorem digitChar_inj :
    ∀ digit < 16, ∀ other < 16, Nat.digitChar digit = Nat.digitChar other → digit = other := by
  decide

theorem mem_hexDigits_of_mem_toDigits {n : Nat} {c : Char} (h : c ∈ Nat.toDigits 16 n) :
    c ∈ hexDigits := by
  induction n using Nat.strongRecOn with
  | ind n ih =>
    rw [Nat.toDigits_eq_if (by decide)] at h
    split at h
    · next hlt =>
      obtain rfl := List.mem_singleton.1 h
      exact digitChar_mem_hexDigits n hlt
    · obtain h | h := List.mem_append.1 h
      · exact ih (n / 16) (by omega) h
      · obtain rfl := List.mem_singleton.1 h
        exact digitChar_mem_hexDigits (n % 16) (Nat.mod_lt _ (by decide))

theorem toDigits_inj {m n : Nat} (h : Nat.toDigits 16 m = Nat.toDigits 16 n) : m = n := by
  induction m using Nat.strongRecOn generalizing n with
  | ind m ih =>
    have hne (k : Nat) : Nat.toDigits 16 k ≠ [] := Nat.toDigits_ne_nil
    rw [Nat.toDigits_eq_if (by decide), Nat.toDigits_eq_if (n := n) (by decide)] at h
    split at h
    · split at h
      · next hm hn => exact digitChar_inj m hm n hn (List.cons.inj h).1
      · simp [List.cons_eq_append_iff, hne] at h
    · split at h
      · simp [List.append_eq_cons_iff, hne] at h
      · obtain ⟨hdiv, hmod⟩ := List.append_inj' h rfl
        have hdiv := ih (m / 16) (by omega) hdiv
        have hmod :=
          digitChar_inj (m % 16) (Nat.mod_lt _ (by decide)) (n % 16) (Nat.mod_lt _ (by decide))
            (List.cons.inj hmod).1
        omega

def codeEscape (c : Char) : List Char :=
  '\\' :: 'u' :: '\x7b' :: (Nat.toDigits 16 c.toNat ++ ['\x7d'])

theorem escape_cases (c : Char) :
    (∃ letter, (c, letter) ∈ escapes ∧ escape c = ['\\', letter]) ∨
      (c ∉ escapes.map Prod.fst ∧ (escape c = [c] ∨ escape c = codeEscape c)) := by
  unfold escape
  cases hletter : escapes.lookup c with
  | some letter =>
    obtain ⟨before, after, hescapes, _⟩ := List.lookup_eq_some_iff.1 hletter
    exact .inl ⟨letter, hescapes ▸ by simp, rfl⟩
  | none =>
    have hnone : c ∉ escapes.map Prod.fst := by
      rintro hmem
      obtain ⟨entry, hentry, rfl⟩ := List.mem_map.1 hmem
      simpa using List.lookup_eq_none_iff.1 hletter entry hentry
    refine .inr ⟨hnone, ?_⟩
    simp only []
    split
    · exact .inl rfl
    · exact .inr rfl

theorem eq_of_append_eq {p : Char → Prop} {text text' rest rest' : List Char}
    (htext : ∀ c ∈ text, ¬ p c) (htext' : ∀ c ∈ text', ¬ p c) (hrest : ∀ c ∈ rest.head?, p c)
    (hrest' : ∀ c ∈ rest'.head?, p c) (h : text ++ rest = text' ++ rest') :
    text = text' ∧ rest = rest' := by
  induction text generalizing text' with
  | nil =>
    cases text' with
    | nil => exact ⟨rfl, h⟩
    | cons c text' =>
      rw [List.nil_append] at h
      rw [h] at hrest
      exact absurd (hrest c rfl) (htext' c (.head text'))
  | cons c text ih =>
    cases text' with
    | nil =>
      rw [List.nil_append] at h
      rw [← h] at hrest'
      exact absurd (hrest' c rfl) (htext c (.head text))
    | cons d text' =>
      obtain ⟨rfl, heq⟩ := List.cons.inj h
      obtain ⟨rfl, hrest⟩ :=
        ih (fun c hc => htext c (.tail _ hc)) (fun c hc => htext' c (.tail _ hc)) heq
      exact ⟨rfl, hrest⟩

theorem letter_inj :
    ∀ entry ∈ escapes, ∀ other ∈ escapes, entry.2 = other.2 → entry.1 = other.1 := by
  decide

theorem letter_ne_u : ∀ entry ∈ escapes, entry.2 ≠ 'u' := by
  decide

theorem codeEscape_append_inj {c c' : Char} {rest rest' : List Char}
    (h : codeEscape c ++ rest = codeEscape c' ++ rest') : c = c' ∧ rest = rest' := by
  have hdigit (c : Char) : ∀ d ∈ Nat.toDigits 16 c.toNat, ¬ d = '\x7d' := by
    rintro _ hd rfl
    exact absurd (mem_hexDigits_of_mem_toDigits hd) (by decide)
  simp only [codeEscape, List.cons_append, List.append_assoc, List.cons.injEq, true_and] at h
  obtain ⟨hdigits, hrest⟩ := eq_of_append_eq (hdigit c) (hdigit c') (by simp) (by simp) h
  exact ⟨Char.toNat_inj.1 (toDigits_inj hdigits), (List.cons.inj hrest).2⟩

theorem escape_append_inj {c c' : Char} {rest rest' : List Char}
    (h : escape c ++ rest = escape c' ++ rest') :
    c = c' ∧ rest = rest' := by
  have hbackslash {c : Char} (hc : c ∉ escapes.map Prod.fst) : c ≠ '\\' := by
    rintro rfl
    exact hc (by decide)
  obtain ⟨letter, hmem, hc⟩ | ⟨hmem, hc | hc⟩ := escape_cases c <;>
  obtain ⟨letter', hmem', hc'⟩ | ⟨hmem', hc' | hc'⟩ := escape_cases c'
  all_goals rw [hc, hc'] at h
  · obtain ⟨hletter, hrest⟩ := List.cons.inj (List.cons.inj h).2
    exact ⟨letter_inj _ hmem _ hmem' hletter, hrest⟩
  · exact absurd (List.cons.inj h).1.symm (hbackslash hmem')
  · exact absurd (List.cons.inj (List.cons.inj h).2).1 (letter_ne_u _ hmem)
  · exact absurd (List.cons.inj h).1 (hbackslash hmem)
  · exact List.cons.inj h
  · exact absurd (List.cons.inj h).1 (hbackslash hmem)
  · exact absurd (List.cons.inj (List.cons.inj h).2).1.symm (letter_ne_u _ hmem')
  · exact absurd (List.cons.inj h).1.symm (hbackslash hmem')
  · exact codeEscape_append_inj h

theorem exists_escape (c : Char) : ∃ first tail, escape c = first :: tail ∧ first ≠ '"' := by
  obtain ⟨letter, _, hc⟩ | ⟨hmem, hc | hc⟩ := escape_cases c
  · exact ⟨_, _, hc, by decide⟩
  · refine ⟨_, _, hc, ?_⟩
    rintro rfl
    exact hmem (by decide)
  · exact ⟨_, _, hc, by decide⟩

theorem flatMap_escape_append_inj {text text' rest rest' : List Char}
    (h : text.flatMap escape ++ '"' :: rest = text'.flatMap escape ++ '"' :: rest') :
    text = text' ∧ rest = rest' := by
  have hne (c : Char) (text rest rest' : List Char) : '"' :: rest ≠
      (c :: text).flatMap escape ++ '"' :: rest' := by
    obtain ⟨first, tail, hc, hquote⟩ := exists_escape c
    rw [List.flatMap_cons, hc]
    rintro ⟨⟩
    exact hquote rfl
  induction text generalizing text' with
  | nil =>
    cases text' with
    | nil => exact ⟨rfl, (List.cons.inj h).2⟩
    | cons c text' => exact absurd h (hne c text' rest rest')
  | cons c text ih =>
    cases text' with
    | nil => exact absurd h.symm (hne c text rest' rest)
    | cons d text' =>
      rw [List.flatMap_cons, List.flatMap_cons, List.append_assoc, List.append_assoc] at h
      obtain ⟨rfl, heq⟩ := escape_append_inj h
      obtain ⟨rfl, hrest⟩ := ih heq
      exact ⟨rfl, hrest⟩

end TreeWalk.Text
