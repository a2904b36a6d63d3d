import TreeWalk.Grammar.Program
import TreeWalk.Proofs.Token.Layout
import Mathlib.Data.List.TakeWhile

/-!
This module contains what the grammar sees of token lists that are put together, and of those that
the scanner makes.
-/

namespace TreeWalk.Sentence

variable {before after : List Token}

theorem tokens_of_ne_eof {tokens : List Token} (h : ∀ token ∈ tokens, token.kind ≠ .eof) :
    (ofTokens tokens).tokens = tokens.filter (! ·.isComment) := by
  have h : ∀ token ∈ tokens, decide (token.kind ≠ .eof) = true := by simpa using h
  simp only [ofTokens, List.takeWhile_eq_self_iff.2 h]

theorem tokens_append (hbefore : ∀ token ∈ before, token.kind ≠ .eof) (after : List Token) :
    (ofTokens (before ++ after)).tokens = (ofTokens before).tokens ++ (ofTokens after).tokens := by
  have hvisible := tokens_of_ne_eof hbefore
  have hbefore : ∀ token ∈ before, decide (token.kind ≠ .eof) = true := by simpa using hbefore
  rw [hvisible]
  simp only [ofTokens, List.takeWhile_append_of_pos hbefore, List.filter_append]

theorem tokens_cons {token : Token} (hmarker : token.kind ≠ .eof) (hcomment : token.kind ≠ .comment)
    (after : List Token) :
    (ofTokens (token :: after)).tokens = token :: (ofTokens after).tokens := by
  simp [ofTokens, Token.isComment, hmarker, hcomment]

theorem mem_of_mem_tokens {token : Token} {tokens : List Token}
    (h : token ∈ (ofTokens tokens).tokens) :
    token ∈ tokens :=
  (List.takeWhile_prefix _).subset (List.mem_filter.1 h).1

theorem ending_append (hbefore : ∀ token ∈ before, token.kind ≠ .eof) (hafter : after ≠ []) :
    (ofTokens (before ++ after)).ending = (ofTokens after).ending := by
  have hnone : before.find? (·.kind = .eof) = none := by simpa using hbefore
  simp only [ofTokens, List.find?_append, hnone, Option.none_or]
  cases after.find? (·.kind = .eof) with
  | some marker => rfl
  | none => simp [List.getLastD_eq_getLast?, List.getLast?_eq_some_getLast hafter]

theorem ofTokens_append_marker {marker : Token} (hbefore : ∀ token ∈ before, token.kind ≠ .eof)
    (hmarker : marker.kind = .eof) (after : List Token) :
    ofTokens (before ++ marker :: after) = ⟨before.filter (! ·.isComment), .token marker⟩ := by
  have hempty : ofTokens (marker :: after) = ⟨[], .token marker⟩ := by simp [ofTokens, hmarker]
  have htokens := tokens_append hbefore (marker :: after)
  have hending := ending_append hbefore (List.cons_ne_nil marker after)
  rw [hempty, tokens_of_ne_eof hbefore, List.append_nil] at htokens
  rw [hempty] at hending
  exact congrArg₂ Sentence.mk htokens hending

theorem head?_tokens {tokens : List Token} {token : Token}
    (h : token ∈ (ofTokens tokens).tokens.head?) :
    tokens.find? (·.kind ≠ .comment) = some token := by
  simp only [ofTokens, List.head?_filter] at h
  have hfound := (List.takeWhile_prefix _).find?_eq_some h
  simpa [Token.isComment] using hfound

theorem tokens_scan (source : String) :
    (ofTokens (scan source).tokens).tokens =
      ((scan source).items.map ScanItem.token).filter (! ·.isComment) := by
  rw [Scanned.tokens, tokens_append fun _ => kind_ne_eof_of_mem_scan,
    tokens_of_ne_eof fun _ => kind_ne_eof_of_mem_scan]
  exact List.append_nil _

theorem ending_scan (source : String) :
    (ofTokens (scan source).tokens).ending = .token (.endOfText (scan source).finish) := by
  rw [Scanned.tokens, ending_append (fun _ => kind_ne_eof_of_mem_scan) (List.cons_ne_nil _ _)]
  rfl

end TreeWalk.Sentence
