import TreeWalk.Proofs.Grammar.Recovery
import TreeWalk.Proofs.Token.Place

/-!
This module contains the reading of tokens that are moved to other places: the trees and errors are
the same but for the places.
-/

namespace TreeWalk

open Grammar

def Found.move (place : Position → Position) : Found → Found
  | token found => token (found.move place)
  | endOfInput last => endOfInput (last.move place)

def Tandem.ofMove (place : Position → Position) (ending : Found) :
    Tandem ending (ending.move place) where
  token := Token.move place
  found := Found.move place
  inside := fun tokens tokens' => tokens' = tokens.map (Token.move place)
  behind := fun tokens tokens' => tokens' = tokens.map (Token.move place)
  kind_token := Token.kind_move place
  literal_token := Token.literal_move place
  found_token := fun _ => rfl
  nil_inside := fun h => ⟨h, rfl⟩
  cons_inside := fun h => ⟨_, h, rfl, fun _ => rfl⟩
  behind_of_inside := id
  behind_cases := .inl
  inside_of_nested := fun _ _ h => h
  length_le_iff := by
    rintro _ _ _ _ rfl rfl
    simp only [List.length_map]

theorem Grammar.program_move (place : Position → Position) (ending : Found) (tokens : List Token) :
    program (ending.move place) (tokens.map (Token.move place)) =
      ⟨(program ending tokens).statements.map (Stmt.mapTokens (Token.move place)),
        (program ending tokens).errors.map
          (ParseError.exchange (Token.move place) (Found.move place))⟩ := by
  have hbehind : (Tandem.ofMove place ending).behind tokens (tokens.map (Token.move place)) := rfl
  obtain ⟨front, left, left', hbehind, hparted, hprogram, hprogram'⟩ :=
    Tandem.exists_program _ hbehind
  obtain rfl := hparted hbehind
  obtain rfl : left' = [] := hbehind
  rw [program_nil, Parsed.append_empty] at hprogram hprogram'
  rw [hprogram, hprogram']
  rfl

end TreeWalk
