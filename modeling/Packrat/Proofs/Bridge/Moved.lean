import Packrat.Proofs.Bridge.Simulation

/-!
Tokens with their places and blank texts replaced (`Token.moved`), while symbols, alternatives,
labels, texts and values stay. Corresponding tokens become equal if the replacement makes
corresponding places and blank texts equal (`Bridge.Tokens.moved_eq`).
-/

set_option autoImplicit false
set_option linter.unusedSectionVars false

namespace Packrat

variable {V : Type} [Kinded V]

namespace Token

variable (place : Position → Position) (blank : List Char → List Char)

mutual

def moved : Token V → Token V
  | .leaf lexeme =>
    .leaf { lexeme with
      blank := blank lexeme.blank, start := place lexeme.start, stop := place lexeme.stop }
  | .node id symbol alternative start stop children =>
    .node id symbol alternative (place start) (place stop) (movedAll children)

def movedAll : List (Child V) → List (Child V)
  | [] => []
  | ⟨label, token⟩ :: rest => ⟨label, moved token⟩ :: movedAll rest

end

mutual

theorem shape_moved (token : Token V) : (token.moved place blank).shape = token.shape := by
  cases token with
  | leaf lexeme =>
      unfold moved shape
      rfl
  | node id symbol alternative start stop children =>
      unfold moved shape
      rw [shapes_movedAll children]

theorem shapes_movedAll (children : List (Child V)) :
    shapes (movedAll place blank children) = shapes children := by
  cases children with
  | nil => rw [movedAll]
  | cons child rest =>
      unfold movedAll shapes
      rw [shape_moved child.item, shapes_movedAll rest]

end

mutual

@[simp] theorem moved_id (token : Token V) : token.moved id id = token := by
  cases token with
  | leaf lexeme => rfl
  | node id_ symbol alternative start stop children =>
      unfold moved
      rw [movedAll_id children]
      rfl

@[simp] theorem movedAll_id (children : List (Child V)) : movedAll id id children = children := by
  cases children with
  | nil => rw [movedAll]
  | cons child rest =>
      unfold movedAll
      rw [moved_id child.item, movedAll_id rest]

end

end Token

namespace Bridge

variable {first second : Input V} {bridge : Bridge first second}
  {place place' : Position → Position} {blank blank' : List Char → List Char}
  (places : ∀ {here there}, bridge.Meets here there → place' there = place here)
  (blanks : ∀ {skipped skipped'}, bridge.Skips skipped skipped' → blank' skipped' = blank skipped)

include places blanks

mutual

/-- Corresponding tokens are equal behind a replacement that makes corresponding places equal. -/
theorem Tokens.moved_eq {token token' : Token V} (tokens : bridge.Tokens token token') :
    token'.moved place' blank' = token.moved place blank := by
  cases tokens with
  | @leaf lexeme lexeme' lexemes =>
      unfold Token.moved
      rw [lexemes.symbol, lexemes.text, lexemes.value, lexemes.number, blanks lexemes.blank,
        places lexemes.start, places lexemes.stop]
  | node starts stops corresponding =>
      unfold Token.moved
      rw [places starts, places stops, corresponding.moved_eq]

theorem Parts.moved_eq {parts parts' : List (Child V)}
    (corresponding : bridge.Parts parts parts') :
    Token.movedAll place' blank' parts' = Token.movedAll place blank parts := by
  cases corresponding with
  | nil => rw [Token.movedAll, Token.movedAll]
  | cons tokens rest =>
      unfold Token.movedAll
      rw [tokens.moved_eq, rest.moved_eq]

end

theorem moved_eq_of_rel {found found' : Option (Token V)}
    (both : Option.Rel bridge.Tokens found found') :
    found'.map (Token.moved place' blank') = found.map (Token.moved place blank) := by
  cases both with
  | none => rfl
  | some tokens =>
      rw [Option.map_some, Option.map_some, tokens.moved_eq places blanks]

end Bridge

end Packrat
