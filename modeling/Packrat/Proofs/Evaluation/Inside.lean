import Mathlib.Logic.Relation
import Packrat.Chart.Evaluation

/-!
Tokens inside other tokens, part by part (`Token.HasPart`). An index and a path lead to a token
inside a node (`Token.inside?_transGen`), and an answer for them evaluates this token
(`Token.ask_eq`).
-/

set_option autoImplicit false
set_option linter.unusedSectionVars false

namespace Packrat

namespace Token

variable {V : Type}

def HasPart (token part : Token V) : Prop :=
  ∃ child ∈ token.children, child.item = part

abbrev Contains (token inner : Token V) : Prop :=
  Relation.TransGen HasPart token inner

abbrev Includes (token inner : Token V) : Prop :=
  Relation.ReflTransGen HasPart token inner

theorem HasPart.sizeOf_lt {token part : Token V} (hasPart : token.HasPart part) :
    sizeOf part < sizeOf token := by
  obtain ⟨child, member, rfl⟩ := hasPart
  cases token with
  | leaf lexeme => cases member
  | node id symbol alternative start stop children =>
      have listed := List.sizeOf_lt_of_mem (show child ∈ children from member)
      rcases child with ⟨label, item⟩
      simp only [Labelled.mk.sizeOf_spec] at listed
      simp only [node.sizeOf_spec]
      omega

theorem Contains.sizeOf_lt {token inner : Token V} (contains : token.Contains inner) :
    sizeOf inner < sizeOf token := by
  induction contains with
  | single hasPart => exact hasPart.sizeOf_lt
  | tail _ hasPart ih => exact Nat.lt_trans hasPart.sizeOf_lt ih

theorem contains_of_inside? {token inner : Token V} {index : Nat} {path : List Nat}
    (found : inside? token.children index path = some inner) : token.Contains inner := by
  induction path generalizing token index with
  | nil =>
      obtain ⟨child, atIndex, rfl⟩ := Option.map_eq_some_iff.1 found
      exact .single ⟨child, List.mem_of_getElem? atIndex, rfl⟩
  | cons next path ih =>
      obtain ⟨child, atIndex, inside⟩ := Option.bind_eq_some_iff.1 found
      exact .head ⟨child, List.mem_of_getElem? atIndex, rfl⟩ (ih inside)

variable [Kinded V]

/-! ### Answers -/

theorem answersInside_eq (input : Input V) (token : Token V) :
    answersInside input token = (partAnswers input token.children).toArray := by
  cases token with
  | leaf lexeme => rfl
  | node id symbol alternative start stop children => rfl

theorem partAnswers_eq_map (input : Input V) (children : List (Child V)) :
    partAnswers input children = children.map fun child path valuation =>
      match path with
      | [] =>
        ((evaluate input child.item valuation).read child.item,
          evaluate input child.item valuation)
      | index :: path => Answers.ask (answersInside input child.item) index path valuation := by
  induction children with
  | nil => rfl
  | cons child rest ih =>
      exact congrArg (List.cons _) ih

/-- To answer for a token inside a node is to evaluate the token. -/
theorem ask_eq (input : Input V) (children : List (Child V)) (index : Nat) (path : List Nat)
    (valuation : Valuation V) :
    Answers.ask (partAnswers input children).toArray index path valuation =
      match inside? children index path with
      | some token =>
        ((evaluate input token valuation).read token, evaluate input token valuation)
      | none => (none, valuation) := by
  induction path generalizing children index with
  | nil =>
      rw [Answers.ask, List.getElem?_toArray, partAnswers_eq_map, List.getElem?_map, inside?]
      cases children[index]? with
      | none => rfl
      | some child => rfl
  | cons next path ih =>
      rw [Answers.ask, List.getElem?_toArray, partAnswers_eq_map, List.getElem?_map, inside?]
      cases children[index]? with
      | none => rfl
      | some child =>
          rw [Option.map_some, Option.bind_some, ← ih child.item.children next,
            ← answersInside_eq]

end Token

end Packrat
