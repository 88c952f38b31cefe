import Packrat.Proofs.Grammar.WellFormed

/-!
The literal texts in the rules of a grammar, and the element sequences that use no others.
-/

set_option autoImplicit false

namespace Packrat

variable {V : Type} [Kinded V]

namespace Element

mutual

def literals : Element → List String
  | .literal text => [text]
  | .symbol _ => []
  | .labelled _ _ => []
  | .repeated elements _ _ => literalsAll elements

def literalsAll : List Element → List String
  | [] => []
  | element :: rest => literals element ++ literalsAll rest

end

end Element

def Grammar.literals (grammar : Grammar V) : List String :=
  grammar.rules.flatMap fun rule =>
    rule.alternatives.flatMap fun alternative => Element.literalsAll alternative.elements

/-- Whether a grammar has all literal texts of some elements. -/
def Grammar.Uses (grammar : Grammar V) (elements : List Element) : Prop :=
  ∀ text ∈ Element.literalsAll elements, text ∈ grammar.literals

namespace Grammar

variable {grammar : Grammar V} {element : Element} {rest : List Element}

theorem Uses.head (uses : grammar.Uses (element :: rest)) : grammar.Uses [element] := by
  intro text member
  apply uses
  rw [Element.literalsAll, Element.literalsAll, List.append_nil] at member
  rw [Element.literalsAll]
  exact List.mem_append_left _ member

theorem Uses.tail (uses : grammar.Uses (element :: rest)) : grammar.Uses rest := by
  intro text member
  apply uses
  rw [Element.literalsAll]
  exact List.mem_append_right _ member

theorem Uses.literal {text : String} (uses : grammar.Uses [.literal text]) :
    text ∈ grammar.literals :=
  uses text (List.mem_singleton.2 rfl)

theorem Uses.repeated {elements : List Element} {min : Nat} {max : Option Nat}
    (uses : grammar.Uses [.repeated elements min max]) : grammar.Uses elements := by
  intro text member
  apply uses
  rw [Element.literalsAll, Element.literals]
  exact List.mem_append_left _ member

theorem uses_of_alternative? {symbol : Symbol} {index : Nat} {alternative : Alternative V}
    (isAlternative : grammar.alternative? symbol index = some alternative) :
    grammar.Uses alternative.elements := by
  obtain ⟨rule, isRule, atIndex⟩ := rule?_of_alternative? isAlternative
  intro text inside
  refine List.mem_flatMap.2 ⟨rule, List.mem_of_find?_eq_some isRule, ?_⟩
  exact List.mem_flatMap.2 ⟨alternative, List.mem_of_getElem? atIndex, inside⟩

/-- The alternatives of a rule use literal texts of the grammar only. -/
theorem uses_of_rule {symbol : Symbol} {rule : Rule V} (isRule : grammar.rule? symbol = some rule) :
    ∀ entry ∈ rule.alternatives.zipIdx, grammar.Uses entry.1.elements :=
  fun entry member => uses_of_alternative? (lists_zipIdx isRule entry member)

end Grammar

end Packrat
