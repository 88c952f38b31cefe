import Packrat.Proofs.Derivation.Basic
import Packrat.Proofs.Reference.Basic

/-!
What derivations of a given shape are made of: the first element of a run and the rest, the rounds
of a repetition, and the alternatives of a rule.
-/

set_option autoImplicit false
set_option linter.unusedSectionVars false

namespace Packrat

variable {V : Type} [Kinded V]

theorem Token.sizeOf_lt_of_mem [SizeOf V] {id index : Nat} {symbol : Symbol} {start stop : Position}
    {children : List (Child V)} {label : Option String} {part : Token V}
    (member : ⟨label, part⟩ ∈ children) :
    sizeOf part < sizeOf (Token.node id symbol index start stop children) := by
  have smaller := List.sizeOf_lt_of_mem member
  simp only [Labelled.mk.sizeOf_spec, Token.node.sizeOf_spec] at smaller ⊢
  omega

theorem LexicalCell.literal?_tree {cell : LexicalCell V} {text : String} {leaf : Leaf V}
    (found : cell.literal? text = some leaf) :
    leaf.tree = .leaf .unknown text.toList leaf.start leaf.stop none := by
  unfold literal? at found
  split at found
  · cases found
    rfl
  · cases found

namespace Derives

variable {input : Input V} {chart : Chart V} {cursor stop : Position} {parts : List (Child V)}
  {rest elements : List Element} {cell : LexicalCell V} {symbol : Symbol} {token : Token V}

/-! ### Runs -/

theorem run_nil (derived : Derives input chart (.run [] cursor parts stop)) :
    parts = [] ∧ stop = cursor := by
  cases derived
  exact ⟨rfl, rfl⟩

theorem run_literal {text : String}
    (derived : Derives input chart (.run (.literal text :: rest) cursor parts stop)) :
    ∃ lexeme more, parts = ⟨none, .leaf lexeme⟩ :: more ∧ lexeme.text = text.toList ∧
      lexeme.tree = .leaf .unknown text.toList lexeme.start lexeme.stop none ∧
      Derives input chart (.run rest lexeme.stop more stop) := by
  cases derived with
  | literal _ found others =>
      exact ⟨_, _, rfl, (LexicalCell.literal?_fits found).2.2, LexicalCell.literal?_tree found,
        others⟩
  | reference names => cases names

theorem run_reference {element : Element} (names : element.symbol? = some symbol)
    (derived : Derives input chart (.run (element :: rest) cursor parts stop)) :
    ∃ cell token more, parts = ⟨element.label?, token⟩ :: more ∧
      chart.cellFrom? input cursor.offset = some cell ∧
      Derives input chart (.matched cell symbol token) ∧
      Derives input chart (.run rest token.stop more stop) := by
  cases derived with
  | literal => cases names
  | reference names' leads matched others =>
      cases names.symm.trans names'
      exact ⟨_, _, _, rfl, leads, matched, others⟩
  | repeated => cases names

theorem run_repeated {min : Nat} {max : Option Nat}
    (derived : Derives input chart (.run (.repeated elements min max :: rest) cursor parts stop)) :
    ∃ first next more, parts = first ++ more ∧
      Derives input chart (.rounds elements min max 0 cursor first next) ∧
      Derives input chart (.run rest next more stop) := by
  cases derived with
  | reference names => cases names
  | repeated rounds others => exact ⟨_, _, _, rfl, rounds, others⟩

/-! ### Repetitions -/

theorem rounds_rows {min count : Nat} {max : Option Nat}
    (derived : Derives input chart (.rounds elements min max count cursor parts stop)) :
    ∃ rows : List (List (Child V)), parts = rows.flatten ∧
      ∀ row ∈ rows, ∃ start finish, Derives input chart (.run elements start row finish) := by
  generalize same : Fact.rounds elements min max count cursor parts stop = fact at derived
  induction derived generalizing count cursor parts stop with
  | leaf => cases same
  | seed => cases same
  | extension => cases same
  | done => cases same
  | literal => cases same
  | reference => cases same
  | repeated => cases same
  | enough =>
      cases same
      exact ⟨[], rfl, nofun⟩
  | idle _ run =>
      cases same
      exact ⟨[_], (List.append_nil _).symm, List.forall_mem_singleton.2 ⟨_, _, run⟩⟩
  | onward _ run _ _ _ ih =>
      cases same
      obtain ⟨rows, rfl, each⟩ := ih rfl
      exact ⟨_ :: rows, rfl, List.forall_mem_cons.2 ⟨⟨_, _, run⟩, each⟩⟩

theorem optional_cases
    (derived : Derives input chart (.rounds elements 0 (some 1) 0 cursor parts stop)) :
    parts = [] ∨ ∃ finish, Derives input chart (.run elements cursor parts finish) := by
  cases derived with
  | enough => exact .inl rfl
  | idle _ run => exact .inr ⟨_, run⟩
  | onward _ run _ rounds =>
      have full : ¬ ∀ limit, some 1 = some limit → 1 < limit :=
        fun room => Nat.lt_irrefl 1 (room 1 rfl)
      cases rounds with
      | enough =>
          rw [List.append_nil]
          exact .inr ⟨_, run⟩
      | idle room => exact absurd room full
      | onward room => exact absurd room full

/-! ### Tokens -/

theorem of_leaf (noRule : input.grammar.rule? symbol = none) (scanned : cell.Scanned input)
    (derived : Derives input chart (.matched cell symbol token)) :
    ∃ leaf number, token = .leaf ⟨leaf, number⟩ ∧
      (LexicalCell.scan input.grammar cell.toLanding).1.leaf? symbol = some leaf := by
  rw [LexicalCell.leaf?, scanned.scanned]
  have noAlternative {index : Nat} {alternative : Alternative V} :
      input.grammar.alternative? symbol index ≠ some alternative := by
    intro isAlternative
    obtain ⟨rule, isRule, -⟩ := Grammar.rule?_of_alternative? isAlternative
    cases noRule.symm.trans isRule
  cases derived with
  | leaf _ found => exact ⟨_, _, rfl, found⟩
  | seed isAlternative => exact absurd isAlternative noAlternative
  | extension isAlternative => exact absurd isAlternative noAlternative

/-- A token of a rule is a node over a run of an alternative, or a shorter node of the rule with
what follows the rule in an alternative that starts with it. -/
theorem rule_cases {rule : Rule V} (isRule : input.grammar.rule? symbol = some rule)
    (derived : Derives input chart (.matched cell symbol token)) :
    (∃ index alternative id start finish children stop,
      rule.alternatives[index]? = some alternative ∧
      startsWithItself symbol alternative.elements = false ∧
      token = .node id symbol index start finish children ∧
      Derives input chart (.run alternative.elements cell.position children stop)) ∨
    (∃ index alternative head tail base parts id start finish stop,
      rule.alternatives[index]? = some alternative ∧
      alternative.elements = head :: tail ∧ head.symbol? = some symbol ∧
      token = .node id symbol index start finish (⟨head.label?, base⟩ :: parts) ∧
      Derives input chart (.matched cell symbol base) ∧
      Derives input chart (.run tail base.stop parts stop)) := by
  have atIndex {index : Nat} {alternative : Alternative V}
      (isAlternative : input.grammar.alternative? symbol index = some alternative) :
      rule.alternatives[index]? = some alternative := by
    obtain ⟨rule', isRule', found⟩ := Grammar.rule?_of_alternative? isAlternative
    cases isRule.symm.trans isRule'
    exact found
  cases derived with
  | leaf noRule => cases isRule.symm.trans noRule
  | seed isAlternative _ plain run =>
      exact .inl ⟨_, _, _, _, _, _, _, atIndex isAlternative, plain, rfl, run⟩
  | extension isAlternative _ starts itself base run =>
      exact .inr ⟨_, _, _, _, _, _, _, _, _, _, atIndex isAlternative, starts, itself, rfl, base,
        run⟩

/-- A token of a rule none of whose alternatives starts with the rule itself is a node over a run
of one of them. -/
theorem of_rule {rule : Rule V} (isRule : input.grammar.rule? symbol = some rule)
    (plain : ∀ alternative ∈ rule.alternatives,
      startsWithItself symbol alternative.elements = false)
    (derived : Derives input chart (.matched cell symbol token)) :
    ∃ index alternative id start finish children stop,
      rule.alternatives[index]? = some alternative ∧
      token = .node id symbol index start finish children ∧
      Derives input chart (.run alternative.elements cell.position children stop) := by
  rcases derived.rule_cases isRule with
    ⟨index, alternative, id, start, finish, children, stop, found, -, isNode, run⟩ |
    ⟨index, alternative, head, tail, _, _, _, _, _, _, found, starts, itself, -⟩
  · exact ⟨index, alternative, id, start, finish, children, stop, found, isNode, run⟩
  · have first := plain alternative (List.mem_of_getElem? found)
    rw [starts] at first
    simp [startsWithItself, itself] at first

theorem of_only {rule : Rule V} {alternative : Alternative V}
    (isRule : input.grammar.rule? symbol = some rule) (only : rule.alternatives = [alternative])
    (plain : startsWithItself symbol alternative.elements = false)
    (derived : Derives input chart (.matched cell symbol token)) :
    ∃ id start finish children stop, token = .node id symbol 0 start finish children ∧
      Derives input chart (.run alternative.elements cell.position children stop) := by
  obtain ⟨index, found, id, start, finish, children, stop, isFound, isNode, run⟩ :=
    derived.of_rule isRule (by rw [only]; exact List.forall_mem_singleton.2 plain)
  rw [only, List.getElem?_singleton] at isFound
  split at isFound
  · next first =>
      cases isFound
      exact ⟨id, start, finish, children, stop, by rw [isNode, first], run⟩
  · cases isFound

end Derives

end Packrat
