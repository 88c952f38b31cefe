import Mathlib.Data.List.Forall2
import Packrat.Proofs.Derivation.Counted
import Packrat.Proofs.Reference.Basic
import Packrat.Proofs.Reference.Guarded

/-!
Grammars that differ in the order of alternatives only. Each rule has seeds, which do not start with
the rule itself, and extensions, which do. Two grammars are reordered if the seeds of their rules
are related in one way and the extensions in another; all else is the same. Under both, texts have
the same cells, and one is guarded if the other is (`Input.Guarded.reordered`).
-/

set_option autoImplicit false
set_option linter.unusedSectionVars false

namespace Packrat

variable {V : Type} [Kinded V]

abbrev Order (V : Type) [Kinded V] : Type := List (Alternative V) → List (Alternative V) → Prop

namespace Rule

def seeds (rule : Rule V) : List (Alternative V) :=
  rule.alternatives.filter fun alternative => !alternative.recursive

def extensions (rule : Rule V) : List (Alternative V) :=
  rule.alternatives.filter fun alternative => alternative.recursive

structure Reordered (onSeeds onExtensions : Order V) (rule other : Rule V) : Prop where
  symbol : rule.symbol = other.symbol
  seeds : onSeeds rule.seeds other.seeds
  extensions : onExtensions rule.extensions other.extensions

theorem mem_seeds {rule : Rule V} {alternative : Alternative V} :
    alternative ∈ rule.seeds ↔ alternative ∈ rule.alternatives ∧ alternative.recursive = false := by
  rw [seeds, List.mem_filter, Bool.not_eq_true']

theorem mem_extensions {rule : Rule V} {alternative : Alternative V} :
    alternative ∈ rule.extensions ↔
      alternative ∈ rule.alternatives ∧ alternative.recursive = true := by
  rw [extensions, List.mem_filter]

variable {onSeeds onExtensions wideSeeds wideExtensions : Order V} {rule other : Rule V}

theorem Reordered.mono (reordered : rule.Reordered onSeeds onExtensions other)
    (seeds : ∀ list list', onSeeds list list' → wideSeeds list list')
    (extensions : ∀ list list', onExtensions list list' → wideExtensions list list') :
    rule.Reordered wideSeeds wideExtensions other :=
  ⟨reordered.symbol, seeds _ _ reordered.seeds, extensions _ _ reordered.extensions⟩

theorem Reordered.mem_iff (reordered : rule.Reordered List.Perm List.Perm other)
    {alternative : Alternative V} :
    alternative ∈ rule.alternatives ↔ alternative ∈ other.alternatives := by
  cases kind : alternative.recursive with
  | false =>
      have same := reordered.seeds.mem_iff (a := alternative)
      rwa [mem_seeds, mem_seeds, and_iff_left kind, and_iff_left kind] at same
  | true =>
      have same := reordered.extensions.mem_iff (a := alternative)
      rwa [mem_extensions, mem_extensions, and_iff_left kind, and_iff_left kind] at same

end Rule

/-! ### Grammars -/

namespace Grammar

structure Reordered (onSeeds onExtensions : Order V) (grammar other : Grammar V) : Prop where
  blanks : grammar.blanks = other.blanks
  root : grammar.root = other.root
  terminals : grammar.terminals = other.terminals
  aliases : grammar.aliases = other.aliases
  rules : List.Forall₂ (Rule.Reordered onSeeds onExtensions) grammar.rules other.rules

variable {onSeeds onExtensions wideSeeds wideExtensions : Order V} {grammar other : Grammar V}

theorem Reordered.mono (reordered : grammar.Reordered onSeeds onExtensions other)
    (seeds : ∀ list list', onSeeds list list' → wideSeeds list list')
    (extensions : ∀ list list', onExtensions list list' → wideExtensions list list') :
    grammar.Reordered wideSeeds wideExtensions other :=
  { reordered with rules := reordered.rules.imp fun _ _ same => same.mono seeds extensions }

theorem Reordered.symm (reordered : grammar.Reordered onSeeds onExtensions other)
    (seeds : ∀ list list', onSeeds list list' → wideSeeds list' list)
    (extensions : ∀ list list', onExtensions list list' → wideExtensions list' list) :
    other.Reordered wideSeeds wideExtensions grammar where
  blanks := reordered.blanks.symm
  root := reordered.root.symm
  terminals := reordered.terminals.symm
  aliases := reordered.aliases.symm
  rules := by
    refine (reordered.rules.imp fun _ _ same => ?_).flip
    exact ⟨same.symbol.symm, seeds _ _ same.seeds, extensions _ _ same.extensions⟩

theorem Reordered.rule? (reordered : grammar.Reordered onSeeds onExtensions other)
    (symbol : Symbol) :
    Option.Rel (Rule.Reordered onSeeds onExtensions) (grammar.rule? symbol)
      (other.rule? symbol) := by
  unfold Grammar.rule?
  generalize grammar.rules = rules, other.rules = rules', reordered.rules = same
  induction same with
  | nil => exact .none
  | @cons rule rule' _ _ same _ ih =>
      rw [List.find?_cons, List.find?_cons, ← same.symbol]
      cases rule.symbol == symbol with
      | true => exact .some same
      | false => exact ih

theorem Reordered.exists_rule (reordered : grammar.Reordered onSeeds onExtensions other)
    {rule' : Rule V} (listed : rule' ∈ other.rules) :
    ∃ rule ∈ grammar.rules, rule.Reordered onSeeds onExtensions rule' := by
  obtain ⟨index, here⟩ := List.mem_iff_get.1 listed
  have size := reordered.rules.length_eq
  refine ⟨grammar.rules.get (index.cast size.symm), List.get_mem _ _, ?_⟩
  rw [← here]
  exact reordered.rules.get (index.cast size.symm).2 index.2

theorem Reordered.rule?_eq_none (reordered : grammar.Reordered onSeeds onExtensions other)
    {symbol : Symbol} (noRule : grammar.rule? symbol = none) : other.rule? symbol = none := by
  have same := reordered.rule? symbol
  rw [noRule] at same
  generalize other.rule? symbol = found at same
  cases same
  rfl

theorem Reordered.rule?_eq_some (reordered : grammar.Reordered onSeeds onExtensions other)
    {symbol : Symbol} {rule : Rule V} (isRule : grammar.rule? symbol = some rule) :
    ∃ rule', other.rule? symbol = some rule' ∧ rule.Reordered onSeeds onExtensions rule' := by
  have same := reordered.rule? symbol
  rw [isRule] at same
  generalize other.rule? symbol = found at same
  cases same with
  | some same => exact ⟨_, rfl, same⟩

theorem Reordered.leftCorner (reordered : grammar.Reordered List.Perm List.Perm other)
    {symbol corner : Symbol} (edge : grammar.LeftCorner symbol corner) :
    other.LeftCorner symbol corner := by
  obtain ⟨isRule, rule, found, alternative, listed, plain, isHead⟩ := edge
  obtain ⟨cornerRule, foundCorner⟩ := Option.isSome_iff_exists.1 isRule
  obtain ⟨cornerRule', foundCorner', -⟩ := reordered.rule?_eq_some foundCorner
  obtain ⟨rule', found', same⟩ := reordered.rule?_eq_some found
  refine ⟨?_, rule', found', alternative, same.mem_iff.1 listed, plain, isHead⟩
  rw [Grammar.isRule, foundCorner']
  rfl

end Grammar

/-! ### Texts -/

structure Input.Reordered (onSeeds onExtensions : Order V) (input other : Input V) : Prop where
  grammar : input.grammar.Reordered onSeeds onExtensions other.grammar
  source : input.source = other.source

namespace Input.Reordered

variable {onSeeds onExtensions wideSeeds wideExtensions : Order V} {input other : Input V}

theorem mono (reordered : input.Reordered onSeeds onExtensions other)
    (seeds : ∀ list list', onSeeds list list' → wideSeeds list list')
    (extensions : ∀ list list', onExtensions list list' → wideExtensions list list') :
    input.Reordered wideSeeds wideExtensions other :=
  ⟨reordered.grammar.mono seeds extensions, reordered.source⟩

theorem symm (reordered : input.Reordered onSeeds onExtensions other)
    (seeds : ∀ list list', onSeeds list list' → wideSeeds list' list)
    (extensions : ∀ list list', onExtensions list list' → wideExtensions list' list) :
    other.Reordered wideSeeds wideExtensions input :=
  ⟨reordered.grammar.symm seeds extensions, reordered.source.symm⟩

theorem counts_iff (reordered : input.Reordered onSeeds onExtensions other)
    {position : Position} : input.Counts position ↔ other.Counts position := by
  rw [Input.Counts, Input.Counts, reordered.source]

theorem rest? (reordered : input.Reordered onSeeds onExtensions other) (offset : Nat) :
    input.rest? offset = other.rest? offset := by
  rw [Input.rest?_eq, Input.rest?_eq, reordered.source]

theorem land (reordered : input.Reordered onSeeds onExtensions other) (origin : Position) :
    input.land origin = other.land origin := by
  have same : input.grammar.isBlank = other.grammar.isBlank := by
    funext c
    rw [Grammar.isBlank, Grammar.isBlank, reordered.grammar.blanks]
  rw [Input.land, Input.land, reordered.rest?, same, input.length_eq, other.length_eq,
    reordered.source]

theorem scanAt? (reordered : input.Reordered onSeeds onExtensions other) (place : Position) :
    input.scanAt? place = other.scanAt? place := by
  unfold Input.scanAt? LexicalCell.scan
  rw [reordered.rest?, reordered.grammar.terminals, reordered.grammar.aliases]

end Input.Reordered

/-- Whether a text is guarded does not depend on the order of alternatives. -/
theorem Input.Guarded.reordered {input other : Input V} (guarded : input.Guarded)
    (reordered : input.Reordered List.Perm List.Perm other) : other.Guarded where
  literals := by
    intro rule listed alternative member
    obtain ⟨rule', listed', same⟩ := reordered.grammar.exists_rule listed
    exact guarded.literals rule' listed' alternative (same.mem_iff.2 member)
  terminals := by
    intro origin landing landed terminal listed
    rw [← reordered.land] at landed
    rw [← reordered.grammar.terminals] at listed
    exact guarded.terminals origin landing landed terminal listed
  acyclic := by
    intro symbol cyclic
    have back := reordered.grammar.symm (fun _ _ => List.Perm.symm) fun _ _ => List.Perm.symm
    exact guarded.acyclic symbol (cyclic.lift id fun _ _ => back.leftCorner)

end Packrat
