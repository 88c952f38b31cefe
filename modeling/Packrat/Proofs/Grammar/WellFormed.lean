import Packrat.Proofs.Grammar.Registry

/-!
What holds of every grammar that is built from declarations. Each alternative has been checked, and
counts as recursive exactly if it starts with the symbol of its own rule.
-/

set_option autoImplicit false

namespace Packrat

variable {V : Type} [Kinded V]

/-- An alternative of a rule, by its index. -/
def Grammar.alternative? (grammar : Grammar V) (symbol : Symbol) (index : Nat) :
    Option (Alternative V) :=
  (grammar.rule? symbol).bind fun rule => rule.alternatives[index]?

theorem Grammar.rule?_of_alternative? {grammar : Grammar V} {symbol : Symbol} {index : Nat}
    {alternative : Alternative V}
    (found : grammar.alternative? symbol index = some alternative) :
    ∃ rule, grammar.rule? symbol = some rule ∧ rule.alternatives[index]? = some alternative :=
  Option.bind_eq_some_iff.1 found

theorem Grammar.resolver?_eq {grammar : Grammar V} {symbol : Symbol} {index : Nat}
    {alternative : Alternative V}
    (found : grammar.alternative? symbol index = some alternative) :
    grammar.resolver? symbol index = alternative.resolver := by
  obtain ⟨rule, isRule, atIndex⟩ := Grammar.rule?_of_alternative? found
  unfold Grammar.resolver?
  rw [isRule]
  change (rule.alternatives[index]?).bind (·.resolver) = _
  rw [atIndex]
  rfl

theorem Grammar.rule?_symbol {grammar : Grammar V} {symbol : Symbol} {rule : Rule V}
    (found : grammar.rule? symbol = some rule) : rule.symbol = symbol := by
  have tagged := List.find?_some found
  simpa using tagged

theorem Grammar.alternative?_iff {grammar : Grammar V} {symbol : Symbol} {rule : Rule V}
    (isRule : grammar.rule? symbol = some rule) {alternative : Alternative V} {index : Nat} :
    grammar.alternative? symbol index = some alternative ↔
      (alternative, index) ∈ rule.alternatives.zipIdx := by
  unfold Grammar.alternative?
  rw [isRule, Option.bind_some, List.mk_mem_zipIdx_iff_getElem?]

def Grammar.Lists (grammar : Grammar V) (symbol : Symbol)
    (alternatives : List (Alternative V × Nat)) : Prop :=
  ∀ entry ∈ alternatives, grammar.alternative? symbol entry.2 = some entry.1

theorem Grammar.lists_zipIdx {grammar : Grammar V} {symbol : Symbol} {rule : Rule V}
    (isRule : grammar.rule? symbol = some rule) :
    grammar.Lists symbol rule.alternatives.zipIdx :=
  fun _ member => (Grammar.alternative?_iff isRule).2 member

theorem Grammar.Lists.tail {grammar : Grammar V} {symbol : Symbol}
    {head : Alternative V × Nat} {alternatives : List (Alternative V × Nat)}
    (listed : grammar.Lists symbol (head :: alternatives)) :
    grammar.Lists symbol alternatives :=
  fun entry member => listed entry (List.mem_cons_of_mem head member)

/-- An alternative of a rule that has been checked, and is marked as recursive exactly if it starts
with the symbol of the rule. -/
structure Alternative.Proper (symbol : Symbol) (alternative : Alternative V) : Prop where
  checked : checkAlternative symbol alternative.elements = .ok ()
  marked : alternative.recursive = startsWithItself symbol alternative.elements

structure Grammar.WellFormed (grammar : Grammar V) : Prop where
  proper : ∀ rule ∈ grammar.rules, ∀ alternative ∈ rule.alternatives,
    alternative.Proper rule.symbol

theorem Grammar.WellFormed.recursive_eq {grammar : Grammar V} (wellFormed : grammar.WellFormed)
    {symbol : Symbol} {index : Nat} {alternative : Alternative V}
    (found : grammar.alternative? symbol index = some alternative) :
    alternative.recursive = startsWithItself symbol alternative.elements := by
  obtain ⟨rule, isRule, atIndex⟩ := Grammar.rule?_of_alternative? found
  rw [← Grammar.rule?_symbol isRule]
  exact (wellFormed.proper rule (List.mem_of_find?_eq_some isRule) alternative
    (List.mem_of_getElem? atIndex)).marked

theorem exists_head_of_startsWithItself {symbol : Symbol} {elements : List Element}
    (starts : startsWithItself symbol elements = true) :
    ∃ head tail, elements = head :: tail ∧ head.symbol? = some symbol := by
  cases elements with
  | nil => simp [startsWithItself] at starts
  | cons head tail => exact ⟨head, tail, rfl, by simpa [startsWithItself] using starts⟩

/-! ### Building -/

/-- What holds of all parts that are settled, and follows from the checks for those that wait, holds
of all that is collected. -/
theorem Clause.collect_forall {C P F A : Type} {symbol : Symbol}
    {check : C → Except GrammarError (Clause P F)} {make : Option F → P → A}
    {ready : P → Prop} {proper : A → Prop}
    (checks : ∀ clause pattern, check clause = .ok (.pattern pattern) → ready pattern)
    (makes : ∀ function pattern, ready pattern → proper (make function pattern))
    {settled all : List A} {waiting : List P} {clauses : List C}
    (collected : Clause.collect symbol check make settled waiting clauses = .ok all)
    (before : ∀ part ∈ settled, proper part) (pending : ∀ pattern ∈ waiting, ready pattern) :
    ∀ part ∈ all, proper part := by
  induction clauses generalizing settled waiting with
  | nil =>
      cases collected
      exact List.forall_mem_append.2 ⟨before, List.forall_mem_map.2 fun pattern member =>
        makes none pattern (pending pattern member)⟩
  | cons clause rest ih =>
      rw [Clause.collect] at collected
      cases checked : check clause with
      | error fault =>
          rw [checked] at collected
          cases collected
      | ok kind =>
          rw [checked] at collected
          cases kind with
          | pattern pattern =>
              apply ih collected before
              exact List.forall_mem_append.2
                ⟨pending, List.forall_mem_singleton.2 (checks clause pattern checked)⟩
          | value function =>
              simp only at collected
              split at collected
              · cases collected
              · apply ih collected ?_ nofun
                exact List.forall_mem_append.2 ⟨before, List.forall_mem_map.2 fun pattern member =>
                  makes (some function) pattern (pending pattern member)⟩

theorem RuleClause.checked_of_check {symbol : Symbol} {clause : RuleClause V}
    {elements : List Element} (checked : clause.check symbol = .ok (.pattern elements)) :
    checkAlternative symbol elements = .ok () := by
  cases clause with
  | value resolver => cases checked
  | pattern given =>
      rw [RuleClause.check] at checked
      cases accepted : checkAlternative symbol given with
      | error fault =>
          rw [accepted] at checked
          cases checked
      | ok passed =>
          rw [accepted] at checked
          cases checked
          exact accepted

theorem RuleClause.collect_proper {symbol : Symbol} {clauses : List (RuleClause V)}
    {alternatives : List (Alternative V)}
    (collected : RuleClause.collect symbol clauses = .ok alternatives) :
    ∀ alternative ∈ alternatives, alternative.Proper symbol :=
  Clause.collect_forall (fun _ _ checked => checked_of_check checked)
    (fun _ _ accepted => ⟨accepted, rfl⟩) collected nofun nofun

inductive Draft.Declares (engine : RegexEngine) (draft : Draft V) :
    Declaration V → Draft V → Prop where
  | blanks (characters : List Char) :
      Declares engine draft (.blanks characters) { draft with blanks := characters }
  | root (symbol : Symbol) : Declares engine draft (.root symbol) { draft with root := some symbol }
  | terminal {symbol : Symbol} {clauses : List (TerminalClause V)}
      {candidates : List (Candidate V)} :
      symbol.isUnknown = false → TerminalClause.collect engine symbol clauses = .ok candidates →
      Declares engine draft (.terminal symbol clauses)
        { draft with terminals := Terminal.registry.add symbol candidates draft.terminals }
  | aliased {symbol : Symbol} {targets : List Symbol} :
      symbol.isUnknown = false →
      ((draft.aliases.add symbol targets).find? symbol).all (·.targets.isEmpty) = false →
      Declares engine draft (.aliased symbol targets)
        { draft with aliases := draft.aliases.add symbol targets }
  | rule {symbol : Symbol} {clauses : List (RuleClause V)} {alternatives : List (Alternative V)} :
      symbol.isUnknown = false → RuleClause.collect symbol clauses = .ok alternatives →
      Declares engine draft (.rule symbol clauses)
        { draft with rules := Rule.registry.add symbol alternatives draft.rules }

theorem Draft.declares_of_ok {engine : RegexEngine} {draft after : Draft V}
    {declaration : Declaration V}
    (declared : draft.declare engine declaration = .ok after) :
    draft.Declares engine declaration after := by
  cases declaration with
  | blanks characters =>
      cases declared
      exact .blanks characters
  | root symbol =>
      cases declared
      exact .root symbol
  | terminal symbol clauses =>
      simp only [Draft.declare, checkSymbol] at declared
      split at declared
      · cases declared
      · next named =>
          cases collected : TerminalClause.collect engine symbol clauses with
          | error fault =>
              rw [collected] at declared
              cases declared
          | ok candidates =>
              rw [collected] at declared
              cases declared
              exact .terminal (eq_false_of_ne_true named) collected
  | aliased symbol targets =>
      simp only [Draft.declare, checkSymbol] at declared
      split at declared
      · cases declared
      · next named =>
          change (if _ then _ else _) = Except.ok after at declared
          split at declared
          · cases declared
          · next filled =>
              cases declared
              exact .aliased (eq_false_of_ne_true named) (eq_false_of_ne_true filled)
  | rule symbol clauses =>
      simp only [Draft.declare, checkSymbol] at declared
      split at declared
      · cases declared
      · next named =>
          cases collected : RuleClause.collect symbol clauses with
          | error fault =>
              rw [collected] at declared
              cases declared
          | ok alternatives =>
              rw [collected] at declared
              cases declared
              exact .rule (eq_false_of_ne_true named) collected

def Draft.Proper (draft : Draft V) : Prop :=
  ∀ rule ∈ draft.rules, ∀ alternative ∈ rule.alternatives, alternative.Proper rule.symbol

theorem Draft.Declares.proper {engine : RegexEngine} {draft after : Draft V}
    {declaration : Declaration V}
    (declares : draft.Declares engine declaration after) (before : draft.Proper) :
    after.Proper := by
  cases declares with
  | blanks characters => exact before
  | root symbol => exact before
  | terminal _ _ => exact before
  | aliased _ _ => exact before
  | rule _ collected => exact Registry.forall_add before (RuleClause.collect_proper collected)

theorem Draft.foldlM_declare {engine : RegexEngine} {invariant : Draft V → Prop}
    (step : ∀ draft declaration after, draft.Declares engine declaration after →
      invariant draft → invariant after)
    {declarations : List (Declaration V)} {draft after : Draft V}
    (folded : declarations.foldlM (Draft.declare engine) draft = .ok after)
    (before : invariant draft) :
    invariant after := by
  induction declarations generalizing draft with
  | nil =>
      cases folded
      exact before
  | cons declaration others ih =>
      rw [List.foldlM_cons] at folded
      cases declared : draft.declare engine declaration with
      | error fault =>
          rw [declared] at folded
          cases folded
      | ok between =>
          rw [declared] at folded
          exact ih folded (step _ _ _ (Draft.declares_of_ok declared) before)

theorem Draft.finish_eq_ok {draft : Draft V} {grammar : Grammar V}
    (finished : draft.finish = .ok grammar) :
    grammar.terminals = draft.terminals ∧ grammar.rules = draft.rules ∧
      Aliases.sort.run draft.aliases = .ok () grammar.aliases := by
  simp only [Draft.finish] at finished
  split at finished
  · cases finished
  · split at finished
    · cases finished
    · split at finished
      · cases finished
      · next aliases ordered =>
          split at finished
          · cases finished
          · split at finished
            · cases finished
              exact ⟨rfl, rfl, ordered⟩
            · cases finished

theorem Grammar.build_eq_ok {engine : RegexEngine} {declarations : List (Declaration V)}
    {grammar : Grammar V} (built : Grammar.build engine declarations = .ok grammar) :
    ∃ draft, declarations.foldlM (Draft.declare engine) ({} : Draft V) = .ok draft ∧
      draft.finish = .ok grammar := by
  unfold Grammar.build at built
  cases drafted : declarations.foldlM (Draft.declare engine) ({} : Draft V) with
  | error fault =>
      rw [drafted] at built
      cases built
  | ok draft =>
      rw [drafted] at built
      exact ⟨draft, rfl, built⟩

theorem Grammar.build_wellFormed {engine : RegexEngine} {declarations : List (Declaration V)}
    {grammar : Grammar V}
    (built : Grammar.build engine declarations = .ok grammar) : grammar.WellFormed := by
  obtain ⟨draft, drafted, finished⟩ := Grammar.build_eq_ok built
  constructor
  rw [(Draft.finish_eq_ok finished).2.1]
  exact Draft.foldlM_declare (fun _ _ _ declares => declares.proper) drafted nofun

/-- The terminals of a grammar that is built have different symbols. -/
theorem Grammar.build_terminals_nodup {engine : RegexEngine} {declarations : List (Declaration V)}
    {grammar : Grammar V} (built : Grammar.build engine declarations = .ok grammar) :
    (grammar.terminals.map Terminal.symbol).Nodup := by
  obtain ⟨draft, drafted, finished⟩ := Grammar.build_eq_ok built
  rw [(Draft.finish_eq_ok finished).1]
  have step : ∀ (before : Draft V) declaration after, before.Declares engine declaration after →
      (before.terminals.map Terminal.symbol).Nodup →
        (after.terminals.map Terminal.symbol).Nodup := by
    intro before declaration after declares distinct
    cases declares with
    | blanks | root | aliased | rule => exact distinct
    | terminal _ _ => exact Registry.nodup_symbols_add Terminal.registry distinct
  exact Draft.foldlM_declare step drafted List.nodup_nil

end Packrat
