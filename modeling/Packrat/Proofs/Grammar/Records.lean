import Packrat.Proofs.Grammar.AliasIndex
import Packrat.Proofs.Grammar.Calls

/-!
What a draft holds can be read off the calls that made it (`Draft.Records`): the symbols of each
role, the targets of aliases, and the root. So a declaration fails with the fault of the first of
its calls that fails, given all calls before it (`Draft.Records.declare_faultOf`), and the same
holds of a row of declarations (`Draft.foldlM_faultOf`).
-/

set_option autoImplicit false
set_option linter.unusedSectionVars false

namespace Packrat

namespace Call

variable {calls clauses : List Call} {opening call : Call} {symbol : Symbol} {role : Role}

theorem declares?_of_isClause (isClause : call.isClause = true) : call.declares? = none := by
  cases call with
  | matcher | elements | value => rfl
  | blanks | root | terminal | aliased | rule => cases isClause

theorem root?_of_isClause (isClause : call.isClause = true) : call.root? = none := by
  cases call with
  | matcher | elements | value => rfl
  | blanks | root | terminal | aliased | rule => cases isClause

theorem targetsOf_of_isClause (isClause : call.isClause = true) : targetsOf symbol call = [] := by
  cases call with
  | matcher | elements | value => rfl
  | blanks | root | terminal | aliased | rule => cases isClause

section Declaration

variable (areClauses : ∀ call ∈ clauses, call.isClause = true)

include areClauses

theorem declared_append :
    Declared (calls ++ opening :: clauses) role symbol ↔
      Declared calls role symbol ∨ opening.declares? = some (role, symbol) := by
  constructor
  · rintro ⟨call, member, declares⟩
    rw [List.mem_append, List.mem_cons] at member
    rcases member with earlier | rfl | isClause
    · exact .inl ⟨call, earlier, declares⟩
    · exact .inr declares
    · rw [declares?_of_isClause (areClauses call isClause)] at declares
      cases declares
  · intro either
    cases either with
    | inl earlier =>
        obtain ⟨call, member, declares⟩ := earlier
        exact ⟨call, List.mem_append_left _ member, declares⟩
    | inr declares =>
        exact ⟨opening, List.mem_append_right _ (List.mem_cons_self ..), declares⟩

theorem targets_append :
    targets (calls ++ opening :: clauses) symbol =
      targets calls symbol ++ targetsOf symbol opening := by
  have quiet : clauses.flatMap (targetsOf symbol) = [] :=
    List.flatMap_eq_nil_iff.2 fun call member => targetsOf_of_isClause (areClauses call member)
  rw [targets, List.flatMap_append, List.flatMap_cons, quiet, List.append_nil]
  rfl

theorem lastRoot_append :
    lastRoot (calls ++ opening :: clauses) = opening.root?.or (lastRoot calls) := by
  have quiet : clauses.filterMap root? = [] :=
    List.filterMap_eq_nil_iff.2 fun call member => root?_of_isClause (areClauses call member)
  rw [lastRoot, List.filterMap_append, List.filterMap_cons, quiet]
  cases opening.root? with
  | none =>
      rw [List.append_nil]
      rfl
  | some root => exact List.getLast?_concat

end Declaration

end Call

variable {V : Type} [Kinded V]

namespace Draft

def symbols (draft : Draft V) : Role → List Symbol
  | .terminal => draft.terminals.map Terminal.symbol
  | .aliased => draft.aliases.entries.map Alias.symbol
  | .rule => draft.rules.map Rule.symbol

/-- Whether a draft holds what calls declare. -/
structure Records (draft : Draft V) (calls : List Call) : Prop where
  declared : ∀ role symbol, symbol ∈ draft.symbols role ↔ Call.Declared calls role symbol
  targets : ∀ symbol,
    Alias.registry.partsAt draft.aliases.entries symbol = Call.targets calls symbol
  indexed : draft.aliases.Indexed
  root : draft.root = Call.lastRoot calls

theorem Records.empty : ({} : Draft V).Records [] := by
  constructor
  · intro role symbol
    cases role with
    | terminal | aliased | rule => exact ⟨nofun, nofun⟩
  · intro symbol
    rfl
  · exact .empty
  · rfl

theorem mem_symbols_add_iff {α β : Type} (registry : Registry α β) {entries : List α}
    {name symbol : Symbol} {parts : List β} (role : Role) :
    symbol ∈ (registry.add name parts entries).map registry.symbol ↔
      symbol ∈ entries.map registry.symbol ∨ some (role, name) = some (role, symbol) := by
  rw [Registry.mem_symbols_add, or_comm, Option.some_inj, Prod.mk.injEq, eq_comm]
  simp only [true_and]

theorem Declares.records {engine : RegexEngine} {draft after : Draft V}
    {declaration : Declaration V} {calls : List Call}
    (declares : draft.Declares engine declaration after) (records : draft.Records calls) :
    after.Records (calls ++ declaration.calls) := by
  have areClauses : ∀ call ∈ declaration.clauses, call.isClause = true :=
    fun _ member => Declaration.isClause_of_mem member
  constructor
  · intro role symbol
    rw [Declaration.calls, Call.declared_append areClauses, ← records.declared]
    cases declares with
    | blanks | root => exact (or_iff_left nofun).symm
    | terminal _ _ =>
        cases role with
        | terminal => exact mem_symbols_add_iff Terminal.registry .terminal
        | aliased | rule => exact (or_iff_left nofun).symm
    | aliased _ _ =>
        cases role with
        | aliased =>
            change symbol ∈ (draft.aliases.add _ _).entries.map Alias.symbol ↔ _
            rw [records.indexed.entries_add]
            exact mem_symbols_add_iff Alias.registry .aliased
        | terminal | rule => exact (or_iff_left nofun).symm
    | rule _ _ =>
        cases role with
        | rule => exact mem_symbols_add_iff Rule.registry .rule
        | terminal | aliased => exact (or_iff_left nofun).symm
  · intro symbol
    rw [Declaration.calls, Call.targets_append areClauses, ← records.targets]
    cases declares with
    | blanks | root | terminal | rule => exact (List.append_nil _).symm
    | @aliased name targets _ _ =>
        change Alias.registry.partsAt (draft.aliases.add name targets).entries symbol =
          _ ++ if name = symbol then targets else []
        rw [records.indexed.entries_add, Registry.partsAt_add]
        by_cases same : name = symbol
        · rw [if_pos same, if_pos same, same]
        · rw [if_neg same, if_neg same, List.append_nil]
  · cases declares with
    | blanks | root | terminal | rule => exact records.indexed
    | aliased _ _ => exact records.indexed.add _ _
  · rw [Declaration.calls, Call.lastRoot_append areClauses, ← records.root]
    cases declares with
    | blanks | root | terminal | aliased | rule => rfl

/-! ### Faults -/

theorem checkSymbol_faultOf (symbol : Symbol) :
    faultOf (checkSymbol symbol) = Call.reservedFault? symbol := by
  unfold checkSymbol Call.reservedFault?
  by_cases reserved : symbol = .unknown
  · rw [if_pos reserved, if_pos ((Symbol.isUnknown_iff symbol).2 reserved)]
    rfl
  · rw [if_neg reserved, if_neg fun named => reserved ((Symbol.isUnknown_iff symbol).1 named)]
    rfl

/-- A declaration fails with the fault of the first of its calls that fails. -/
theorem Records.declare_faultOf {engine : RegexEngine} {draft : Draft V} {calls : List Call}
    (records : draft.Records calls) (declaration : Declaration V) :
    faultOf (draft.declare engine declaration) =
      Call.firstFault? engine.acceptsAnchored calls declaration.calls := by
  rw [Declaration.calls, Call.firstFault?]
  cases declaration with
  | blanks characters => rfl
  | root symbol => rfl
  | terminal symbol clauses =>
      rw [declare, faultOf_bind, checkSymbol_faultOf]
      · rfl
      · intro _ _
        rw [faultOf_map]
        apply Clause.collect_faultOf (TerminalClause.check_matches symbol)
        rw [List.getLast?_concat]
        rfl
  | aliased symbol targets =>
      change _ = Option.or (Option.or (Call.reservedFault? symbol)
        (if Call.targets calls symbol ++ targets = [] then some (GrammarError.emptyPattern symbol)
        else none)) none
      rw [Option.or_none, declare, faultOf_bind, checkSymbol_faultOf]
      intro _ _
      dsimp only
      rw [(records.indexed.add symbol targets).isEmpty_targets, records.indexed.entries_add,
        Registry.partsAt_add, if_pos rfl, records.targets]
      cases Call.targets calls symbol ++ targets with
      | nil => rfl
      | cons first others => rfl
  | rule symbol clauses =>
      rw [declare, faultOf_bind, checkSymbol_faultOf]
      · rfl
      · intro _ _
        rw [faultOf_map]
        apply Clause.collect_faultOf (RuleClause.check_matches symbol)
        rw [List.getLast?_concat]
        rfl

/-- Declarations fail with the fault of the first of their calls that fails; otherwise the draft
holds what they declare. -/
theorem foldlM_faultOf {engine : RegexEngine} {draft : Draft V} {calls : List Call}
    (records : draft.Records calls) (declarations : List (Declaration V)) :
    faultOf (declarations.foldlM (declare engine) draft) =
        Call.firstFault? engine.acceptsAnchored calls (declarations.flatMap Declaration.calls) ∧
      ∀ after, declarations.foldlM (declare engine) draft = .ok after →
        after.Records (calls ++ declarations.flatMap Declaration.calls) := by
  induction declarations generalizing draft calls with
  | nil =>
      constructor
      · rfl
      · rintro after ⟨⟩
        rw [List.flatMap_nil, List.append_nil]
        exact records
  | cons declaration rest ih =>
      have first : faultOf (draft.declare engine declaration) = _ :=
        records.declare_faultOf declaration
      rw [List.foldlM_cons, List.flatMap_cons, Call.firstFault?_append, ← first]
      cases declared : draft.declare engine declaration with
      | error fault =>
          constructor
          · rfl
          · exact nofun
      | ok between =>
          have others := ih ((declares_of_ok declared).records records)
          rw [List.append_assoc] at others
          exact others

end Draft

end Packrat
