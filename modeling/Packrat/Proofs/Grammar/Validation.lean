import Packrat.Proofs.Grammar.AliasOrder
import Packrat.Proofs.Grammar.Records
import Packrat.Regex.Engine
import Packrat.Scalar.Basic

/-!
Which declarations make a grammar. The conditions are on the calls that the declarations consist
of: each of them passes by itself (`Call.AllPass`), and the roles of symbols, the targets of
aliases and the root fit together (`Call.Accepted`). A build succeeds exactly if all of this
holds, and otherwise tells the first that does not (`Grammar.build_exact`).
-/

set_option autoImplicit false
set_option linter.unusedSectionVars false

namespace Packrat

namespace Call

section

variable (accepts : String → Bool)

/-- What it takes for a call to pass, given the calls before it and which regular patterns are well
formed. -/
def Passes (earlier : List Call) : Call → Prop
  | .blanks _ => True
  | .root _ => True
  | .terminal symbol => symbol ≠ .unknown
  | .aliased symbol added => symbol ≠ .unknown ∧ targets earlier symbol ++ added ≠ []
  | .rule symbol => symbol ≠ .unknown
  | .matcher _ given => given.Valid accepts
  | .elements symbol given =>
    (given ≠ [] ∧ ∀ element ∈ given, element.Valid) ∧
      ∀ element, given = [element] → element.symbol? ≠ some symbol
  | .value _ => ∃ call, earlier.getLast? = some call ∧ call.isPattern = true

def AllPass (calls : List Call) : Prop :=
  ∀ before call after, calls = before ++ call :: after → call.Passes accepts before

end

def Leads (calls : List Call) : Symbol → Symbol → Prop :=
  Relation.TransGen fun symbol target => target ∈ targets calls symbol

def RolesApart (calls : List Call) : Prop :=
  ∀ symbol, Declared calls .rule symbol → ¬Lexical calls symbol

def TargetsKnown (calls : List Call) : Prop :=
  ∀ symbol, ∀ target ∈ targets calls symbol, Lexical calls target

def Acyclic (calls : List Call) : Prop :=
  ∀ symbol, ¬Leads calls symbol symbol

def Registered (calls : List Call) (symbol : Symbol) : Prop :=
  Lexical calls symbol ∨ Declared calls .rule symbol

/-- Calls of which each passes, and which fit together. -/
structure Accepted (accepts : String → Bool) (calls : List Call) : Prop where
  passes : AllPass accepts calls
  apart : RolesApart calls
  targets : TargetsKnown calls
  acyclic : Acyclic calls
  rooted : ∃ symbol, lastRoot calls = some symbol ∧ Registered calls symbol

/-- Whether for the regular patterns of calls a group around them makes no difference to being well
formed. -/
def Enclosable (engine : RegexEngine) (calls : List Call) : Prop :=
  ∀ call ∈ calls, ∀ pattern ∈ call.regexes,
    engine.acceptsAnchored pattern = engine.accepts pattern

/-- Which error calls are refused with. Each kind of error presupposes that there is none of those
that are looked for before. -/
inductive Refused (accepts : String → Bool) (calls : List Call) : GrammarError → Prop where
  | call {before after : List Call} {call : Call} {error : GrammarError} :
      calls = before ++ call :: after → AllPass accepts before →
        call.fault? accepts before = some error →
      Refused accepts calls error
  | dualRole {symbol : Symbol} :
      AllPass accepts calls → Declared calls .rule symbol → Lexical calls symbol →
      Refused accepts calls (.dualRole symbol)
  | unknownTarget {symbol target : Symbol} :
      AllPass accepts calls → RolesApart calls → target ∈ targets calls symbol →
        ¬Lexical calls target →
      Refused accepts calls (.unknownAliasTarget symbol target)
  | cycle {symbol : Symbol} :
      AllPass accepts calls → RolesApart calls → TargetsKnown calls → Leads calls symbol symbol →
      Refused accepts calls (.aliasCycle symbol)
  | missingRoot :
      AllPass accepts calls → RolesApart calls → TargetsKnown calls → Acyclic calls →
      lastRoot calls = none →
      Refused accepts calls .missingRoot
  | unknownRoot {symbol : Symbol} :
      AllPass accepts calls → RolesApart calls → TargetsKnown calls → Acyclic calls →
      lastRoot calls = some symbol → ¬Registered calls symbol →
      Refused accepts calls (.unknownRoot symbol)

/-! ### Calls that pass -/

variable {accepts : String → Bool}

theorem reservedFault?_eq_none_iff {symbol : Symbol} :
    reservedFault? symbol = none ↔ symbol ≠ .unknown := by
  unfold reservedFault?
  split
  · next reserved => simp [reserved]
  · next named => simp [named]

theorem startsWithItself_alone {symbol : Symbol} {elements : List Element} :
    (startsWithItself symbol elements && elements.length == 1) = true ↔
      ∃ element, elements = [element] ∧ element.symbol? = some symbol := by
  cases elements with
  | nil => simp [startsWithItself]
  | cons first rest =>
      cases rest with
      | nil => simp [startsWithItself]
      | cons second others => simp

theorem passes_iff {call : Call} {earlier : List Call} :
    call.Passes accepts earlier ↔ call.fault? accepts earlier = none := by
  cases call with
  | blanks characters => exact ⟨fun _ => rfl, fun _ => trivial⟩
  | root symbol => exact ⟨fun _ => rfl, fun _ => trivial⟩
  | terminal symbol => exact reservedFault?_eq_none_iff.symm
  | rule symbol => exact reservedFault?_eq_none_iff.symm
  | aliased symbol added =>
      rw [Passes, fault?, Option.or_eq_none_iff, reservedFault?_eq_none_iff]
      simp
  | matcher symbol given =>
      rw [Passes, fault?, Option.map_eq_none_iff, List.head?_eq_none_iff,
        Matcher.faults_eq_nil_iff]
  | elements symbol given =>
      rw [Passes, fault?, Option.or_eq_none_iff, Option.map_eq_none_iff, List.head?_eq_none_iff,
        Element.sequenceFaults, List.append_eq_nil_iff, emptyFaults_eq_nil_iff,
        Element.faultsAll_eq_nil_iff]
      apply and_congr_right
      intro _
      split
      · next alone =>
          obtain ⟨element, isOnly, isItself⟩ := startsWithItself_alone.1 alone
          constructor
          · exact fun productive => (productive element isOnly isItself).elim
          · simp
      · next productive =>
          constructor
          · exact fun _ => rfl
          · exact fun _ element isOnly isItself =>
              productive (startsWithItself_alone.2 ⟨element, isOnly, isItself⟩)
  | value symbol =>
      rw [Passes, fault?]
      cases earlier.getLast? with
      | none => simp
      | some last => simp

theorem allPass_iff {calls : List Call} :
    AllPass accepts calls ↔ firstFault? accepts [] calls = none := by
  rw [firstFault?_eq_none_iff]
  apply forall₄_congr
  intro before call after _
  exact passes_iff

theorem Accepted.not_refused {calls : List Call} (accepted : Accepted accepts calls)
    (error : GrammarError) : ¬Refused accepts calls error := by
  obtain ⟨root, isRoot, registered⟩ := accepted.rooted
  intro refused
  cases refused with
  | call all _ fails =>
      have passes := accepted.passes _ _ _ all
      rw [passes_iff, fails] at passes
      cases passes
  | dualRole _ isRule isLexical => exact accepted.apart _ isRule isLexical
  | unknownTarget _ _ isTarget unknown => exact unknown (accepted.targets _ _ isTarget)
  | cycle _ _ _ leads => exact accepted.acyclic _ leads
  | missingRoot _ _ _ _ missing =>
      rw [isRoot] at missing
      cases missing
  | unknownRoot _ _ _ _ isOther unknown =>
      rw [isRoot] at isOther
      cases isOther
      exact unknown registered

end Call

variable {V : Type} [Kinded V]

namespace Draft.Records

variable {draft : Draft V} {calls : List Call} {symbol : Symbol}

theorem isLexical_iff (records : draft.Records calls) :
    draft.isLexical symbol = true ↔ Call.Lexical calls symbol := by
  unfold Call.Lexical
  rw [← records.declared, ← records.declared, Draft.isLexical, Bool.or_eq_true,
    records.indexed.contains_iff]
  simp [symbols]

theorem isRule_iff (records : draft.Records calls) :
    draft.isRule symbol = true ↔ Call.Declared calls .rule symbol := by
  rw [← records.declared, Draft.isRule]
  simp [symbols]

theorem refers_iff (records : draft.Records calls) {target : Symbol} :
    Alias.Refers draft.aliases.entries symbol target ↔ target ∈ Call.targets calls symbol := by
  rw [← records.targets]
  change _ ↔ target ∈ (Alias.find? draft.aliases.entries symbol).elim [] Alias.targets
  unfold Alias.Refers
  cases Alias.find? draft.aliases.entries symbol with
  | none => simp
  | some entry => simp

/-! ### What is checked at the end -/

theorem dualRole?_eq_some (records : draft.Records calls)
    (found : draft.dualRole? = some symbol) :
    Call.Declared calls .rule symbol ∧ Call.Lexical calls symbol := by
  constructor
  · exact (records.declared .rule symbol).1 (List.mem_of_find?_eq_some found)
  · exact records.isLexical_iff.1 (List.find?_some found)

theorem apart_of_dualRole? (records : draft.Records calls) (none : draft.dualRole? = none) :
    Call.RolesApart calls := by
  intro symbol isRule isLexical
  have listed := (records.declared .rule symbol).2 isRule
  exact List.find?_eq_none.1 none symbol listed (records.isLexical_iff.2 isLexical)

theorem mem_references_iff (records : draft.Records calls) {target : Symbol} :
    (symbol, target) ∈
        draft.aliases.entries.flatMap (fun entry => entry.targets.map (entry.symbol, ·)) ↔
      target ∈ Call.targets calls symbol := by
  rw [← records.refers_iff, List.mem_flatMap]
  constructor
  · rintro ⟨entry, member, listed⟩
    obtain ⟨other, isTarget, same⟩ := List.mem_map.1 listed
    cases same
    exact ⟨entry, Alias.find?_of_mem records.indexed.distinct member, isTarget⟩
  · rintro ⟨entry, isAlias, listed⟩
    have named := Alias.find?_symbol isAlias
    subst named
    exact ⟨entry, List.mem_of_find?_eq_some isAlias, List.mem_map_of_mem listed⟩

theorem unknownTarget?_eq_some (records : draft.Records calls) {target : Symbol}
    (found : draft.unknownTarget? = some (symbol, target)) :
    target ∈ Call.targets calls symbol ∧ ¬Call.Lexical calls target := by
  constructor
  · exact records.mem_references_iff.1 (List.mem_of_find?_eq_some found)
  · have unknown := List.find?_some found
    rw [← records.isLexical_iff]
    simpa using unknown

theorem targetsKnown_of_unknownTarget? (records : draft.Records calls)
    (none : draft.unknownTarget? = none) : Call.TargetsKnown calls := by
  intro symbol target isTarget
  have known := List.find?_eq_none.1 none _ (records.mem_references_iff.2 isTarget)
  rw [← records.isLexical_iff]
  simpa using known

theorem leads_iff (records : draft.Records calls) {target : Symbol} :
    Relation.TransGen (Alias.Refers draft.aliases.entries) symbol target ↔
      Call.Leads calls symbol target := by
  have same :
      Alias.Refers draft.aliases.entries =
        fun symbol target => target ∈ Call.targets calls symbol := by
    funext symbol target
    exact propext records.refers_iff
  rw [same]
  exact Iff.rfl

theorem acyclic_of_sort (records : draft.Records calls) {sorted : Aliases}
    (done : Aliases.sort.run draft.aliases = .ok () sorted) : Call.Acyclic calls := by
  have ordered := (records.indexed.sort_eq_ok done).1
  intro symbol
  rw [← records.leads_iff]
  exact (Alias.order_eq_ok_iff records.indexed.distinct).1 ⟨sorted.entries, ordered⟩ symbol

theorem leads_of_sort (records : draft.Records calls) {after : Aliases}
    (failed : Aliases.sort.run draft.aliases = .error symbol after) :
    Call.Leads calls symbol symbol := by
  have settles := Alias.order_settles records.indexed.distinct
  rw [(records.indexed.sort_eq_error failed).1] at settles
  exact records.leads_iff.1 settles

theorem registered_iff (records : draft.Records calls) :
    (draft.isLexical symbol || draft.isRule symbol) = true ↔ Call.Registered calls symbol := by
  rw [Bool.or_eq_true, records.isLexical_iff, records.isRule_iff]
  exact Iff.rfl

/-- A draft that is finished comes from calls that fit together, and otherwise the first thing that
does not fit is told. -/
theorem finish_settles {accepts : String → Bool} (records : draft.Records calls)
    (passes : Call.AllPass accepts calls) :
    match draft.finish with
    | .ok _ => Call.Accepted accepts calls
    | .error error => Call.Refused accepts calls error := by
  unfold finish
  cases dual : draft.dualRole? with
  | some symbol =>
      obtain ⟨isRule, isLexical⟩ := records.dualRole?_eq_some dual
      exact .dualRole passes isRule isLexical
  | none =>
      have apart := records.apart_of_dualRole? dual
      cases unknown : draft.unknownTarget? with
      | some reference =>
          obtain ⟨isTarget, isUnknown⟩ := records.unknownTarget?_eq_some unknown
          exact .unknownTarget passes apart isTarget isUnknown
      | none =>
          have known := records.targetsKnown_of_unknownTarget? unknown
          cases done : Aliases.sort.run draft.aliases with
          | error symbol _ => exact .cycle passes apart known (records.leads_of_sort done)
          | ok _ sorted =>
              have acyclic := records.acyclic_of_sort done
              have isRoot := records.root
              cases set : draft.root with
              | none =>
                  rw [set] at isRoot
                  exact .missingRoot passes apart known acyclic isRoot.symm
              | some root =>
                  rw [set] at isRoot
                  dsimp only
                  by_cases registered : (draft.isLexical root || draft.isRule root) = true
                  · rw [if_pos registered]
                    exact ⟨passes, apart, known, acyclic, root, isRoot.symm,
                      records.registered_iff.1 registered⟩
                  · rw [if_neg registered]
                    exact .unknownRoot passes apart known acyclic isRoot.symm
                      fun isRegistered => registered (records.registered_iff.2 isRegistered)

end Draft.Records

/-! ### Builds -/

namespace Grammar

variable {engine : RegexEngine} {declarations : List (Declaration V)} {grammar : Grammar V}

theorem foldlM_faultOf
    (enclosable : Call.Enclosable engine (declarations.flatMap Declaration.calls)) :
    faultOf (declarations.foldlM (Draft.declare engine) ({} : Draft V)) =
      Call.firstFault? engine.accepts [] (declarations.flatMap Declaration.calls) := by
  rw [(Draft.foldlM_faultOf Draft.Records.empty declarations).1]
  exact Call.firstFault?_congr enclosable

theorem build_settles
    (enclosable : Call.Enclosable engine (declarations.flatMap Declaration.calls)) :
    match build engine declarations with
    | .ok _ => Call.Accepted engine.accepts (declarations.flatMap Declaration.calls)
    | .error error =>
      Call.Refused engine.accepts (declarations.flatMap Declaration.calls) error := by
  have faults := foldlM_faultOf enclosable
  unfold build
  cases drafted : declarations.foldlM (Draft.declare engine) ({} : Draft V) with
  | error error =>
      rw [drafted] at faults
      obtain ⟨before, call, after, all, passed, fails⟩ := Call.firstFault?_eq_some faults.symm
      exact .call all (Call.allPass_iff.2 passed) fails
  | ok draft =>
      rw [drafted] at faults
      have records : draft.Records (declarations.flatMap Declaration.calls) :=
        (Draft.foldlM_faultOf Draft.Records.empty declarations).2 draft drafted
      exact records.finish_settles (Call.allPass_iff.2 faults.symm)

theorem build_eq_ok_iff
    (enclosable : Call.Enclosable engine (declarations.flatMap Declaration.calls)) :
    (∃ grammar, build engine declarations = .ok grammar) ↔
      Call.Accepted engine.accepts (declarations.flatMap Declaration.calls) := by
  have settles := build_settles enclosable
  constructor
  · rintro ⟨grammar, built⟩
    rw [built] at settles
    exact settles
  · intro accepted
    cases built : build engine declarations with
    | ok grammar => exact ⟨grammar, rfl⟩
    | error error =>
        rw [built] at settles
        exact (accepted.not_refused error settles).elim

/-- An alias that has been declared is in the grammar with all targets that it was given, and the
aliases of the grammar are in order. -/
theorem build_alias {symbol : Symbol} (built : build engine declarations = .ok grammar)
    (declared : Call.Declared (declarations.flatMap Declaration.calls) .aliased symbol) :
    (∃ aliases, Alias.Ordered aliases grammar.aliases.entries) ∧
      ⟨symbol, Call.targets (declarations.flatMap Declaration.calls) symbol⟩ ∈
        grammar.aliases.entries := by
  obtain ⟨draft, drafted, finished⟩ := build_eq_ok built
  have records : draft.Records (declarations.flatMap Declaration.calls) :=
    (Draft.foldlM_faultOf Draft.Records.empty declarations).2 draft drafted
  have settles := Alias.order_settles records.indexed.distinct
  rw [(records.indexed.sort_eq_ok (Draft.finish_eq_ok finished).2.2).1] at settles
  obtain ⟨ordered, -, placed⟩ := settles
  refine ⟨⟨draft.aliases.entries, ordered⟩, ?_⟩
  obtain ⟨entry, member, rfl⟩ := List.mem_map.1 ((records.declared .aliased symbol).2 declared)
  have given := records.targets entry.symbol
  change (Alias.find? draft.aliases.entries entry.symbol).elim [] Alias.targets = _ at given
  rw [Alias.find?_of_mem records.indexed.distinct member] at given
  rw [← given]
  exact placed member

/-- An alternative of a rule has elements, and is marked as recursive exactly if the first of them
is the symbol of the rule; then there are others behind it. -/
theorem WellFormed.alternatives {grammar : Grammar V} (wellFormed : grammar.WellFormed) :
    ∀ rule ∈ grammar.rules, ∀ alternative ∈ rule.alternatives,
      ∃ first rest, alternative.elements = first :: rest ∧
        (alternative.recursive = true ↔ first.symbol? = some rule.symbol) ∧
        (alternative.recursive = true → rest ≠ []) := by
  intro rule isRule alternative listed
  have proper := wellFormed.proper rule isRule alternative listed
  have passes (accepts : String → Bool) :
      (Call.elements rule.symbol alternative.elements).Passes accepts [] := by
    rw [Call.passes_iff, ← checkAlternative_faultOf, proper.checked]
    rfl
  obtain ⟨⟨filled, -⟩, productive⟩ := passes fun _ => true
  cases elements : alternative.elements with
  | nil => exact (filled elements).elim
  | cons first rest =>
      have marked : alternative.recursive = true ↔ first.symbol? = some rule.symbol := by
        rw [proper.marked, elements]
        exact beq_iff_eq
      refine ⟨first, rest, rfl, marked, ?_⟩
      rintro recursive rfl
      exact productive first elements (marked.1 recursive)

/-- Building is exact. A grammar is built from the calls of some declarations if and only if they
are accepted. Otherwise the first call that fails tells its fault; if all calls pass, the first
condition on the whole that fails is told. In a grammar that is built the alternatives are marked
rightly. -/
theorem build_exact
    (enclosable : Call.Enclosable engine (declarations.flatMap Declaration.calls)) :
    ((∃ grammar, build engine declarations = .ok grammar) ↔
      Call.Accepted engine.accepts (declarations.flatMap Declaration.calls)) ∧
    (∀ error, build engine declarations = .error error →
      Call.Refused engine.accepts (declarations.flatMap Declaration.calls) error) ∧
    (∀ before call after error, declarations.flatMap Declaration.calls = before ++ call :: after →
      Call.AllPass engine.accepts before → call.fault? engine.accepts before = some error →
        build engine declarations = .error error) ∧
    (∀ grammar, build engine declarations = .ok grammar →
      ∀ rule ∈ grammar.rules, ∀ alternative ∈ rule.alternatives,
        ∃ first rest, alternative.elements = first :: rest ∧
          (alternative.recursive = true ↔ first.symbol? = some rule.symbol) ∧
          (alternative.recursive = true → rest ≠ [])) := by
  have settles := build_settles enclosable
  refine ⟨build_eq_ok_iff enclosable, ?_, ?_, ?_⟩
  · intro error failed
    rw [failed] at settles
    exact settles
  · intro before call after error all passes fails
    have first : Call.firstFault? engine.accepts [] (before ++ call :: after) = some error := by
      rw [Call.firstFault?_append, Call.allPass_iff.1 passes, Call.firstFault?, List.nil_append,
        fails]
      rfl
    have faults := foldlM_faultOf enclosable
    rw [all, first] at faults
    unfold build
    cases drafted : declarations.foldlM (Draft.declare engine) ({} : Draft V) with
    | error fault =>
        rw [drafted] at faults
        cases faults
        rfl
    | ok draft =>
        rw [drafted] at faults
        cases faults
  · exact fun grammar built => (build_wellFormed built).alternatives

end Grammar

/-! ### Regular patterns that are not well formed by themselves -/

namespace Wrapped

def wordSymbol : Symbol := ⟨"WORD"⟩

def declarations (pattern : String) : List (Declaration Scalar) :=
  [.root wordSymbol, .terminal wordSymbol [.pattern (.pattern pattern)]]

theorem enclosable {pattern : String}
    (same : Regex.engine.acceptsAnchored pattern = Regex.engine.accepts pattern) :
    Call.Enclosable Regex.engine ((declarations pattern).flatMap Declaration.calls) := by
  intro call member other listed
  simp only [declarations, List.flatMap_cons, List.flatMap_nil, Declaration.calls,
    Declaration.opening, Declaration.clauses, List.map_cons, List.map_nil, TerminalClause.call,
    List.append_nil, List.cons_append, List.nil_append, List.mem_cons, List.not_mem_nil,
    or_false] at member
  rcases member with rfl | rfl | rfl
  · cases listed
  · cases listed
  · cases List.mem_singleton.1 listed
    exact same

end Wrapped

/-- Letters in brackets are a pattern, and brackets that are left open are not. -/
theorem brackets_exact :
    Call.Accepted Regex.engine.accepts
      ((Wrapped.declarations "[a-z]+").flatMap Declaration.calls) ∧
    Call.Refused Regex.engine.accepts ((Wrapped.declarations "[a-z").flatMap Declaration.calls)
      (.invalidRegex Wrapped.wordSymbol "[a-z") := by
  have closed := Wrapped.enclosable
    (by decide +kernel : Regex.engine.acceptsAnchored "[a-z]+" = Regex.engine.accepts "[a-z]+")
  have unclosed := Wrapped.enclosable
    (by decide +kernel : Regex.engine.acceptsAnchored "[a-z" = Regex.engine.accepts "[a-z")
  have built : faultOf (Grammar.build Regex.engine (Wrapped.declarations "[a-z]+")) = none := by
    decide +kernel
  have refused : faultOf (Grammar.build Regex.engine (Wrapped.declarations "[a-z")) =
      some (.invalidRegex Wrapped.wordSymbol "[a-z") := by
    decide +kernel
  exact ⟨(Grammar.build_exact closed).1.1 (faultOf_eq_none_iff.1 built),
    (Grammar.build_exact unclosed).2.1 _ (faultOf_eq_some_iff.1 refused)⟩

/-- A pattern that closes the group around it and opens another one is not well formed by itself,
but is built into a grammar. -/
theorem unbalanced_built :
    (∃ grammar, Grammar.build Regex.engine (Wrapped.declarations "a)|(?:b") = .ok grammar) ∧
    ¬Call.Accepted Regex.engine.accepts
      ((Wrapped.declarations "a)|(?:b").flatMap Declaration.calls) := by
  have built : faultOf (Grammar.build Regex.engine (Wrapped.declarations "a)|(?:b")) = none := by
    decide +kernel
  constructor
  · exact faultOf_eq_none_iff.1 built
  · intro accepted
    have passes : (Matcher.pattern "a)|(?:b").Valid Regex.engine.accepts :=
      accepted.passes [.root Wrapped.wordSymbol, .terminal Wrapped.wordSymbol] _ [] rfl
    cases passes with
    | patterns _ readable =>
        have readable := readable _ List.mem_cons_self
        revert readable
        decide +kernel

end Packrat
