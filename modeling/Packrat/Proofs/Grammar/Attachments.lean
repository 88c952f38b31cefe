import Mathlib.Data.List.Forall2
import Mathlib.Data.List.Induction
import Mathlib.Logic.Relation
import Packrat.Proofs.Grammar.Calls
import Packrat.Regex.Engine
import Packrat.Scalar.Basic

/-!
Which value function belongs to which pattern. A pattern takes the first value function behind it in
the same opening of its symbol (`Clause.attached`), and what a draft holds of a symbol are the
patterns of all its openings in order, with these functions (`Draft.attached_exact`).

One more call either opens something or adds a clause to what was opened last
(`Declaration.Continues`). It can give a function to the patterns that wait for one in the last
opening, and changes no other pattern (`Clause.Extends.settled_stay`).
-/

set_option autoImplicit false
set_option linter.unusedSectionVars false

namespace Packrat

/-! ### One opening -/

namespace Clause

section Openings

variable {P F : Type}

def function? : Clause P F → Option F
  | .pattern _ => none
  | .value function => some function

/-- The patterns of an opening in order, each with the first value function behind it. -/
def attached : List (Clause P F) → List (P × Option F)
  | [] => []
  | .pattern given :: rest => (given, rest.findSome? function?) :: attached rest
  | .value _ :: rest => attached rest

def closed (clauses : List (Clause P F)) : List (P × Option F) :=
  (attached clauses).filter fun entry => entry.2.isSome

theorem attached_pattern (clauses : List (Clause P F)) (given : P) :
    attached (clauses ++ [.pattern given]) = attached clauses ++ [(given, none)] := by
  induction clauses with
  | nil => rfl
  | cons clause rest ih =>
      cases clause with
      | value function => exact ih
      | pattern other =>
          rw [List.cons_append, attached, attached, ih, List.findSome?_append]
          change (other, (rest.findSome? function?).or none) :: _ = _
          rw [Option.or_none]
          rfl

/-- A value function at the end goes to the patterns that have none. -/
theorem attached_value (clauses : List (Clause P F)) (function : F) :
    attached (clauses ++ [.value function]) =
      (attached clauses).map fun entry => (entry.1, entry.2.or (some function)) := by
  induction clauses with
  | nil => rfl
  | cons clause rest ih =>
      cases clause with
      | value other => exact ih
      | pattern given =>
          rw [List.cons_append, attached, attached, ih, List.findSome?_append, List.map_cons]
          rfl

/-- Where no value function is left, no pattern has one. -/
theorem closed_of_none {clauses : List (Clause P F)}
    (noValue : clauses.findSome? function? = none) :
    closed clauses = [] := by
  induction clauses with
  | nil => rfl
  | cons clause rest ih =>
      cases clause with
      | value function => cases noValue
      | pattern given =>
          have later : rest.findSome? function? = none := noValue
          rw [closed, attached, later, List.filter_cons_of_neg Bool.false_ne_true]
          exact ih later

theorem closed_begins (clauses : List (Clause P F)) : closed clauses <+: attached clauses := by
  induction clauses with
  | nil => exact List.prefix_rfl
  | cons clause rest ih =>
      cases clause with
      | value function => exact ih
      | pattern given =>
          rw [closed, attached]
          cases found : rest.findSome? function? with
          | none =>
              rw [List.filter_cons_of_neg Bool.false_ne_true]
              change closed rest <+: _
              rw [closed_of_none found]
              exact List.nil_prefix
          | some function =>
              rw [List.filter_cons_of_pos rfl]
              exact (List.prefix_cons_inj _).2 ih

/-- One more clause changes no pattern that has a value function. -/
theorem closed_mono (clauses : List (Clause P F)) (clause : Clause P F) :
    closed clauses <+: closed (clauses ++ [clause]) := by
  cases clause with
  | pattern given =>
      rw [closed, closed, attached_pattern, List.filter_append]
      exact List.prefix_append _ _
  | value function =>
      let fill : P × Option F → P × Option F := fun entry => (entry.1, entry.2.or (some function))
      have filled : ∀ entry ∈ (attached clauses).map fill, entry.2.isSome = true := by
        rintro _ mapped
        obtain ⟨⟨given, found⟩, -, rfl⟩ := List.mem_map.1 mapped
        cases found with
        | none => rfl
        | some other => rfl
      have kept : (closed clauses).map fill = closed clauses := by
        refine (List.map_congr_left fun entry listed => ?_).trans (List.map_id _)
        obtain ⟨given, found⟩ := entry
        have isSome := (List.mem_filter.1 listed).2
        cases found with
        | none => cases isSome
        | some other => rfl
      change _ <+: List.filter _ (attached (clauses ++ [.value function]))
      rw [attached_value, List.filter_eq_self.2 filled, ← kept]
      exact (closed_begins clauses).map fill

theorem patterns_mono (clauses : List (Clause P F)) (clause : Clause P F) :
    (attached clauses).map Prod.fst <+: (attached (clauses ++ [clause])).map Prod.fst := by
  cases clause with
  | pattern given =>
      rw [attached_pattern, List.map_append]
      exact List.prefix_append _ _
  | value function =>
      rw [attached_value, List.map_map]
      exact List.prefix_rfl

/-! ### Several openings -/

/-- The patterns of several openings that no later call can change: those of all openings but the
last, and those in the last that have a value function. -/
def settled (openings : List (List (Clause P F))) : List (P × Option F) :=
  openings.dropLast.flatMap attached ++ openings.getLast?.elim [] closed

/-- What one more call can do to the openings of a symbol. -/
inductive Extends : List (List (Clause P F)) → List (List (Clause P F)) → Prop where
  | opening {openings} : Extends openings (openings ++ [[]])
  | clause {earlier clauses clause} :
      Extends (earlier ++ [clauses]) (earlier ++ [clauses ++ [clause]])
  | elsewhere {openings} : Extends openings openings

theorem settled_concat (earlier : List (List (Clause P F))) (clauses : List (Clause P F)) :
    settled (earlier ++ [clauses]) = earlier.flatMap attached ++ closed clauses := by
  rw [settled, List.dropLast_concat, List.getLast?_concat]
  rfl

theorem flatMap_attached_concat (earlier : List (List (Clause P F)))
    (clauses : List (Clause P F)) :
    (earlier ++ [clauses]).flatMap attached = earlier.flatMap attached ++ attached clauses := by
  rw [List.flatMap_append, List.flatMap_singleton]

theorem settled_prefix_attached (openings : List (List (Clause P F))) :
    settled openings <+: openings.flatMap attached := by
  cases openings using List.reverseRecOn with
  | nil => exact List.prefix_rfl
  | append_singleton earlier clauses =>
      rw [settled_concat, flatMap_attached_concat]
      exact (List.prefix_append_right_inj _).2 (closed_begins clauses)

section Extends

variable {before after : List (List (Clause P F))}

theorem Extends.settled_stay (extends_ : Extends before after) :
    settled before <+: settled after := by
  cases extends_ with
  | opening =>
      rw [settled_concat]
      exact (settled_prefix_attached before).trans (List.prefix_append _ _)
  | @clause earlier clauses clause =>
      rw [settled_concat, settled_concat]
      exact (List.prefix_append_right_inj _).2 (closed_mono clauses clause)
  | elsewhere => exact List.prefix_rfl

theorem Extends.patterns_stay (extends_ : Extends before after) :
    (before.flatMap attached).map Prod.fst <+: (after.flatMap attached).map Prod.fst := by
  cases extends_ with
  | opening =>
      rw [flatMap_attached_concat, List.map_append]
      exact List.prefix_append _ _
  | @clause earlier clauses clause =>
      rw [flatMap_attached_concat, flatMap_attached_concat, List.map_append, List.map_append]
      exact (List.prefix_append_right_inj _).2 (patterns_mono clauses clause)
  | elsewhere => exact List.prefix_rfl

/-- Whatever calls follow, settled patterns stay settled as they are, and no pattern goes away. -/
theorem prefixes_of_extends (extends_ : Relation.ReflTransGen Extends before after) :
    settled before <+: settled after ∧
      (before.flatMap attached).map Prod.fst <+: (after.flatMap attached).map Prod.fst := by
  induction extends_ with
  | refl => exact ⟨List.prefix_rfl, List.prefix_rfl⟩
  | tail _ step ih =>
      exact ⟨ih.1.trans step.settled_stay, ih.2.trans step.patterns_stay⟩

end Extends

end Openings

/-! ### Collecting -/

inductive Passes {P R F : Type} (Ready : P → R → Prop) : Clause P F → Clause R F → Prop where
  | pattern {given ready} : Ready given ready → Passes Ready (.pattern given) (.pattern ready)
  | value {function} : Passes Ready (.value function) (.value function)

section Collect

variable {C P R F A : Type} {symbol : Symbol} {check : C → Except GrammarError (Clause R F)}
  {make : Option F → R → A} {plain : C → Clause P F} {Ready : P → R → Prop}
  {Made : P × Option F → A → Prop}

/-- What an opening comes to: the patterns that wait get the first value function, and all that
follow are as they are attached. -/
theorem collect_attached
    (checks : ∀ clause ready, check clause = .ok ready → Passes Ready (plain clause) ready)
    (makes : ∀ given ready function, Ready given ready →
      Made (given, function) (make function ready))
    {earlier parts : List A} {waiting : List R} {clauses : List C}
    (collected : collect symbol check make earlier waiting clauses = .ok parts) :
    ∃ rest, parts =
        earlier ++ waiting.map (make ((clauses.map plain).findSome? function?)) ++ rest ∧
      List.Forall₂ Made (attached (clauses.map plain)) rest := by
  induction clauses generalizing earlier waiting with
  | nil =>
      cases collected
      exact ⟨[], (List.append_nil _).symm, .nil⟩
  | cons clause rest ih =>
      rw [collect] at collected
      cases checked : check clause with
      | error fault =>
          rw [checked] at collected
          cases collected
      | ok kind =>
          rw [checked] at collected
          have passes := checks clause kind checked
          rw [List.map_cons]
          generalize plain clause = given at passes
          cases passes with
          | @pattern given ready isReady =>
              obtain ⟨others, rfl, made⟩ := ih collected
              refine ⟨make ((rest.map plain).findSome? function?) ready :: others, ?_, ?_⟩
              · rw [List.map_append, List.append_assoc, List.append_assoc, List.append_assoc]
                rfl
              · exact .cons (makes given ready _ isReady) made
          | @value function =>
              dsimp only at collected
              split at collected
              · cases collected
              · obtain ⟨others, rfl, made⟩ := ih collected
                refine ⟨others, ?_, made⟩
                rw [List.map_nil, List.append_nil]
                rfl

end Collect

end Clause

variable {V : Type} [Kinded V]

def TerminalClause.plain : TerminalClause V → Clause Matcher (List Char → V)
  | .pattern matcher => .pattern matcher
  | .value transform => .value transform

def RuleClause.plain : RuleClause V → Clause (List Element) (Resolver V)
  | .pattern elements => .pattern elements
  | .value resolver => .value resolver

/-- Whether a candidate is made of a pattern and the value function that belongs to it. -/
structure Candidate.MadeOf (engine : RegexEngine) (entry : Matcher × Option (List Char → V))
    (candidate : Candidate V) : Prop where
  scanner : Scanner.compile engine entry.1 = .ok candidate.scanner
  transform : candidate.transform = entry.2

structure Alternative.MadeOf (symbol : Symbol) (entry : List Element × Option (Resolver V))
    (alternative : Alternative V) : Prop where
  elements : alternative.elements = entry.1
  resolver : alternative.resolver = entry.2
  recursive : alternative.recursive = startsWithItself symbol entry.1

theorem TerminalClause.collect_attached {engine : RegexEngine} {symbol : Symbol}
    {clauses : List (TerminalClause V)} {candidates : List (Candidate V)}
    (collected : collect engine symbol clauses = .ok candidates) :
    List.Forall₂ (Candidate.MadeOf engine) (Clause.attached (clauses.map plain)) candidates := by
  have checks (clause : TerminalClause V) ready
      (checked : clause.check engine symbol = .ok ready) :
      Clause.Passes (Scanner.compile engine · = .ok ·) clause.plain ready := by
    cases clause with
    | value transform =>
        cases checked
        exact .value
    | pattern matcher =>
        rw [check] at checked
        cases compiled : Scanner.compile engine matcher with
        | error fault =>
            rw [compiled] at checked
            cases checked
        | ok scanner =>
            rw [compiled] at checked
            cases checked
            exact .pattern compiled
  have makes matcher scanner (transform : Option (List Char → V))
      (compiled : Scanner.compile engine matcher = .ok scanner) :
      Candidate.MadeOf engine (matcher, transform) ⟨scanner, transform⟩ :=
    ⟨compiled, rfl⟩
  obtain ⟨rest, rfl, made⟩ := Clause.collect_attached checks makes collected
  exact made

theorem RuleClause.collect_attached {symbol : Symbol} {clauses : List (RuleClause V)}
    {alternatives : List (Alternative V)} (collected : collect symbol clauses = .ok alternatives) :
    List.Forall₂ (Alternative.MadeOf symbol) (Clause.attached (clauses.map plain))
      alternatives := by
  have checks (clause : RuleClause V) ready (checked : clause.check symbol = .ok ready) :
      Clause.Passes (· = ·) clause.plain ready := by
    cases clause with
    | value resolver =>
        cases checked
        exact .value
    | pattern elements =>
        rw [check] at checked
        cases passed : checkAlternative symbol elements with
        | error fault =>
            rw [passed] at checked
            cases checked
        | ok _ =>
            rw [passed] at checked
            cases checked
            exact .pattern rfl
  have makes given elements (resolver : Option (Resolver V)) (same : given = elements) :
      Alternative.MadeOf symbol (given, resolver)
        ⟨elements, resolver, startsWithItself symbol elements⟩ := by
    rw [same]
    exact ⟨rfl, rfl, rfl⟩
  obtain ⟨rest, rfl, made⟩ := Clause.collect_attached checks makes collected
  exact made

/-! ### Calls -/

namespace Declaration

def terminalClauses (symbol : Symbol) : Declaration V → List (Clause Matcher (List Char → V))
  | .terminal name clauses => if name = symbol then clauses.map TerminalClause.plain else []
  | _ => []

def ruleClauses (symbol : Symbol) : Declaration V → List (Clause (List Element) (Resolver V))
  | .rule name clauses => if name = symbol then clauses.map RuleClause.plain else []
  | _ => []

inductive Continues : List (Declaration V) → List (Declaration V) → Prop where
  | opening {declarations declaration} :
      declaration.clauses = [] → Continues declarations (declarations ++ [declaration])
  | terminal {earlier symbol clauses clause} :
      Continues (earlier ++ [.terminal symbol clauses])
        (earlier ++ [.terminal symbol (clauses ++ [clause])])
  | rule {earlier symbol clauses clause} :
      Continues (earlier ++ [.rule symbol clauses])
        (earlier ++ [.rule symbol (clauses ++ [clause])])

namespace Continues

variable {before after : List (Declaration V)}

theorem calls (continues : Continues before after) :
    ∃ call, after.flatMap Declaration.calls = before.flatMap Declaration.calls ++ [call] := by
  cases continues with
  | @opening _ declaration bare =>
      refine ⟨declaration.opening, ?_⟩
      rw [List.flatMap_append, List.flatMap_singleton, Declaration.calls, bare]
  | @terminal earlier symbol clauses clause =>
      refine ⟨clause.call symbol, ?_⟩
      rw [List.flatMap_append, List.flatMap_append, List.flatMap_singleton, List.flatMap_singleton,
        List.append_assoc, Declaration.calls, Declaration.clauses, List.map_append]
      rfl
  | @rule earlier symbol clauses clause =>
      refine ⟨clause.call symbol, ?_⟩
      rw [List.flatMap_append, List.flatMap_append, List.flatMap_singleton, List.flatMap_singleton,
        List.append_assoc, Declaration.calls, Declaration.clauses, List.map_append]
      rfl

/-- All declarations are made by calls, one after the other. -/
theorem reaches (declarations : List (Declaration V)) :
    Relation.ReflTransGen Continues [] declarations := by
  induction declarations using List.reverseRecOn with
  | nil => exact .refl
  | append_singleton earlier declaration ih =>
      refine ih.trans ?_
      cases declaration with
      | blanks | root | aliased => exact .single (.opening rfl)
      | terminal symbol clauses =>
          induction clauses using List.reverseRecOn with
          | nil => exact .single (.opening rfl)
          | append_singleton clauses clause opened => exact opened.tail .terminal
      | rule symbol clauses =>
          induction clauses using List.reverseRecOn with
          | nil => exact .single (.opening rfl)
          | append_singleton clauses clause opened => exact opened.tail .rule

theorem terminals (continues : Continues before after) (symbol : Symbol) :
    Clause.Extends (before.map (terminalClauses symbol)) (after.map (terminalClauses symbol)) := by
  cases continues with
  | @opening _ declaration bare =>
      have noClauses : declaration.terminalClauses symbol = [] := by
        cases declaration with
        | blanks | root | aliased | rule => rfl
        | terminal name clauses =>
            rw [List.map_eq_nil_iff.1 bare, terminalClauses]
            exact ite_self _
      rw [List.map_append, List.map_singleton, noClauses]
      exact .opening
  | @terminal earlier name clauses clause =>
      rw [List.map_append, List.map_append, List.map_singleton, List.map_singleton,
        terminalClauses, terminalClauses]
      split
      · rw [List.map_append]
        exact .clause
      · exact .elsewhere
  | rule =>
      rw [List.map_append, List.map_append]
      exact .elsewhere

theorem rules (continues : Continues before after) (symbol : Symbol) :
    Clause.Extends (before.map (ruleClauses symbol)) (after.map (ruleClauses symbol)) := by
  cases continues with
  | @opening _ declaration bare =>
      have noClauses : declaration.ruleClauses symbol = [] := by
        cases declaration with
        | blanks | root | aliased | terminal => rfl
        | rule name clauses =>
            rw [List.map_eq_nil_iff.1 bare, ruleClauses]
            exact ite_self _
      rw [List.map_append, List.map_singleton, noClauses]
      exact .opening
  | terminal =>
      rw [List.map_append, List.map_append]
      exact .elsewhere
  | @rule earlier name clauses clause =>
      rw [List.map_append, List.map_append, List.map_singleton, List.map_singleton,
        ruleClauses, ruleClauses]
      split
      · rw [List.map_append]
        exact .clause
      · exact .elsewhere

end Continues

end Declaration

/-! ### Drafts -/

theorem Candidate.madeOf_unique (engine : RegexEngine) :
    Relator.RightUnique (Candidate.MadeOf engine : _ → Candidate V → Prop) := by
  rintro entry ⟨scanner, transform⟩ ⟨scanner', transform'⟩ ⟨compiled, rfl⟩ ⟨compiled', rfl⟩
  cases compiled.symm.trans compiled'
  rfl

theorem Alternative.madeOf_unique (symbol : Symbol) :
    Relator.RightUnique (Alternative.MadeOf symbol : _ → Alternative V → Prop) := by
  rintro entry ⟨elements, resolver, recursive⟩ ⟨elements', resolver', recursive'⟩
    ⟨rfl, rfl, rfl⟩ ⟨rfl, rfl, rfl⟩
  rfl

structure Preserves {A T : Type} (pattern : A → T) (count : Nat) (before after : List A) :
    Prop where
  patterns : before.map pattern <+: after.map pattern
  functions : before.take count <+: after

namespace Draft

section Attached

variable {engine : RegexEngine} {P F A T : Type} {parts : Draft V → List A}
  {given : Declaration V → List (Clause P F)} {Made : P × Option F → A → Prop}

theorem foldlM_attaches
    (step : ∀ draft declaration after, Draft.Declares engine draft declaration after →
      ∃ added, parts after = parts draft ++ added ∧
        List.Forall₂ Made (Clause.attached (given declaration)) added)
    {declarations : List (Declaration V)} {draft after : Draft V}
    (folded : declarations.foldlM (Draft.declare engine) draft = .ok after) :
    ∃ added, parts after = parts draft ++ added ∧
      List.Forall₂ Made ((declarations.map given).flatMap Clause.attached) added := by
  induction declarations generalizing draft with
  | nil =>
      cases folded
      exact ⟨[], (List.append_nil _).symm, .nil⟩
  | cons declaration others ih =>
      rw [List.foldlM_cons] at folded
      cases declared : draft.declare engine declaration with
      | error fault =>
          rw [declared] at folded
          cases folded
      | ok between =>
          rw [declared] at folded
          obtain ⟨added, isBetween, first⟩ := step _ _ _ (declares_of_ok declared)
          obtain ⟨more, isAfter, rest⟩ := ih folded
          refine ⟨added ++ more, ?_, ?_⟩
          · rw [isAfter, isBetween, List.append_assoc]
          · rw [List.map_cons, List.flatMap_cons]
            exact List.rel_append first rest

/-- What is made of entries begins with what is made of those that they begin with. -/
theorem take_made {B : Type} {Made : B → A → Prop}
    (unique : Relator.RightUnique Made)
    {kept before after : List B} {made made' : List A} (isMade : List.Forall₂ Made before made)
    (isMade' : List.Forall₂ Made after made') (ofBefore : kept <+: before)
    (ofAfter : kept <+: after) : made.take kept.length <+: made' := by
  have first := List.forall₂_take kept.length isMade
  have second := List.forall₂_take kept.length isMade'
  rw [← List.prefix_iff_eq_take.1 ofBefore] at first
  rw [← List.prefix_iff_eq_take.1 ofAfter] at second
  rw [unique.forall₂ first second]
  exact List.take_prefix _ _

theorem preserves_of_extends {pattern : A → T} {Ready : P → T → Prop}
    (unique : Relator.RightUnique Made) (uniqueReady : Relator.RightUnique Ready)
    (ready : ∀ entry part, Made entry part → Ready entry.1 (pattern part))
    {before after : List (List (Clause P F))} {made made' : List A}
    (isMade : List.Forall₂ Made (before.flatMap Clause.attached) made)
    (isMade' : List.Forall₂ Made (after.flatMap Clause.attached) made')
    (extends_ : Relation.ReflTransGen Clause.Extends before after) :
    Preserves pattern (Clause.settled before).length made made' := by
  obtain ⟨settled, patterns⟩ := Clause.prefixes_of_extends extends_
  have isReady {openings : List (List (Clause P F))} {parts : List A}
      (areMade : List.Forall₂ Made (openings.flatMap Clause.attached) parts) :
      List.Forall₂ Ready ((openings.flatMap Clause.attached).map Prod.fst) (parts.map pattern) := by
    rw [List.forall₂_map_left_iff, List.forall₂_map_right_iff]
    exact areMade.imp ready
  constructor
  · have sameLength := (isReady isMade).length_eq
    have kept := take_made uniqueReady (isReady isMade) (isReady isMade') List.prefix_rfl patterns
    rw [sameLength, List.take_length] at kept
    exact kept
  · exact take_made unique isMade isMade' (Clause.settled_prefix_attached before)
      (settled.trans (Clause.settled_prefix_attached after))

end Attached

theorem Declares.terminal_parts {engine : RegexEngine} {draft after : Draft V}
    {declaration : Declaration V}
    (declares : draft.Declares engine declaration after) (symbol : Symbol) :
    ∃ added, Terminal.registry.partsAt after.terminals symbol =
        Terminal.registry.partsAt draft.terminals symbol ++ added ∧
      List.Forall₂ (Candidate.MadeOf engine) (Clause.attached (declaration.terminalClauses symbol))
        added := by
  cases declares with
  | blanks | root | aliased | rule => exact ⟨[], (List.append_nil _).symm, .nil⟩
  | @terminal name clauses candidates named collected =>
      rw [Declaration.terminalClauses, Registry.partsAt_add]
      by_cases same : name = symbol
      · rw [if_pos same, if_pos same, same]
        exact ⟨candidates, rfl, TerminalClause.collect_attached collected⟩
      · rw [if_neg same, if_neg same]
        exact ⟨[], (List.append_nil _).symm, .nil⟩

theorem Declares.rule_parts {engine : RegexEngine} {draft after : Draft V}
    {declaration : Declaration V}
    (declares : draft.Declares engine declaration after) (symbol : Symbol) :
    ∃ added, Rule.registry.partsAt after.rules symbol =
        Rule.registry.partsAt draft.rules symbol ++ added ∧
      List.Forall₂ (Alternative.MadeOf symbol) (Clause.attached (declaration.ruleClauses symbol))
        added := by
  cases declares with
  | blanks | root | aliased | terminal => exact ⟨[], (List.append_nil _).symm, .nil⟩
  | @rule name clauses alternatives named collected =>
      rw [Declaration.ruleClauses, Registry.partsAt_add]
      by_cases same : name = symbol
      · rw [if_pos same, if_pos same, ← same]
        exact ⟨alternatives, rfl, RuleClause.collect_attached collected⟩
      · rw [if_neg same, if_neg same]
        exact ⟨[], (List.append_nil _).symm, .nil⟩

section Declared

variable {engine : RegexEngine} {declarations : List (Declaration V)} {draft : Draft V}

theorem terminal_candidates (declared : declarations.foldlM (declare engine) {} = .ok draft)
    (symbol : Symbol) :
    List.Forall₂ (Candidate.MadeOf engine)
      ((declarations.map (Declaration.terminalClauses symbol)).flatMap Clause.attached)
      (Terminal.registry.partsAt draft.terminals symbol) := by
  obtain ⟨added, same, made⟩ :=
    foldlM_attaches (fun _ _ _ declares => Declares.terminal_parts declares symbol) declared
  rw [same]
  exact made

theorem rule_alternatives (declared : declarations.foldlM (declare engine) {} = .ok draft)
    (symbol : Symbol) :
    List.Forall₂ (Alternative.MadeOf symbol)
      ((declarations.map (Declaration.ruleClauses symbol)).flatMap Clause.attached)
      (Rule.registry.partsAt draft.rules symbol) := by
  obtain ⟨added, same, made⟩ :=
    foldlM_attaches (fun _ _ _ declares => Declares.rule_parts declares symbol) declared
  rw [same]
  exact made

/-- What the draft of declarations without faults holds of a symbol: the patterns of all openings of
the symbol, in order, each with the first value function behind it in its opening. Calls that follow
only add patterns, and only give functions to patterns that wait for one in the last opening. -/
theorem attached_exact (declared : declarations.foldlM (declare engine) {} = .ok draft)
    (symbol : Symbol) :
    let terminals := declarations.map (Declaration.terminalClauses symbol)
    let rules := declarations.map (Declaration.ruleClauses symbol)
    let candidates := Terminal.registry.partsAt draft.terminals symbol
    let alternatives := Rule.registry.partsAt draft.rules symbol
    List.Forall₂ (Candidate.MadeOf engine) (terminals.flatMap Clause.attached) candidates ∧
    List.Forall₂ (Alternative.MadeOf symbol) (rules.flatMap Clause.attached) alternatives ∧
    (∀ grammar, draft.finish = .ok grammar →
      grammar.terminals = draft.terminals ∧ grammar.rules = draft.rules) ∧
    ∀ later after, Relation.ReflTransGen Declaration.Continues declarations later →
      later.foldlM (declare engine) {} = .ok after →
        Preserves Candidate.scanner (Clause.settled terminals).length candidates
          (Terminal.registry.partsAt after.terminals symbol) ∧
        Preserves Alternative.elements (Clause.settled rules).length alternatives
          (Rule.registry.partsAt after.rules symbol) := by
  refine ⟨terminal_candidates declared symbol, rule_alternatives declared symbol,
    fun grammar finished => ⟨(finish_eq_ok finished).1, (finish_eq_ok finished).2.1⟩, ?_⟩
  intro later after continues declaredLater
  constructor
  · have compiles : Relator.RightUnique fun matcher scanner =>
        Scanner.compile engine matcher = .ok scanner :=
      fun _ _ _ first second => Except.ok.inj (first.symm.trans second)
    exact preserves_of_extends (Candidate.madeOf_unique engine) compiles
      (fun _ _ made => made.scanner)
      (terminal_candidates declared symbol) (terminal_candidates declaredLater symbol)
      (continues.lift _ fun _ _ next => next.terminals symbol)
  · have same : Relator.RightUnique (Eq : List Element → List Element → Prop) :=
      fun _ _ _ first second => first.symm.trans second
    exact preserves_of_extends (Alternative.madeOf_unique symbol) same
      (fun _ _ made => made.elements.symm) (rule_alternatives declared symbol)
      (rule_alternatives declaredLater symbol) (continues.lift _ fun _ _ next => next.rules symbol)

end Declared

end Draft

/-! ### Letters -/

namespace Letters

def letter : Symbol := ⟨"LETTER"⟩

def pair : Symbol := ⟨"PAIR"⟩

def declarations (last : List (TerminalClause Scalar)) : List (Declaration Scalar) :=
  [ .terminal letter [
      .pattern (.word "a"), .pattern (.word "b"), .value ScalarType.text.value,
      .pattern (.word "c")],
    .rule pair [
      .pattern [.symbol letter, .symbol letter],
      .value (.function (Lookup.valueAt 0))],
    .terminal letter (.pattern (.word "d") :: last)]

/-- The value function of the second opening does not reach back to the first. -/
theorem attached_once :
    ∃ draft after : Draft Scalar,
      (declarations []).foldlM (Draft.declare Regex.engine) {} = .ok draft ∧
      (declarations [.value ScalarType.char.value]).foldlM (Draft.declare Regex.engine) {} =
        .ok after ∧
      Relation.ReflTransGen Declaration.Continues (declarations [])
        (declarations [.value ScalarType.char.value]) ∧
      List.Forall₂ (Candidate.MadeOf Regex.engine)
        [(.word "a", some ScalarType.text.value), (.word "b", some ScalarType.text.value),
          (.word "c", none), (.word "d", some ScalarType.char.value)]
        (Terminal.registry.partsAt after.terminals letter) ∧
      List.Forall₂ (Alternative.MadeOf pair)
        [([.symbol letter, .symbol letter], some (.function (Lookup.valueAt 0)))]
        (Rule.registry.partsAt after.rules pair) ∧
      Preserves Candidate.scanner 3 (Terminal.registry.partsAt draft.terminals letter)
        (Terminal.registry.partsAt after.terminals letter) := by
  have continues : Declaration.Continues (declarations [])
      (declarations [.value ScalarType.char.value]) :=
    @Declaration.Continues.terminal _ _ ((declarations []).take 2) letter [.pattern (.word "d")]
      (.value ScalarType.char.value)
  obtain ⟨draft, declared⟩ :
      ∃ draft, (declarations []).foldlM (Draft.declare Regex.engine) {} = .ok draft := ⟨_, rfl⟩
  obtain ⟨after, declaredAfter⟩ :
      ∃ after,
        (declarations [.value ScalarType.char.value]).foldlM (Draft.declare Regex.engine) {} =
        .ok after := ⟨_, rfl⟩
  refine ⟨draft, after, declared, declaredAfter, .single continues, ?_, ?_, ?_⟩
  · exact (Draft.attached_exact declaredAfter letter).1
  · exact (Draft.attached_exact declaredAfter pair).2.1
  · exact ((Draft.attached_exact declared letter).2.2.2 _ _ (.single continues) declaredAfter).1

end Letters

end Packrat
