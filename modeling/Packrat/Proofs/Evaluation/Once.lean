import Packrat.Proofs.Evaluation.Numbering

/-!
Every value is computed once. Whatever value functions do, an evaluation is made of reports and of
writes to places that nothing has been written to (`Valuation.Step`); so a value that is known stays
(`Valuation.steps_keep`). What it writes is inside the token that is evaluated, and no node is
entered twice (`Valuation.Advances`).
-/

set_option autoImplicit false
set_option linter.unusedSectionVars false

namespace Packrat

variable {V : Type}

def Event.entered? : Event → Option Nat
  | .entered node _ _ _ _ => some node
  | _ => none

def Event.allEntered (events : List Event) : List Nat :=
  events.filterMap Event.entered?

theorem Event.allEntered_append (later earlier : List Event) :
    allEntered (later ++ earlier) = allEntered later ++ allEntered earlier :=
  List.filterMap_append

theorem Note.entered?_event (what : Note) : what.event.entered? = none := by
  cases what with
  | remark level text => rfl
  | caseTaken index => rfl

namespace Valuation

variable {before between after valuation : Valuation V} {id other : Nat}

theorem isKnown_iff :
    valuation.isKnown id = true ↔ ∃ value, valuation.values[id]? = some value := by
  rw [isKnown, Std.TreeMap.contains_eq_isSome_getElem?, Option.isSome_iff_exists]

theorem isKnown_keep (value : Option V) :
    (valuation.keep id value).isKnown other = true ↔
      id = other ∨ valuation.isKnown other = true := by
  rw [isKnown, keep, Std.TreeMap.contains_insert, Bool.or_eq_true, beq_iff_eq,
    Std.LawfulEqCmp.compare_eq_iff_eq]
  exact Iff.rfl

/-! ### Steps -/

/-- A single change: something is reported, or the value of a node becomes known. -/
inductive Step : Valuation V → Valuation V → Prop where
  | report (valuation : Valuation V) (event : Event) : Step valuation (valuation.report event)
  | keep {valuation : Valuation V} {id : Nat} (value : Option V) :
      valuation.isKnown id = false → Step valuation (valuation.keep id value)

theorem Step.keeps (step : Step before after) {value : Option V}
    (found : before.values[id]? = some value) : after.values[id]? = some value := by
  cases step with
  | report event => exact found
  | @keep other _ unknown =>
      have apart : other ≠ id := by
        intro same
        subst same
        rw [isKnown_iff.2 ⟨value, found⟩] at unknown
        cases unknown
      rw [Valuation.keep, Std.TreeMap.getElem?_insert, if_neg]
      · exact found
      · rw [Std.LawfulEqCmp.compare_eq_iff_eq]
        exact apart

/-- A value that is known stays. -/
theorem steps_keep (steps : Relation.ReflTransGen Step before after) {value : Option V}
    (found : before.values[id]? = some value) : after.values[id]? = some value := by
  induction steps with
  | refl => exact found
  | tail _ step ih => exact step.keeps ih

theorem steps_known (steps : Relation.ReflTransGen Step before after)
    (known : before.isKnown id = true) : after.isKnown id = true := by
  obtain ⟨value, found⟩ := isKnown_iff.1 known
  exact isKnown_iff.2 ⟨value, steps_keep steps found⟩

theorem steps_unknown (steps : Relation.ReflTransGen Step before after)
    (unknown : after.isKnown id = false) : before.isKnown id = false := by
  cases known : before.isKnown id with
  | false => rfl
  | true => exact (steps_known steps known).symm.trans unknown

theorem steps_read (steps : Relation.ReflTransGen Step before after) {token : Token V}
    (evaluated : before.evaluated? token ≠ some false) : after.read token = before.read token := by
  cases token with
  | leaf lexeme => rfl
  | node id symbol alternative start stop children =>
      cases known : before.isKnown id with
      | false => exact (evaluated (congrArg some known)).elim
      | true =>
          obtain ⟨value, found⟩ := isKnown_iff.1 known
          rw [read, read, found, steps_keep steps found]

/-! ### Advances -/

/-- Steps that concern some nodes only, and enter none of them twice: a node that is entered has not
been evaluated before and has been afterwards. -/
structure Advances (concerned : Nat → Prop) (before after : Valuation V) : Prop where
  steps : Relation.ReflTransGen Step before after
  adds : ∀ ⦃id⦄, after.isKnown id = true → before.isKnown id = true ∨ concerned id
  enters : ∃ events, after.log = events ++ before.log ∧ (Event.allEntered events).Nodup ∧
    ∀ id ∈ Event.allEntered events,
      concerned id ∧ before.isKnown id = false ∧ after.isKnown id = true

namespace Advances

variable {concerned wider : Nat → Prop}

theorem refl (valuation : Valuation V) : valuation.Advances concerned valuation :=
  ⟨.refl, fun _ known => .inl known, [], rfl, List.nodup_nil, nofun⟩

theorem trans (early : before.Advances concerned between)
    (late : between.Advances concerned after) : before.Advances concerned after := by
  obtain ⟨first, firstLog, firstNodup, firstEnters⟩ := early.enters
  obtain ⟨second, secondLog, secondNodup, secondEnters⟩ := late.enters
  refine ⟨early.steps.trans late.steps, ?_, second ++ first, ?_, ?_, ?_⟩
  · intro id known
    cases late.adds known with
    | inl earlier => exact early.adds earlier
    | inr isConcerned => exact .inr isConcerned
  · rw [secondLog, firstLog, List.append_assoc]
  · rw [Event.allEntered_append]
    apply List.nodup_append.2 ⟨secondNodup, firstNodup, ?_⟩
    intro id isSecond other isFirst same
    subst same
    have known := (firstEnters id isFirst).2.2
    have unknown := (secondEnters id isSecond).2.1
    rw [known] at unknown
    cases unknown
  · intro id entered
    rw [Event.allEntered_append, List.mem_append] at entered
    cases entered with
    | inl isSecond =>
        obtain ⟨isConcerned, unknown, known⟩ := secondEnters id isSecond
        exact ⟨isConcerned, steps_unknown early.steps unknown, known⟩
    | inr isFirst =>
        obtain ⟨isConcerned, unknown, known⟩ := firstEnters id isFirst
        exact ⟨isConcerned, unknown, steps_known late.steps known⟩

theorem mono (advances : before.Advances concerned after)
    (widens : ∀ id, concerned id → wider id) : before.Advances wider after := by
  obtain ⟨events, isLog, nodup, enters⟩ := advances.enters
  refine ⟨advances.steps, ?_, events, isLog, nodup, ?_⟩
  · intro id known
    cases advances.adds known with
    | inl earlier => exact .inl earlier
    | inr isConcerned => exact .inr (widens id isConcerned)
  · intro id entered
    obtain ⟨isConcerned, apart⟩ := enters id entered
    exact ⟨widens id isConcerned, apart⟩

theorem report {event : Event} (enters : event.entered? = none) :
    valuation.Advances concerned (valuation.report event) := by
  refine ⟨.single (.report _ _), fun _ known => .inl known, [event], rfl, ?_⟩
  rw [Event.allEntered, List.filterMap_cons_none enters]
  exact ⟨List.nodup_nil, nofun⟩

theorem run {α : Type} {ask : Nat → List Nat → Valuation V → Option V × Valuation V}
    (evaluated : Nat → List Nat → Valuation V → Option Bool)
    (advances : ∀ index path (valuation : Valuation V),
      valuation.Advances concerned (ask index path valuation).2)
    (query : Query V α) (valuation : Valuation V) :
    valuation.Advances concerned (query.run ask evaluated valuation).2 := by
  induction query generalizing valuation with
  | done result => exact .refl valuation
  | value index path next ih => exact (advances index path valuation).trans (ih _ _)
  | evaluated index path next ih => exact ih _ _
  | lookBack next ih => exact ih _ _
  | note what next ih => exact (report what.entered?_event).trans (ih _)

theorem keep (unknown : valuation.isKnown id = false) (isConcerned : concerned id)
    (value : Option V) : valuation.Advances concerned (valuation.keep id value) := by
  refine ⟨.single (.keep value unknown), ?_, [], rfl, List.nodup_nil, nofun⟩
  intro other known
  cases (isKnown_keep value).1 known with
  | inl same => exact .inr (same ▸ isConcerned)
  | inr earlier => exact .inl earlier

theorem enter {symbol : Symbol} {start stop : Nat} {byCases : Bool}
    (unknown : before.isKnown id = false) (apart : ¬concerned id) (isConcerned : wider id)
    (widens : ∀ id, concerned id → wider id)
    (ran : (before.report (.entered id symbol start stop byCases)).Advances concerned after)
    (value : Option V) :
    before.Advances wider ((after.report (.finished id)).keep id value) := by
  have fresh : (after.report (.finished id)).isKnown id = false := by
    cases known : after.isKnown id with
    | false => exact known
    | true =>
        cases ran.adds known with
        | inl earlier => exact Bool.noConfusion (earlier.symm.trans unknown)
        | inr inside => exact absurd inside apart
  have kept : (after.report (.finished id)).Advances wider
      ((after.report (.finished id)).keep id value) :=
    keep fresh isConcerned value
  have known : ((after.report (.finished id)).keep id value).isKnown id = true :=
    (isKnown_keep value).2 (.inl rfl)
  obtain ⟨events, isLog, nodup, enters⟩ := ran.enters
  refine ⟨?_, ?_, .finished id :: events ++ [.entered id symbol start stop byCases], ?_, ?_, ?_⟩
  · exact .trans (.head (.report _ _) ran.steps) (.head (.report _ _) kept.steps)
  · intro other found
    cases kept.adds found with
    | inr inside => exact .inr inside
    | inl later =>
        cases ran.adds later with
        | inl earlier => exact .inl earlier
        | inr inside => exact .inr (widens other inside)
  · change Event.finished id :: after.log = _
    rw [isLog]
    exact congrArg (_ :: ·) (List.append_cons events _ before.log)
  · rw [Event.allEntered_append]
    apply List.nodup_append.2 ⟨nodup, List.pairwise_singleton _ id, ?_⟩
    intro other entered same isOwn
    cases List.mem_singleton.1 isOwn
    rintro rfl
    exact apart (enters _ entered).1
  · intro other entered
    rw [Event.allEntered_append, List.mem_append] at entered
    cases entered with
    | inl inside =>
        obtain ⟨isInside, before, after⟩ := enters other inside
        exact ⟨widens other isInside, before, (isKnown_keep value).2 (.inr after)⟩
    | inr isOwn =>
        cases List.mem_singleton.1 isOwn
        exact ⟨isConcerned, unknown, known⟩

end Advances

end Valuation

/-! ### Evaluation -/

variable [Kinded V]

namespace Token

def Owns (token : Token V) (id : Nat) : Prop :=
  ∃ inner, token.Includes inner ∧ inner.id? = some id

variable {token inner : Token V} {numbering : Numbering V}

def OwnsInside (token : Token V) (id : Nat) : Prop :=
  ∃ inner, token.Contains inner ∧ inner.Owns id

theorem OwnsInside.owns {id : Nat} (owns : token.OwnsInside id) : token.Owns id := by
  obtain ⟨inner, contains, node, includes, isNode⟩ := owns
  exact ⟨node, contains.to_reflTransGen.trans includes, isNode⟩

theorem Numbered.of_id? (numbered : token.Numbered numbering) {id : Nat}
    (isNode : token.id? = some id) : numbering id = some token := by
  cases numbered with
  | leaf => cases isNode
  | node found _ =>
      cases isNode
      exact found

theorem Numbered.not_ownsInside (numbered : token.Numbered numbering) {id : Nat}
    (isNode : token.id? = some id) : ¬token.OwnsInside id := by
  rintro ⟨inner, contains, node, includes, same⟩
  have within : token.Contains node := contains.trans_left includes
  have isToken := (numbered.contains within).of_id? same
  cases (numbered.of_id? isNode).symm.trans isToken
  exact Nat.lt_irrefl _ within.sizeOf_lt

theorem Numbered.evaluate_advances (input : Input V) (numbered : token.Numbered numbering)
    (valuation : Valuation V) :
    valuation.Advances token.Owns (token.evaluate input valuation) := by
  induction size : sizeOf token using Nat.strongRecOn generalizing token valuation with
  | _ bound ih =>
      subst size
      cases token with
      | leaf lexeme => exact .refl valuation
      | node id symbol alternative start stop children =>
          have within {inner : Token V}
              (contains : (Token.node id symbol alternative start stop children).Contains inner)
              (valuation : Valuation V) :
              valuation.Advances (OwnsInside (.node id symbol alternative start stop children))
                (inner.evaluate input valuation) :=
            (ih _ contains.sizeOf_lt (numbered.contains contains) valuation rfl).mono
              fun _ owns => ⟨inner, contains, owns⟩
          have apart := numbered.not_ownsInside rfl
          rw [Token.evaluate]
          by_cases known : valuation.isKnown id = true
          · rw [if_pos known]
            exact .refl valuation
          · rw [if_neg known]
            have begun : valuation.Advances
                (OwnsInside (.node id symbol alternative start stop children))
                (evaluateFirst input children valuation) := by
              cases children with
              | nil => exact .refl valuation
              | cons first rest => exact within (.single ⟨first, List.mem_cons_self .., rfl⟩) _
            have unknown : (evaluateFirst input children valuation).isKnown id = false := by
              cases later : (evaluateFirst input children valuation).isKnown id with
              | false => rfl
              | true => exact ((begun.adds later).elim known apart).elim
            apply (begun.mono fun _ owns => owns.owns).trans
            cases input.grammar.resolver? symbol alternative with
            | none => exact .keep unknown ⟨_, .refl, rfl⟩ none
            | some resolver =>
                apply Valuation.Advances.enter unknown apart ⟨_, .refl, rfl⟩
                  fun _ owns => owns.owns
                apply Valuation.Advances.run
                intro index path valuation
                rw [ask_eq]
                cases found : inside? children index path with
                | none => exact .refl valuation
                | some inner => exact within (contains_of_inside? found) valuation

/-- Answers for what is inside of a token concern only what is inside of it. -/
theorem Numbered.ask_advances (numbered : token.Numbered numbering) (input : Input V)
    (index : Nat) (path : List Nat) (valuation : Valuation V) :
    valuation.Advances token.OwnsInside
      (Answers.ask (partAnswers input token.children).toArray index path valuation).2 := by
  rw [ask_eq]
  cases found : inside? token.children index path with
  | none => exact .refl valuation
  | some inner =>
      have contains := contains_of_inside? found
      exact ((numbered.contains contains).evaluate_advances input valuation).mono
        fun _ owns => ⟨inner, contains, owns⟩

theorem evaluated?_evaluate (input : Input V) (token : Token V) (valuation : Valuation V) :
    (token.evaluate input valuation).evaluated? token ≠ some false := by
  cases token with
  | leaf lexeme => exact nofun
  | node id symbol alternative start stop children =>
      have known :
          ((Token.node id symbol alternative start stop children).evaluate input
            valuation).isKnown id = true := by
        rw [Token.evaluate]
        by_cases known : valuation.isKnown id = true
        · rw [if_pos known]
          exact known
        · rw [if_neg known]
          cases input.grammar.resolver? symbol alternative with
          | none => exact (Valuation.isKnown_keep _).2 (.inl rfl)
          | some resolver => exact (Valuation.isKnown_keep _).2 (.inl rfl)
      rw [Valuation.evaluated?, known]
      decide

end Token

end Packrat
