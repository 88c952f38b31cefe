import Packrat.Proofs.Evaluation.Calls
import Packrat.Proofs.Evaluation.Idle

/-!
Value functions do not nest along chains of first parts. All valuations that an evaluation passes
are listed (`Token.moments`), and each comes from the one before it by a single change that has its
reasons (`Valuation.Moves`): a node is entered or gets its value only after its first part, and only
inside all nodes whose value functions have not finished. So the first part of an evaluated node is
evaluated at any moment (`Valuation.FirstsKnown`), and a value function that is entered while others
work is in no chain of first parts with one of them (`Numbering.Unnested`).
-/

set_option autoImplicit false
set_option linter.unusedSectionVars false

namespace Packrat

/-! ### First parts -/

namespace Token

variable {V : Type}

def First (token part : Token V) : Prop :=
  token.children.head?.map Labelled.item = some part

abbrev Descends (token inner : Token V) : Prop :=
  Relation.TransGen First token inner

theorem First.hasPart {token part : Token V} (first : token.First part) : token.HasPart part := by
  obtain ⟨child, isHead, rfl⟩ := Option.map_eq_some_iff.1 first
  exact ⟨child, List.mem_of_mem_head? isHead, rfl⟩

theorem contains_of_descends {token inner : Token V} (descends : token.Descends inner) :
    token.Contains inner :=
  descends.lift id fun _ _ first => First.hasPart first

end Token

/-! ### Value functions at work -/

namespace Event

variable {event : Event} {events : List Event} {id other : Nat}

/-- Whether a value function has been entered and has not finished. -/
def Active (events : List Event) (id : Nat) : Prop :=
  id ∈ allEntered events ∧ .finished id ∉ events

theorem allEntered_cons (event : Event) (events : List Event) :
    allEntered (event :: events) = event.entered?.toList ++ allEntered events := by
  cases entered : event.entered? with
  | none => exact List.filterMap_cons_none entered
  | some id => exact List.filterMap_cons_some entered

theorem Active.of_cons (active : Active (event :: events) id) :
    event.entered? = some id ∨ Active events id := by
  obtain ⟨entered, unfinished⟩ := active
  rw [allEntered_cons, List.mem_append, Option.mem_toList] at entered
  cases entered with
  | inl here => exact .inl here
  | inr earlier => exact .inr ⟨earlier, fun finished => unfinished (.tail _ finished)⟩

theorem Active.of_finished (active : Active (.finished other :: events) id) :
    id ≠ other ∧ Active events id := by
  constructor
  · rintro rfl
    exact active.2 (List.mem_cons_self ..)
  · exact active.of_cons.resolve_left nofun

end Event

namespace Valuation

variable {V : Type} {numbering : Numbering V} {before between after valuation : Valuation V}
  {node token inner : Token V} {id : Nat} {moments more : List (Valuation V)}

def Begun (valuation : Valuation V) (token : Token V) : Prop :=
  ∀ first, token.First first → valuation.evaluated? first ≠ some false

/-- Whether each evaluated node has an evaluated first part, if this is a node. -/
def FirstsKnown (numbering : Numbering V) (valuation : Valuation V) : Prop :=
  ∀ id, valuation.isKnown id = true → ∃ node, numbering id = some node ∧ valuation.Begun node

def Surrounds (numbering : Numbering V) (valuation : Valuation V) (token : Token V) : Prop :=
  ∀ id, Event.Active valuation.log id →
    ∃ outer : Token V, outer.Numbered numbering ∧ outer.id? = some id ∧ outer.Contains token

/-- Whether a token is a node with a number or inside of it. -/
def Encloses (numbering : Numbering V) (id : Nat) (token : Token V) : Prop :=
  ∃ outer : Token V, outer.Numbered numbering ∧ outer.id? = some id ∧ outer.Includes token

theorem Surrounds.encloses (surrounds : valuation.Surrounds numbering token)
    (active : Event.Active valuation.log id) : Encloses numbering id token := by
  obtain ⟨outer, isNumbered, isOuter, contains⟩ := surrounds id active
  exact ⟨outer, isNumbered, isOuter, contains.to_reflTransGen⟩

structure Due (numbering : Numbering V) (valuation : Valuation V) (node : Token V) (id : Nat) :
    Prop where
  numbered : node.Numbered numbering
  isNode : node.id? = some id
  unknown : valuation.isKnown id = false
  begun : valuation.Begun node

inductive Moves (numbering : Numbering V) : Valuation V → Valuation V → Prop where
  | report {valuation : Valuation V} {event : Event} :
      event.entered? = none → Moves numbering valuation (valuation.report event)
  | enter {valuation : Valuation V} {node : Token V} {id : Nat} (symbol : Symbol)
      (start stop : Nat) (byCases : Bool) :
      valuation.Due numbering node id → valuation.Surrounds numbering node →
      Moves numbering valuation (valuation.report (.entered id symbol start stop byCases))
  | keep {valuation : Valuation V} {node : Token V} {id : Nat} (value : Option V) :
      valuation.Due numbering node id → Moves numbering valuation (valuation.keep id value)

theorem Moves.step (moves : Moves numbering before after) : before.Step after := by
  cases moves with
  | report _ => exact .report _ _
  | enter _ _ _ _ _ _ => exact .report _ _
  | keep value due => exact .keep value due.unknown

/-- Whether valuations follow one another by single changes, from a first one that is not listed to
the last. -/
inductive Passes (numbering : Numbering V) : Valuation V → List (Valuation V) → Valuation V → Prop
  where
  | stays {valuation : Valuation V} : Passes numbering valuation [] valuation
  | moves {before between after : Valuation V} {moments : List (Valuation V)} :
      Moves numbering before between → Passes numbering between moments after →
      Passes numbering before (between :: moments) after

namespace Passes

theorem single (moves : Moves numbering before after) : Passes numbering before [after] after :=
  .moves moves .stays

theorem append (first : Passes numbering before moments between)
    (second : Passes numbering between more after) :
    Passes numbering before (moments ++ more) after := by
  induction first with
  | stays => exact second
  | moves move _ ih => exact .moves move (ih second)

theorem steps (passes : Passes numbering before moments after) :
    Relation.ReflTransGen Step before after := by
  induction passes with
  | stays => exact .refl
  | moves move _ ih => exact .head move.step ih

theorem isChain (passes : Passes numbering before moments after) :
    (before :: moments).IsChain Step := by
  induction passes with
  | stays => exact .singleton _
  | moves move _ ih => exact .cons_cons move.step ih

theorem getLast? (passes : Passes numbering before moments after) :
    (before :: moments).getLast? = some after := by
  induction passes with
  | stays => rfl
  | moves _ _ ih => exact ih

end Passes

/-! ### Moments -/

theorem steps_evaluated (steps : Relation.ReflTransGen Step before after)
    (evaluated : before.evaluated? token ≠ some false) : after.evaluated? token ≠ some false := by
  cases token with
  | leaf lexeme => exact nofun
  | node id symbol alternative start stop children =>
      cases known : before.isKnown id with
      | false => exact absurd (congrArg some known) evaluated
      | true =>
          rw [evaluated?, steps_known steps known]
          decide

theorem Begun.mono (begun : before.Begun token)
    (steps : Relation.ReflTransGen Step before after) : after.Begun token :=
  fun first isFirst => steps_evaluated steps (begun first isFirst)

/-- Where each evaluated node has an evaluated first part, first parts are evaluated all the way
down. -/
theorem FirstsKnown.descends [Kinded V] (firsts : valuation.FirstsKnown numbering)
    (numbered : token.Numbered numbering) (begun : valuation.Begun token)
    (descends : token.Descends inner) : valuation.evaluated? inner ≠ some false := by
  induction descends with
  | single first => exact begun _ first
  | @tail between inner above first ih =>
      cases between with
      | leaf lexeme => cases first
      | node id symbol alternative start stop children =>
          have isNode := (numbered.contains (Token.contains_of_descends above)).of_id? rfl
          have known : valuation.isKnown id = true := by
            cases known : valuation.isKnown id with
            | true => rfl
            | false => exact absurd (congrArg some known) ih
          obtain ⟨node, isKnown, begun⟩ := firsts id known
          cases isKnown.symm.trans isNode
          exact begun _ first

end Valuation

/-- Whether each value function that is entered belongs to a node that is in no chain of first parts
with a node whose value function is at work. -/
def Numbering.Unnested {V : Type} (numbering : Numbering V) (events : List Event) : Prop :=
  ∀ later event earlier, events = later ++ event :: earlier →
    ∀ id, event.entered? = some id → ∃ inner, numbering id = some inner ∧
      ∀ outer other, Event.Active earlier other → numbering other = some outer →
        ¬ outer.Descends inner ∧ ¬ inner.Descends outer

theorem Numbering.Unnested.cons {V : Type} {numbering : Numbering V} {event : Event}
    {events : List Event} (unnested : numbering.Unnested events)
    (first : ∀ id, event.entered? = some id → ∃ inner, numbering id = some inner ∧
      ∀ outer other, Event.Active events other → numbering other = some outer →
        ¬ outer.Descends inner ∧ ¬ inner.Descends outer) :
    numbering.Unnested (event :: events) := by
  intro later other earlier split
  cases later with
  | nil =>
      obtain ⟨rfl, rfl⟩ := List.cons.inj split
      exact first
  | cons _ later => exact unnested later other earlier (List.cons.inj split).2

namespace Valuation

variable {V : Type} [Kinded V] {numbering : Numbering V} {before after : Valuation V}
  {moments : List (Valuation V)}

/-- What holds at any moment: first parts are evaluated before the nodes they belong to, and before
the value functions of these are entered. -/
structure Orderly (numbering : Numbering V) (valuation : Valuation V) : Prop where
  firsts : valuation.FirstsKnown numbering
  entered : ∀ id ∈ Event.allEntered valuation.log,
    ∃ node : Token V, node.Numbered numbering ∧ node.id? = some id ∧ valuation.Begun node
  unnested : numbering.Unnested valuation.log

/-- A node that is due cannot be below a node that has been entered, as all below that has been
evaluated; and it is no part of what it is inside of. -/
theorem Orderly.apart {node : Token V} {id : Nat} (orderly : before.Orderly numbering)
    (due : before.Due numbering node id) (surrounds : before.Surrounds numbering node)
    {outer : Token V} {other : Nat} (active : Event.Active before.log other)
    (isOuter : numbering other = some outer) :
    ¬ outer.Descends node ∧ ¬ node.Descends outer := by
  constructor
  · intro descends
    obtain ⟨entered, numbered, isEntered, begun⟩ := orderly.entered other active.1
    cases isOuter.symm.trans (numbered.of_id? isEntered)
    have evaluated := orderly.firsts.descends numbered begun descends
    cases node with
    | leaf lexeme => cases due.isNode
    | node own symbol alternative start stop children =>
        cases due.isNode
        exact evaluated (congrArg some due.unknown)
  · intro descends
    obtain ⟨surrounding, numbered, isActive, contains⟩ := surrounds other active
    cases isOuter.symm.trans (numbered.of_id? isActive)
    exact Nat.lt_asymm contains.sizeOf_lt (Token.contains_of_descends descends).sizeOf_lt

theorem Moves.orderly (moves : Moves numbering before after) (orderly : before.Orderly numbering) :
    after.Orderly numbering := by
  have steps := Relation.ReflTransGen.single moves.step
  cases moves with
  | @report event quiet =>
      refine ⟨orderly.firsts, ?_, orderly.unnested.cons ?_⟩
      · intro id entered
        rw [Valuation.report, Event.allEntered_cons, quiet] at entered
        exact orderly.entered id entered
      · intro id entered
        rw [quiet] at entered
        cases entered
  | @enter node id symbol start stop byCases due surrounds =>
      refine ⟨orderly.firsts, ?_, orderly.unnested.cons ?_⟩
      · intro other entered
        rw [Valuation.report, Event.allEntered_cons, List.mem_append, Option.mem_toList] at entered
        cases entered with
        | inl here =>
            cases here
            exact ⟨node, due.numbered, due.isNode, due.begun⟩
        | inr earlier => exact orderly.entered other earlier
      · rintro _ ⟨⟩
        exact ⟨node, due.numbered.of_id? due.isNode,
          fun outer other active isOuter => orderly.apart due surrounds active isOuter⟩
  | @keep node id value due =>
      refine ⟨?_, ?_, orderly.unnested⟩
      · intro other known
        cases (isKnown_keep value).1 known with
        | inl same =>
            subst same
            exact ⟨node, due.numbered.of_id? due.isNode, due.begun.mono steps⟩
        | inr earlier =>
            obtain ⟨inner, isInner, begun⟩ := orderly.firsts other earlier
            exact ⟨inner, isInner, begun.mono steps⟩
      · intro other entered
        obtain ⟨inner, numbered, isNode, begun⟩ := orderly.entered other entered
        exact ⟨inner, numbered, isNode, begun.mono steps⟩

/-- What holds at first holds at all moments. -/
theorem Passes.orderly (passes : Passes numbering before moments after)
    (orderly : before.Orderly numbering) :
    ∀ moment ∈ before :: moments, moment.Orderly numbering := by
  induction passes with
  | stays => exact List.forall_mem_singleton.2 orderly
  | moves move _ ih => exact List.forall_mem_cons.2 ⟨orderly, ih (move.orderly orderly)⟩

end Valuation

/-! ### Evaluation -/

def Query.moments {V α : Type} (ask : Nat → List Nat → Valuation V → Option V × Valuation V)
    (evaluated : Nat → List Nat → Valuation V → Option Bool)
    (inner : Nat → List Nat → Valuation V → List (Valuation V)) :
    Query V α → Valuation V → List (Valuation V)
  | .done _, _ => []
  | .value index path next, valuation =>
    let (answer, asked) := ask index path valuation
    inner index path valuation ++ (next answer).moments ask evaluated inner asked
  | .evaluated index path next, valuation =>
    (next (evaluated index path valuation)).moments ask evaluated inner valuation
  | .lookBack next, valuation => (next valuation).moments ask evaluated inner valuation
  | .note what next, valuation =>
    let noted := valuation.report what.event
    noted :: next.moments ask evaluated inner noted

variable {V : Type} [Kinded V] {numbering : Numbering V}

mutual

def Token.moments (input : Input V) (token : Token V) (valuation : Valuation V) :
    List (Valuation V) :=
  match token with
  | .leaf _ => []
  | .node id symbol alternative start stop children =>
    if valuation.isKnown id then []
    else
      let scope : Scope V := ⟨input.source, .node id symbol alternative start stop children⟩
      let begun := evaluateFirst input children valuation
      momentsInside input scope.node 0 [] valuation ++
        match input.grammar.resolver? symbol alternative with
        | none => [begun.keep id none]
        | some resolver =>
          let ask := Answers.ask (partAnswers input children).toArray
          let query := resolver.lookup scope 0
          let entered := begun.report
            (.entered id symbol start.offset stop.offset resolver.byCases)
          let ((value, _), ran) := query.run ask (insideEvaluated children) entered
          let finished := ran.report (.finished id)
          entered ::
            (query.moments ask (insideEvaluated children)
                (fun index path asked => momentsInside input scope.node index path asked) entered ++
              [finished, finished.keep id value])
termination_by (sizeOf token, 1)

def Token.momentsInside (input : Input V) (token : Token V) (index : Nat) (path : List Nat)
    (valuation : Valuation V) : List (Valuation V) :=
  match found : inside? token.children index path with
  | none => []
  | some inner =>
    have : sizeOf inner < sizeOf token := Contains.sizeOf_lt (contains_of_inside? found)
    inner.moments input valuation
termination_by (sizeOf token, 0)

end

namespace Valuation

/-- Whether valuations follow one another, and all value functions that are entered meanwhile
finish. -/
structure Returns (numbering : Numbering V) (before : Valuation V) (moments : List (Valuation V))
    (after : Valuation V) : Prop where
  passes : Passes numbering before moments after
  active : ∀ id, Event.Active after.log id → Event.Active before.log id

namespace Returns

variable {before between after valuation : Valuation V} {moments more : List (Valuation V)}

theorem stays (valuation : Valuation V) : Returns numbering valuation [] valuation :=
  ⟨.stays, fun _ active => active⟩

theorem append (first : Returns numbering before moments between)
    (second : Returns numbering between more after) :
    Returns numbering before (moments ++ more) after :=
  ⟨first.passes.append second.passes, fun id active => first.active id (second.active id active)⟩

theorem report {event : Event} (quiet : event.entered? = none) :
    Returns numbering valuation [valuation.report event] (valuation.report event) := by
  refine ⟨.single (.report quiet), fun id active => active.of_cons.resolve_left ?_⟩
  rw [quiet]
  exact nofun

theorem keep {node : Token V} {id : Nat} (due : valuation.Due numbering node id)
    (value : Option V) : Returns numbering valuation [valuation.keep id value]
      (valuation.keep id value) :=
  ⟨.single (.keep value due), fun _ active => active⟩

/-- A value function that is entered finishes before the node gets its value. -/
theorem enter {node : Token V} {id : Nat} {symbol : Symbol} {start stop : Nat} {byCases : Bool}
    (due : before.Due numbering node id) (surrounds : before.Surrounds numbering node)
    (ran : Returns numbering (before.report (.entered id symbol start stop byCases)) moments after)
    (unknown : after.isKnown id = false) (value : Option V) :
    Returns numbering before
      (before.report (.entered id symbol start stop byCases) ::
        (moments ++ [after.report (.finished id), (after.report (.finished id)).keep id value]))
      ((after.report (.finished id)).keep id value) := by
  have steps : Relation.ReflTransGen Step before (after.report (.finished id)) :=
    .head (.report _ _) (ran.passes.steps.tail (.report _ _))
  have dueStill : (after.report (.finished id)).Due numbering node id :=
    ⟨due.numbered, due.isNode, unknown, due.begun.mono steps⟩
  constructor
  · exact .moves (.enter symbol start stop byCases due surrounds)
      (ran.passes.append (.moves (.report rfl) (.single (.keep value dueStill))))
  · intro other active
    obtain ⟨apart, working⟩ := active.of_finished
    apply (ran.active other working).of_cons.resolve_left
    rintro ⟨⟩
    exact apart rfl

/-- A dialogue returns if all answers do, where `allowed` are the nodes whose value functions may be
at work. -/
theorem run {α : Type} {allowed : Nat → Prop}
    {ask : Nat → List Nat → Valuation V → Option V × Valuation V}
    {inner : Nat → List Nat → Valuation V → List (Valuation V)}
    (evaluated : Nat → List Nat → Valuation V → Option Bool)
    (answers : ∀ index path (valuation : Valuation V),
      (∀ id, Event.Active valuation.log id → allowed id) →
        Returns numbering valuation (inner index path valuation) (ask index path valuation).2)
    (query : Query V α) (valuation : Valuation V)
    (within : ∀ id, Event.Active valuation.log id → allowed id) :
    Returns numbering valuation (query.moments ask evaluated inner valuation)
      (query.run ask evaluated valuation).2 := by
  induction query generalizing valuation with
  | done result => exact .stays valuation
  | value index path next ih =>
      have answered := answers index path valuation within
      exact answered.append (ih _ _ fun id active => within id (answered.active id active))
  | evaluated index path next ih => exact ih _ _ within
  | lookBack next ih => exact ih _ _ within
  | note what next ih =>
      have noted : Returns numbering valuation [valuation.report what.event]
          (valuation.report what.event) := report what.entered?_event
      exact noted.append (ih _ fun id active => within id (noted.active id active))

end Returns

end Valuation

namespace Token

variable {token : Token V} {before after : Valuation V} {id : Nat}

/-- What happens inside of a node does not make its own value known. -/
theorem Numbered.stays_unknown (numbered : token.Numbered numbering) (isNode : token.id? = some id)
    (unknown : before.isKnown id = false) (advances : before.Advances token.OwnsInside after) :
    after.isKnown id = false := by
  cases known : after.isKnown id with
  | false => rfl
  | true =>
      cases advances.adds known with
      | inl earlier => exact earlier.symm.trans unknown
      | inr inside => exact absurd inside (numbered.not_ownsInside isNode)

theorem momentsInside_eq (input : Input V) (token : Token V) (index : Nat) (path : List Nat)
    (valuation : Valuation V) :
    momentsInside input token index path valuation =
      match inside? token.children index path with
      | none => []
      | some inner => inner.moments input valuation := by
  rw [momentsInside]
  split
  · next missing => rw [missing]
  · next inner found => simp only [found]

theorem evaluateFirst_eq_ask (input : Input V) (children : List (Child V))
    (valuation : Valuation V) :
    evaluateFirst input children valuation =
      (Answers.ask (partAnswers input children).toArray 0 [] valuation).2 := by
  rw [ask_eq]
  cases children with
  | nil => rfl
  | cons first rest => rfl

theorem begun_evaluateFirst (input : Input V) (token : Token V) (valuation : Valuation V) :
    (evaluateFirst input token.children valuation).Begun token := by
  intro first isFirst
  rw [First] at isFirst
  cases children : token.children with
  | nil =>
      rw [children] at isFirst
      cases isFirst
  | cons child rest =>
      rw [children] at isFirst
      cases isFirst
      exact child.item.evaluated?_evaluate input valuation

theorem Numbered.evaluate_returns (input : Input V) (numbered : token.Numbered numbering)
    (valuation : Valuation V) (surrounds : valuation.Surrounds numbering token) :
    Valuation.Returns numbering valuation (token.moments input valuation)
      (token.evaluate input valuation) := by
  induction size : sizeOf token using Nat.strongRecOn generalizing token valuation with
  | _ bound ih =>
      subst size
      have answers (index : Nat) (path : List Nat) (valuation : Valuation V)
          (within : ∀ id, Event.Active valuation.log id →
            Valuation.Encloses numbering id token) :
          Valuation.Returns numbering valuation (momentsInside input token index path valuation)
            (Answers.ask (partAnswers input token.children).toArray index path valuation).2 := by
        rw [momentsInside_eq, ask_eq]
        cases found : inside? token.children index path with
        | none => exact .stays valuation
        | some inner =>
            have contains := contains_of_inside? found
            apply ih _ contains.sizeOf_lt (numbered.contains contains) valuation _ rfl
            intro id active
            obtain ⟨outer, isNumbered, isNode, includes⟩ := within id active
            exact ⟨outer, isNumbered, isNode, contains.trans_right includes⟩
      cases token with
      | leaf lexeme =>
          rw [moments]
          exact .stays valuation
      | node id symbol alternative start stop children =>
          rw [moments, Token.evaluate]
          by_cases known : valuation.isKnown id = true
          · rw [if_pos known, if_pos known]
            exact .stays valuation
          · rw [if_neg known, if_neg known]
            have isNode :
                (Token.node id symbol alternative start stop children).id? = some id := rfl
            have began := answers 0 [] valuation fun _ active => surrounds.encloses active
            have unknown := numbered.stays_unknown isNode (eq_false_of_ne_true known)
              (numbered.ask_advances input 0 [] valuation)
            have begun := begun_evaluateFirst input
              (.node id symbol alternative start stop children) valuation
            rw [evaluateFirst_eq_ask] at begun ⊢
            have due : Valuation.Due numbering _ _ id := ⟨numbered, isNode, unknown, begun⟩
            apply began.append
            cases input.grammar.resolver? symbol alternative with
            | none => exact .keep due none
            | some resolver =>
                have stillSurrounds : Valuation.Surrounds numbering _ _ :=
                  fun other active => surrounds other (began.active other active)
                apply Valuation.Returns.enter due stillSurrounds
                · apply Valuation.Returns.run (insideEvaluated children) answers
                  intro other active
                  cases active.of_cons with
                  | inl own =>
                      cases own
                      exact ⟨_, numbered, isNode, .refl⟩
                  | inr earlier => exact stillSurrounds.encloses earlier
                · refine numbered.stays_unknown isNode ?_
                    (.run (insideEvaluated children) (numbered.ask_advances input) _ _)
                  exact unknown

end Token

/-! ### Requests -/

namespace Valuation

variable {valuation : Valuation V}

/-- Before anything is evaluated, nothing is out of order. -/
theorem orderly_of_bare (bare : valuation.values = {})
    (idle : Event.allEntered valuation.log = []) :
    valuation.Orderly numbering := by
  refine ⟨?_, ?_, ?_⟩
  · intro id known
    rw [isKnown, bare, Std.TreeMap.contains_emptyc] at known
    cases known
  · intro id entered
    rw [idle] at entered
    exact absurd entered List.not_mem_nil
  · intro later event earlier split id entered
    rw [split, Event.allEntered_append, Event.allEntered_cons, entered] at idle
    cases (List.append_eq_nil_iff.1 idle).2

end Valuation

namespace Parse

variable {parse : Parse V} {requests : List (Token V)}

def moments (parse : Parse V) : List (Token V) → List (Valuation V)
  | [] => []
  | token :: rest =>
    token.moments parse.input parse.chart.valuation ++ (parse.asked token).moments rest

theorem ask_returns (numbered : ∀ token ∈ requests, token.Numbered numbering) (parse : Parse V)
    (idle : ∀ id, ¬ Event.Active parse.chart.log id) :
    Valuation.Returns numbering parse.chart.valuation (parse.moments requests)
      (parse.ask requests).2.chart.valuation := by
  induction requests generalizing parse with
  | nil => exact .stays _
  | cons token rest ih =>
      rw [List.forall_mem_cons] at numbered
      have first := numbered.1.evaluate_returns parse.input parse.chart.valuation
        fun id active => absurd active (idle id)
      exact first.append (ih numbered.2 (parse.asked token)
        fun id active => idle id (first.active id active))

/-- The values of some tokens are asked for, one after the other, when nothing has been evaluated
yet. All valuations that are passed meanwhile are known, up to the last: each comes from the one
before it by a single change. In each of them, the first part of an evaluated node is evaluated, if
it is a node. When a value function is entered while others work, innermost or not, its node is in
no chain of first parts with one of theirs. -/
theorem ask_unnested (numbered : ∀ token ∈ requests, token.Numbered numbering)
    (bare : parse.chart.values = {}) (idle : Event.allEntered parse.chart.log = []) :
    let moments := parse.chart.valuation :: parse.moments requests
    moments.IsChain Valuation.Step ∧
      moments.getLast? = some (parse.ask requests).2.chart.valuation ∧
      (∀ moment ∈ moments, moment.FirstsKnown numbering) ∧
      numbering.Unnested (parse.ask requests).2.chart.log := by
  have none_active (id : Nat) (active : Event.Active parse.chart.log id) : False := by
    rw [Event.Active, idle] at active
    exact absurd active.1 List.not_mem_nil
  have passes := (ask_returns numbered parse none_active).passes
  have orderly := passes.orderly (Valuation.orderly_of_bare bare idle)
  exact ⟨passes.isChain, passes.getLast?, fun moment listed => (orderly moment listed).firsts,
    (orderly _ (List.mem_of_getLast? passes.getLast?)).unnested⟩

end Parse

namespace Totals

def chain : List (Token Scalar) :=
  (grammar.parse source).root.toList

end Totals

/-- When the root of a sum is asked for its value, the value functions of its chain of first parts
are entered from the innermost on, each when the one before it has finished. -/
theorem totals_unnested :
    ∃ numbering : Numbering Scalar,
      (∀ token ∈ Totals.chain, token.Numbered numbering) ∧
      (∀ moment ∈ (Totals.grammar.parse Totals.source).moments Totals.chain,
        moment.FirstsKnown numbering) ∧
      numbering.Unnested ((Totals.grammar.parse Totals.source).ask Totals.chain).2.chart.log ∧
      ((Totals.grammar.parse Totals.source).ask Totals.chain).2.chart.log.take 6 = [
        .finished 2, .entered 2 Totals.totalSymbol 0 6 false,
        .finished 1, .entered 1 Totals.totalSymbol 0 4 false,
        .finished 0, .entered 0 Totals.totalSymbol 0 1 false] := by
  obtain ⟨bare, numbering, numbered⟩ := Grammar.parse_numbered Totals.build_eq Totals.source
  have requested : ∀ token ∈ Totals.chain, token.Numbered numbering :=
    fun token member => numbered token ⟨token, .refl, .inl (Option.mem_toList.1 member)⟩
  have idle := Grammar.parse_idle Totals.build_eq Totals.source
  obtain ⟨-, -, firsts, unnested⟩ := Parse.ask_unnested requested bare idle
  exact ⟨numbering, requested, fun moment listed => firsts moment (.tail _ listed), unnested,
    by decide +kernel⟩

end Packrat
