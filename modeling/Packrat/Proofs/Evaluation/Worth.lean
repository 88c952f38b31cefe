import Packrat.Proofs.Chart.Reachable
import Packrat.Proofs.Evaluation.Inside
import Packrat.Proofs.Evaluation.Numbering

/-!
What a token is worth: the value by recursion on the token, where a value function is answered with
what the tokens inside the node are worth (`Token.worth`). Evaluation keeps values by the numbers
of nodes and computes a value when it is asked for first; as long as the numbers tell the nodes
apart, this comes to the same (`Token.Numbered.evaluate`).

Value functions that never ask what has been evaluated and never look back are plain: their results
depend on nothing but the values that they ask for.
-/

set_option autoImplicit false
set_option linter.unusedSectionVars false

namespace Packrat

variable {V : Type}

/-! ### Plain dialogues -/

namespace Query

variable {α β : Type} {answers : Nat → List Nat → Option V}

/-- The result of a dialogue with the given answers. Nobody tells what has been evaluated, or what
has happened. -/
def settle (answers : Nat → List Nat → Option V) : Query V α → α
  | .done result => result
  | .value index path next => (next (answers index path)).settle answers
  | .evaluated _ _ next => (next none).settle answers
  | .lookBack next => (next {}).settle answers
  | .note _ next => next.settle answers

/-- A dialogue that asks for nothing but values. -/
inductive Plain : Query V α → Prop where
  | done (result) : Plain (.done result)
  | value {index path next} : (∀ answer, Plain (next answer)) → Plain (.value index path next)
  | note {what next} : Plain next → Plain (.note what next)

theorem Plain.bind {query : Query V α} {next : α → Query V β} (plain : query.Plain)
    (onward : ∀ result, (next result).Plain) : (query.bind next).Plain := by
  induction plain with
  | done result => exact onward result
  | value _ ih => exact .value ih
  | note _ ih => exact .note ih

@[simp] theorem settle_done (result : α) : (Query.done result).settle answers = result := rfl

@[simp] theorem settle_bind (query : Query V α) (next : α → Query V β) :
    (query.bind next).settle answers = (next (query.settle answers)).settle answers := by
  induction query with
  | done result => rfl
  | value index path _ ih => exact ih (answers index path)
  | evaluated index path _ ih => exact ih none
  | lookBack _ ih => exact ih {}
  | note what _ ih => exact ih

end Query

def Lookup.Plain {α : Type} (lookup : Lookup V α) : Prop :=
  ∀ scope cursor, (lookup scope cursor).Plain

namespace Lookup

variable {α β : Type}

theorem Plain.bind {lookup : Lookup V α} {next : α → Lookup V β} (plain : lookup.Plain)
    (onward : ∀ result, (next result).Plain) : (lookup >>= next).Plain :=
  fun scope cursor => (plain scope cursor).bind fun (result, after) => onward result scope after

theorem Plain.pure (result : α) : (Pure.pure result : Lookup V α).Plain :=
  fun _ _ => .done _

theorem plain_valueAt (index : Nat) : (valueAt index : Lookup V (Option V)).Plain :=
  fun _ _ => .value fun _ => .done _

theorem plain_scope : (scope : Lookup V (Scope V)).Plain :=
  fun _ _ => .done _

theorem plain_note (what : Note) : (note what : Lookup V Unit).Plain :=
  fun _ _ => .note (.done _)

theorem plain_moveTo (index : Nat) : (moveTo index : Lookup V Unit).Plain :=
  fun _ _ => .done _

theorem plain_valuesAt (indices : List Nat) (found : List V) :
    (valuesAt indices found).Plain := by
  induction indices generalizing found with
  | nil => exact .pure _
  | cons index rest ih =>
      apply (plain_valueAt index).bind
      rintro (_ | value)
      · exact .pure _
      · exact ih _

theorem plain_labelledValues (label : String) :
    (labelledValues label : Lookup V (Option (List V))).Plain :=
  plain_scope.bind fun _ => plain_valuesAt _ _

theorem plain_findKind [Kinded V] (kind : Kinded.Kind V) (count : Nat) (index : Nat) :
    (findKind kind index count).Plain := by
  induction count generalizing index with
  | zero => exact .done _
  | succ count ih =>
      apply Query.Plain.value
      rintro (_ | value)
      · exact ih _
      · change (if Kinded.kind value = kind then Query.done _ else _).Plain
        split
        · exact .done _
        · exact ih _

theorem plain_nextOfKind [Kinded V] (kind : Kinded.Kind V) : (nextOfKind kind).Plain := by
  intro scope cursor
  apply (plain_findKind kind _ _).bind
  rintro (_ | ⟨value, after⟩)
  · exact .done _
  · exact .done _

end Lookup

namespace Cases

variable [Kinded V]

theorem plain_gather (kinds : List (Kinded.Kind V)) : (gather kinds).Plain := by
  induction kinds with
  | nil => exact .pure _
  | cons kind rest ih =>
      apply (Lookup.plain_nextOfKind kind).bind
      rintro (_ | value)
      · exact .pure _
      · apply ih.bind
        rintro (_ | others)
        · exact .pure _
        · exact .pure _

theorem plain_noteAll (notes : List Note) : (noteAll notes : Lookup V Unit).Plain := by
  induction notes with
  | nil => exact .pure _
  | cons what rest ih => exact (Lookup.plain_note what).bind fun _ => ih

theorem plain_applyFrom (index : Nat) (cases : Cases V) : (applyFrom index cases).Plain := by
  induction cases generalizing index with
  | nil => exact .pure _
  | cons case rest ih =>
      refine (Lookup.plain_moveTo 0).bind fun _ => (plain_gather case.signature).bind ?_
      rintro (_ | values)
      · exact ih _
      · exact (Lookup.plain_note _).bind fun _ => (plain_noteAll _).bind fun _ => .pure _

theorem plain_apply (cases : Cases V) : (apply cases).Plain :=
  plain_applyFrom 0 cases

end Cases

variable [Kinded V]

/-- Whether all value functions of a grammar are plain. -/
def Grammar.Plain (grammar : Grammar V) : Prop :=
  ∀ symbol alternative resolver, grammar.resolver? symbol alternative = some resolver →
    resolver.lookup.Plain

theorem Grammar.plain_of_alternatives {grammar : Grammar V}
    (plain : ∀ rule ∈ grammar.rules, ∀ alternative ∈ rule.alternatives, ∀ resolver,
      alternative.resolver = some resolver → resolver.lookup.Plain) : grammar.Plain := by
  intro symbol index resolver resolved
  simp only [Grammar.resolver?, Option.bind_eq_bind, Option.bind_eq_some_iff] at resolved
  obtain ⟨rule, isRule, alternative, isAlternative, has⟩ := resolved
  exact plain rule (List.mem_of_find?_eq_some isRule) alternative
    (List.mem_of_getElem? isAlternative) resolver has

/-! ### Worth -/

namespace Token

mutual

def worth (input : Input V) : Token V → Option V
  | .leaf lexeme => lexeme.value
  | .node id symbol alternative start stop children =>
    (input.grammar.resolver? symbol alternative).bind fun resolver =>
      ((resolver.lookup ⟨input.source, .node id symbol alternative start stop children⟩ 0).settle
        fun index path => (worths input children)[index]?.bind fun answer => answer path).1

def worths (input : Input V) : List (Child V) → List (List Nat → Option V)
  | [] => []
  | ⟨_, token⟩ :: rest =>
    (fun path =>
      match path with
      | [] => worth input token
      | index :: path => (worthsInside input token)[index]?.bind fun answer => answer path) ::
      worths input rest

def worthsInside (input : Input V) : Token V → List (List Nat → Option V)
  | .leaf _ => []
  | .node _ _ _ _ _ children => worths input children

end

theorem worthsInside_eq (input : Input V) (token : Token V) :
    worthsInside input token = worths input token.children := by
  cases token with
  | leaf lexeme => rfl
  | node id symbol alternative start stop children => rfl

theorem worths_eq_map (input : Input V) (children : List (Child V)) :
    worths input children = children.map fun child path =>
      match path with
      | [] => child.item.worth input
      | index :: path =>
        (worthsInside input child.item)[index]?.bind fun answer => answer path := by
  induction children with
  | nil => rfl
  | cons child rest ih =>
      rw [worths, List.map_cons, ih]

theorem worths_inside? (input : Input V) (children : List (Child V)) (index : Nat)
    (path : List Nat) :
    ((worths input children)[index]?.bind fun answer => answer path) =
      (inside? children index path).bind (worth input) := by
  induction path generalizing children index with
  | nil =>
      rw [worths_eq_map, List.getElem?_map, inside?]
      cases children[index]? with
      | none => rfl
      | some child => rfl
  | cons next path ih =>
      rw [worths_eq_map, List.getElem?_map, inside?]
      cases children[index]? with
      | none => rfl
      | some child =>
          rw [Option.map_some, Option.bind_some, Option.bind_some, ← ih child.item.children next,
            ← worthsInside_eq]

/-- A node is worth what its value function comes to when it is answered with what the tokens inside
the node are worth. -/
theorem worth_node {input : Input V} {id alternative : Nat} {symbol : Symbol}
    {start stop : Position} {children : List (Child V)} {resolver : Resolver V}
    (resolved : input.grammar.resolver? symbol alternative = some resolver) :
    (Token.node id symbol alternative start stop children).worth input =
      ((resolver.lookup ⟨input.source, .node id symbol alternative start stop children⟩ 0).settle
        fun index path => (inside? children index path).bind (worth input)).1 := by
  rw [Token.worth, resolved, Option.bind_some]
  simp only [worths_inside?]

theorem worth_unresolved {input : Input V} {id alternative : Nat} {symbol : Symbol}
    {start stop : Position} {children : List (Child V)}
    (resolved : input.grammar.resolver? symbol alternative = none) :
    (Token.node id symbol alternative start stop children).worth input = none := by
  rw [worth, resolved, Option.bind_none]

end Token

/-! ### Evaluation -/

def Valuation.Faithful (input : Input V) (numbering : Numbering V) (valuation : Valuation V) :
    Prop :=
  ∀ ⦃id value node⦄, valuation.values[id]? = some value → numbering id = some node →
    value = node.worth input

namespace Valuation.Faithful

variable {input : Input V} {numbering : Numbering V} {valuation : Valuation V}

theorem report (faithful : valuation.Faithful input numbering) (event : Event) :
    (valuation.report event).Faithful input numbering :=
  faithful

theorem keep {id : Nat} {node : Token V} (faithful : valuation.Faithful input numbering)
    (isNode : numbering id = some node) {value : Option V} (isWorth : value = node.worth input) :
    (valuation.keep id value).Faithful input numbering := by
  intro other found token here isToken
  rw [Valuation.keep, Std.TreeMap.getElem?_insert] at here
  split at here
  · next same =>
      obtain rfl : id = other := Std.LawfulEqCmp.eq_of_compare same
      cases isNode.symm.trans isToken
      cases here
      exact isWorth
  · exact faithful here isToken

theorem run {α : Type} {ask : Nat → List Nat → Valuation V → Option V × Valuation V}
    {answers : Nat → List Nat → Option V} {query : Query V α} (plain : query.Plain)
    (evaluated : Nat → List Nat → Valuation V → Option Bool)
    (right : ∀ index path (valuation : Valuation V), valuation.Faithful input numbering →
      (ask index path valuation).1 = answers index path ∧
        (ask index path valuation).2.Faithful input numbering)
    (faithful : valuation.Faithful input numbering) :
    (query.run ask evaluated valuation).1 = query.settle answers ∧
      (query.run ask evaluated valuation).2.Faithful input numbering := by
  induction plain generalizing valuation with
  | done result => exact ⟨rfl, faithful⟩
  | @value index path next _ ih =>
      obtain ⟨answered, onward⟩ := right index path valuation faithful
      rw [Query.run, Query.settle, ← answered]
      exact ih _ onward
  | note _ ih => exact ih (faithful.report _)

end Valuation.Faithful

theorem Valuation.read_keep (valuation : Valuation V) {id alternative : Nat} {symbol : Symbol}
    {start stop : Position} {children : List (Child V)} (value : Option V) :
    (valuation.keep id value).read (.node id symbol alternative start stop children) = value := by
  simp only [read, keep, Std.TreeMap.getElem?_insert_self, Option.join_some]

theorem Token.Numbered.evaluate {input : Input V} {numbering : Numbering V} {token : Token V}
    (numbered : token.Numbered numbering) (plain : input.grammar.Plain) {valuation : Valuation V}
    (faithful : valuation.Faithful input numbering) :
    (token.evaluate input valuation).read token = token.worth input ∧
      (token.evaluate input valuation).Faithful input numbering := by
  -- By induction on the size of the token, since its value function is answered with the values of
  -- tokens at any depth inside of it.
  induction size : sizeOf token using Nat.strong_induction_on generalizing token valuation with
  | _ bound ih =>
      subst size
      cases token with
      | leaf lexeme => exact ⟨rfl, faithful⟩
      | node id symbol alternative start stop children =>
          have within {inner : Token V}
              (contains : (Token.node id symbol alternative start stop children).Contains inner)
              {valuation : Valuation V} (faithful : valuation.Faithful input numbering) :=
            ih _ contains.sizeOf_lt (numbered.contains contains) faithful rfl
          rw [Token.evaluate]
          by_cases known : valuation.isKnown id = true
          · rw [if_pos known]
            refine ⟨?_, faithful⟩
            obtain ⟨value, found⟩ := Option.isSome_iff_exists.1
              ((Std.TreeMap.contains_eq_isSome_getElem? ..).symm.trans known)
            rw [Valuation.read, found]
            exact faithful found numbered.isNode
          · rw [if_neg known]
            have begun : (evaluateFirst input children valuation).Faithful input numbering := by
              cases children with
              | nil => exact faithful
              | cons first rest =>
                  exact (within (.single ⟨first, List.mem_cons_self .., rfl⟩) faithful).2
            cases resolved : input.grammar.resolver? symbol alternative with
            | none =>
                have isWorth : none =
                    (Token.node id symbol alternative start stop children).worth input :=
                  (worth_unresolved resolved).symm
                exact ⟨(Valuation.read_keep _ none).trans isWorth,
                  begun.keep numbered.isNode isWorth⟩
            | some resolver =>
                have right : ∀ index path (valuation : Valuation V),
                    valuation.Faithful input numbering →
                    (Answers.ask (partAnswers input children).toArray index path valuation).1 =
                        (inside? children index path).bind (worth input) ∧
                      (Answers.ask (partAnswers input children).toArray index path
                        valuation).2.Faithful input numbering := by
                  intro index path valuation faithful
                  rw [ask_eq]
                  cases found : inside? children index path with
                  | none => exact ⟨rfl, faithful⟩
                  | some inner => exact within (contains_of_inside? found) faithful
                obtain ⟨result, done⟩ := Valuation.Faithful.run
                  (plain symbol alternative resolver resolved
                    ⟨input.source, .node id symbol alternative start stop children⟩ 0)
                  (insideEvaluated children) right
                  (begun.report (.entered id symbol start.offset stop.offset resolver.byCases))
                have isWorth := (congrArg Prod.fst result).trans (worth_node resolved).symm
                exact ⟨(Valuation.read_keep _ _).trans isWorth,
                  (done.report (.finished id)).keep numbered.isNode isWorth⟩

/-! ### Parses -/

namespace Chart

theorem faithful_of_no_values {input : Input V} {numbering : Numbering V} {chart : Chart V}
    (bare : chart.values = {}) : chart.valuation.Faithful input numbering := by
  intro id value node found _
  simp [valuation, bare] at found

theorem resolveAtStart_numbered {input : Input V} (wellFormed : input.grammar.WellFormed)
    {chart after : Chart V} {symbol : Symbol} {found : Option (Token V)}
    {numbering : Numbering V} (sound : chart.Sound input) (numbered : chart.Numbered numbering)
    (done : chart.resolveAtStart input symbol = (found, after)) :
    Numbers numbering chart (.token found) after := by
  obtain ⟨cell, opened, asked, resolved⟩ := resolveAtStart_eq done
  obtain ⟨arena, gained, held, -⟩ := syntaxCell_spec sound.arena asked
  have evaluates := resolve_evaluates wellFormed (sound.gains gained arena) held resolved
  obtain ⟨numberedOpened, same⟩ := numbered.syntaxCell asked
  exact .behind (.refl _) same (evaluates.numbers numberedOpened trivial)

end Chart

theorem Grammar.parse_value (input : Input V) (wellFormed : input.grammar.WellFormed)
    (plain : input.grammar.Plain) :
    (input.grammar.parse input.source).value.1 =
      (input.grammar.parse input.source).root.bind (Token.worth input) := by
  cases done : ({ log := [.parsing input.length input.grammar.root] } : Chart V).resolveAtStart
      input input.grammar.root with
  | mk found after =>
      rw [Grammar.parse_eq input done]
      cases found with
      | none => rfl
      | some root =>
          obtain ⟨begun, -⟩ := (Chart.empty_sound : ({} : Chart V).Sound input).of_cells
            { log := [.parsing input.length input.grammar.root] } rfl rfl rfl rfl
          obtain ⟨numbering, -, -, isNumbered, same⟩ :=
            Chart.resolveAtStart_numbered wellFormed begun
              (Chart.Numbered.empty.of_same (fun _ _ => rfl) rfl) done
          have bare : (after.report (Parse.endEvent after (some root))).values = {} := same
          exact ((isNumbered root rfl).evaluate plain (Chart.faithful_of_no_values bare)).1

end Packrat
