import Packrat.Proofs.Evaluation.Once
import Packrat.Proofs.Evaluation.Worth
import Packrat.Proofs.Reading.Lexemes
import Packrat.Regex.Engine
import Packrat.Scalar.Basic

/-!
Asking for the values of tokens in any order, and as often as one likes (`Parse.ask`). The answers
are what the tokens are worth, if value functions are plain. Whatever value functions do, none of
them is entered twice for one node, and a value that has been given stays (`Grammar.parse_ask`).
-/

set_option autoImplicit false
set_option linter.unusedSectionVars false

namespace Packrat

variable {V : Type} [Kinded V]

namespace Parse

def ask (parse : Parse V) : List (Token V) → List (Option V) × Parse V
  | [] => ([], parse)
  | token :: rest =>
    let (answer, chart) := parse.chart.value parse.input token
    let (answers, parse) := ask { parse with chart := chart } rest
    (answer :: answers, parse)

/-- Whether a token is in a tree that a parse has found: in its root, or in a match elsewhere. -/
def Has (parse : Parse V) (token : Token V) : Prop :=
  ∃ tree : Token V, tree.Includes token ∧
    (parse.root = some tree ∨
      ∃ offset symbol, parse.chart.known? offset symbol = some (some tree))

variable {numbering : Numbering V} {parse : Parse V} {requests : List (Token V)}

def asked (parse : Parse V) (token : Token V) : Parse V :=
  { parse with chart := (parse.chart.value parse.input token).2 }

theorem ask_cons (parse : Parse V) (token : Token V) (rest : List (Token V)) :
    parse.ask (token :: rest) =
      ((parse.chart.value parse.input token).1 :: ((parse.asked token).ask rest).1,
        ((parse.asked token).ask rest).2) :=
  rfl

theorem ask_append (parse : Parse V) (earlier later : List (Token V)) :
    parse.ask (earlier ++ later) =
      ((parse.ask earlier).1 ++ ((parse.ask earlier).2.ask later).1,
        ((parse.ask earlier).2.ask later).2) := by
  induction earlier generalizing parse with
  | nil => rfl
  | cons token rest ih => rw [List.cons_append, ask_cons, ask_cons, ih, List.cons_append]

theorem ask_worth (plain : parse.input.grammar.Plain)
    (faithful : parse.chart.valuation.Faithful parse.input numbering)
    (numbered : ∀ token ∈ requests, token.Numbered numbering) :
    (parse.ask requests).1 = requests.map (Token.worth parse.input) := by
  induction requests generalizing parse with
  | nil => rfl
  | cons token rest ih =>
      rw [List.forall_mem_cons] at numbered
      obtain ⟨isWorth, onward⟩ := numbered.1.evaluate plain faithful
      have others : ((parse.asked token).ask rest).1 = rest.map (Token.worth parse.input) :=
        ih plain onward numbered.2
      rw [ask_cons, List.map_cons, others]
      exact congrArg (· :: _) isWorth

theorem ask_advances (numbered : ∀ token ∈ requests, token.Numbered numbering)
    (parse : Parse V) :
    parse.chart.valuation.Advances (fun id => ∃ token ∈ requests, token.Owns id)
      (parse.ask requests).2.chart.valuation := by
  induction requests generalizing parse with
  | nil => exact .refl _
  | cons token rest ih =>
      rw [List.forall_mem_cons] at numbered
      have first := numbered.1.evaluate_advances parse.input parse.chart.valuation
      have others := ih numbered.2 (parse.asked token)
      apply (first.mono ?_).trans (others.mono ?_)
      · intro id owns
        exact ⟨token, List.mem_cons_self .., owns⟩
      · rintro id ⟨other, member, owns⟩
        exact ⟨other, List.mem_cons_of_mem _ member, owns⟩

theorem ask_read (numbered : ∀ token ∈ requests, token.Numbered numbering) (parse : Parse V) :
    (parse.ask requests).1 =
      requests.map (parse.ask requests).2.chart.valuation.read := by
  induction requests generalizing parse with
  | nil => rfl
  | cons token rest ih =>
      rw [List.forall_mem_cons] at numbered
      have others := ask_advances numbered.2 (parse.asked token)
      rw [ask_cons, List.map_cons, ih numbered.2]
      exact congrArg (· :: _) (Valuation.steps_read others.steps
        (token.evaluated?_evaluate parse.input parse.chart.valuation)).symm

end Parse

theorem Grammar.parse_numbered {engine : RegexEngine} {declarations : List (Declaration V)}
    {grammar : Grammar V}
    (built : Grammar.build engine declarations = .ok grammar) (source : List Char) :
    (grammar.parse source).chart.values = {} ∧
      ∃ numbering, ∀ token, (grammar.parse source).Has token → token.Numbered numbering := by
  let begun : Chart V := { log := [.parsing (grammar.on source).length grammar.root] }
  cases done : begun.resolveAtStart (grammar.on source) grammar.root with
  | mk found after =>
      have parsed : grammar.parse source =
          ⟨grammar.on source, after.report (Parse.endEvent after found), found⟩ :=
        Grammar.parse_eq (grammar.on source) done
      obtain ⟨sound, -⟩ := (Chart.empty_sound : ({} : Chart V).Sound (grammar.on source)).of_cells
        begun rfl rfl rfl rfl
      obtain ⟨numbering, -, numbered, isNumbered, same⟩ :=
        Chart.resolveAtStart_numbered (Grammar.build_wellFormed built) sound
          (Chart.Numbered.empty.of_same (fun _ _ => rfl) rfl) done
      rw [parsed]
      refine ⟨same, numbering, ?_⟩
      rintro token ⟨tree, includes, isFound⟩
      refine Token.Numbered.includes ?_ includes
      cases isFound with
      | inl isRoot => exact isNumbered tree isRoot
      | inr isKnown =>
          obtain ⟨offset, symbol, known⟩ := isKnown
          exact numbered.known known

/-- Values are asked for any number of times and in any order. If value functions are plain, each
answer is what the token is worth. In any case an answer is the value that is known in the end, the
valuation changes by nothing but reports and values that become known, no value function is entered
twice for one node, and nodes are told apart by their numbers. -/
theorem Grammar.parse_ask {engine : RegexEngine} {declarations : List (Declaration V)}
    {grammar : Grammar V} {source : List Char} {requests : List (Token V)}
    (built : Grammar.build engine declarations = .ok grammar)
    (within : ∀ token ∈ requests, (grammar.parse source).Has token) :
    (grammar.Plain → ((grammar.parse source).ask requests).1 =
      requests.map (Token.worth (grammar.on source))) ∧
    ((grammar.parse source).ask requests).1 =
      requests.map ((grammar.parse source).ask requests).2.chart.valuation.read ∧
    Relation.ReflTransGen Valuation.Step (grammar.parse source).chart.valuation
      ((grammar.parse source).ask requests).2.chart.valuation ∧
    (∀ earlier later, requests = earlier ++ later → ∀ (id : Nat) value,
      ((grammar.parse source).ask earlier).2.chart.values[id]? = some value →
        ((grammar.parse source).ask requests).2.chart.values[id]? = some value) ∧
    (∃ events, ((grammar.parse source).ask requests).2.chart.log =
        events ++ (grammar.parse source).chart.log ∧
      (Event.allEntered events).Nodup) ∧
    (∀ token other id, (grammar.parse source).Has token → (grammar.parse source).Has other →
      token.id? = some id → other.id? = some id → token = other) := by
  obtain ⟨bare, numbering, numbered⟩ := Grammar.parse_numbered built source
  have requested : ∀ token ∈ requests, token.Numbered numbering :=
    fun token member => numbered token (within token member)
  have advances := Parse.ask_advances requested (grammar.parse source)
  refine ⟨?_, Parse.ask_read requested _, advances.steps, ?_, ?_, ?_⟩
  · intro plain
    have same : (grammar.parse source).input = grammar.on source := parse_input (grammar.on source)
    rw [← same]
    refine Parse.ask_worth ?_ (Chart.faithful_of_no_values bare) requested
    rw [same]
    exact plain
  · rintro earlier later rfl id value found
    have rest : ∀ token ∈ later, token.Numbered numbering :=
      fun token member => requested token (List.mem_append_right earlier member)
    rw [Parse.ask_append]
    exact Valuation.steps_keep (Parse.ask_advances rest _).steps found
  · obtain ⟨events, isLog, nodup, -⟩ := advances.enters
    exact ⟨events, isLog, nodup⟩
  · intro token other id hasToken hasOther isToken isOther
    have first := (numbered token hasToken).of_id? isToken
    exact Option.some.inj (first.symm.trans ((numbered other hasOther).of_id? isOther))

/-! ### Totals of digits -/

namespace Totals

def totalSymbol : Symbol := ⟨"TOTAL"⟩

def digitSymbol : Symbol := ⟨"DIGIT"⟩

def add (total : Int) : Scalar → Int
  | .integer value => total + value
  | _ => total

def total : Lookup Scalar (Option Scalar) := do
  match ← Lookup.labelledValues "part" with
  | none => return none
  | some values => return some (.integer (values.foldl add 0))

def declarations : List (Declaration Scalar) :=
  [ .blanks [' '],
    .root totalSymbol,
    .terminal digitSymbol [
      .pattern (.words ["1"]),
      .value fun _ => .integer 1],
    .rule totalSymbol [
      .pattern [.labelled totalSymbol "part", .literal "+", .labelled digitSymbol "part"],
      .pattern [.labelled digitSymbol "part"],
      .value (.function total)]]

def grammar : Grammar Scalar where
  blanks := [' ']
  root := totalSymbol
  terminals := [⟨digitSymbol, [⟨.words [['1']], some fun _ => .integer 1⟩]⟩]
  aliases := {}
  rules := [
    ⟨totalSymbol, [
      ⟨[.labelled totalSymbol "part", .literal "+", .labelled digitSymbol "part"],
        some (.function total), true⟩,
      ⟨[.labelled digitSymbol "part"], some (.function total), false⟩]⟩]

theorem build_eq : Grammar.build Regex.engine declarations = .ok grammar := by
  rfl

theorem plain_total : total.Plain := by
  apply (Lookup.plain_labelledValues "part").bind
  intro found
  cases found with
  | none => exact .pure _
  | some values => exact .pure _

theorem plain : grammar.Plain := by
  apply Grammar.plain_of_alternatives
  simp only [grammar, List.forall_mem_cons, List.not_mem_nil, false_implies, implies_true, and_true,
    Option.some.injEq, forall_eq']
  exact ⟨plain_total, plain_total⟩

def source : List Char := ['1', '+', ' ', '1', '+', '1']

def requests : List (Token Scalar) :=
  (grammar.parse source).root.toList.flatMap fun root =>
    root.children.map Labelled.item ++ [root, root]

theorem requests_within : ∀ token ∈ requests, (grammar.parse source).Has token := by
  intro token member
  obtain ⟨root, isRoot, member⟩ := List.mem_flatMap.1 member
  refine ⟨root, ?_, .inl (Option.mem_toList.1 isRoot)⟩
  rcases List.mem_append.1 member with isPart | isRoot
  · obtain ⟨child, listed, rfl⟩ := List.mem_map.1 isPart
    exact .single ⟨child, listed, rfl⟩
  · have same : token = root := by simpa using isRoot
    rw [same]

end Totals

/-- The parts of a total are asked for their values and then the total itself, twice. -/
theorem totals_asked :
    ((Totals.grammar.parse Totals.source).ask Totals.requests).1 =
        Totals.requests.map (Token.worth (Totals.grammar.on Totals.source)) ∧
      ((Totals.grammar.parse Totals.source).ask Totals.requests).1.map
          (fun answer => answer.map (Totals.add 0)) =
        [some 2, none, some 1, some 3, some 3] ∧
      Event.allEntered ((Totals.grammar.parse Totals.source).ask Totals.requests).2.chart.log =
        [2, 1, 0] :=
  ⟨(Grammar.parse_ask Totals.build_eq Totals.requests_within).1 Totals.plain,
    by decide +kernel, by decide +kernel⟩

end Packrat
