import Packrat.Proofs.Chart.Evaluates
import Packrat.Proofs.Derivation.Basic
import Packrat.Proofs.Grammar.Faults

/-!
Evaluation only finds what can be derived. A chart is sound if all its entries are derived tokens;
a task that begins in a sound chart leaves a sound chart, which extends the first, and its answer
is derived there (`Evaluates.sound`). The entry of a rule that is being resolved is none or a node
of the rule, so what is read of it meanwhile is derived as well.
-/

set_option autoImplicit false
set_option linter.unusedSectionVars false

namespace Packrat

variable {V : Type} [Kinded V]

namespace Chart

/-- Every entry of the chart is derived in the cell of its place. -/
structure Sound (chart : Chart V) (input : Input V) : Prop where
  arena : chart.Arena input
  entries : ∀ {offset symbol token}, chart.known? offset symbol = some (some token) →
    ∃ cell, chart.lexicalAt? offset = some cell ∧
      Derives input chart (.matched cell symbol token)

variable {input : Input V} {chart : Chart V}

theorem Sound.gains {after : Chart V} (sound : chart.Sound input) (gained : chart.Gains after)
    (arena : after.Arena input) : after.Sound input := by
  refine ⟨arena, ?_⟩
  intro offset symbol token known
  rw [gained.known] at known
  obtain ⟨cell, here, derived⟩ := sound.entries known
  exact ⟨cell, gained.grown.lexical here, derived.mono gained.grown⟩

theorem literal_sound {after : Chart V} {offset : Nat} {cell : LexicalCell V} {text : String}
    {found : Option (Lexeme V)} (sound : chart.Sound input)
    (here : chart.lexicalAt? offset = some cell)
    (done : chart.literal cell text = (found, after)) :
    after.Sound input ∧ chart.Gains after ∧ found.map Lexeme.toLeaf = cell.literal? text ∧
      after.literal? cell.position.offset text = some found := by
  have atPlace := (sound.arena.lexical here).2
  subst atPlace
  obtain ⟨arena, gained, same, known⟩ := literal_spec sound.arena here done
  exact ⟨sound.gains gained arena, gained, same, known⟩

theorem Sound.of_cells (sound : chart.Sound input) (after : Chart V)
    (lexical : after.lexical = chart.lexical) (syntactic : after.syntactic = chart.syntactic)
    (literals : after.literals = chart.literals) (entered : after.entered = chart.entered) :
    after.Sound input ∧ chart.Extends after := by
  have sameLexical : after.lexicalAt? = chart.lexicalAt? := by
    funext offset
    unfold Chart.lexicalAt?
    rw [lexical]
  have sameSyntactic : after.syntacticAt? = chart.syntacticAt? := by
    funext offset
    unfold Chart.syntacticAt?
    rw [syntactic]
  have sameKnown : after.known? = chart.known? := by
    funext offset symbol
    unfold Chart.known?
    rw [sameSyntactic]
  have grown : chart.Extends after := by
    refine ⟨?_, ?_, ?_, ?_, [], .nil entered⟩
    · intro offset cell here
      rw [sameLexical]
      exact here
    · intro offset cell here
      rw [sameSyntactic]
      exact ⟨cell, here, rfl⟩
    · intro offset text found known
      rw [Chart.literal?, literals]
      exact known
    · intro offset symbol known
      rw [sameKnown]
      exact known
  refine ⟨⟨sound.arena.of_same lexical syntactic literals, ?_⟩, grown⟩
  intro offset symbol token known
  rw [sameKnown] at known
  obtain ⟨cell, here, derived⟩ := sound.entries known
  exact ⟨cell, grown.lexical here, derived.mono grown⟩

theorem Sound.store {cell : LexicalCell V} {symbol : Symbol} (sound : chart.Sound input)
    (held : chart.Holds cell) (token : Token V)
    (derived : Derives input chart (.matched cell symbol token)) :
    (chart.store cell.position.offset symbol (some token)).Sound input ∧
      chart.Extends (chart.store cell.position.offset symbol (some token)) := by
  have grown := store_extends chart cell.position.offset symbol (some token)
  refine ⟨⟨store_arena sound.arena _ _ _, ?_⟩, grown⟩
  intro offset other entry known
  rw [held.known?_store] at known
  split at known
  · next same =>
      rcases same with ⟨rfl, rfl⟩
      cases known
      exact ⟨cell, held.lexicalAt? sound.arena, derived.mono grown⟩
  · obtain ⟨found, here, inner⟩ := sound.entries known
    exact ⟨found, here, inner.mono grown⟩

theorem Sound.enter {cell : LexicalCell V} {symbol : Symbol} (sound : chart.Sound input)
    (held : chart.Holds cell) (unknown : chart.known? cell.position.offset symbol = none) :
    (chart.enter cell.position.offset symbol).Sound input ∧
      chart.Extends (chart.enter cell.position.offset symbol) := by
  have grown := enter_extends held unknown
  have arena := store_arena sound.arena cell.position.offset symbol none
  refine ⟨⟨arena.of_same rfl rfl rfl, ?_⟩, grown⟩
  intro offset other token known
  rw [held.known?_enter] at known
  split at known
  · cases known
  · obtain ⟨found, here, derived⟩ := sound.entries known
    exact ⟨found, here, derived.mono grown⟩

theorem makeNode_eq_some {symbol : Symbol} {index : Nat} {parts : List (Child V)}
    {node : Token V} {made : Chart V}
    (done : makeNode symbol index parts chart = (some node, made)) :
    ∃ first last, parts.head? = some first ∧ parts.getLast? = some last ∧
      node = .node chart.created symbol index first.item.start last.item.stop parts ∧
      made = { chart with created := chart.created + 1 } := by
  unfold makeNode at done
  split at done
  · next first last isFirst isLast =>
      cases done
      exact ⟨first, last, isFirst, isLast, rfl, rfl⟩
  · cases done

theorem Sound.made {symbol : Symbol} {index : Nat} {parts : List (Child V)} {node : Token V}
    {made : Chart V} (sound : chart.Sound input)
    (done : makeNode symbol index parts chart = (some node, made)) :
    made.Sound input ∧ chart.Extends made := by
  obtain ⟨-, -, -, -, -, rfl⟩ := makeNode_eq_some done
  exact sound.of_cells _ rfl rfl rfl rfl

theorem Sound.replace {cell : LexicalCell V} {symbol : Symbol} {node : Token V}
    (sound : chart.Sound input) (held : chart.Holds cell) (event : Event)
    (derived : Derives input chart (.matched cell symbol node)) :
    ((chart.report event).store cell.position.offset symbol (some node)).Sound input ∧
      chart.Extends ((chart.report event).store cell.position.offset symbol (some node)) := by
  obtain ⟨reported, grown⟩ := sound.of_cells (chart.report event) rfl rfl rfl rfl
  obtain ⟨stored, further⟩ := reported.store (held.mono grown) node (derived.mono grown)
  exact ⟨stored, grown.trans further⟩

end Chart

/-! ### Tasks and answers -/

/-- A task that can be begun in a chart: its cell is held, its place is one of the text, and what
has been found so far is derived. -/
def Task.Begins (input : Input V) (chart : Chart V) : Task V → Prop
  | .resolve cell _ => chart.Holds cell
  | .seeds cell symbol alternatives best =>
    chart.Holds cell ∧ input.grammar.Lists symbol alternatives ∧
      ∀ token, best = some token → Derives input chart (.matched cell symbol token)
  | .pass cell symbol alternatives best =>
    chart.Holds cell ∧ input.grammar.Lists symbol alternatives ∧
      Derives input chart (.matched cell symbol best)
  | .extend cell symbol alternatives best =>
    chart.Holds cell ∧ input.grammar.Lists symbol alternatives ∧
      Derives input chart (.matched cell symbol best)
  | .sequence _ cursor => (input.rest? cursor.offset).isSome
  | .element _ cursor => (input.rest? cursor.offset).isSome
  | .rounds _ _ _ _ cursor => (input.rest? cursor.offset).isSome

/-- An answer of the right form whose tokens are derived. The loops over extensions keep a node,
which does not become shorter. -/
def Answer.Derived (input : Input V) (chart : Chart V) : Task V → Answer V → Prop
  | .resolve cell symbol, .token found =>
    ∀ token, found = some token → Derives input chart (.matched cell symbol token)
  | .seeds cell symbol _ _, .token found =>
    ∀ token, found = some token → Derives input chart (.matched cell symbol token)
  | .pass cell symbol _ best, .token found =>
    ∃ token, found = some token ∧ Derives input chart (.matched cell symbol token) ∧
      best.stop.offset ≤ token.stop.offset
  | .extend cell symbol _ best, .token found =>
    ∃ token, found = some token ∧ Derives input chart (.matched cell symbol token) ∧
      best.stop.offset ≤ token.stop.offset
  | .sequence elements cursor, .run found =>
    ∀ parts stop, found = some (parts, stop) →
      Derives input chart (.run elements cursor parts stop)
  | .element element cursor, .run found =>
    ∀ parts stop, found = some (parts, stop) →
      Derives input chart (.run [element] cursor parts stop)
  | .rounds elements min max count cursor, .run found =>
    ∀ parts stop, found = some (parts, stop) →
      Derives input chart (.rounds elements min max count cursor parts stop)
  | _, _ => False

theorem Run.behind_eq_some {parts all : List (Child V)} {found : Option (Run V)}
    {stop : Position} (same : Run.behind parts found = some (all, stop)) :
    ∃ more, found = some (more, stop) ∧ all = parts ++ more := by
  obtain ⟨⟨more, ended⟩, isRun, pair⟩ := Option.map_eq_some_iff.1 same
  cases pair
  exact ⟨more, isRun, rfl⟩

theorem Run.settled_eq_some {min count : Nat} {cursor stop : Position} {parts : List (Child V)}
    (same : Run.settled min count cursor = some (parts, stop)) :
    min ≤ count ∧ parts = [] ∧ stop = cursor := by
  unfold Run.settled at same
  split at same
  · next reached =>
      cases same
      exact ⟨reached, rfl, rfl⟩
  · cases same

theorem Derives.seeded {input : Input V} {chart made : Chart V} {cell : LexicalCell V}
    {symbol : Symbol} {alternative : Alternative V} {index : Nat} {node : Token V}
    {parts : List (Child V)} {stop : Position} (wellFormed : input.grammar.WellFormed)
    (isAlternative : input.grammar.alternative? symbol index = some alternative)
    (plain : alternative.recursive = false)
    (isRun : Derives input chart (.run alternative.elements cell.position parts stop))
    (nodeMade : Chart.makeNode symbol index parts chart = (some node, made)) :
    Derives input chart (.matched cell symbol node) := by
  obtain ⟨first, last, isFirst, isLast, rfl, -⟩ := Chart.makeNode_eq_some nodeMade
  have starts : startsWithItself symbol alternative.elements = false := by
    rw [← wellFormed.recursive_eq isAlternative]
    exact plain
  exact .seed isAlternative (Grammar.resolver?_eq isAlternative) starts isRun isFirst isLast

theorem Derives.longer {input : Input V} {chart made : Chart V} {cell : LexicalCell V}
    {symbol : Symbol} {alternative : Alternative V} {index : Nat} {head : Element}
    {tail : List Element} {best node : Token V} {parts : List (Child V)} {stop : Position}
    (wellFormed : input.grammar.WellFormed)
    (isAlternative : input.grammar.alternative? symbol index = some alternative)
    (recursive : alternative.recursive = true) (starts : alternative.elements = head :: tail)
    (isBest : Derives input chart (.matched cell symbol best))
    (isRun : Derives input chart (.run tail best.stop parts stop))
    (nodeMade : Chart.makeNode symbol index (⟨head.label?, best⟩ :: parts) chart =
      (some node, made))
    (longer : best.stop.offset < node.stop.offset) :
    Derives input chart (.matched cell symbol node) := by
  obtain ⟨first, last, isFirst, isLast, rfl, -⟩ := Chart.makeNode_eq_some nodeMade
  cases isFirst
  have itself : head.symbol? = some symbol := by
    rw [wellFormed.recursive_eq isAlternative] at recursive
    obtain ⟨other, _, same, isItself⟩ := exists_head_of_startsWithItself recursive
    cases starts.symm.trans same
    exact isItself
  exact .extension isAlternative (Grammar.resolver?_eq isAlternative) starts itself isBest isRun
    isLast longer

/-! ### Soundness -/

namespace Evaluates

variable {input : Input V}

theorem run_valid {chart : Chart V} {elements : List Element} {cursor stop : Position}
    {parts : List (Child V)} (derived : Derives input chart (.run elements cursor parts stop))
    (sound : chart.Sound input) (valid : (input.rest? cursor.offset).isSome) :
    (input.rest? stop.offset).isSome ∧ cursor.offset ≤ stop.offset :=
  have spans : Spans input chart cursor parts stop := derived.sits sound.arena valid
  ⟨spans.valid, spans.forward⟩

theorem token_valid {chart : Chart V} {cell : LexicalCell V} {symbol : Symbol} {token : Token V}
    (derived : Derives input chart (.matched cell symbol token)) (sound : chart.Sound input)
    (held : chart.Holds cell) :
    (input.rest? token.stop.offset).isSome ∧ cell.position.offset ≤ token.stop.offset :=
  have sits := derived.sits sound.arena (held.lexicalAt? sound.arena)
  ⟨sits.2.2, sits.2.1⟩

theorem sound {task : Task V} {chart after : Chart V} {answer : Answer V}
    (evaluates : Evaluates input task chart answer after)
    (wellFormed : input.grammar.WellFormed) :
    chart.Sound input → task.Begins input chart →
      after.Sound input ∧ chart.Extends after ∧ answer.Derived input after task := by
  -- By induction on the evaluation. What is found early stays derived since charts only grow.
  induction evaluates with
  | @known cell symbol entry chart known =>
      intro sound held
      refine ⟨sound, .refl _, ?_⟩
      intro token isEntry
      subst isEntry
      obtain ⟨found, here, derived⟩ := sound.entries known
      rw [held.lexicalAt? sound.arena] at here
      cases here
      exact derived
  | lexical _ noRule =>
      intro sound held
      refine ⟨sound, .refl _, ?_⟩
      intro token isLeaf
      obtain ⟨lexeme, found, rfl⟩ := Option.map_eq_some_iff.1 isLeaf
      exact .leaf noRule (LexicalCell.leaf?_of_lexeme? found)
  | barren unknown isRule _ ihSeeds =>
      intro sound held
      obtain ⟨entered, grown⟩ := sound.enter held unknown
      obtain ⟨soundAfter, further, -⟩ :=
        ihSeeds entered ⟨held.mono grown, Grammar.lists_zipIdx isRule, nofun⟩
      exact ⟨soundAfter, grown.trans further, nofun⟩
  | @grown cell symbol rule first found chart between after unknown isRule _ _ ihSeeds
      ihExtend =>
      intro sound held
      obtain ⟨entered, grown⟩ := sound.enter held unknown
      obtain ⟨soundSeed, further, derived⟩ :=
        ihSeeds entered ⟨held.mono grown, Grammar.lists_zipIdx isRule, nofun⟩
      have heldSeed := (held.mono grown).mono further
      have isSeed := derived first rfl
      obtain ⟨stored, keeps⟩ := soundSeed.store heldSeed first isSeed
      obtain ⟨soundAfter, last, node, rfl, isNode, -⟩ :=
        ihExtend stored ⟨heldSeed.mono keeps, Grammar.lists_zipIdx isRule, isSeed.mono keeps⟩
      refine ⟨soundAfter, ((grown.trans further).trans keeps).trans last, ?_⟩
      rintro token ⟨⟩
      exact isNode
  | seedsDone =>
      intro sound begins
      rcases begins with ⟨held, listed, best⟩
      exact ⟨sound, .refl _, best⟩
  | seedsSkipped _ _ ihSeeds =>
      intro sound begins
      rcases begins with ⟨held, listed, best⟩
      obtain ⟨soundAfter, grown, derived⟩ := ihSeeds sound ⟨held, listed.tail, best⟩
      exact ⟨soundAfter, grown, derived⟩
  | seedsFailed _ _ _ ihSequence ihSeeds =>
      intro sound begins
      rcases begins with ⟨held, listed, best⟩
      obtain ⟨soundBetween, grown, -⟩ := ihSequence sound (held.valid sound.arena)
      obtain ⟨soundAfter, further, derived⟩ := ihSeeds soundBetween
        ⟨held.mono grown, listed.tail, fun token isBest => (best token isBest).mono grown⟩
      exact ⟨soundAfter, grown.trans further, derived⟩
  | seedsEmpty _ _ _ ihSequence ihSeeds =>
      intro sound begins
      rcases begins with ⟨held, listed, best⟩
      obtain ⟨soundBetween, grown, -⟩ := ihSequence sound (held.valid sound.arena)
      obtain ⟨soundAfter, further, derived⟩ := ihSeeds soundBetween
        ⟨held.mono grown, listed.tail, fun token isBest => (best token isBest).mono grown⟩
      exact ⟨soundAfter, grown.trans further, derived⟩
  | @seedsMatched cell symbol alternative index rest best parts stop node found chart between
      made after plain _ nodeMade _ ihSequence ihSeeds =>
      intro sound begins
      rcases begins with ⟨held, listed, bestDerived⟩
      obtain ⟨soundBetween, grown, derivedRun⟩ := ihSequence sound (held.valid sound.arena)
      obtain ⟨soundMade, keeps⟩ := soundBetween.made nodeMade
      have isNode := Derives.seeded wellFormed (listed _ (List.mem_cons_self ..)) plain
        (derivedRun parts stop rfl) nodeMade
      obtain ⟨soundAfter, further, derived⟩ := ihSeeds soundMade
        ⟨(held.mono grown).mono keeps, listed.tail, by
          intro token isBest
          split at isBest
          · cases isBest
            exact isNode.mono keeps
          · exact ((bestDerived token isBest).mono grown).mono keeps⟩
      exact ⟨soundAfter, (grown.trans keeps).trans further, derived⟩
  | passDone =>
      intro sound begins
      rcases begins with ⟨held, listed, best⟩
      exact ⟨sound, .refl _, _, rfl, best, Nat.le_refl _⟩
  | passSkipped _ _ ihPass =>
      intro sound begins
      rcases begins with ⟨held, listed, best⟩
      obtain ⟨soundAfter, grown, derived⟩ := ihPass sound ⟨held, listed.tail, best⟩
      exact ⟨soundAfter, grown, derived⟩
  | passFailed _ _ _ _ ihSequence ihPass =>
      intro sound begins
      rcases begins with ⟨held, listed, best⟩
      obtain ⟨soundBetween, grown, -⟩ := ihSequence sound (token_valid best sound held).1
      obtain ⟨soundAfter, further, derived⟩ :=
        ihPass soundBetween ⟨held.mono grown, listed.tail, best.mono grown⟩
      exact ⟨soundAfter, grown.trans further, derived⟩
  | @passShorter cell symbol alternative index head tail rest best parts stop node found chart
      between made after _ _ _ nodeMade _ _ ihSequence ihPass =>
      intro sound begins
      rcases begins with ⟨held, listed, best⟩
      obtain ⟨soundBetween, grown, -⟩ := ihSequence sound (token_valid best sound held).1
      obtain ⟨soundMade, keeps⟩ := soundBetween.made nodeMade
      obtain ⟨soundAfter, further, derived⟩ := ihPass soundMade
        ⟨(held.mono grown).mono keeps, listed.tail, (best.mono grown).mono keeps⟩
      exact ⟨soundAfter, (grown.trans keeps).trans further, derived⟩
  | @passLonger cell symbol alternative index head tail rest best parts stop node found chart
      between made after recursive starts _ nodeMade longer _ ihSequence ihPass =>
      intro sound begins
      rcases begins with ⟨held, listed, isBest⟩
      obtain ⟨soundBetween, grown, derivedRun⟩ :=
        ihSequence sound (token_valid isBest sound held).1
      have isNode := Derives.longer wellFormed (listed _ (List.mem_cons_self ..)) recursive starts
        (isBest.mono grown) (derivedRun parts stop rfl) nodeMade longer
      obtain ⟨soundMade, grownMade⟩ := soundBetween.made nodeMade
      have heldMade := (held.mono grown).mono grownMade
      obtain ⟨replaced, keeps⟩ := soundMade.replace heldMade
        (.extended symbol cell.position best.stop node.stop) (isNode.mono grownMade)
      obtain ⟨soundAfter, further, token, rfl, derived, notShorter⟩ := ihPass replaced
        ⟨heldMade.mono keeps, listed.tail, (isNode.mono grownMade).mono keeps⟩
      exact ⟨soundAfter, ((grown.trans grownMade).trans keeps).trans further, token, rfl, derived,
        Nat.le_trans (Nat.le_of_lt longer) notShorter⟩
  | extendDone _ _ ihPass =>
      intro sound begins
      exact ihPass sound begins
  | extendMore _ _ _ ihPass ihExtend =>
      intro sound begins
      rcases begins with ⟨held, listed, best⟩
      obtain ⟨soundBetween, grown, node, same, isNode, longer⟩ :=
        ihPass sound ⟨held, listed, best⟩
      cases same
      obtain ⟨soundAfter, further, token, rfl, derived, notShorter⟩ :=
        ihExtend soundBetween ⟨held.mono grown, listed, isNode⟩
      exact ⟨soundAfter, grown.trans further, token, rfl, derived,
        Nat.le_trans longer notShorter⟩
  | sequenceDone =>
      intro sound valid
      refine ⟨sound, .refl _, ?_⟩
      rintro parts stop ⟨⟩
      exact .done
  | sequenceStuck _ ihElement =>
      intro sound valid
      obtain ⟨soundAfter, grown, -⟩ := ihElement sound valid
      exact ⟨soundAfter, grown, nofun⟩
  | sequenceStep _ _ ihElement ihSequence =>
      intro sound valid
      obtain ⟨soundBetween, grown, derivedFirst⟩ := ihElement sound valid
      have isFirst := derivedFirst _ _ rfl
      obtain ⟨soundAfter, further, derivedRest⟩ :=
        ihSequence soundBetween (run_valid isFirst soundBetween valid).1
      refine ⟨soundAfter, grown.trans further, ?_⟩
      intro parts stop same
      obtain ⟨more, isRun, rfl⟩ := Run.behind_eq_some same
      exact (isFirst.mono further).cons (derivedRest more stop isRun)
  | literal asked =>
      intro sound valid
      obtain ⟨arena, gained, cell, leads, same, -⟩ := Chart.literalAt_spec sound.arena asked
      refine ⟨sound.gains gained arena, gained.grown, ?_⟩
      intro parts stop isRun
      obtain ⟨lexeme, rfl, pair⟩ := Option.map_eq_some_iff.1 isRun
      cases pair
      exact .literal leads same.symm .done
  | reference names asked _ ihResolve =>
      intro sound valid
      obtain ⟨arena, gained, held, leads⟩ := Chart.syntaxCell_spec sound.arena asked
      obtain ⟨soundAfter, further, derived⟩ := ihResolve (sound.gains gained arena) held
      refine ⟨soundAfter, gained.grown.trans further, ?_⟩
      intro parts stop isRun
      obtain ⟨token, found, pair⟩ := Option.map_eq_some_iff.1 isRun
      cases pair
      exact .reference names (Chart.cellFrom?_mono further leads) (derived token found) .done
  | repeated _ ihRounds =>
      intro sound valid
      obtain ⟨soundAfter, grown, derived⟩ := ihRounds sound valid
      refine ⟨soundAfter, grown, ?_⟩
      intro parts stop isRun
      have all := Derives.repeated (derived parts stop isRun) .done
      rw [List.append_nil] at all
      exact all
  | roundsFull _ =>
      intro sound valid
      refine ⟨sound, .refl _, ?_⟩
      intro parts stop isRun
      obtain ⟨reached, rfl, rfl⟩ := Run.settled_eq_some isRun
      exact .enough reached
  | roundsStopped _ _ ihSequence =>
      intro sound valid
      obtain ⟨soundAfter, grown, -⟩ := ihSequence sound valid
      refine ⟨soundAfter, grown, ?_⟩
      intro parts stop isRun
      obtain ⟨reached, rfl, rfl⟩ := Run.settled_eq_some isRun
      exact .enough reached
  | roundsIdle room _ same ihSequence =>
      intro sound valid
      obtain ⟨soundAfter, grown, derived⟩ := ihSequence sound valid
      refine ⟨soundAfter, grown, ?_⟩
      rintro parts stop ⟨⟩
      exact .idle (below_of_any_eq_false room) (derived _ _ rfl) same
  | roundsOnward room _ apart _ ihSequence ihRounds =>
      intro sound valid
      obtain ⟨soundBetween, grown, derived⟩ := ihSequence sound valid
      have isRound := derived _ _ rfl
      obtain ⟨validNext, forward⟩ := run_valid isRound soundBetween valid
      obtain ⟨soundAfter, further, derivedRest⟩ := ihRounds soundBetween validNext
      refine ⟨soundAfter, grown.trans further, ?_⟩
      intro parts stop same
      obtain ⟨more, isRun, rfl⟩ := Run.behind_eq_some same
      exact .onward (below_of_any_eq_false room) (isRound.mono further)
        (Nat.lt_of_le_of_ne forward (Ne.symm apart)) (derivedRest more stop isRun)

end Evaluates

end Packrat
