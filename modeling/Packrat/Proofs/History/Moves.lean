import Mathlib.Logic.Relation
import Packrat.Proofs.Chart.Lookup
import Packrat.Proofs.History.Basic

/-!
Single changes of a chart. While symbols are resolved, a chart is changed by requests for cells and
literal texts, by entries of the memo, by new nodes and by what is told of extensions
(`Chart.Works`, `Evaluates.works`). All that happens to a chart is such a change or a request from
outside (`Chart.Moves`), so whatever holds at every moment between them holds of sessions
(`Chart.Reachable.moves`). Every move keeps the cells that are there (`Chart.Moves.retains`).
-/

set_option autoImplicit false
set_option linter.unusedSectionVars false

namespace Packrat

variable {V : Type} [Kinded V]

/-! ### Single moves -/

/-- A request, or a change that leaves the cells as they are. -/
inductive Chart.Moves (input : Input V) : Chart V → Chart V → Prop where
  | lexicalCell {chart after origin cell} :
      chart.lexicalCell input origin = .ok (cell, after) → Chart.Moves input chart after
  | syntaxCell {chart after origin cell} :
      chart.syntaxCell input origin = .ok (cell, after) → Chart.Moves input chart after
  | literal {chart after offset cell text found} :
      chart.lexicalAt? offset = some cell → chart.literal cell text = (found, after) →
      Chart.Moves input chart after
  | literalAt {chart after origin text found} :
      chart.literalAt input origin text = .ok (found, after) → Chart.Moves input chart after
  | enter {chart offset symbol} : Chart.Moves input chart (chart.enter offset symbol)
  | store {chart offset symbol entry} : Chart.Moves input chart (chart.store offset symbol entry)
  | made {chart after symbol index parts node} :
      chart.makeNode symbol index parts = (some node, after) → Chart.Moves input chart after
  | report {chart event} : Chart.Moves input chart (chart.report event)
  | value {chart after token found} :
      chart.value input token = (found, after) → Chart.Moves input chart after

/-- A change while symbols are resolved. -/
inductive Chart.Works (input : Input V) : Chart V → Chart V → Prop where
  | syntaxCell {chart after origin cell} :
      chart.syntaxCell input origin = .ok (cell, after) → Chart.Works input chart after
  | literalAt {chart after origin text found} :
      chart.literalAt input origin text = .ok (found, after) → Chart.Works input chart after
  | enter {chart offset symbol} : Chart.Works input chart (chart.enter offset symbol)
  | store {chart offset symbol entry} : Chart.Works input chart (chart.store offset symbol entry)
  | made {chart after symbol index parts node} :
      chart.makeNode symbol index parts = (some node, after) → Chart.Works input chart after
  | extended {chart symbol position stop further} :
      Chart.Works input chart (chart.report (.extended symbol position stop further))

theorem Chart.Works.moves {input : Input V} {chart after : Chart V}
    (works : Works input chart after) : Moves input chart after := by
  cases works with
  | syntaxCell asked => exact .syntaxCell asked
  | literalAt asked => exact .literalAt asked
  | enter => exact .enter
  | store => exact .store
  | made made_ => exact .made made_
  | extended => exact .report

structure Chart.Retains (before after : Chart V) : Prop where
  lexical : ∀ {offset cell}, before.lexicalAt? offset = some cell →
    after.lexicalAt? offset = some cell
  syntactic : ∀ {offset cell}, before.syntacticAt? offset = some cell →
    ∃ kept, after.syntacticAt? offset = some kept ∧ kept.lexical = cell.lexical
  lexicalSize : before.lexical.size ≤ after.lexical.size
  syntacticSize : before.syntactic.size ≤ after.syntactic.size

namespace Chart

variable {input : Input V} {chart between after : Chart V} {origin : Position}

namespace Retains

theorem of_same (lexical : after.lexical = chart.lexical)
    (syntactic : after.syntactic = chart.syntactic) : chart.Retains after := by
  refine ⟨?_, ?_, Nat.le_of_eq (by rw [lexical]), Nat.le_of_eq (by rw [syntactic])⟩
  · intro offset cell here
    rw [lexicalAt?, lexical]
    exact here
  · intro offset cell here
    rw [syntacticAt?, syntactic]
    exact ⟨cell, here, rfl⟩

theorem of_extends (grown : chart.Extends after)
    (lexicalSize : chart.lexical.size ≤ after.lexical.size)
    (syntacticSize : chart.syntactic.size ≤ after.syntactic.size) : chart.Retains after :=
  ⟨grown.lexical, grown.syntactic, lexicalSize, syntacticSize⟩

theorem refl (chart : Chart V) : chart.Retains chart :=
  .of_same rfl rfl

theorem trans (early : chart.Retains between) (late : between.Retains after) :
    chart.Retains after := by
  refine ⟨fun here => late.lexical (early.lexical here), ?_,
    early.lexicalSize.trans late.lexicalSize, early.syntacticSize.trans late.syntacticSize⟩
  intro offset cell here
  obtain ⟨kept, there, sameFirst⟩ := early.syntactic here
  obtain ⟨last, atLast, sameLast⟩ := late.syntactic there
  exact ⟨last, atLast, sameLast.trans sameFirst⟩

theorem store (chart : Chart V) (offset : Nat) (symbol : Symbol) (entry : Option (Token V)) :
    chart.Retains (chart.store offset symbol entry) :=
  .of_extends (store_extends chart offset symbol entry) le_rfl
    (Nat.le_of_eq Std.TreeMap.size_modify.symm)

theorem lexicalCell {cell : LexicalCell V} (arena : chart.Arena input)
    (asked : chart.lexicalCell input origin = .ok (cell, after)) : chart.Retains after := by
  have grown := (lexicalCell_spec arena asked).2.1.grown
  rcases lexicalCell_cases asked with ⟨landing, -, ⟨-, rfl⟩ | ⟨-, -, rfl⟩⟩
  · exact .refl _
  · exact .of_extends grown Std.TreeMap.size_le_size_insert le_rfl

theorem syntaxCell {cell : SyntaxCell V} (arena : chart.Arena input)
    (asked : chart.syntaxCell input origin = .ok (cell, after)) : chart.Retains after := by
  obtain ⟨lexical, between, below, possible⟩ := syntaxCell_cases asked
  have kept := lexicalCell arena below
  rcases possible with ⟨-, rfl⟩ | ⟨missing, -, rfl⟩
  · exact kept
  · exact kept.trans
      (.of_extends (gains_insert_syntactic missing).grown le_rfl Std.TreeMap.size_le_size_insert)

theorem literal {cell : LexicalCell V} {text : String} {found : Option (Lexeme V)}
    (done : chart.literal cell text = (found, after)) : chart.Retains after := by
  obtain ⟨literals, leaves, rfl⟩ := literal_frame done
  exact .of_same rfl rfl

end Retains

/-- What every move preserves. -/
theorem Moves.retains (moves : Moves input chart after) (arena : chart.Arena input) :
    after.Arena input ∧ chart.Retains after := by
  cases moves with
  | lexicalCell asked => exact ⟨(lexicalCell_spec arena asked).1, .lexicalCell arena asked⟩
  | syntaxCell asked => exact ⟨(syntaxCell_spec arena asked).1, .syntaxCell arena asked⟩
  | literal here done =>
      have atPlace := (arena.lexical here).2
      subst atPlace
      exact ⟨(literal_spec arena here done).1, .literal done⟩
  | literalAt asked =>
      obtain ⟨cell, opened, below, done⟩ := literalAt_cases asked
      exact ⟨(literalAt_spec arena asked).1,
        (Retains.lexicalCell arena below).trans (.literal done)⟩
  | @enter offset symbol =>
      exact ⟨(store_arena arena offset symbol none).of_same rfl rfl rfl,
        (Retains.store chart offset symbol none).trans (.of_same rfl rfl)⟩
  | store => exact ⟨store_arena arena _ _ _, .store chart _ _ _⟩
  | made made_ =>
      obtain ⟨-, -, -, -, -, rfl⟩ := makeNode_eq_some made_
      exact ⟨arena.of_same rfl rfl rfl, .of_same rfl rfl⟩
  | report => exact ⟨arena.of_same rfl rfl rfl, .of_same rfl rfl⟩
  | value done =>
      cases done
      exact ⟨arena.of_same rfl rfl rfl, .of_same rfl rfl⟩

theorem moves_retain (moves : Relation.ReflTransGen (Moves input) chart after)
    (arena : chart.Arena input) : after.Arena input ∧ chart.Retains after := by
  induction moves with
  | refl => exact ⟨arena, .refl _⟩
  | tail _ move ih =>
      rcases ih with ⟨arenaBetween, early⟩
      obtain ⟨arenaAfter, late⟩ := move.retains arenaBetween
      exact ⟨arenaAfter, early.trans late⟩

end Chart

/-! ### Sessions consist of moves -/

section Consist

open Relation

theorem Evaluates.works {input : Input V} {task : Task V} {chart after : Chart V}
    {answer : Answer V} (evaluates : Evaluates input task chart answer after) :
    ReflTransGen (Chart.Works input) chart after := by
  induction evaluates with
  | known _ => exact .refl
  | lexical _ _ => exact .refl
  | barren _ _ _ ihSeeds => exact .head .enter ihSeeds
  | grown _ _ _ _ ihSeeds ihExtend =>
      exact (ReflTransGen.head .enter ihSeeds).trans (.head .store ihExtend)
  | seedsDone => exact .refl
  | seedsSkipped _ _ ihSeeds => exact ihSeeds
  | seedsFailed _ _ _ ihSequence ihSeeds => exact ihSequence.trans ihSeeds
  | seedsEmpty _ _ _ ihSequence ihSeeds => exact ihSequence.trans ihSeeds
  | seedsMatched _ _ made _ ihSequence ihSeeds =>
      exact ihSequence.trans (.head (.made made) ihSeeds)
  | passDone => exact .refl
  | passSkipped _ _ ihPass => exact ihPass
  | passFailed _ _ _ _ ihSequence ihPass => exact ihSequence.trans ihPass
  | passShorter _ _ _ made _ _ ihSequence ihPass =>
      exact ihSequence.trans (.head (.made made) ihPass)
  | passLonger _ _ _ made _ _ ihSequence ihPass =>
      exact ihSequence.trans (.head (.made made) (.head .extended (.head .store ihPass)))
  | extendDone _ _ ihPass => exact ihPass
  | extendMore _ _ _ ihPass ihExtend => exact ihPass.trans ihExtend
  | sequenceDone => exact .refl
  | sequenceStuck _ ihElement => exact ihElement
  | sequenceStep _ _ ihElement ihSequence => exact ihElement.trans ihSequence
  | literal asked => exact .single (.literalAt asked)
  | reference _ asked _ ihResolve => exact .head (.syntaxCell asked) ihResolve
  | repeated _ ihRounds => exact ihRounds
  | roundsFull _ => exact .refl
  | roundsStopped _ _ ihSequence => exact ihSequence
  | roundsIdle _ _ _ ihSequence => exact ihSequence
  | roundsOnward _ _ _ _ ihSequence ihRounds => exact ihSequence.trans ihRounds

theorem Evaluates.moves {input : Input V} {task : Task V} {chart after : Chart V}
    {answer : Answer V} (evaluates : Evaluates input task chart answer after) :
    ReflTransGen (Chart.Moves input) chart after :=
  ReflTransGen.mono (fun _ _ => Chart.Works.moves) _ _ evaluates.works

namespace Chart

variable {input : Input V} {places : Position → Prop} {chart after : Chart V}

theorem resolveAtStart_works {symbol : Symbol} {found : Option (Token V)}
    (wellFormed : input.grammar.WellFormed) (sound : chart.Sound input)
    (done : chart.resolveAtStart input symbol = (found, after)) :
    ReflTransGen (Works input) chart after := by
  obtain ⟨cell, opened, asked, resolved⟩ := resolveAtStart_eq done
  have grounded : (Task.resolve cell.lexical symbol).Grounded input opened := .reference sound asked
  exact .head (.syntaxCell asked)
    (resolve_evaluates wellFormed grounded.sound grounded.begins resolved).works

theorem resolveAtStart_moves {symbol : Symbol} {found : Option (Token V)}
    (wellFormed : input.grammar.WellFormed) (sound : chart.Sound input)
    (done : chart.resolveAtStart input symbol = (found, after)) :
    ReflTransGen (Moves input) chart after :=
  ReflTransGen.mono (fun _ _ => Works.moves) _ _ (resolveAtStart_works wellFormed sound done)

theorem parse_moves (wellFormed : input.grammar.WellFormed) :
    ReflTransGen (Moves input) {} (input.grammar.parse input.source).chart := by
  cases done : ({ log := [.parsing input.length input.grammar.root] } : Chart V).resolveAtStart
      input input.grammar.root with
  | mk found last =>
      rw [Grammar.parse_eq input done]
      obtain ⟨begun, -⟩ := (empty_sound : ({} : Chart V).Sound input).of_cells
        { log := [.parsing input.length input.grammar.root] } rfl rfl rfl rfl
      exact .head .report ((resolveAtStart_moves wellFormed begun done).tail .report)

theorem Reachable.moves (reachable : chart.Reachable input places)
    (wellFormed : input.grammar.WellFormed) : ReflTransGen (Moves input) {} chart := by
  induction reachable with
  | opened => exact .refl
  | parsed => exact parse_moves wellFormed
  | lexicalCell _ _ asked ih => exact ih.tail (.lexicalCell asked)
  | syntaxCell _ _ asked ih => exact ih.tail (.syntaxCell asked)
  | literal _ here done ih => exact ih.tail (.literal here done)
  | token before here done ih =>
      exact ih.trans (token_evaluates wellFormed (before.sound wellFormed) here done).moves
  | value _ done ih => exact ih.tail (.value done)

end Chart

end Consist

end Packrat
