import Packrat.Proofs.Evaluation.Once
import Packrat.Proofs.History.Moves
import Packrat.Proofs.Reading.Lexemes

/-!
Resolving symbols enters no value function (`Chart.Works.idle`). So none has been entered when a
text has just been parsed (`Grammar.parse_idle`).
-/

set_option autoImplicit false
set_option linter.unusedSectionVars false

namespace Packrat

variable {V : Type} [Kinded V]

theorem LexicalCell.scan_idle (grammar : Grammar V) (landing : Landing) :
    Event.allEntered (scan grammar landing).2 = [] := by
  apply List.filterMap_eq_nil_iff.2
  intro event member
  rcases List.mem_append.1 member with transformed | scanned
  · obtain ⟨⟨leaf, candidate⟩, -, isEvent⟩ := List.mem_flatMap.1 transformed
    change event ∈ transformEvents leaf candidate at isEvent
    unfold transformEvents at isEvent
    split at isEvent
    · rw [List.mem_singleton.1 isEvent]
      rfl
    · cases isEvent
  · rw [List.mem_singleton.1 scanned]
    rfl

namespace Chart

variable {input : Input V} {origin : Position} {chart after : Chart V}

theorem lexicalCell_idle {cell : LexicalCell V}
    (asked : chart.lexicalCell input origin = .ok (cell, after)) :
    Event.allEntered after.log = Event.allEntered chart.log := by
  rcases lexicalCell_cases asked with ⟨landing, -, ⟨-, rfl⟩ | ⟨-, -, rfl⟩⟩
  · rfl
  · rw [Event.allEntered_append, Event.allEntered, List.filterMap_reverse]
    change (Event.allEntered _).reverse ++ _ = _
    rw [LexicalCell.scan_idle]
    rfl

theorem literalAt_idle {text : String} {found : Option (Lexeme V)}
    (asked : chart.literalAt input origin text = .ok (found, after)) :
    Event.allEntered after.log = Event.allEntered chart.log := by
  obtain ⟨cell, opened, below, done⟩ := literalAt_cases asked
  have quiet := lexicalCell_idle below
  obtain ⟨literals, leaves, rfl⟩ := literal_frame done
  exact quiet

theorem syntaxCell_idle {cell : SyntaxCell V}
    (asked : chart.syntaxCell input origin = .ok (cell, after)) :
    Event.allEntered after.log = Event.allEntered chart.log := by
  obtain ⟨lexical, between, below, possible⟩ := syntaxCell_cases asked
  have quiet := lexicalCell_idle below
  rcases possible with ⟨-, rfl⟩ | ⟨-, -, rfl⟩
  · exact quiet
  · exact quiet

theorem makeNode_idle {symbol : Symbol} {index : Nat} {parts : List (Child V)} {node : Token V}
    (made : makeNode symbol index parts chart = (some node, after)) :
    Event.allEntered after.log = Event.allEntered chart.log := by
  obtain ⟨-, -, -, -, -, rfl⟩ := makeNode_eq_some made
  rfl

theorem Works.idle (works : Works input chart after) :
    Event.allEntered after.log = Event.allEntered chart.log := by
  cases works with
  | syntaxCell asked => exact syntaxCell_idle asked
  | literalAt asked => exact literalAt_idle asked
  | enter => rfl
  | store => rfl
  | made made_ => exact makeNode_idle made_
  | extended => rfl

theorem works_idle (works : Relation.ReflTransGen (Works input) chart after) :
    Event.allEntered after.log = Event.allEntered chart.log := by
  induction works with
  | refl => rfl
  | tail _ work ih => exact work.idle.trans ih

end Chart

theorem Parse.endEvent_entered? (chart : Chart V) (found : Option (Token V)) :
    (endEvent chart found).entered? = none := by
  cases found with
  | none => rfl
  | some root => rfl

theorem Grammar.parse_idle {engine : RegexEngine} {declarations : List (Declaration V)}
    {grammar : Grammar V} (built : Grammar.build engine declarations = .ok grammar)
    (source : List Char) : Event.allEntered (grammar.parse source).chart.log = [] := by
  let input := grammar.on source
  let begun : Chart V := { log := [.parsing input.length grammar.root] }
  obtain ⟨sound, -⟩ := (Chart.empty_sound : ({} : Chart V).Sound input).of_cells begun
    rfl rfl rfl rfl
  cases done : begun.resolveAtStart input grammar.root with
  | mk found after =>
      have works := Chart.resolveAtStart_works (Grammar.build_wellFormed built) sound done
      have quiet : Event.allEntered after.log = [] := Chart.works_idle works
      have parsed : grammar.parse source =
          ⟨input, after.report (Parse.endEvent after found), found⟩ := Grammar.parse_eq input done
      rw [parsed]
      change Event.allEntered (Parse.endEvent after found :: after.log) = []
      rw [Event.allEntered, List.filterMap_cons_none (Parse.endEvent_entered? after found)]
      exact quiet

end Packrat
