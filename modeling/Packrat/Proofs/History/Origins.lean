import Packrat.Proofs.Chart.Reachable
import Packrat.Proofs.Derivation.Carried
import Packrat.Proofs.History.Basic

/-!
Where cells have been asked for. While symbols are resolved, cells are asked for at the places where
matches have ended, or at the place of a cell that is there already. So if a property of places is
carried on by matches, and all cells that are there have been asked for from such places, the same
holds of all cells afterwards (`Evaluates.stems`), and of all cells of a session in which all
requests come from such places (`Chart.Reachable.stems`).
-/

set_option autoImplicit false
set_option linter.unusedSectionVars false

namespace Packrat

variable {V : Type} [Kinded V]

/-- Whether a request from a place finds a cell that is there, or comes from a place with a
property. -/
def Chart.Covers (chart : Chart V) (input : Input V) (holds : Position → Prop)
    (cursor : Position) : Prop :=
  holds cursor ∨ ∃ cell, chart.cellFrom? input cursor.offset = some cell

def Task.Covered (input : Input V) (chart : Chart V) (holds : Position → Prop) : Task V → Prop
  | .resolve _ _ => True
  | .seeds _ _ _ _ => True
  | .pass _ _ _ _ => True
  | .extend _ _ _ _ => True
  | .sequence elements cursor => input.grammar.Uses elements ∧ chart.Covers input holds cursor
  | .element single cursor => input.grammar.Uses [single] ∧ chart.Covers input holds cursor
  | .rounds elements _ _ _ cursor =>
    input.grammar.Uses elements ∧ chart.Covers input holds cursor

namespace Chart

variable {input : Input V} {chart after : Chart V} {holds : Position → Prop}
  {cursor next : Position}

theorem Covers.mono (covers : chart.Covers input holds cursor) (grown : chart.Extends after) :
    after.Covers input holds cursor := by
  cases covers with
  | inl carried => exact .inl carried
  | inr found =>
      obtain ⟨cell, leads⟩ := found
      exact .inr ⟨cell, cellFrom?_mono grown leads⟩

theorem Covers.trans (covers : chart.Covers input holds cursor)
    (carried : next = cursor ∨ holds next) : chart.Covers input holds next := by
  cases carried with
  | inl same =>
      subst same
      exact covers
  | inr carries => exact .inl carries

theorem Holds.covers {cell : LexicalCell V} (held : chart.Holds cell) (arena : chart.Arena input) :
    chart.Covers input holds cell.position :=
  .inr ⟨cell, held.cellFrom? arena⟩

theorem Stems.of_lexical (stems : chart.Stems holds) (same : after.lexical = chart.lexical) :
    after.Stems holds := by
  intro offset cell here
  rw [lexicalAt?, same] at here
  exact stems here

/-! ### Requests -/

theorem Stems.lexicalCell {cell : LexicalCell V} (stems : chart.Stems holds)
    (covers : chart.Covers input holds cursor)
    (asked : chart.lexicalCell input cursor = .ok (cell, after)) : after.Stems holds := by
  intro offset found here
  rcases lexicalCell_cases asked with ⟨landing, landed, ⟨-, rfl⟩ | ⟨missing, isCell, rfl⟩⟩
  · exact stems here
  · rw [lexicalAt?_insert] at here
    split at here
    · cases here
      have from_ : cell.origin = cursor := by
        rw [isCell]
        exact Input.land_origin landed
      rw [from_]
      cases covers with
      | inl carried => exact carried
      | inr found =>
          obtain ⟨other, leads⟩ := found
          rw [cellFrom?, Input.land_settle? landed, Option.bind_some, missing] at leads
          cases leads
    · exact stems here

theorem Stems.literal {cell : LexicalCell V} {text : String} {found : Option (Lexeme V)}
    (stems : chart.Stems holds) (done : chart.literal cell text = (found, after)) :
    after.Stems holds := by
  obtain ⟨literals, leaves, rfl⟩ := literal_frame done
  exact stems.of_lexical rfl

theorem Stems.literalAt {text : String} {found : Option (Lexeme V)} (stems : chart.Stems holds)
    (covers : chart.Covers input holds cursor)
    (asked : chart.literalAt input cursor text = .ok (found, after)) : after.Stems holds := by
  obtain ⟨cell, opened, below, done⟩ := literalAt_cases asked
  exact (stems.lexicalCell covers below).literal done

theorem Stems.syntaxCell {cell : SyntaxCell V} (stems : chart.Stems holds)
    (covers : chart.Covers input holds cursor)
    (asked : chart.syntaxCell input cursor = .ok (cell, after)) : after.Stems holds := by
  obtain ⟨lexical, between, below, possible⟩ := syntaxCell_cases asked
  apply (stems.lexicalCell covers below).of_lexical
  rcases possible with ⟨-, rfl⟩ | ⟨-, -, rfl⟩
  · rfl
  · rfl

theorem Stems.made {symbol : Symbol} {index : Nat} {parts : List (Child V)} {node : Token V}
    (stems : chart.Stems holds)
    (nodeMade : makeNode symbol index parts chart = (some node, after)) : after.Stems holds := by
  obtain ⟨-, -, -, -, -, rfl⟩ := makeNode_eq_some nodeMade
  exact stems.of_lexical rfl

end Chart

/-! ### Evaluations -/

theorem Task.Grounded.behind_covered {input : Input V} {chart : Chart V}
    {holds : Position → Prop} {cell : LexicalCell V} {symbol : Symbol}
    {alternative : Alternative V} {index : Nat} {rest : List (Alternative V × Nat)}
    {best : Token V} {head : Element} {tail : List Element}
    (grounded :
      (Task.pass cell symbol ((alternative, index) :: rest) best).Grounded input chart)
    (carries : input.Carries holds) (starts : alternative.elements = head :: tail)
    (stems : chart.Stems holds) : (Task.sequence tail best.stop).Covered input chart holds := by
  rcases grounded.begins with ⟨held, listed, isBest⟩
  have uses := Grammar.uses_of_alternative? (listed _ (List.mem_cons_self ..))
  rw [starts] at uses
  exact ⟨uses.tail, .inl (isBest.carried grounded.sound.arena carries stems
    (held.lexicalAt? grounded.sound.arena))⟩

theorem Evaluates.stems {input : Input V} {holds : Position → Prop} {task : Task V}
    {chart after : Chart V} {answer : Answer V}
    (evaluates : Evaluates input task chart answer after) (wellFormed : input.grammar.WellFormed)
    (carries : input.Carries holds) :
    task.Grounded input chart → task.Covered input chart holds → chart.Stems holds →
      after.Stems holds := by
  have onward {elements : List Element} {cursor next : Position} {parts : List (Child V)}
      {chart : Chart V} (derived : Derives input chart (.run elements cursor parts next))
      (sound : chart.Sound input) (uses : input.grammar.Uses elements)
      (stems : chart.Stems holds) : next = cursor ∨ holds next :=
    have carried : (next = cursor ∨ holds next) ∧ _ :=
      derived.carried sound.arena carries stems uses
    carried.1
  induction evaluates with
  | known _ => exact fun _ _ stems => stems
  | lexical _ _ => exact fun _ _ stems => stems
  | barren unknown isRule _ ihSeeds =>
      intro grounded _ stems
      exact ihSeeds (grounded.enter unknown isRule) trivial (stems.of_lexical rfl)
  | grown unknown isRule seeds _ ihSeeds ihExtend =>
      intro grounded _ stems
      have between := ihSeeds (grounded.enter unknown isRule) trivial (stems.of_lexical rfl)
      exact ihExtend (grounded.store wellFormed unknown isRule seeds) trivial
        (between.of_lexical rfl)
  | seedsDone => exact fun _ _ stems => stems
  | seedsSkipped _ _ ihSeeds =>
      intro grounded _ stems
      exact ihSeeds (grounded.seedsTail grounded.sound (.refl _)) trivial stems
  | seedsFailed _ tried _ ihSequence ihSeeds =>
      intro grounded _ stems
      obtain ⟨sound, grown⟩ := tried.extends wellFormed grounded.seed
      have uses := Grammar.uses_of_alternative? (grounded.begins.2.1 _ (List.mem_cons_self ..))
      exact ihSeeds (grounded.seedsTail sound grown) trivial (ihSequence grounded.seed
        ⟨uses, grounded.begins.1.covers grounded.sound.arena⟩ stems)
  | seedsEmpty _ tried _ ihSequence ihSeeds =>
      intro grounded _ stems
      obtain ⟨sound, grown⟩ := tried.extends wellFormed grounded.seed
      have uses := Grammar.uses_of_alternative? (grounded.begins.2.1 _ (List.mem_cons_self ..))
      exact ihSeeds (grounded.seedsTail sound grown) trivial (ihSequence grounded.seed
        ⟨uses, grounded.begins.1.covers grounded.sound.arena⟩ stems)
  | seedsMatched plain tried made _ ihSequence ihSeeds =>
      intro grounded _ stems
      have uses := Grammar.uses_of_alternative? (grounded.begins.2.1 _ (List.mem_cons_self ..))
      have between := ihSequence grounded.seed
        ⟨uses, grounded.begins.1.covers grounded.sound.arena⟩ stems
      exact ihSeeds (grounded.seedsMade wellFormed plain tried made) trivial (between.made made)
  | passDone => exact fun _ _ stems => stems
  | passSkipped _ _ ihPass =>
      intro grounded _ stems
      exact ihPass (grounded.passTail grounded.sound (.refl _)) trivial stems
  | passFailed recursive starts tried _ ihSequence ihPass =>
      intro grounded _ stems
      obtain ⟨sound, grown⟩ := tried.extends wellFormed grounded.behind
      exact ihPass (grounded.passTail sound grown) trivial
        (ihSequence grounded.behind (grounded.behind_covered carries starts stems) stems)
  | passShorter recursive starts tried made _ _ ihSequence ihPass =>
      intro grounded _ stems
      have between :=
        ihSequence grounded.behind (grounded.behind_covered carries starts stems) stems
      exact ihPass (grounded.passShorter wellFormed tried made) trivial (between.made made)
  | passLonger recursive starts tried made longer _ ihSequence ihPass =>
      intro grounded _ stems
      have between :=
        ihSequence grounded.behind (grounded.behind_covered carries starts stems) stems
      exact ihPass (grounded.passLonger wellFormed recursive starts tried made longer).2 trivial
        ((between.made made).of_lexical rfl)
  | extendDone _ _ ihPass =>
      intro grounded _ stems
      exact ihPass ⟨grounded.sound, grounded.begins⟩ trivial stems
  | extendMore passed _ _ ihPass ihExtend =>
      intro grounded _ stems
      exact ihExtend (grounded.extendMore wellFormed passed) trivial
        (ihPass ⟨grounded.sound, grounded.begins⟩ trivial stems)
  | sequenceDone => exact fun _ _ stems => stems
  | sequenceStuck _ ihElement =>
      intro grounded covered stems
      exact ihElement ⟨grounded.sound, grounded.begins⟩ ⟨covered.1.head, covered.2⟩ stems
  | sequenceStep first _ ihElement ihSequence =>
      intro grounded covered stems
      obtain ⟨uses, covers⟩ := covered
      obtain ⟨sound, grown, derived⟩ := first.sound wellFormed grounded.sound grounded.begins
      have between := ihElement ⟨grounded.sound, grounded.begins⟩ ⟨uses.head, covers⟩ stems
      have carried := onward (derived _ _ rfl) sound uses.head between
      exact ihSequence (grounded.sequenceTail wellFormed first)
        ⟨uses.tail, (covers.mono grown).trans carried⟩ between
  | literal asked =>
      intro _ covered stems
      exact stems.literalAt covered.2 asked
  | reference _ asked _ ihResolve =>
      intro grounded covered stems
      exact ihResolve (.reference grounded.sound asked) trivial (stems.syntaxCell covered.2 asked)
  | repeated _ ihRounds =>
      intro grounded covered stems
      exact ihRounds ⟨grounded.sound, grounded.begins⟩ ⟨covered.1.repeated, covered.2⟩ stems
  | roundsFull _ => exact fun _ _ stems => stems
  | roundsStopped _ _ ihSequence =>
      intro grounded covered stems
      exact ihSequence ⟨grounded.sound, grounded.begins⟩ covered stems
  | roundsIdle _ _ _ ihSequence =>
      intro grounded covered stems
      exact ihSequence ⟨grounded.sound, grounded.begins⟩ covered stems
  | roundsOnward _ first _ _ ihSequence ihRounds =>
      intro grounded covered stems
      obtain ⟨uses, covers⟩ := covered
      obtain ⟨sound, grown, derived⟩ := first.sound wellFormed grounded.sound grounded.begins
      have between := ihSequence ⟨grounded.sound, grounded.begins⟩ ⟨uses, covers⟩ stems
      have carried := onward (derived _ _ rfl) sound uses between
      exact ihRounds (grounded.roundsTail wellFormed first)
        ⟨uses, (covers.mono grown).trans carried⟩ between

/-! ### Sessions -/

namespace Chart

variable {input : Input V} {chart after : Chart V} {holds : Position → Prop}

theorem Stems.token {offset : Nat} {cell : SyntaxCell V} {symbol : Symbol}
    {found : Option (Token V)} (stems : chart.Stems holds) (wellFormed : input.grammar.WellFormed)
    (carries : input.Carries holds) (sound : chart.Sound input)
    (here : chart.syntacticAt? offset = some cell)
    (done : chart.token input cell symbol = (found, after)) : after.Stems holds :=
  (token_evaluates wellFormed sound here done).stems wellFormed carries
    ⟨sound, sound.arena.holds here⟩ trivial stems

theorem parse_stems (wellFormed : input.grammar.WellFormed) (carries : input.Carries holds) :
    (input.grammar.parse input.source).chart.Stems holds := by
  cases done : ({ log := [.parsing input.length input.grammar.root] } : Chart V).resolveAtStart
      input input.grammar.root with
  | mk found last =>
      rw [Grammar.parse_eq input done]
      obtain ⟨cell, opened, asked, resolved⟩ := resolveAtStart_eq done
      obtain ⟨begun, -⟩ := (empty_sound : ({} : Chart V).Sound input).of_cells
        { log := [.parsing input.length input.grammar.root] } rfl rfl rfl rfl
      have none_ : ({ log := [.parsing input.length input.grammar.root] } : Chart V).Stems
          holds := by
        intro offset other here
        simp [lexicalAt?] at here
      have grounded : (Task.resolve cell.lexical input.grammar.root).Grounded input opened :=
        .reference begun asked
      have evaluates := resolve_evaluates wellFormed grounded.sound grounded.begins resolved
      have stems := evaluates.stems wellFormed carries grounded trivial
        (none_.syntaxCell (.inl carries.start) asked)
      exact stems.of_lexical rfl

/-- Where all requests come from places with a property that matches carry on, all cells have been
asked for from such places. -/
theorem Reachable.stems (reachable : chart.Reachable input holds)
    (wellFormed : input.grammar.WellFormed) (carries : input.Carries holds) :
    chart.Stems holds := by
  induction reachable with
  | opened =>
      intro offset cell here
      simp [lexicalAt?] at here
  | parsed => exact parse_stems wellFormed carries
  | lexicalCell _ from_ asked ih => exact ih.lexicalCell (.inl from_) asked
  | syntaxCell _ from_ asked ih => exact ih.syntaxCell (.inl from_) asked
  | literal _ _ done ih => exact ih.literal done
  | token before here done ih =>
      exact ih.token wellFormed carries (before.sound wellFormed) here done
  | value _ done ih =>
      cases done
      exact ih.of_lexical rfl

end Chart

end Packrat
