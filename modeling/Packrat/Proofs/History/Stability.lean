import Packrat.Proofs.History.Identity
import Packrat.Proofs.History.Orderly

/-!
Sessions do not change their minds. A call on a session keeps all cells and all entries that were
there before (`Chart.Keeps`), so a lookup that is made again, in the same cell or from any place
with nothing but blank text before it, finds the same token and changes nothing
(`Chart.Reachable.lookups_stable`). This goes for symbols and for literal texts. The token is the
same with its number, so it is the object that was found first and not another one like it
(`Chart.Reachable.same_iff`).
-/

set_option autoImplicit false
set_option linter.unusedSectionVars false

namespace Packrat

variable {V : Type} [Kinded V]

namespace Chart

/-- One call on a session, from any place. -/
inductive Serves (input : Input V) : Chart V → Chart V → Prop where
  | lexicalCell {chart after origin cell} :
      chart.lexicalCell input origin = .ok (cell, after) → Serves input chart after
  | syntaxCell {chart after origin cell} :
      chart.syntaxCell input origin = .ok (cell, after) → Serves input chart after
  | literal {chart after offset cell text found} :
      chart.lexicalAt? offset = some cell → chart.literal cell text = (found, after) →
      Serves input chart after
  | start {chart after symbol found} :
      chart.resolveAtStart input symbol = (found, after) → Serves input chart after
  | token {chart after offset cell symbol found} :
      chart.syntacticAt? offset = some cell → chart.token input cell symbol = (found, after) →
      Serves input chart after
  | value {chart after token found} :
      chart.value input token = (found, after) → Serves input chart after

structure Keeps (input : Input V) (before after : Chart V) : Prop where
  lexical : ∀ {offset cell}, before.lexicalAt? offset = some cell →
    after.lexicalAt? offset = some cell
  syntactic : ∀ {offset cell}, before.syntacticAt? offset = some cell →
    ∃ kept, after.syntacticAt? offset = some kept ∧ kept.lexical = cell.lexical
  literals : ∀ {offset text found}, before.literal? offset text = some found →
    after.literal? offset text = some found
  known : ∀ {offset symbol entry}, before.known? offset symbol = some entry →
    after.known? offset symbol = some entry
  unruled : ∀ {offset symbol}, input.grammar.rule? symbol = none →
    before.known? offset symbol = none → after.known? offset symbol = none

namespace Keeps

variable {input : Input V} {first second third : Chart V}

theorem refl (chart : Chart V) : chart.Keeps input chart :=
  ⟨fun found => found, fun found => ⟨_, found, rfl⟩, fun known => known, fun known => known,
    fun _ same => same⟩

theorem trans (early : first.Keeps input second) (late : second.Keeps input third) :
    first.Keeps input third := by
  refine ⟨fun found => late.lexical (early.lexical found), ?_,
    fun known => late.literals (early.literals known), fun known => late.known (early.known known),
    fun noRule unknown => late.unruled noRule (early.unruled noRule unknown)⟩
  intro offset cell found
  obtain ⟨between, foundBetween, sameFirst⟩ := early.syntactic found
  obtain ⟨last, foundLast, sameLast⟩ := late.syntactic foundBetween
  exact ⟨last, foundLast, sameLast.trans sameFirst⟩

theorem of_disciplined {history : List (Change V)} (grown : first.Extends second)
    (disciplined : Disciplined input first history second everyEntry) :
    first.Keeps input second := by
  refine ⟨grown.lexical, grown.syntactic, grown.literals, ?_, ?_⟩
  · intro offset symbol entry known
    exact ((disciplined.orderly offset symbol trivial).settled known).2
  · intro offset symbol noRule unknown
    generalize writes : writesAt offset symbol history = written
    have orderly := disciplined.orderly offset symbol trivial
    rw [writes] at orderly
    cases orderly with
    | untouched same => exact same.trans unknown
    | owned _ isRule _ _ _ _ =>
        rw [noRule] at isRule
        cases isRule

theorem holds {cell : LexicalCell V} (kept : first.Keeps input second) (held : first.Holds cell) :
    second.Holds cell := by
  rcases held with ⟨found, here, rfl⟩
  exact kept.syntactic here

end Keeps

section Calls

variable {input : Input V} {chart after : Chart V}

theorem resolve_keeps {cell : LexicalCell V} {symbol : Symbol} {found : Option (Token V)}
    (wellFormed : input.grammar.WellFormed)
    (grounded : (Task.resolve cell symbol).Grounded input chart)
    (done : resolve input cell symbol chart = (found, after)) :
    after.Sound input ∧ chart.Keeps input after ∧
      Settles input cell symbol chart (.token found) after := by
  have evaluates := resolve_evaluates wellFormed grounded.sound grounded.begins done
  obtain ⟨sound, grown⟩ := evaluates.extends wellFormed grounded
  obtain ⟨history, records⟩ := evaluates.exists_records wellFormed grounded 0
  obtain ⟨disciplined, settles⟩ := records.discipline wellFormed
  exact ⟨sound, .of_disciplined grown disciplined, settles⟩

theorem Serves.keeps (served : Serves input chart after) (wellFormed : input.grammar.WellFormed)
    (sound : chart.Sound input) : after.Sound input ∧ chart.Keeps input after := by
  cases served with
  | lexicalCell asked =>
      obtain ⟨arena, gained, -⟩ := lexicalCell_spec sound.arena asked
      exact ⟨sound.gains gained arena,
        .of_disciplined gained.grown (lexicalCell_disciplined asked)⟩
  | syntaxCell asked =>
      obtain ⟨arena, gained, -⟩ := syntaxCell_spec sound.arena asked
      exact ⟨sound.gains gained arena,
        .of_disciplined gained.grown (syntaxCell_disciplined asked)⟩
  | literal here done =>
      obtain ⟨soundAfter, gained, -⟩ := literal_sound sound here done
      exact ⟨soundAfter, .of_disciplined gained.grown (literal_disciplined done)⟩
  | start done =>
      obtain ⟨cell, opened, asked, resolved⟩ := resolveAtStart_eq done
      obtain ⟨-, gained, -⟩ := syntaxCell_spec sound.arena asked
      obtain ⟨soundAfter, kept, -⟩ :=
        resolve_keeps wellFormed (.reference sound asked) resolved
      exact ⟨soundAfter,
        (Keeps.of_disciplined gained.grown (syntaxCell_disciplined asked)).trans kept⟩
  | token here done =>
      obtain ⟨soundAfter, kept, -⟩ :=
        resolve_keeps wellFormed ⟨sound, sound.arena.holds here⟩ done
      exact ⟨soundAfter, kept⟩
  | value done =>
      obtain ⟨soundAfter, grown⟩ :=
        sound.of_cells after (by cases done; rfl) (by cases done; rfl) (by cases done; rfl)
          (by cases done; rfl)
      cases done
      exact ⟨soundAfter, .of_disciplined grown
        (.of_same (fun _ _ _ => rfl) (List.suffix_refl _))⟩

theorem serves_keeps (served : Relation.ReflTransGen (Serves input) chart after)
    (wellFormed : input.grammar.WellFormed) (sound : chart.Sound input) :
    after.Sound input ∧ chart.Keeps input after := by
  induction served with
  | refl => exact ⟨sound, .refl _⟩
  | tail _ call ih =>
      rcases ih with ⟨soundBetween, kept⟩
      obtain ⟨soundAfter, further⟩ := call.keeps wellFormed soundBetween
      exact ⟨soundAfter, kept.trans further⟩

theorem resolve_again {cell : LexicalCell V} {symbol : Symbol} {found : Option (Token V)}
    {later : Chart V} (wellFormed : input.grammar.WellFormed)
    (settles : Settles input cell symbol chart (.token found) after)
    (kept : after.Keeps input later)
    (grounded : (Task.resolve cell symbol).Grounded input later) :
    resolve input cell symbol later = (found, later) := by
  refine (Evaluates.token_iff
    (resolve_evaluates wellFormed grounded.sound grounded.begins rfl) found later).1 ?_
  rcases settles with ⟨entry, known, isEntry⟩ | ⟨unknown, noRule, rfl, isLeaf⟩
  · cases isEntry
    exact .known (kept.known known)
  · cases isLeaf
    exact .lexical (kept.unruled noRule unknown) noRule

theorem Keeps.cellFrom? {cell : LexicalCell V} {origin other : Position} {later : Chart V}
    (kept : after.Keeps input later) (leads : after.cellFrom? input origin.offset = some cell)
    (same : input.settle? other.offset = input.settle? origin.offset) :
    later.cellFrom? input other.offset = some cell := by
  obtain ⟨place, settled, here⟩ := Option.bind_eq_some_iff.1 leads
  exact Option.bind_eq_some_iff.2 ⟨place, same.trans settled, kept.lexical here⟩

theorem syntaxCell_again {cell : LexicalCell V} {origin other : Position} {later : Chart V}
    (leads : after.cellFrom? input origin.offset = some cell) (held : after.Holds cell)
    (kept : after.Keeps input later)
    (same : input.settle? other.offset = input.settle? origin.offset) :
    ∃ found, later.syntaxCell input other = .ok (found, later) ∧ found.lexical = cell := by
  obtain ⟨found, here, rfl⟩ := kept.holds held
  exact ⟨found, syntaxCell_of_cellFrom? (kept.cellFrom? leads same) here, rfl⟩

theorem lexicalCell_again {cell : LexicalCell V} {origin other : Position} {later : Chart V}
    (wellFormed : input.grammar.WellFormed) (sound : chart.Sound input)
    (asked : chart.lexicalCell input origin = .ok (cell, after))
    (served : Relation.ReflTransGen (Serves input) after later)
    (same : input.settle? other.offset = input.settle? origin.offset) :
    later.lexicalCell input other = .ok (cell, later) := by
  obtain ⟨arena, gained, leads⟩ := lexicalCell_spec sound.arena asked
  have keeps := (serves_keeps served wellFormed (sound.gains gained arena)).2
  exact lexicalCell_of_cellFrom? (keeps.cellFrom? leads same)

theorem literal_again {offset : Nat} {cell : LexicalCell V} {text : String}
    {found : Option (Lexeme V)} {later : Chart V} (wellFormed : input.grammar.WellFormed)
    (sound : chart.Sound input) (here : chart.lexicalAt? offset = some cell)
    (done : chart.literal cell text = (found, after))
    (served : Relation.ReflTransGen (Serves input) after later) :
    later.literal cell text = (found, later) := by
  obtain ⟨soundAfter, -, -, known⟩ := literal_sound sound here done
  exact literal_known ((serves_keeps served wellFormed soundAfter).2.literals known)

theorem literalAt_again {text : String} {found : Option (Lexeme V)} {origin other : Position}
    {later : Chart V} (wellFormed : input.grammar.WellFormed) (sound : chart.Sound input)
    (done : chart.literalAt input origin text = .ok (found, after))
    (served : Relation.ReflTransGen (Serves input) after later)
    (same : input.settle? other.offset = input.settle? origin.offset) :
    later.literalAt input other text = .ok (found, later) := by
  obtain ⟨arena, gained, cell, leads, -, known⟩ := literalAt_spec sound.arena done
  have keeps := (serves_keeps served wellFormed (sound.gains gained arena)).2
  unfold literalAt
  rw [lexicalCell_of_cellFrom? (keeps.cellFrom? leads same)]
  exact congrArg Except.ok (literal_known (keeps.literals known))

theorem tokenAt_again {origin other : Position} {symbol : Symbol} {found : Option (Token V)}
    {later : Chart V} (wellFormed : input.grammar.WellFormed) (sound : chart.Sound input)
    (done : chart.tokenAt input origin symbol = .ok (found, after))
    (served : Relation.ReflTransGen (Serves input) after later)
    (same : input.settle? other.offset = input.settle? origin.offset) :
    later.tokenAt input other symbol = .ok (found, later) := by
  unfold tokenAt at done
  cases asked : chart.syntaxCell input origin with
  | error refusal => simp [asked] at done
  | ok result =>
      rcases result with ⟨cell, opened⟩
      simp only [asked, Except.ok.injEq] at done
      obtain ⟨-, -, held, leads⟩ := syntaxCell_spec sound.arena asked
      obtain ⟨soundAfter, settled, settles⟩ :=
        resolve_keeps wellFormed (.reference sound asked) done
      obtain ⟨soundLater, kept⟩ := serves_keeps served wellFormed soundAfter
      obtain ⟨again, askedAgain, isCell⟩ :=
        syntaxCell_again leads held (settled.trans kept) same
      unfold tokenAt
      simp only [askedAgain, token, isCell]
      rw [resolve_again wellFormed settles kept ⟨soundLater, kept.holds (settled.holds held)⟩]

end Calls

variable {engine : RegexEngine} {declarations : List (Declaration V)} {input : Input V}
  {places : Position → Prop} {chart : Chart V}

/-- Whatever calls follow, no cell and no entry of a chart is changed; a lookup of a symbol, of the
leaves of a place or of a literal text there finds the same object again, or again nothing, and
changes nothing. While a symbol is looked up, every entry that changes is written by one activation
only, first without a token and then with nodes that end further and further. Two leaves of a chart
are the same object if and only if they are kept at the same place. -/
theorem Reachable.lookups_stable (built : Grammar.build engine declarations = .ok input.grammar)
    (reachable : chart.Reachable input places) :
    (∀ later, Relation.ReflTransGen (Serves input) chart later →
      (∀ offset cell, chart.lexicalAt? offset = some cell →
        later.lexicalAt? offset = some cell) ∧
      (∀ offset text found, chart.literal? offset text = some found →
        later.literal? offset text = some found) ∧
      ∀ offset cell, chart.syntacticAt? offset = some cell →
        ∃ kept, later.syntacticAt? offset = some kept ∧ kept.lexical = cell.lexical ∧
          ∀ symbol entry, cell.known? symbol = some entry → kept.known? symbol = some entry) ∧
    (∀ offset cell symbol found after, chart.syntacticAt? offset = some cell →
      chart.token input cell symbol = (found, after) →
      ∀ later, Relation.ReflTransGen (Serves input) after later →
      ∀ kept : SyntaxCell V, kept.lexical = cell.lexical →
        later.token input kept symbol = (found, later)) ∧
    (∀ origin symbol found after, chart.tokenAt input origin symbol = .ok (found, after) →
      ∀ later, Relation.ReflTransGen (Serves input) after later →
      ∀ other : Position, input.settle? other.offset = input.settle? origin.offset →
        later.tokenAt input other symbol = .ok (found, later)) ∧
    (∀ origin cell after, chart.lexicalCell input origin = .ok (cell, after) →
      ∀ later, Relation.ReflTransGen (Serves input) after later →
      ∀ other : Position, input.settle? other.offset = input.settle? origin.offset →
        later.lexicalCell input other = .ok (cell, later)) ∧
    (∀ offset cell text found after, chart.lexicalAt? offset = some cell →
      chart.literal cell text = (found, after) →
      ∀ later, Relation.ReflTransGen (Serves input) after later →
        later.literal cell text = (found, later)) ∧
    (∀ origin text found after, chart.literalAt input origin text = .ok (found, after) →
      ∀ later, Relation.ReflTransGen (Serves input) after later →
      ∀ other : Position, input.settle? other.offset = input.settle? origin.offset →
        later.literalAt input other text = .ok (found, later)) ∧
    (∀ offset cell symbol found after, chart.syntacticAt? offset = some cell →
      chart.token input cell symbol = (found, after) → ∀ owner,
        (∃ history, Records input owner (.resolve cell.lexical symbol) chart history
          (.token found) after) ∧
        ∀ history, Records input owner (.resolve cell.lexical symbol) chart history
            (.token found) after →
          ∀ place other, Orderly input chart after place other (writesAt place other history)) ∧
    ∀ home other lexeme lexeme', chart.lexemeAt? home = some lexeme →
      chart.lexemeAt? other = some lexeme' →
        ((Token.leaf lexeme).same (.leaf lexeme') = true ↔ home = other) := by
  have wellFormed := Grammar.build_wellFormed built
  have sound := reachable.sound wellFormed
  refine ⟨?_, ?_, ?_, ?_, ?_, ?_, ?_, ?_⟩
  · intro later served
    obtain ⟨-, keeps⟩ := serves_keeps served wellFormed sound
    refine ⟨fun offset cell => keeps.lexical, fun offset text found => keeps.literals, ?_⟩
    intro offset cell here
    obtain ⟨kept, there, same⟩ := keeps.syntactic here
    refine ⟨kept, there, same, ?_⟩
    intro symbol entry known
    have before : chart.known? offset symbol = some entry := by rw [known?, here]; exact known
    have after := keeps.known before
    rw [known?, there] at after
    exact after
  · intro offset cell symbol found after here done later served kept same
    have held := sound.arena.holds here
    obtain ⟨soundAfter, settled, settles⟩ := resolve_keeps wellFormed ⟨sound, held⟩ done
    obtain ⟨soundLater, keeps⟩ := serves_keeps served wellFormed soundAfter
    rw [Chart.token, same]
    exact resolve_again wellFormed settles keeps ⟨soundLater, keeps.holds (settled.holds held)⟩
  · intro origin symbol found after done later served other same
    exact tokenAt_again wellFormed sound done served same
  · intro origin cell after asked later served other same
    exact lexicalCell_again wellFormed sound asked served same
  · intro offset cell text found after here done later served
    exact literal_again wellFormed sound here done served
  · intro origin text found after done later served other same
    exact literalAt_again wellFormed sound done served same
  · intro offset cell symbol found after here done owner
    have grounded : (Task.resolve cell.lexical symbol).Grounded input chart :=
      ⟨sound, sound.arena.holds here⟩
    refine ⟨(token_evaluates wellFormed sound here done).exists_records wellFormed grounded owner,
      ?_⟩
    intro history records place other
    exact (records.discipline wellFormed).1.orderly place other trivial
  · intro home other lexeme lexeme'
    exact reachable.same_iff wellFormed

/-- The sum that has been found at the start of a text is found again at once. -/
theorem sums_found_again :
    ∃ root after, root.stop.offset = 4 ∧
      ({} : Chart Scalar).tokenAt Sums.input .start Sums.sumSymbol = .ok (some root, after) ∧
      after.tokenAt Sums.input .start Sums.sumSymbol = .ok (some root, after) := by
  have ends : (({} : Chart Scalar).tokenAt Sums.input .start Sums.sumSymbol).toOption.bind
      (fun result => result.1.map (·.stop.offset)) = some 4 := by
    decide +kernel
  obtain ⟨⟨found, after⟩, isOk, stops⟩ := Option.bind_eq_some_iff.1 ends
  obtain ⟨root, rfl, stop⟩ := Option.map_eq_some_iff.1 stops
  have done : ({} : Chart Scalar).tokenAt Sums.input .start Sums.sumSymbol =
      .ok (some root, after) := by
    cases found : ({} : Chart Scalar).tokenAt Sums.input .start Sums.sumSymbol with
    | error refusal => simp [found, Except.toOption] at isOk
    | ok result =>
        rw [found] at isOk
        cases isOk
        rfl
  exact ⟨root, after, stop, done,
    (Reachable.lookups_stable Sums.build_eq
      (.opened : ({} : Chart Scalar).Reachable Sums.input fun _ => True)).2.2.1
      _ _ _ _ done after .refl .start rfl⟩

end Chart

end Packrat
