import Packrat.Proofs.History.Basic

/-!
Who writes an entry. During an evaluation an entry is either left alone, or nothing was known about
it and one activation of its rule writes all there is to write: first that the rule does not match,
and then nodes that end further and further, the last of which stays (`Orderly`). So what is known
before an evaluation is known unchanged afterwards.

The loops over extensions are parts of the activation that they belong to. They find its entry
filled with the best node so far and go on writing it (`Advances`); everything else they do is
orderly as well.
-/

set_option autoImplicit false
set_option linter.unusedSectionVars false

namespace Packrat

variable {V : Type} [Kinded V]

/-- What has been written into one entry, and by whom. -/
def writesAt (offset : Nat) (symbol : Symbol) (history : List (Change V)) :
    List (Nat × Option (Token V)) :=
  history.filterMap fun
    | .made _ => none
    | .wrote owner place other entry =>
      if place = offset ∧ other = symbol then some (owner, entry) else none

section Writes

variable {offset : Nat} {symbol : Symbol} {history more : List (Change V)}

@[simp] theorem writesAt_nil : writesAt offset symbol ([] : List (Change V)) = [] :=
  rfl

@[simp] theorem writesAt_append :
    writesAt offset symbol (history ++ more) =
      writesAt offset symbol history ++ writesAt offset symbol more :=
  List.filterMap_append

@[simp] theorem writesAt_made {node : Token V} :
    writesAt offset symbol (.made node :: history) = writesAt offset symbol history :=
  rfl

@[simp] theorem writesAt_wrote_self {owner : Nat} {entry : Option (Token V)} :
    writesAt offset symbol (.wrote owner offset symbol entry :: history) =
      (owner, entry) :: writesAt offset symbol history := by
  simp [writesAt]

theorem writesAt_wrote_other {owner place : Nat} {other : Symbol} {entry : Option (Token V)}
    (apart : ¬(place = offset ∧ other = symbol)) :
    writesAt offset symbol (.wrote owner place other entry :: history) =
      writesAt offset symbol history := by
  simp [writesAt, apart]

end Writes

def Lengthens (nodes : List (Token V)) : Prop :=
  nodes.Pairwise fun shorter longer => shorter.stop.offset < longer.stop.offset

/-- One entry between two charts, with all that is written into it meanwhile. -/
inductive Orderly (input : Input V) (before after : Chart V) (offset : Nat) (symbol : Symbol) :
    List (Nat × Option (Token V)) → Prop where
  | untouched :
      after.known? offset symbol = before.known? offset symbol →
      Orderly input before after offset symbol []
  | owned {owner nodes} :
      before.known? offset symbol = none →
      (input.grammar.rule? symbol).isSome →
      before.entered.length ≤ owner →
      after.entered.reverse[owner]? = some (symbol, offset) →
      Lengthens nodes →
      after.known? offset symbol = some nodes.getLast? →
      Orderly input before after offset symbol
        ((owner, none) :: nodes.map fun node => (owner, some node))

namespace Orderly

variable {input : Input V} {first second third : Chart V} {offset : Nat} {symbol : Symbol}
  {writes more : List (Nat × Option (Token V))}

theorem settled {entry : Option (Token V)}
    (orderly : Orderly input first second offset symbol writes)
    (known : first.known? offset symbol = some entry) :
    writes = [] ∧ second.known? offset symbol = some entry := by
  cases orderly with
  | untouched same => exact ⟨rfl, same.trans known⟩
  | owned unknown _ _ _ _ _ => cases unknown.symm.trans known

theorem getElem?_of_suffix {shorter longer : List (Symbol × Nat)} {index : Nat}
    {entry : Symbol × Nat} (suffix : shorter <:+ longer)
    (found : shorter.reverse[index]? = some entry) : longer.reverse[index]? = some entry := by
  obtain ⟨new, rfl⟩ := suffix
  obtain ⟨inside, -⟩ := List.getElem?_eq_some_iff.1 found
  rw [List.reverse_append, List.getElem?_append_left inside]
  exact found

theorem trans (early : Orderly input first second offset symbol writes)
    (late : Orderly input second third offset symbol more)
    (earlyEntered : first.entered <:+ second.entered)
    (lateEntered : second.entered <:+ third.entered) :
    Orderly input first third offset symbol (writes ++ more) := by
  cases early with
  | untouched same =>
      cases late with
      | untouched same' => exact .untouched (same'.trans same)
      | owned unknown isRule isNew entered lengthens last =>
          exact .owned (same.symm.trans unknown) isRule
            (Nat.le_trans earlyEntered.length_le isNew) entered lengthens last
  | owned unknown isRule isNew entered lengthens last =>
      obtain ⟨rfl, kept⟩ := late.settled last
      rw [List.append_nil]
      exact .owned unknown isRule isNew (getElem?_of_suffix lateEntered entered) lengthens kept

end Orderly

structure Disciplined (input : Input V) (before : Chart V) (history : List (Change V))
    (after : Chart V) (counts : Nat → Symbol → Prop) : Prop where
  entered : before.entered <:+ after.entered
  orderly : ∀ offset symbol, counts offset symbol →
    Orderly input before after offset symbol (writesAt offset symbol history)

def everyEntry (_ : Nat) (_ : Symbol) : Prop :=
  True

def otherThan (offset : Nat) (symbol : Symbol) (place : Nat) (other : Symbol) : Prop :=
  ¬(offset = place ∧ symbol = other)

namespace Disciplined

variable {input : Input V} {first second third : Chart V} {history more : List (Change V)}
  {counts : Nat → Symbol → Prop}

theorem of_same (known : ∀ offset symbol, counts offset symbol →
      second.known? offset symbol = first.known? offset symbol)
    (entered : first.entered <:+ second.entered) :
    Disciplined input first [] second counts :=
  ⟨entered, fun offset symbol counted => .untouched (known offset symbol counted)⟩

theorem refl (chart : Chart V) : Disciplined input chart [] chart counts :=
  .of_same (fun _ _ _ => rfl) (List.suffix_refl _)

theorem trans (early : Disciplined input first history second counts)
    (late : Disciplined input second more third counts) :
    Disciplined input first (history ++ more) third counts := by
  refine ⟨early.entered.trans late.entered, ?_⟩
  intro offset symbol counted
  rw [writesAt_append]
  exact (early.orderly offset symbol counted).trans (late.orderly offset symbol counted)
    early.entered late.entered

theorem weaken (disciplined : Disciplined input first history second everyEntry) :
    Disciplined input first history second counts :=
  ⟨disciplined.entered, fun offset symbol _ => disciplined.orderly offset symbol trivial⟩

theorem made {node : Token V} (disciplined : Disciplined input first history second counts) :
    Disciplined input first (.made node :: history) second counts :=
  ⟨disciplined.entered, disciplined.orderly⟩

theorem wrote {offset : Nat} {symbol : Symbol}
    (disciplined : Disciplined input first history second (otherThan offset symbol)) (owner : Nat)
    (entry : Option (Token V)) :
    Disciplined input first (.wrote owner offset symbol entry :: history) second
      (otherThan offset symbol) := by
  refine ⟨disciplined.entered, ?_⟩
  intro place other apart
  rw [writesAt_wrote_other apart]
  exact disciplined.orderly place other apart

end Disciplined

/-! ### Single steps -/

namespace Chart

variable {input : Input V} {chart after : Chart V} {origin : Position}
  {counts : Nat → Symbol → Prop}

theorem lexicalCell_disciplined {cell : LexicalCell V}
    (asked : chart.lexicalCell input origin = .ok (cell, after)) :
    Disciplined input chart [] after counts := by
  rcases lexicalCell_cases asked with ⟨landing, -, ⟨-, rfl⟩ | ⟨-, -, rfl⟩⟩
  · exact .refl _
  · exact .of_same (fun _ _ _ => rfl) (List.suffix_refl _)

theorem literal_disciplined {cell : LexicalCell V} {text : String} {found : Option (Lexeme V)}
    (done : chart.literal cell text = (found, after)) :
    Disciplined input chart [] after counts := by
  obtain ⟨literals, leaves, rfl⟩ := literal_frame done
  exact .of_same (fun _ _ _ => rfl) (List.suffix_refl _)

theorem literalAt_disciplined {text : String} {found : Option (Lexeme V)}
    (asked : chart.literalAt input origin text = .ok (found, after)) :
    Disciplined input chart [] after counts := by
  obtain ⟨cell, opened, below, done⟩ := literalAt_cases asked
  exact (lexicalCell_disciplined below).trans (literal_disciplined done)

theorem syntaxCell_disciplined {cell : SyntaxCell V}
    (asked : chart.syntaxCell input origin = .ok (cell, after)) :
    Disciplined input chart [] after counts := by
  rcases syntaxCell_cases asked with ⟨lexical, between, below, ⟨-, rfl⟩ | ⟨missing, -, rfl⟩⟩
  · exact lexicalCell_disciplined below
  · exact (lexicalCell_disciplined below).trans (.of_same
      (fun offset symbol _ => known?_insert missing offset symbol) (List.suffix_refl _))

theorem makeNode_disciplined {symbol : Symbol} {index : Nat} {parts : List (Child V)}
    {node : Token V} (nodeMade : makeNode symbol index parts chart = (some node, after)) :
    Disciplined input chart [] after counts := by
  obtain ⟨-, -, -, -, -, rfl⟩ := makeNode_eq_some nodeMade
  exact .of_same (fun _ _ _ => rfl) (List.suffix_refl _)

theorem enter_reverse_getElem? (chart : Chart V) (offset : Nat) (symbol : Symbol) :
    (chart.enter offset symbol).entered.reverse[chart.entered.length]? = some (symbol, offset) := by
  change ((symbol, offset) :: chart.entered).reverse[chart.entered.length]? = _
  simp

theorem Holds.enter_disciplined {cell : LexicalCell V} (held : chart.Holds cell)
    (symbol : Symbol) :
    Disciplined input chart [] (chart.enter cell.position.offset symbol)
      (otherThan cell.position.offset symbol) := by
  refine .of_same ?_ (List.suffix_cons _ _)
  intro offset other apart
  rw [held.known?_enter, if_neg apart]

theorem Holds.store_disciplined {cell : LexicalCell V} (held : chart.Holds cell)
    (symbol : Symbol) (entry : Option (Token V)) :
    Disciplined input chart [] (chart.store cell.position.offset symbol entry)
      (otherThan cell.position.offset symbol) := by
  refine .of_same ?_ (List.suffix_refl _)
  intro offset other apart
  rw [held.known?_store, if_neg apart]

end Chart

/-! ### Whole evaluations -/

def Advances (owner : Nat) (cell : LexicalCell V) (symbol : Symbol) (best : Token V)
    (history : List (Change V)) (answer : Answer V) (after : Chart V) : Prop :=
  ∃ nodes, writesAt cell.position.offset symbol history =
      nodes.map (fun node => (owner, some node)) ∧
    Lengthens (best :: nodes) ∧
    after.known? cell.position.offset symbol = some (best :: nodes).getLast? ∧
    answer = .token (best :: nodes).getLast?

/-- What is found for a symbol is known afterwards, unless the symbol is looked up among the
leaves. -/
def Settles (input : Input V) (cell : LexicalCell V) (symbol : Symbol) (chart : Chart V)
    (answer : Answer V) (after : Chart V) : Prop :=
  (∃ found, after.known? cell.position.offset symbol = some found ∧ answer = .token found) ∨
    chart.known? cell.position.offset symbol = none ∧ input.grammar.rule? symbol = none ∧
      after = chart ∧ answer = .token ((cell.lexeme? symbol).map .leaf)

def Task.Discipline (input : Input V) (owner : Nat) (chart : Chart V) (history : List (Change V))
    (answer : Answer V) (after : Chart V) : Task V → Prop
  | .resolve cell symbol =>
    Disciplined input chart history after everyEntry ∧
      Settles input cell symbol chart answer after
  | .pass cell symbol _ best =>
    chart.known? cell.position.offset symbol = some (some best) →
      Disciplined input chart history after (otherThan cell.position.offset symbol) ∧
        Advances owner cell symbol best history answer after
  | .extend cell symbol _ best =>
    chart.known? cell.position.offset symbol = some (some best) →
      Disciplined input chart history after (otherThan cell.position.offset symbol) ∧
        Advances owner cell symbol best history answer after
  | _ => Disciplined input chart history after everyEntry

section Steps

variable {input : Input V} {owner : Nat} {cell : LexicalCell V} {symbol : Symbol}
  {chart between after : Chart V} {history more : List (Change V)} {best : Token V}

theorem Disciplined.barren (held : chart.Holds cell)
    (unknown : chart.known? cell.position.offset symbol = none)
    (isRule : (input.grammar.rule? symbol).isSome)
    (seeds : Disciplined input (chart.enter cell.position.offset symbol) history after
      everyEntry) :
    Disciplined input chart
        (.wrote chart.entered.length cell.position.offset symbol none :: history) after
        everyEntry ∧
      after.known? cell.position.offset symbol = some none := by
  have entered : (chart.enter cell.position.offset symbol).known? cell.position.offset symbol =
      some none := by
    rw [held.known?_enter, if_pos ⟨rfl, rfl⟩]
  obtain ⟨silent, kept⟩ := (seeds.orderly _ _ trivial).settled entered
  have others := ((held.enter_disciplined symbol).trans seeds.weaken).wrote
    chart.entered.length none
  refine ⟨⟨others.entered, ?_⟩, kept⟩
  intro offset other _
  by_cases own : cell.position.offset = offset ∧ symbol = other
  · rcases own with ⟨rfl, rfl⟩
    rw [writesAt_wrote_self, silent]
    exact .owned unknown isRule (Nat.le_refl _)
      (Orderly.getElem?_of_suffix seeds.entered (chart.enter_reverse_getElem? _ _))
      List.Pairwise.nil kept
  · exact others.orderly offset other own

theorem Disciplined.grown {first : Token V} {answer : Answer V} (held : chart.Holds cell)
    (heldBetween : between.Holds cell)
    (unknown : chart.known? cell.position.offset symbol = none)
    (isRule : (input.grammar.rule? symbol).isSome)
    (seeds : Disciplined input (chart.enter cell.position.offset symbol) history between
      everyEntry)
    (extend : Disciplined input (between.store cell.position.offset symbol (some first)) more
      after (otherThan cell.position.offset symbol))
    (advances : Advances chart.entered.length cell symbol first more answer after) :
    Disciplined input chart
        (.wrote chart.entered.length cell.position.offset symbol none :: history ++
          .wrote chart.entered.length cell.position.offset symbol (some first) :: more) after
        everyEntry ∧
      ∃ found, after.known? cell.position.offset symbol = some found ∧ answer = .token found := by
  obtain ⟨seeded, nothing⟩ := Disciplined.barren held unknown isRule seeds
  obtain ⟨nodes, written, lengthens, last, isLast⟩ := advances
  have others := seeded.weaken.trans
    ((heldBetween.store_disciplined symbol (some first)).trans extend |>.wrote
      chart.entered.length (some first))
  refine ⟨⟨others.entered, ?_⟩, _, last, isLast⟩
  intro offset other _
  by_cases own : cell.position.offset = offset ∧ symbol = other
  · rcases own with ⟨rfl, rfl⟩
    have entered : (chart.enter cell.position.offset symbol).known? cell.position.offset symbol =
        some none := by
      rw [held.known?_enter, if_pos ⟨rfl, rfl⟩]
    obtain ⟨silent, -⟩ := (seeds.orderly _ _ trivial).settled entered
    rw [writesAt_append, writesAt_wrote_self, writesAt_wrote_self, silent, written]
    have owned := Orderly.owned unknown isRule (Nat.le_refl _)
      (Orderly.getElem?_of_suffix (seeds.entered.trans extend.entered)
        (chart.enter_reverse_getElem? _ _)) lengthens last
    exact owned
  · exact others.orderly offset other own

theorem Advances.after_silent {answer : Answer V}
    (early : Disciplined input chart history between everyEntry)
    (known : chart.known? cell.position.offset symbol = some (some best))
    (advances : between.known? cell.position.offset symbol = some (some best) →
      Disciplined input between more after (otherThan cell.position.offset symbol) ∧
        Advances owner cell symbol best more answer after) :
    Disciplined input chart (history ++ more) after (otherThan cell.position.offset symbol) ∧
      Advances owner cell symbol best (history ++ more) answer after := by
  obtain ⟨silent, kept⟩ := (early.orderly _ _ trivial).settled known
  obtain ⟨late, nodes, written, lengthens, last, isLast⟩ := advances kept
  refine ⟨early.weaken.trans late, nodes, ?_, lengthens, last, isLast⟩
  rw [writesAt_append, silent, List.nil_append, written]

theorem Lengthens.cons_of_lt {node : Token V} {nodes : List (Token V)}
    (longer : best.stop.offset < node.stop.offset) (lengthens : Lengthens (node :: nodes)) :
    Lengthens (best :: node :: nodes) := by
  refine List.pairwise_cons.2 ⟨?_, lengthens⟩
  intro later member
  rcases List.mem_cons.1 member with rfl | behind
  · exact longer
  · exact Nat.lt_trans longer ((List.pairwise_cons.1 lengthens).1 later behind)

theorem Lengthens.append {node : Token V} {nodes others : List (Token V)}
    (lengthens : Lengthens (best :: nodes)) (last : (best :: nodes).getLast? = some node)
    (further : Lengthens (node :: others)) : Lengthens (best :: nodes ++ others) := by
  induction nodes generalizing best with
  | nil =>
      cases last
      exact further
  | cons next rest ih =>
      obtain ⟨longer, lengthensRest⟩ := List.pairwise_cons.1 lengthens
      rw [List.getLast?_cons_cons] at last
      exact Lengthens.cons_of_lt (longer next (List.mem_cons_self ..)) (ih lengthensRest last)

theorem Advances.known {found : Option (Token V)}
    (advances : Advances owner cell symbol best history (.token found) after) :
    after.known? cell.position.offset symbol = some found := by
  obtain ⟨nodes, -, -, last, isLast⟩ := advances
  rw [last, Answer.token.inj isLast]

theorem Advances.trans {node : Token V} {answer : Answer V}
    (early : Advances owner cell symbol best history (.token (some node)) between)
    (late : Advances owner cell symbol node more answer after) :
    Advances owner cell symbol best (history ++ more) answer after := by
  obtain ⟨nodes, written, lengthens, -, isLast⟩ := early
  obtain ⟨others, writtenLate, lengthensLate, last, isAnswer⟩ := late
  have ends : (best :: nodes).getLast? = some node := (Answer.token.inj isLast).symm
  have same : (best :: (nodes ++ others)).getLast? = (node :: others).getLast? := by
    cases others with
    | nil => rw [List.append_nil, ends]; rfl
    | cons head tail =>
        rw [← List.cons_append, List.getLast?_append, List.getLast?_cons_cons, List.getLast?_cons]
        rfl
  refine ⟨nodes ++ others, ?_, lengthens.append ends lengthensLate, ?_, ?_⟩
  · rw [writesAt_append, written, writtenLate, List.map_append]
  · rw [last, same]
  · rw [isAnswer, same]

theorem Advances.after_longer {node : Token V} {made : Chart V} {answer : Answer V} (event : Event)
    (held : made.Holds cell) (early : Disciplined input chart history made everyEntry)
    (known : chart.known? cell.position.offset symbol = some (some best))
    (longer : best.stop.offset < node.stop.offset)
    (advances : ((made.report event).store cell.position.offset symbol (some node)).known?
        cell.position.offset symbol = some (some node) →
      Disciplined input ((made.report event).store cell.position.offset symbol (some node)) more
          after (otherThan cell.position.offset symbol) ∧
        Advances owner cell symbol node more answer after) :
    Disciplined input chart
        (history ++ .made node :: .wrote owner cell.position.offset symbol (some node) :: more)
        after (otherThan cell.position.offset symbol) ∧
      Advances owner cell symbol best
        (history ++ .made node :: .wrote owner cell.position.offset symbol (some node) :: more)
        answer after := by
  have heldReported : (made.report event).Holds cell := held
  obtain ⟨silent, -⟩ := (early.orderly _ _ trivial).settled known
  obtain ⟨late, nodes, written, lengthens, last, isLast⟩ := advances (by
    rw [heldReported.known?_store, if_pos ⟨rfl, rfl⟩])
  have reported : Disciplined input made [] (made.report event)
      (otherThan cell.position.offset symbol) := .of_same (fun _ _ _ => rfl) (List.suffix_refl _)
  have stored := reported.trans (heldReported.store_disciplined symbol (some node))
  refine ⟨early.weaken.trans ((stored.trans late).wrote owner (some node)).made, node :: nodes,
    ?_, ?_, ?_, ?_⟩
  · rw [writesAt_append, silent, writesAt_made, writesAt_wrote_self, written]
    rfl
  · exact Lengthens.cons_of_lt longer lengthens
  · rw [last, List.getLast?_cons_cons]
  · rw [isLast, List.getLast?_cons_cons]

end Steps

namespace Records

variable {input : Input V}

theorem discipline {owner : Nat} {task : Task V} {chart after : Chart V}
    {history : List (Change V)} {answer : Answer V}
    (records : Records input owner task chart history answer after)
    (wellFormed : input.grammar.WellFormed) :
    task.Discipline input owner chart history answer after := by
  induction records with
  | known found => exact ⟨.refl _, .inl ⟨_, found, rfl⟩⟩
  | lexical unknown noRule => exact ⟨.refl _, .inr ⟨unknown, noRule, rfl, rfl⟩⟩
  | barren grounded unknown isRule _ ihSeeds =>
      obtain ⟨disciplined, last⟩ := Disciplined.barren grounded.begins unknown
        (by rw [isRule]; rfl) ihSeeds
      exact ⟨disciplined, .inl ⟨none, last, rfl⟩⟩
  | grown grounded unknown isRule seeds _ ihSeeds ihExtend =>
      have held := grounded.holds wellFormed unknown isRule seeds.evaluates
      obtain ⟨extend, advances⟩ := ihExtend (by rw [held.known?_store, if_pos ⟨rfl, rfl⟩])
      obtain ⟨disciplined, last⟩ := Disciplined.grown grounded.begins held unknown
        (by rw [isRule]; rfl) ihSeeds extend advances
      exact ⟨disciplined, .inl last⟩
  | seedsDone => exact .refl _
  | seedsSkipped _ _ ihSeeds => exact ihSeeds
  | seedsFailed _ _ _ ihSequence ihSeeds => exact ihSequence.trans ihSeeds
  | seedsEmpty _ _ _ ihSequence ihSeeds => exact ihSequence.trans ihSeeds
  | seedsMatched _ _ _ nodeMade _ ihSequence ihSeeds =>
      exact ihSequence.trans ((Chart.makeNode_disciplined nodeMade).trans ihSeeds).made
  | passDone =>
      intro known
      exact ⟨.refl _, [], rfl, List.pairwise_singleton _ _, known, rfl⟩
  | passSkipped _ _ ihPass => exact ihPass
  | passFailed _ _ _ _ ihSequence ihPass =>
      intro known
      exact Advances.after_silent ihSequence known ihPass
  | passShorter _ _ _ _ nodeMade _ _ ihSequence ihPass =>
      intro known
      rw [List.append_cons]
      exact Advances.after_silent (ihSequence.trans (Chart.makeNode_disciplined nodeMade).made)
        known ihPass
  | passLonger grounded recursive starts sequence nodeMade longer _ ihSequence ihPass =>
      intro known
      have held := (grounded.passLonger wellFormed recursive starts sequence.evaluates nodeMade
        longer).1
      have early := ihSequence.trans (Chart.makeNode_disciplined nodeMade)
      rw [List.append_nil] at early
      exact Advances.after_longer _ held early known longer ihPass
  | extendDone _ _ ihPass => exact ihPass
  | extendMore _ longer _ ihPass ihExtend =>
      intro known
      obtain ⟨early, advances⟩ := ihPass known
      obtain ⟨late, further⟩ := ihExtend advances.known
      exact ⟨early.trans late, advances.trans further⟩
  | sequenceDone => exact .refl _
  | sequenceStuck _ ihElement => exact ihElement
  | sequenceStep _ _ ihElement ihSequence => exact ihElement.trans ihSequence
  | literal asked => exact Chart.literalAt_disciplined asked
  | reference _ asked _ ihResolve =>
      exact (Chart.syntaxCell_disciplined asked).trans ihResolve.1
  | repeated _ ihRounds => exact ihRounds
  | roundsFull _ => exact .refl _
  | roundsStopped _ _ ihSequence => exact ihSequence
  | roundsIdle _ _ _ ihSequence => exact ihSequence
  | roundsOnward _ _ _ _ ihSequence ihRounds => exact ihSequence.trans ihRounds

end Records

end Packrat
