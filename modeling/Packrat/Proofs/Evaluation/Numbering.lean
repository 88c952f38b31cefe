import Packrat.Proofs.Derivation.Sound
import Packrat.Proofs.Evaluation.Inside

/-!
The numbers of nodes. A number is given to one node only, so a table can say which node has which
number (`Token.Numbered`), and the table of a chart grows with every node that is made
(`Evaluates.numbers`). Resolving symbols leaves the values of nodes alone.
-/

set_option autoImplicit false
set_option linter.unusedSectionVars false

namespace Packrat

variable {V : Type} [Kinded V]

abbrev Numbering (V : Type) : Type := Nat → Option (Token V)

def Numbering.Keeps (numbering later : Numbering V) : Prop :=
  ∀ ⦃id node⦄, numbering id = some node → later id = some node

/-- A token all of whose nodes are those of their numbers. -/
inductive Token.Numbered (numbering : Numbering V) : Token V → Prop where
  | leaf {lexeme} : Token.Numbered numbering (.leaf lexeme)
  | node {id symbol alternative start stop children} :
      numbering id = some (.node id symbol alternative start stop children) →
      (∀ part ∈ children, Token.Numbered numbering part.item) →
      Token.Numbered numbering (.node id symbol alternative start stop children)

namespace Token.Numbered

variable {numbering : Numbering V} {token inner : Token V}

theorem isNode {id alternative : Nat} {symbol : Symbol} {start stop : Position}
    {children : List (Child V)}
    (numbered : (Token.node id symbol alternative start stop children).Numbered numbering) :
    numbering id = some (.node id symbol alternative start stop children) := by
  cases numbered with
  | node found _ => exact found

theorem part (numbered : token.Numbered numbering) (hasPart : token.HasPart inner) :
    inner.Numbered numbering := by
  obtain ⟨child, member, rfl⟩ := hasPart
  cases numbered with
  | leaf => cases member
  | node _ parts => exact parts child member

theorem includes (numbered : token.Numbered numbering) (includes : token.Includes inner) :
    inner.Numbered numbering := by
  induction includes with
  | refl => exact numbered
  | tail _ hasPart ih => exact ih.part hasPart

theorem contains (numbered : token.Numbered numbering) (contains : token.Contains inner) :
    inner.Numbered numbering :=
  numbered.includes contains.to_reflTransGen

end Token.Numbered

namespace Numbering

variable {numbering later last : Numbering V}

theorem Keeps.refl (numbering : Numbering V) : numbering.Keeps numbering :=
  fun _ _ found => found

theorem Keeps.trans (early : numbering.Keeps later) (late : later.Keeps last) :
    numbering.Keeps last :=
  fun _ _ found => late (early found)

theorem Keeps.numbered {token : Token V} (keeps : numbering.Keeps later)
    (numbered : token.Numbered numbering) : token.Numbered later := by
  induction numbered with
  | leaf => exact .leaf
  | node isNode _ ih => exact .node (keeps isNode) ih

def record (numbering : Numbering V) (id : Nat) (node : Token V) : Numbering V :=
  fun other => if other = id then some node else numbering other

theorem keeps_record {id : Nat} (node : Token V) (fresh : numbering id = none) :
    numbering.Keeps (numbering.record id node) := by
  intro other found here
  have apart : other ≠ id := by
    rintro rfl
    rw [fresh] at here
    cases here
  rw [record, if_neg apart]
  exact here

end Numbering

def Numbering.Covers (numbering : Numbering V) (parts : List (Child V)) : Prop :=
  ∀ part ∈ parts, part.item.Numbered numbering

structure Chart.Numbered (chart : Chart V) (numbering : Numbering V) : Prop where
  known : ∀ {offset symbol token}, chart.known? offset symbol = some (some token) →
    token.Numbered numbering
  fresh : ∀ {id}, chart.created ≤ id → numbering id = none

namespace Chart.Numbered

variable {numbering : Numbering V} {chart after : Chart V}

theorem empty : ({} : Chart V).Numbered fun _ => none := by
  refine ⟨?_, fun _ => rfl⟩
  intro offset symbol token known
  simp [Chart.known?, syntacticAt?] at known

theorem of_same (numbered : chart.Numbered numbering)
    (known : ∀ offset symbol, after.known? offset symbol = chart.known? offset symbol)
    (created : after.created = chart.created) : after.Numbered numbering := by
  refine ⟨?_, ?_⟩
  · intro offset symbol token found
    rw [known] at found
    exact numbered.known found
  · intro id reached
    rw [created] at reached
    exact numbered.fresh reached

theorem store (numbered : chart.Numbered numbering) (offset : Nat) (symbol : Symbol)
    {entry : Option (Token V)}
    (isNumbered : ∀ token, entry = some token → token.Numbered numbering) :
    (chart.store offset symbol entry).Numbered numbering := by
  refine ⟨?_, numbered.fresh⟩
  intro place other token found
  rw [Chart.known?_store] at found
  split at found
  · obtain ⟨cell, -, rfl⟩ := Option.map_eq_some_iff.1 found
    exact isNumbered token rfl
  · exact numbered.known found

theorem enter (numbered : chart.Numbered numbering) (offset : Nat) (symbol : Symbol) :
    (chart.enter offset symbol).Numbered numbering := by
  have stored : (chart.store offset symbol none).Numbered numbering :=
    numbered.store offset symbol nofun
  exact stored.of_same (fun _ _ => rfl) rfl

theorem make {symbol : Symbol} {index : Nat} {parts : List (Child V)} {node : Token V}
    (numbered : chart.Numbered numbering) (covers : numbering.Covers parts)
    (made : makeNode symbol index parts chart = (some node, after)) :
    ∃ later, numbering.Keeps later ∧ after.Numbered later ∧ node.Numbered later ∧
      after.values = chart.values := by
  obtain ⟨first, last, -, -, rfl, rfl⟩ := makeNode_eq_some made
  have keeps := Numbering.keeps_record
    (.node chart.created symbol index first.item.start last.item.stop parts)
    (numbered.fresh (Nat.le_refl _))
  refine ⟨_, keeps, ⟨?_, ?_⟩,
    .node (if_pos rfl) fun part member => keeps.numbered (covers part member), rfl⟩
  · intro offset other token found
    exact keeps.numbered (numbered.known found)
  · intro id reached
    change chart.created + 1 ≤ id at reached
    rw [Numbering.record, if_neg (by omega)]
    exact numbered.fresh (by omega)

theorem lexicalCell {input : Input V} {origin : Position} {cell : LexicalCell V}
    (numbered : chart.Numbered numbering)
    (asked : chart.lexicalCell input origin = .ok (cell, after)) :
    after.Numbered numbering ∧ after.values = chart.values := by
  rcases lexicalCell_cases asked with ⟨landing, -, ⟨-, rfl⟩ | ⟨-, -, rfl⟩⟩
  · exact ⟨numbered, rfl⟩
  · exact ⟨numbered.of_same (fun _ _ => rfl) rfl, rfl⟩

theorem literalAt {input : Input V} {origin : Position} {text : String}
    {found : Option (Lexeme V)} (numbered : chart.Numbered numbering)
    (asked : chart.literalAt input origin text = .ok (found, after)) :
    after.Numbered numbering ∧ after.values = chart.values := by
  obtain ⟨cell, opened, below, done⟩ := literalAt_cases asked
  obtain ⟨numberedOpened, same⟩ := numbered.lexicalCell below
  obtain ⟨literals, leaves, rfl⟩ := literal_frame done
  exact ⟨numberedOpened.of_same (fun _ _ => rfl) rfl, same⟩

theorem syntaxCell {input : Input V} {origin : Position} {cell : SyntaxCell V}
    (numbered : chart.Numbered numbering)
    (asked : chart.syntaxCell input origin = .ok (cell, after)) :
    after.Numbered numbering ∧ after.values = chart.values := by
  rcases syntaxCell_cases asked with ⟨lexical, between, below, ⟨-, rfl⟩ | ⟨missing, -, rfl⟩⟩
  · exact numbered.lexicalCell below
  · obtain ⟨opened, same⟩ := numbered.lexicalCell below
    exact ⟨opened.of_same (known?_insert missing) rfl, same⟩

end Chart.Numbered

/-! ### Evaluations -/

def Task.Numbered (numbering : Numbering V) : Task V → Prop
  | .seeds _ _ _ best => ∀ token, best = some token → token.Numbered numbering
  | .pass _ _ _ best => best.Numbered numbering
  | .extend _ _ _ best => best.Numbered numbering
  | .resolve _ _ | .sequence _ _ | .element _ _ | .rounds _ _ _ _ _ => True

def Answer.Numbered (numbering : Numbering V) : Answer V → Prop
  | .token found => ∀ token, found = some token → token.Numbered numbering
  | .run found => ∀ parts stop, found = some (parts, stop) → numbering.Covers parts

theorem Task.Numbered.mono {numbering later : Numbering V} {task : Task V}
    (numbered : task.Numbered numbering) (keeps : numbering.Keeps later) :
    task.Numbered later := by
  cases task with
  | seeds cell symbol alternatives best =>
      exact fun token same => keeps.numbered (numbered token same)
  | pass cell symbol alternatives best => exact keeps.numbered numbered
  | extend cell symbol alternatives best => exact keeps.numbered numbered
  | resolve | sequence | element | rounds => trivial

section Numbers

variable {numbering later last : Numbering V} {chart between after : Chart V}

/-- What evaluations do to a table: it may have more nodes afterwards, among them those of the
answer. -/
def Numbers (numbering : Numbering V) (chart : Chart V) (answer : Answer V) (after : Chart V) :
    Prop :=
  ∃ later, numbering.Keeps later ∧ after.Numbered later ∧ answer.Numbered later ∧
    after.values = chart.values

theorem Numbers.stays {answer : Answer V} (numbered : chart.Numbered numbering)
    (isNumbered : answer.Numbered numbering) : Numbers numbering chart answer chart :=
  ⟨numbering, .refl _, numbered, isNumbered, rfl⟩

theorem Numbers.behind {answer : Answer V} (keeps : numbering.Keeps later)
    (same : between.values = chart.values) (numbers : Numbers later between answer after) :
    Numbers numbering chart answer after := by
  obtain ⟨last, further, numbered, isNumbered, kept⟩ := numbers
  exact ⟨last, keeps.trans further, numbered, isNumbered, kept.trans same⟩

theorem Numbers.settled {min count : Nat} {cursor : Position} :
    (Answer.run (Run.settled min count cursor) : Answer V).Numbered numbering := by
  intro parts stop same
  unfold Run.settled at same
  split at same
  · cases same
    exact nofun
  · cases same

theorem Numbers.append {parts : List (Child V)} {found : Option (Run V)}
    (covers : numbering.Covers parts) (numbers : Numbers numbering chart (.run found) after) :
    Numbers numbering chart (.run (Run.behind parts found)) after := by
  obtain ⟨later, keeps, numbered, isNumbered, same⟩ := numbers
  refine ⟨later, keeps, numbered, ?_, same⟩
  intro all stop isRun
  obtain ⟨⟨more, last⟩, isMore, joined⟩ := Option.map_eq_some_iff.1 isRun
  cases joined
  exact List.forall_mem_append.2
    ⟨fun part member => keeps.numbered (covers part member), isNumbered more stop isMore⟩

end Numbers

open Chart in
theorem Evaluates.numbers {input : Input V} {task : Task V} {chart after : Chart V}
    {answer : Answer V} (evaluates : Evaluates input task chart answer after)
    {numbering : Numbering V} (numbered : chart.Numbered numbering)
    (given : task.Numbered numbering) : Numbers numbering chart answer after := by
  induction evaluates generalizing numbering with
  | known found =>
      apply Numbers.stays numbered
      rintro token rfl
      exact numbered.known found
  | lexical _ _ =>
      apply Numbers.stays numbered
      intro token found
      obtain ⟨leaf, -, rfl⟩ := Option.map_eq_some_iff.1 found
      exact .leaf
  | barren _ _ _ ihSeeds => exact ihSeeds (numbered.enter _ _) nofun
  | grown _ _ _ _ ihSeeds ihExtend =>
      obtain ⟨later, keeps, numberedSeeds, isSeed, same⟩ := ihSeeds (numbered.enter _ _) nofun
      have first := isSeed _ rfl
      refine .behind keeps same (ihExtend (numberedSeeds.store _ _ ?_) first)
      rintro token ⟨⟩
      exact first
  | seedsDone => exact .stays numbered given
  | seedsSkipped _ _ ihSeeds => exact ihSeeds numbered given
  | seedsFailed _ _ _ ihSequence ihSeeds =>
      obtain ⟨later, keeps, numberedRun, -, same⟩ := ihSequence numbered trivial
      exact .behind keeps same (ihSeeds numberedRun (Task.Numbered.mono given keeps))
  | seedsEmpty _ _ _ ihSequence ihSeeds =>
      obtain ⟨later, keeps, numberedRun, -, same⟩ := ihSequence numbered trivial
      exact .behind keeps same (ihSeeds numberedRun (Task.Numbered.mono given keeps))
  | seedsMatched _ _ made _ ihSequence ihSeeds =>
      obtain ⟨later, keeps, numberedRun, covers, same⟩ := ihSequence numbered trivial
      obtain ⟨last, further, numberedMade, isNode, kept⟩ := numberedRun.make (covers _ _ rfl) made
      refine .behind (keeps.trans further) (kept.trans same) (ihSeeds numberedMade ?_)
      intro token chosen
      split at chosen
      · cases chosen
        exact isNode
      · exact (keeps.trans further).numbered (given token chosen)
  | passDone =>
      apply Numbers.stays numbered
      rintro token ⟨⟩
      exact given
  | passSkipped _ _ ihPass => exact ihPass numbered given
  | passFailed _ _ _ _ ihSequence ihPass =>
      obtain ⟨later, keeps, numberedRun, -, same⟩ := ihSequence numbered trivial
      exact .behind keeps same (ihPass numberedRun (keeps.numbered given))
  | passShorter _ _ _ made _ _ ihSequence ihPass =>
      obtain ⟨later, keeps, numberedRun, covers, same⟩ := ihSequence numbered trivial
      have isBest : Token.Numbered _ _ := keeps.numbered given
      obtain ⟨last, further, numberedMade, -, kept⟩ :=
        numberedRun.make (List.forall_mem_cons.2 ⟨isBest, covers _ _ rfl⟩) made
      exact .behind (keeps.trans further) (kept.trans same)
        (ihPass numberedMade (further.numbered isBest))
  | passLonger _ _ _ made _ _ ihSequence ihPass =>
      obtain ⟨later, keeps, numberedRun, covers, same⟩ := ihSequence numbered trivial
      have isBest : Token.Numbered _ _ := keeps.numbered given
      obtain ⟨last, further, numberedMade, isNode, kept⟩ :=
        numberedRun.make (List.forall_mem_cons.2 ⟨isBest, covers _ _ rfl⟩) made
      refine .behind (keeps.trans further) (kept.trans same) (ihPass (.store ?_ _ _ ?_) isNode)
      · exact numberedMade.of_same (fun _ _ => rfl) rfl
      · rintro token ⟨⟩
        exact isNode
  | extendDone _ _ ihPass => exact ihPass numbered given
  | extendMore _ _ _ ihPass ihExtend =>
      obtain ⟨later, keeps, numberedPass, isNode, same⟩ := ihPass numbered given
      exact .behind keeps same (ihExtend numberedPass (isNode _ rfl))
  | sequenceDone =>
      apply Numbers.stays numbered
      rintro parts stop ⟨⟩
      exact nofun
  | sequenceStuck _ ihElement =>
      obtain ⟨later, keeps, numberedRun, -, same⟩ := ihElement numbered trivial
      exact ⟨later, keeps, numberedRun, nofun, same⟩
  | sequenceStep _ _ ihElement ihSequence =>
      obtain ⟨later, keeps, numberedRun, covers, same⟩ := ihElement numbered trivial
      exact .behind keeps same ((ihSequence numberedRun trivial).append (covers _ _ rfl))
  | literal asked =>
      obtain ⟨opened, same⟩ := numbered.literalAt asked
      refine ⟨numbering, .refl _, opened, ?_, same⟩
      intro parts stop found
      obtain ⟨leaf, -, single⟩ := Option.map_eq_some_iff.1 found
      cases single
      exact List.forall_mem_singleton.2 .leaf
  | reference _ asked _ ihResolve =>
      obtain ⟨opened, same⟩ := numbered.syntaxCell asked
      obtain ⟨later, keeps, numberedToken, isNumbered, kept⟩ := ihResolve opened trivial
      refine ⟨later, keeps, numberedToken, ?_, kept.trans same⟩
      intro parts stop found
      obtain ⟨token, isToken, single⟩ := Option.map_eq_some_iff.1 found
      cases single
      exact List.forall_mem_singleton.2 (isNumbered token isToken)
  | repeated _ ihRounds => exact ihRounds numbered trivial
  | roundsFull _ => exact .stays numbered Numbers.settled
  | roundsStopped _ _ ihSequence =>
      obtain ⟨later, keeps, numberedRun, -, same⟩ := ihSequence numbered trivial
      exact ⟨later, keeps, numberedRun, Numbers.settled, same⟩
  | roundsIdle _ _ _ ihSequence =>
      obtain ⟨later, keeps, numberedRun, covers, same⟩ := ihSequence numbered trivial
      refine ⟨later, keeps, numberedRun, ?_, same⟩
      rintro parts stop ⟨⟩
      exact covers _ _ rfl
  | roundsOnward _ _ _ _ ihSequence ihRounds =>
      obtain ⟨later, keeps, numberedRun, covers, same⟩ := ihSequence numbered trivial
      exact .behind keeps same ((ihRounds numberedRun trivial).append (covers _ _ rfl))

end Packrat
