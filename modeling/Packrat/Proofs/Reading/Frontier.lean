import Packrat.Proofs.Chart.Reachable
import Packrat.Proofs.Reading.Lexemes

/-!
The leaves of a token from left to right. Their texts are the lexemes that stand between the start
of a derived token and its end (`Derives.frontier`), whatever the grammar is.
-/

set_option autoImplicit false
set_option linter.unusedSectionVars false

namespace Packrat

variable {V : Type} [Kinded V]

namespace Tree

mutual

def lexemes : Tree V → List (List Char)
  | .leaf _ text _ _ _ => [text]
  | .node _ _ _ _ children => lexemesOf children

def lexemesOf : List (Branch V) → List (List Char)
  | [] => []
  | ⟨_, tree⟩ :: rest => lexemes tree ++ lexemesOf rest

end

theorem lexemesOf_append (first second : List (Branch V)) :
    lexemesOf (first ++ second) = lexemesOf first ++ lexemesOf second := by
  induction first with
  | nil => rfl
  | cons branch rest ih =>
      rw [List.cons_append, lexemesOf, lexemesOf, ih, List.append_assoc]

end Tree

def Token.lexemesOf (parts : List (Child V)) : List (List Char) :=
  Tree.lexemesOf (Token.branches parts)

theorem Token.lexemesOf_append (first second : List (Child V)) :
    lexemesOf (first ++ second) = lexemesOf first ++ lexemesOf second := by
  rw [lexemesOf, branches_append, Tree.lexemesOf_append]
  rfl

@[simp] theorem Token.lexemesOf_nil : lexemesOf ([] : List (Child V)) = [] :=
  rfl

@[simp] theorem Token.lexemesOf_cons (label : Option String) (token : Token V)
    (rest : List (Child V)) :
    lexemesOf (⟨label, token⟩ :: rest) = token.tree.lexemes ++ lexemesOf rest :=
  rfl

@[simp] theorem Token.lexemes_leaf (lexeme : Lexeme V) :
    (Token.leaf lexeme).tree.lexemes = [lexeme.text] :=
  rfl

theorem Token.lexemes_node (id : Nat) (symbol : Symbol) (index : Nat) (start stop : Position)
    (children : List (Child V)) :
    (Token.node id symbol index start stop children).tree.lexemes = lexemesOf children :=
  rfl

/-! ### Tokens of given trees -/

namespace Token

theorem of_tree_node {token : Token V} {symbol : Symbol} {alternative : Nat}
    {start stop : Position} {parts : List (Branch V)}
    (same : token.tree = .node symbol alternative start stop parts) :
    ∃ id children, token = .node id symbol alternative start stop children ∧
      branches children = parts := by
  cases token with
  | leaf lexeme => cases same
  | node id symbol alternative start stop children =>
      cases same
      exact ⟨id, children, rfl, rfl⟩

theorem of_tree_leaf {token : Token V} {symbol : Symbol} {text : List Char}
    {start stop : Position} {value : Option V}
    (same : token.tree = .leaf symbol text start stop value) :
    ∃ blank number, token = .leaf ⟨⟨symbol, blank, text, start, stop, value⟩, number⟩ := by
  cases token with
  | leaf lexeme =>
      cases same
      exact ⟨lexeme.blank, lexeme.number, rfl⟩
  | node id symbol alternative start stop children => cases same

theorem of_branches_cons {children : List (Child V)} {label : Option String} {tree : Tree V}
    {rest : List (Branch V)} (same : branches children = ⟨label, tree⟩ :: rest) :
    ∃ token others, children = ⟨label, token⟩ :: others ∧ token.tree = tree ∧
      branches others = rest := by
  cases children with
  | nil => cases same
  | cons child others =>
      rcases child with ⟨label', token⟩
      cases same
      exact ⟨token, others, rfl, rfl, rfl⟩

theorem of_branches_single {children : List (Child V)} {label : Option String} {tree : Tree V}
    (same : branches children = [⟨label, tree⟩]) :
    ∃ token, children = [⟨label, token⟩] ∧ token.tree = tree := by
  rw [branches_eq_map, List.map_eq_singleton_iff] at same
  obtain ⟨⟨label', token⟩, rfl, made⟩ := same
  cases made
  exact ⟨token, rfl, rfl⟩

end Token

/-! ### Derived tokens -/

/-- What is ahead of the end of what a fact speaks of is, behind its lexemes, ahead of its
beginning. -/
def Fact.Frontier (input : Input V) (chart : Chart V) : Fact V → Prop
  | .matched cell _ token =>
    chart.lexicalAt? cell.position.offset = some cell → ∀ more, input.Awaits token.stop more →
      input.Awaits cell.position (token.tree.lexemes ++ more)
  | .run _ cursor parts stop =>
    (input.rest? cursor.offset).isSome → ∀ more, input.Awaits stop more →
      input.Awaits cursor (Token.lexemesOf parts ++ more)
  | .rounds _ _ _ _ cursor parts stop =>
    (input.rest? cursor.offset).isSome → ∀ more, input.Awaits stop more →
      input.Awaits cursor (Token.lexemesOf parts ++ more)

theorem LexicalCell.Scanned.ahead {input : Input V} {cell : LexicalCell V} {leaf : Leaf V}
    {more : List (List Char)} (scanned : cell.Scanned input) (fits : leaf.FitsAt cell.toLanding)
    (ahead : input.Awaits leaf.stop more) : input.Awaits cell.position (leaf.text :: more) := by
  obtain ⟨after, split⟩ := fits.text
  rw [fits.stop] at ahead
  have found := scanned.rest?
  rw [← split] at found
  exact ahead.cons found

theorem Derives.frontier {input : Input V} {chart : Chart V} {fact : Fact V}
    (derived : Derives input chart fact) (arena : chart.Arena input) :
    fact.Frontier input chart := by
  induction derived with
  | leaf _ found =>
      intro here more ahead
      have scanned := (arena.lexical here).1
      exact scanned.ahead (scanned.leaf_fits found) ahead
  | @seed cell symbol index alternative children first last stop id _ _ _ isRun _ isLast ihRun =>
      intro here more ahead
      have valid : (input.rest? cell.position.offset).isSome := by
        rw [(arena.lexical here).1.rest?]
        rfl
      exact ihRun valid more (ahead.of_offset ((isRun.sits arena valid).last isLast).symm)
  | @extension cell symbol index alternative head tail base parts last stop id _ _ _ _ isBase isRun
      isLast longer ihBase ihRun =>
      intro here more ahead
      have sits := isBase.sits arena here
      have spans : Spans input chart base.stop parts stop := isRun.sits arena sits.2.2
      have ends : stop.offset = last.item.stop.offset := by
        cases parts with
        | nil =>
            cases isLast
            exact absurd longer (Nat.lt_irrefl _)
        | cons first others =>
            rw [List.getLast?_cons_cons] at isLast
            exact (spans.last isLast).symm
      have whole := ihBase here _ (ihRun sits.2.2 more (ahead.of_offset ends))
      rw [← List.append_assoc] at whole
      exact whole
  | done => exact fun _ _ ahead => ahead
  | literal leads found _ ihRest =>
      intro _ more ahead
      obtain ⟨scanned, settled, -⟩ := Chart.cellFrom?_scanned arena leads
      have fits := (LexicalCell.literal?_fits found).1
      exact .of_settle? settled
        (scanned.ahead fits (ihRest (scanned.leaf_stop fits).2 more ahead))
  | reference _ leads isToken _ ihToken ihRest =>
      intro _ more ahead
      obtain ⟨-, settled, here⟩ := Chart.cellFrom?_scanned arena leads
      have whole := ihToken here _ (ihRest (isToken.sits arena here).2.2 more ahead)
      rw [← List.append_assoc] at whole
      exact .of_settle? settled whole
  | repeated isRounds _ ihRounds ihRest =>
      intro valid more ahead
      have spans : Spans input chart _ _ _ := isRounds.sits arena valid
      rw [Token.lexemesOf_append, List.append_assoc]
      exact ihRounds valid _ (ihRest spans.valid more ahead)
  | enough _ => exact fun _ _ ahead => ahead
  | idle _ _ same ihRun =>
      intro valid more ahead
      exact ihRun valid more (ahead.of_offset same)
  | onward _ isRun _ _ ihRun ihRounds =>
      intro valid more ahead
      have spans : Spans input chart _ _ _ := isRun.sits arena valid
      rw [Token.lexemesOf_append, List.append_assoc]
      exact ihRun valid _ (ihRounds spans.valid more ahead)

theorem Chart.parse_frontier {input : Input V} (wellFormed : input.grammar.WellFormed)
    {root : Token V} (isRoot : (input.grammar.parse input.source).root = some root)
    {more : List (List Char)} (ahead : input.Awaits root.stop more) :
    Spaced input.grammar.isBlank (root.tree.lexemes ++ more) input.source := by
  obtain ⟨sound, -, derived⟩ := parse_sound wellFormed
  obtain ⟨cell, leads, isDerived⟩ := derived root isRoot
  obtain ⟨-, settled, here⟩ := cellFrom?_scanned sound.arena leads
  rw [← Input.Awaits.start]
  exact .of_settle? settled (isDerived.frontier sound.arena here more ahead)

end Packrat
