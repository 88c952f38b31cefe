import Packrat.Proofs.Chart.Evaluates

/-!
Parsing without a memo. `Parses input goal outcome` is the plain recursive meaning of a grammar: the
seed of a rule is the first of the matches that reach furthest, extensions replace it as long as
they reach further, and elements match greedily. Nothing is kept, so nothing depends on what was
asked for before, and no rule counts as failing while it is resolved.

The outcomes are trees, which are tokens without the numbers of nodes and without the blank text
before leaves. A goal has one outcome at most (`Parses.unique`).
-/

set_option autoImplicit false
set_option linter.unusedSectionVars false

namespace Packrat

variable {V : Type} [Kinded V]

/-! ### Trees -/

inductive Tree (V : Type) where
  | leaf (symbol : Symbol) (text : List Char) (start stop : Position) (value : Option V)
  | node (symbol : Symbol) (alternative : Nat) (start stop : Position)
      (children : List (Labelled (Tree V)))

abbrev Branch (V : Type) : Type := Labelled (Tree V)

namespace Tree

def start : Tree V → Position
  | .leaf _ _ start _ _ => start
  | .node _ _ start _ _ => start

def stop : Tree V → Position
  | .leaf _ _ _ stop _ => stop
  | .node _ _ _ stop _ => stop

def over? (symbol : Symbol) (alternative : Nat) (parts : List (Branch V)) : Option (Tree V) :=
  match parts.head?, parts.getLast? with
  | some first, some last =>
    some (.node symbol alternative first.item.start last.item.stop parts)
  | _, _ => none

def ofRun? (symbol : Symbol) (alternative : Nat) (leading : List (Branch V))
    (run : Option (List (Branch V) × Position)) : Option (Tree V) :=
  run.bind fun (parts, _) => over? symbol alternative (leading ++ parts)

def longer (best : Tree V) : Option (Tree V) → Tree V
  | none => best
  | some next => if best.stop.offset < next.stop.offset then next else best

def better : Option (Tree V) → Option (Tree V) → Option (Tree V)
  | none, next => next
  | some best, next => some (best.longer next)

theorem better_none (best : Option (Tree V)) : better best none = best := by
  cases best <;> rfl

end Tree

def Leaf.tree (leaf : Leaf V) : Tree V :=
  .leaf leaf.symbol leaf.text leaf.start leaf.stop leaf.value

namespace Token

mutual

def tree : Token V → Tree V
  | .leaf lexeme => lexeme.tree
  | .node _ symbol alternative start stop children =>
    .node symbol alternative start stop (branches children)

def branches : List (Child V) → List (Branch V)
  | [] => []
  | ⟨label, token⟩ :: rest => ⟨label, tree token⟩ :: branches rest

end

end Token

/-! ### The relation -/

def Input.scanAt? (input : Input V) (place : Position) : Option (LexicalCell V) :=
  (input.rest? place.offset).map fun rest =>
    (LexicalCell.scan input.grammar ⟨place, [], place, rest⟩).1

def Input.leafAt? (input : Input V) (place : Position) (symbol : Symbol) : Option (Tree V) :=
  (input.scanAt? place).bind fun cell => (cell.leaf? symbol).map Leaf.tree

def Input.literalAt? (input : Input V) (place : Position) (text : String) : Option (Tree V) :=
  (input.scanAt? place).bind fun cell => (cell.literal? text).map Leaf.tree

/-- What is to be parsed: a symbol at a place, the loops over the alternatives of a rule, or
elements from a place on. -/
inductive Goal (V : Type) [Kinded V] where
  | resolve (place : Position) (symbol : Symbol)
  | seeds (place : Position) (symbol : Symbol) (alternatives : List (Alternative V × Nat))
      (best : Option (Tree V))
  | pass (symbol : Symbol) (alternatives : List (Alternative V × Nat)) (best : Tree V)
  | extend (symbol : Symbol) (alternatives : List (Alternative V × Nat)) (best : Tree V)
  | sequence (elements : List Element) (cursor : Position)
  | element (element : Element) (cursor : Position)
  | rounds (elements : List Element) (min : Nat) (max : Option Nat) (count : Nat)
      (cursor : Position)

inductive Outcome (V : Type) where
  | tree (found : Option (Tree V))
  | run (found : Option (List (Branch V) × Position))

inductive Parses (input : Input V) : Goal V → Outcome V → Prop where
  | lexical {place symbol} :
      input.grammar.rule? symbol = none →
      Parses input (.resolve place symbol) (.tree (input.leafAt? place symbol))
  | barren {place symbol rule} :
      input.grammar.rule? symbol = some rule →
      Parses input (.seeds place symbol rule.alternatives.zipIdx none) (.tree none) →
      Parses input (.resolve place symbol) (.tree none)
  | grown {place symbol rule first found} :
      input.grammar.rule? symbol = some rule →
      Parses input (.seeds place symbol rule.alternatives.zipIdx none) (.tree (some first)) →
      Parses input (.extend symbol rule.alternatives.zipIdx first) (.tree found) →
      Parses input (.resolve place symbol) (.tree found)
  | seedsDone {place symbol best} : Parses input (.seeds place symbol [] best) (.tree best)
  | seedsSkipped {place symbol alternative index rest best found} :
      alternative.recursive = true →
      Parses input (.seeds place symbol rest best) (.tree found) →
      Parses input (.seeds place symbol ((alternative, index) :: rest) best) (.tree found)
  | seedsTried {place symbol alternative index rest best run found} :
      alternative.recursive = false →
      Parses input (.sequence alternative.elements place) (.run run) →
      Parses input (.seeds place symbol rest (Tree.better best (Tree.ofRun? symbol index [] run)))
        (.tree found) →
      Parses input (.seeds place symbol ((alternative, index) :: rest) best) (.tree found)
  | passDone {symbol best} : Parses input (.pass symbol [] best) (.tree (some best))
  | passSkipped {symbol alternative index rest best found} :
      alternative.recursive = false →
      Parses input (.pass symbol rest best) (.tree found) →
      Parses input (.pass symbol ((alternative, index) :: rest) best) (.tree found)
  | passTried {symbol alternative index head tail rest best run found} :
      alternative.recursive = true →
      alternative.elements = head :: tail →
      Parses input (.sequence tail best.stop) (.run run) →
      Parses input
        (.pass symbol rest (best.longer (Tree.ofRun? symbol index [⟨head.label?, best⟩] run)))
        (.tree found) →
      Parses input (.pass symbol ((alternative, index) :: rest) best) (.tree found)
  | extendDone {symbol alternatives best node} :
      Parses input (.pass symbol alternatives best) (.tree (some node)) →
      ¬ best.stop.offset < node.stop.offset →
      Parses input (.extend symbol alternatives best) (.tree (some node))
  | extendMore {symbol alternatives best node found} :
      Parses input (.pass symbol alternatives best) (.tree (some node)) →
      best.stop.offset < node.stop.offset →
      Parses input (.extend symbol alternatives node) (.tree found) →
      Parses input (.extend symbol alternatives best) (.tree found)
  | sequenceDone {cursor} : Parses input (.sequence [] cursor) (.run (some ([], cursor)))
  | sequenceStuck {element rest cursor} :
      Parses input (.element element cursor) (.run none) →
      Parses input (.sequence (element :: rest) cursor) (.run none)
  | sequenceStep {element rest cursor parts next found} :
      Parses input (.element element cursor) (.run (some (parts, next))) →
      Parses input (.sequence rest next) (.run found) →
      Parses input (.sequence (element :: rest) cursor) (.run (Run.behind parts found))
  | literal {text cursor landing} :
      input.land cursor = .ok landing →
      Parses input (.element (.literal text) cursor)
        (.run ((input.literalAt? landing.position text).map
          fun leaf => ([⟨none, leaf⟩], leaf.stop)))
  | reference {element symbol cursor landing found} :
      element.symbol? = some symbol →
      input.land cursor = .ok landing →
      Parses input (.resolve landing.position symbol) (.tree found) →
      Parses input (.element element cursor)
        (.run (found.map fun tree => ([⟨element.label?, tree⟩], tree.stop)))
  | repeated {elements min max cursor found} :
      Parses input (.rounds elements min max 0 cursor) (.run found) →
      Parses input (.element (.repeated elements min max) cursor) (.run found)
  | roundsFull {elements min max count cursor} :
      max.any (· ≤ count) = true →
      Parses input (.rounds elements min max count cursor) (.run (Run.settled min count cursor))
  | roundsStopped {elements min max count cursor} :
      max.any (· ≤ count) = false →
      Parses input (.sequence elements cursor) (.run none) →
      Parses input (.rounds elements min max count cursor) (.run (Run.settled min count cursor))
  | roundsIdle {elements min max count cursor parts next} :
      max.any (· ≤ count) = false →
      Parses input (.sequence elements cursor) (.run (some (parts, next))) →
      next.offset = cursor.offset →
      Parses input (.rounds elements min max count cursor) (.run (some (parts, cursor)))
  | roundsOnward {elements min max count cursor parts next found} :
      max.any (· ≤ count) = false →
      Parses input (.sequence elements cursor) (.run (some (parts, next))) →
      next.offset ≠ cursor.offset →
      Parses input (.rounds elements min max (count + 1) next) (.run found) →
      Parses input (.rounds elements min max count cursor) (.run (Run.behind parts found))

namespace Parses

variable {input : Input V}

/-- A goal has one outcome at most. -/
theorem unique {goal : Goal V} {outcome outcome' : Outcome V}
    (first : Parses input goal outcome) (second : Parses input goal outcome') :
    outcome = outcome' := by
  induction first generalizing outcome' with
  | lexical noRule =>
      cases second with
      | lexical _ => rfl
      | barren isRule _ => cases noRule.symm.trans isRule
      | grown isRule _ _ => cases noRule.symm.trans isRule
  | barren isRule _ ihSeeds =>
      cases second with
      | lexical noRule => cases noRule.symm.trans isRule
      | barren _ _ => rfl
      | grown isRule' seeds' _ =>
          cases isRule.symm.trans isRule'
          cases ihSeeds seeds'
  | grown isRule _ _ ihSeeds ihExtend =>
      cases second with
      | lexical noRule => cases noRule.symm.trans isRule
      | barren isRule' seeds' =>
          cases isRule.symm.trans isRule'
          cases ihSeeds seeds'
      | grown isRule' seeds' extend' =>
          cases isRule.symm.trans isRule'
          cases ihSeeds seeds'
          exact ihExtend extend'
  | seedsDone => cases second; rfl
  | seedsSkipped recursive _ ihSeeds =>
      cases second with
      | seedsSkipped _ seeds' => exact ihSeeds seeds'
      | seedsTried plain _ _ => cases recursive.symm.trans plain
  | seedsTried plain _ _ ihSequence ihSeeds =>
      cases second with
      | seedsSkipped recursive _ => cases plain.symm.trans recursive
      | seedsTried _ sequence' seeds' =>
          cases ihSequence sequence'
          exact ihSeeds seeds'
  | passDone => cases second; rfl
  | passSkipped plain _ ihPass =>
      cases second with
      | passSkipped _ pass' => exact ihPass pass'
      | passTried recursive _ _ _ => cases plain.symm.trans recursive
  | passTried recursive starts _ _ ihSequence ihPass =>
      cases second with
      | passSkipped plain _ => cases plain.symm.trans recursive
      | passTried _ starts' sequence' pass' =>
          cases starts.symm.trans starts'
          cases ihSequence sequence'
          exact ihPass pass'
  | extendDone _ short ihPass =>
      cases second with
      | extendDone pass' _ => exact ihPass pass'
      | extendMore pass' long _ =>
          cases ihPass pass'
          exact absurd long short
  | extendMore _ long _ ihPass ihExtend =>
      cases second with
      | extendDone pass' short =>
          cases ihPass pass'
          exact absurd long short
      | extendMore pass' _ extend' =>
          cases ihPass pass'
          exact ihExtend extend'
  | sequenceDone => cases second; rfl
  | sequenceStuck _ ihElement =>
      cases second with
      | sequenceStuck _ => rfl
      | sequenceStep element' _ => cases ihElement element'
  | sequenceStep _ _ ihElement ihSequence =>
      cases second with
      | sequenceStuck element' => cases ihElement element'
      | sequenceStep element' sequence' =>
          cases ihElement element'
          cases ihSequence sequence'
          rfl
  | literal lands =>
      cases second with
      | literal lands' =>
          cases lands.symm.trans lands'
          rfl
      | reference names' _ _ => cases names'
  | reference names lands _ ihResolve =>
      cases second with
      | literal _ => cases names
      | reference names' lands' resolve' =>
          cases names.symm.trans names'
          cases lands.symm.trans lands'
          cases ihResolve resolve'
          rfl
      | repeated _ => cases names
  | repeated _ ihRounds =>
      cases second with
      | reference names' _ _ => cases names'
      | repeated rounds' => exact ihRounds rounds'
  | roundsFull full =>
      cases second with
      | roundsFull _ => rfl
      | roundsStopped room _ => cases full.symm.trans room
      | roundsIdle room _ _ => cases full.symm.trans room
      | roundsOnward room _ _ _ => cases full.symm.trans room
  | roundsStopped room _ ihSequence =>
      cases second with
      | roundsFull full => cases room.symm.trans full
      | roundsStopped _ _ => rfl
      | roundsIdle _ sequence' _ => cases ihSequence sequence'
      | roundsOnward _ sequence' _ _ => cases ihSequence sequence'
  | roundsIdle room _ idle ihSequence =>
      cases second with
      | roundsFull full => cases room.symm.trans full
      | roundsStopped _ sequence' => cases ihSequence sequence'
      | roundsIdle _ sequence' _ =>
          cases ihSequence sequence'
          rfl
      | roundsOnward _ sequence' onward _ =>
          cases ihSequence sequence'
          exact absurd idle onward
  | roundsOnward room _ onward _ ihSequence ihRounds =>
      cases second with
      | roundsFull full => cases room.symm.trans full
      | roundsStopped _ sequence' => cases ihSequence sequence'
      | roundsIdle _ sequence' idle =>
          cases ihSequence sequence'
          exact absurd idle onward
      | roundsOnward _ sequence' _ rounds' =>
          cases ihSequence sequence'
          cases ihRounds rounds'
          rfl

theorem outcome_iff {goal : Goal V} {outcome : Outcome V} (parses : Parses input goal outcome)
    (other : Outcome V) : Parses input goal other ↔ other = outcome := by
  constructor
  · intro parses'
    exact parses'.unique parses
  · rintro rfl
    exact parses

end Parses

end Packrat
