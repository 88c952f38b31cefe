import Packrat.Proofs.Chart.Leaves
import Packrat.Proofs.Reference.Basic

/-!
From tokens to trees: the numbers of nodes and the blank text before leaves are left out. Tasks
become goals and answers outcomes, and what a cell holds becomes what scanning at its place finds,
wherever the request for the cell came from.
-/

set_option autoImplicit false
set_option linter.unusedSectionVars false

namespace Packrat

variable {V : Type} [Kinded V]

namespace Token

@[simp] theorem tree_start (token : Token V) : token.tree.start = token.start := by
  cases token <;> rfl

@[simp] theorem tree_stop (token : Token V) : token.tree.stop = token.stop := by
  cases token <;> rfl

theorem branches_eq_map (children : List (Child V)) :
    branches children = children.map fun child => ⟨child.label, child.item.tree⟩ := by
  induction children with
  | nil => rw [branches, List.map_nil]
  | cons child rest ih => rw [branches, ih, List.map_cons]

theorem branches_append (first second : List (Child V)) :
    branches (first ++ second) = branches first ++ branches second := by
  simp only [branches_eq_map, List.map_append]

end Token

def Run.erase (run : Run V) : List (Branch V) × Position :=
  (Token.branches run.1, run.2)

theorem Run.erase_behind (parts : List (Child V)) (found : Option (Run V)) :
    (Run.behind parts found).map Run.erase =
      Run.behind (Token.branches parts) (found.map Run.erase) := by
  cases found with
  | none => rfl
  | some run => simp [Run.behind, Run.erase, Token.branches_append]

theorem Run.erase_settled (min count : Nat) (cursor : Position) :
    (Run.settled min count cursor : Option (Run V)).map Run.erase =
      Run.settled min count cursor := by
  unfold Run.settled
  split
  · rfl
  · rfl

def Task.goal : Task V → Goal V
  | .resolve cell symbol => .resolve cell.position symbol
  | .seeds cell symbol alternatives best =>
    .seeds cell.position symbol alternatives (best.map Token.tree)
  | .pass _ symbol alternatives best => .pass symbol alternatives best.tree
  | .extend _ symbol alternatives best => .extend symbol alternatives best.tree
  | .sequence elements cursor => .sequence elements cursor
  | .element single cursor => .element single cursor
  | .rounds elements min max count cursor => .rounds elements min max count cursor

def Answer.outcome : Answer V → Outcome V
  | .token found => .tree (found.map Token.tree)
  | .run found => .run (found.map Run.erase)

/-! ### Nodes -/

namespace Tree

theorem over?_branches {symbol : Symbol} {index : Nat} {parts : List (Child V)} {node : Token V}
    {chart made : Chart V} (done : Chart.makeNode symbol index parts chart = (some node, made)) :
    over? symbol index (Token.branches parts) = some node.tree := by
  unfold Chart.makeNode at done
  split at done
  · next first last isFirst isLast =>
      cases done
      unfold over?
      simp only [Token.branches_eq_map, List.head?_map, List.getLast?_map, isFirst, isLast,
        Option.map_some, Token.tree_start, Token.tree_stop, Token.tree]
  · cases done

section Runs

variable {symbol : Symbol} {index : Nat} {parts : List (Child V)} {stop : Position}
  {node : Token V} {chart made : Chart V}

theorem ofRun?_none {leading : List (Branch V)} : ofRun? symbol index leading none = none :=
  rfl

theorem ofRun?_empty :
    ofRun? symbol index [] (some (Run.erase (([], stop) : Run V))) = none :=
  rfl

theorem ofRun?_parts (done : Chart.makeNode symbol index parts chart = (some node, made)) :
    ofRun? symbol index [] (some (Run.erase (parts, stop))) = some node.tree :=
  over?_branches done

theorem ofRun?_behind {label : Option String} {best : Token V}
    (done : Chart.makeNode symbol index (⟨label, best⟩ :: parts) chart = (some node, made)) :
    ofRun? symbol index [⟨label, best.tree⟩] (some (Run.erase (parts, stop))) =
      some node.tree :=
  over?_branches done

end Runs

theorem better_some (best : Option (Token V)) (node : Token V) :
    better (best.map Token.tree) (some node.tree) =
      (if Chart.reachesFurther node best then some node else best).map Token.tree := by
  cases best with
  | none => rfl
  | some best =>
      simp only [better, longer, Option.map_some, Token.tree_stop, Chart.reachesFurther,
        decide_eq_true_eq]
      split
      · rfl
      · rfl

theorem longer_of_lt {best node : Token V} (further : best.stop.offset < node.stop.offset) :
    best.tree.longer (some node.tree) = node.tree := by
  rw [longer, if_pos (by rw [Token.tree_stop, Token.tree_stop]; exact further)]

theorem longer_of_not_lt {best node : Token V}
    (short : ¬ best.stop.offset < node.stop.offset) :
    best.tree.longer (some node.tree) = best.tree := by
  rw [longer, if_neg (by rw [Token.tree_stop, Token.tree_stop]; exact short)]

end Tree

/-! ### Leaves -/

namespace LexicalCell.Scanned

variable {input : Input V} {cell : LexicalCell V}

theorem scanAt?_eq (scanned : cell.Scanned input) :
    input.scanAt? cell.position =
      some (scan input.grammar ⟨cell.position, [], cell.position, cell.rest⟩).1 := by
  rw [Input.scanAt?, scanned.rest?]
  rfl

theorem leafAt?_eq (scanned : cell.Scanned input) (symbol : Symbol) :
    input.leafAt? cell.position symbol = (cell.leaf? symbol).map Leaf.tree := by
  have same : cell.toLanding.rest =
    Landing.rest ⟨cell.position, [], cell.position, cell.rest⟩ := rfl
  have leaves := scan_moveTo same input.grammar
  rw [scanned.scanned] at leaves
  rw [Input.leafAt?, scanned.scanAt?_eq, Option.bind_some]
  change (List.find? _ _).map _ = _
  rw [leaves, List.find?_map, Option.map_map]
  change (cell.leaf? symbol).map _ = _
  cases found : cell.leaf? symbol with
  | none => rfl
  | some leaf =>
      have fits := scanned.leaf_fits found
      simp [Leaf.tree, Leaf.moveTo, fits.start, fits.stop]

theorem literalAt?_eq (scanned : cell.Scanned input) (text : String) :
    input.literalAt? cell.position text = (cell.literal? text).map Leaf.tree := by
  rw [Input.literalAt?, scanned.scanAt?_eq, Option.bind_some]
  unfold literal?
  change (if text.toList.isPrefixOf cell.rest then _ else _ : Option (Leaf V)).map _ = _
  split
  · rfl
  · rfl

end LexicalCell.Scanned

end Packrat
