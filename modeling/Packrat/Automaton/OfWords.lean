import Packrat.Automaton.Extent

/-!
Automata for any one of several words, the earlier preferred. The words form a tree. Words that go
on with the same byte share what comes next, but not across the end of another word that stands
between them in the order of preference.
-/

set_option autoImplicit false

namespace Packrat.Automaton

def runs : List (List UInt8) → List (List (List UInt8))
  | [] => [[]]
  | [] :: rest => [] :: runs rest
  | (byte :: word) :: rest =>
    match runs rest with
    | run :: others => ((byte :: word) :: run) :: others
    | [] => [[byte :: word]]

/-- Words that stand at the same place of the tree; of those that come to their end before any
other goes on, only the first counts. -/
def trimmed (words : List (List UInt8)) : List (List UInt8) :=
  (words.takeWhile List.isEmpty).take 1 ++ words.dropWhile List.isEmpty

def after (byte : UInt8) (run : List (List UInt8)) : List (List UInt8) :=
  (run.filter fun word => word.head? == some byte).map List.tail

def nextBytes (run : List (List UInt8)) : List UInt8 :=
  (run.filterMap List.head?).eraseDups

/-- The part of the tree below a place, for words that are so many bytes long at most. A place where
words go on is a fork with a branch for each end and each run, and each run is a state. -/
def treeExtent : (length : Nat) → List (List UInt8) → Extent
  | 0, _ => {}
  | length + 1, words =>
    if words.all List.isEmpty then {}
    else
      let all := runs (trimmed words)
      let going := all.filter fun run => !run.isEmpty
      let fork : Extent := ⟨1, 4 * (all.length - 1 + going.length)⟩
      going.foldl
        (fun extent run =>
          let bytes := nextBytes run
          let state : Extent := ⟨1, if bytes.length = 1 then 0 else 8 * bytes.length⟩
          bytes.foldl (fun extent byte => extent.add (treeExtent length (after byte run)))
            (extent.add state))
        fork

def ofWords (words : List (List UInt8)) : Growth :=
  let length := words.foldl (fun length word => max length word.length) 0
  let tree := treeExtent length words
  grow (tree.states + 1) tree.extra

end Packrat.Automaton
