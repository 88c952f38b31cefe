import Packrat.Proofs.Evaluation.Worth

/-!
What lookups come to when all answers are given: the values under a label are the answers for the
parts with this label, in order, if all of them are there.
-/

set_option autoImplicit false
set_option linter.unusedSectionVars false

namespace Packrat

variable {V : Type}

namespace Lookup

variable {α β : Type} {answers : Nat → List Nat → Option V} {scope : Scope V} {cursor : Nat}

theorem settle_bind (lookup : Lookup V α) (next : α → Lookup V β) :
    ((lookup >>= next) scope cursor).settle answers =
      (next ((lookup scope cursor).settle answers).1 scope
        ((lookup scope cursor).settle answers).2).settle answers :=
  Query.settle_bind _ _

theorem settle_pure (result : α) :
    ((pure result : Lookup V α) scope cursor).settle answers = (result, cursor) := rfl

theorem settle_valueAt (index : Nat) :
    (valueAt index scope cursor).settle answers = (answers index [], cursor) := rfl

theorem settle_scope : ((Lookup.scope : Lookup V (Scope V)) scope cursor).settle answers =
    (scope, cursor) := rfl

theorem settle_note (what : Note) :
    (note what scope cursor : Query V (Unit × Nat)).settle answers = ((), cursor) := rfl

theorem settle_valuesAt (indices : List Nat) (found : List V) :
    (valuesAt indices found scope cursor).settle answers =
      (((indices.map (answers · [])).mapM id).map (found.reverse ++ ·), cursor) := by
  induction indices generalizing found with
  | nil => simp [valuesAt, settle_pure]
  | cons index rest ih =>
      rw [valuesAt, settle_bind, settle_valueAt]
      cases answered : answers index [] with
      | none => simp [settle_pure, answered]
      | some value =>
          change (valuesAt rest (value :: found) scope cursor).settle answers = _
          rw [ih]
          cases others : (rest.map (answers · [])).mapM id with
          | none => simp [answered, others]
          | some values => simp [answered, others]

theorem settle_labelledValues (label : String) :
    (labelledValues label scope cursor).settle answers =
      (((labelIndices label scope.children).map (answers · [])).mapM id, cursor) := by
  rw [labelledValues, settle_bind, settle_scope, settle_valuesAt]
  simp

theorem map_labelIndices {children : List (Child V)} {answers : Nat → Option V}
    {worth : Child V → Option V}
    (answered : ∀ index part, children[index]? = some part → answers index = worth part)
    (label : String) :
    (labelIndices label children).map answers =
      (children.filter fun part => part.label == some label).map worth := by
  have same : children.zipIdx.map Prod.fst = children := List.zipIdx_map_fst 0 children
  conv_rhs => rw [← same, List.filter_map, List.map_map]
  rw [labelIndices, List.map_map]
  apply List.map_congr_left
  rintro ⟨part, index⟩ member
  exact answered index part (List.mem_zipIdx_iff_getElem?.1 (List.mem_of_mem_filter member))

/-! ### Searching by kind -/

variable [Kinded V]

def ofKind (answers : Nat → List Nat → Option V) (kind : Kinded.Kind V) (index : Nat) :
    Option (V × Nat) :=
  (answers index []).bind fun value =>
    if Kinded.kind value = kind then some (value, index + 1) else none

theorem settle_findKind (kind : Kinded.Kind V) (index count : Nat) :
    (findKind kind index count).settle answers =
      (List.range' index count).findSome? (ofKind answers kind) := by
  induction count generalizing index with
  | zero => rfl
  | succ count ih =>
      rw [List.range'_succ, List.findSome?_cons, findKind, Query.settle, ofKind]
      cases answered : answers index [] with
      | none => exact ih (index + 1)
      | some value =>
          rw [Option.bind_some]
          dsimp only
          split
          · rfl
          · exact ih (index + 1)

theorem settle_nextOfKind (kind : Kinded.Kind V) :
    (nextOfKind kind scope cursor).settle answers =
      match (List.range' cursor (scope.children.length - cursor)).findSome?
        (ofKind answers kind) with
      | some (value, after) => (some value, after)
      | none => (none, cursor) := by
  rw [nextOfKind, Query.settle_bind, settle_findKind]
  cases (List.range' cursor (scope.children.length - cursor)).findSome? (ofKind answers kind) with
  | none => rfl
  | some found => rfl

theorem settle_nextOfKind_here {kind : Kinded.Kind V} {value : V}
    (within : cursor < scope.children.length) (answered : answers cursor [] = some value)
    (isKind : Kinded.kind value = kind) :
    (nextOfKind kind scope cursor).settle answers = (some value, cursor + 1) := by
  obtain ⟨count, size⟩ := Nat.exists_eq_add_of_lt within
  have remaining : scope.children.length - cursor = count + 1 := by omega
  rw [settle_nextOfKind, remaining, List.range'_succ, List.findSome?_cons, ofKind, answered,
    Option.bind_some, if_pos isKind]

theorem settle_nextOfKind_skip {kind : Kinded.Kind V} {value : V} {after : Nat}
    (within : cursor < scope.children.length) (skipped : answers cursor [] = none)
    (found : (nextOfKind kind scope (cursor + 1)).settle answers = (some value, after)) :
    (nextOfKind kind scope cursor).settle answers = (some value, after) := by
  obtain ⟨count, size⟩ := Nat.exists_eq_add_of_lt within
  have remaining : scope.children.length - cursor = count + 1 := by omega
  have behind : scope.children.length - (cursor + 1) = count := by omega
  rw [settle_nextOfKind, behind] at found
  rw [settle_nextOfKind, remaining, List.range'_succ, List.findSome?_cons, ofKind, skipped,
    Option.bind_none]
  dsimp only
  split at found
  · next isFound =>
      rw [isFound]
      exact found
  · cases found

end Lookup

/-! ### Cases -/

namespace Cases

variable [Kinded V] {answers : Nat → List Nat → Option V} {scope : Scope V} {cursor : Nat}

theorem settle_noteAll (notes : List Note) :
    (noteAll notes scope cursor : Query V (Unit × Nat)).settle answers = ((), cursor) := by
  induction notes with
  | nil => rfl
  | cons what rest ih =>
      rw [noteAll, Lookup.settle_bind, Lookup.settle_note]
      exact ih

theorem settle_gather_missing {kind : Kinded.Kind V} {rest : List (Kinded.Kind V)} {after : Nat}
    (missed : (Lookup.nextOfKind kind scope cursor).settle answers = (none, after)) :
    (gather (kind :: rest) scope cursor).settle answers = (none, after) := by
  rw [gather, Lookup.settle_bind, missed]
  rfl

theorem settle_gather_behind {kind : Kinded.Kind V} {rest : List (Kinded.Kind V)} {value : V}
    {after : Nat}
    (found : (Lookup.nextOfKind kind scope cursor).settle answers = (some value, after)) :
    (gather (kind :: rest) scope cursor).settle answers =
      ((gather rest scope after).settle answers).map (Option.map (value :: ·)) id := by
  rw [gather, Lookup.settle_bind, found]
  dsimp only
  rw [Lookup.settle_bind]
  rcases (gather rest scope after).settle answers with ⟨_ | others, last⟩
  · rfl
  · rfl

theorem settle_gather_cons (kind : Kinded.Kind V) (rest : List (Kinded.Kind V)) {value : V}
    {after last : Nat} {others : List V}
    (found : (Lookup.nextOfKind kind scope cursor).settle answers = (some value, after))
    (gathered : (gather rest scope after).settle answers = (some others, last)) :
    (gather (kind :: rest) scope cursor).settle answers = (some (value :: others), last) := by
  rw [settle_gather_behind found, gathered]
  rfl

theorem settle_applyFrom (index : Nat) {case : Case V} (rest : Cases V) {values : List V}
    {last : Nat} (gathered : (gather case.signature scope 0).settle answers = (some values, last)) :
    ((applyFrom index (case :: rest) scope cursor).settle answers).1 = case.transform values := by
  rw [applyFrom, Lookup.settle_bind]
  change (((gather case.signature >>= _) scope 0).settle answers).1 = _
  rw [Lookup.settle_bind, gathered]
  dsimp only
  rw [Lookup.settle_bind, Lookup.settle_note]
  dsimp only
  rw [Lookup.settle_bind, settle_noteAll]
  rfl

end Cases

end Packrat
