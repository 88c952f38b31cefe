import Packrat.Proofs.Evaluation.Lookups
import Packrat.Proofs.Json.Document
import Packrat.Proofs.Reading.Frontier

/-!
The values of trees of documents. A token whose tree shows a document is worth the image of the
document if all names of members can be decoded, and nothing otherwise (`Document.worth`).
-/

set_option autoImplicit false

namespace Packrat

namespace Json

def sourced (source : List Char) : Input Json :=
  ready.on source

variable {source : List Char}

/-! ### Value functions -/

/-- A name and a value, if the name is a string. -/
def pairUp : Option Json × Option Json → Option (String × Json) := fun (name, value) => do
  return (← name.bind Json.string?, ← value)

section Lookups

variable {answers : Nat → List Nat → Option Json} {scope : Scope Json} {cursor : Nat}

theorem settle_memberValues (pairs : List (Nat × Nat)) (found : List (String × Json)) :
    (memberValues pairs found scope cursor).settle answers =
      (((pairs.map (Prod.map (answers · []) (answers · []))).mapM pairUp).map (found.reverse ++ ·),
        cursor) := by
  induction pairs generalizing found with
  | nil => simp [memberValues, Lookup.settle_pure]
  | cons pair rest ih =>
      rcases pair with ⟨key, value⟩
      rw [memberValues, Lookup.settle_bind, Lookup.settle_valueAt]
      cases named : (answers key []).bind Json.string? with
      | none => simp [named, Lookup.settle_pure, pairUp]
      | some name =>
          simp only
          rw [Lookup.settle_bind, Lookup.settle_valueAt]
          cases answered : answers value [] with
          | none => simp [named, answered, Lookup.settle_pure, pairUp]
          | some found' =>
              change (memberValues rest ((name, found') :: found) scope cursor).settle answers = _
              rw [ih]
              cases others : (rest.map (Prod.map (answers · []) (answers · []))).mapM pairUp with
              | none => simp [named, answered, others, pairUp]
              | some members => simp [named, answered, others, pairUp]

theorem settle_arrayValue :
    (arrayValue scope cursor).settle answers =
      ((((Lookup.labelIndices itemLabel scope.children).map (answers · [])).mapM id).map Json.array,
        cursor) := by
  rw [arrayValue, Lookup.settle_bind, Lookup.settle_labelledValues]
  rfl

theorem settle_objectValue :
    (objectValue scope cursor).settle answers =
      (((((Lookup.labelIndices keyLabel scope.children).map (answers · [])).zip
          ((Lookup.labelIndices valueLabel scope.children).map (answers · []))).mapM pairUp).map
            Json.object, cursor) := by
  rw [objectValue, Lookup.settle_bind, Lookup.settle_scope]
  simp only
  rw [Lookup.settle_bind, settle_memberValues, List.zip_map]
  simp [Lookup.settle_pure]

theorem plain_memberValues (pairs : List (Nat × Nat)) (found : List (String × Json)) :
    (memberValues pairs found).Plain := by
  induction pairs generalizing found with
  | nil => exact .pure _
  | cons pair rest ih =>
      rcases pair with ⟨key, value⟩
      refine (Lookup.plain_valueAt key).bind fun named => ?_
      cases named.bind Json.string? with
      | none => exact .pure _
      | some name =>
          refine (Lookup.plain_valueAt value).bind ?_
          rintro (_ | answer)
          · exact .pure _
          · exact ih _

end Lookups

theorem ready_plain : ready.Plain := by
  refine Grammar.plain_of_alternatives ?_
  have passes : (Resolver.function (Lookup.valueAt 0) : Resolver Json).lookup.Plain :=
    Lookup.plain_valueAt 0
  have arrays : (Resolver.function arrayValue).lookup.Plain :=
    (Lookup.plain_labelledValues itemLabel).bind fun _ => .pure _
  have objects : (Resolver.function objectValue).lookup.Plain :=
    Lookup.plain_scope.bind fun _ => (plain_memberValues _ _).bind fun _ => .pure _
  intro rule listed alternative listed' resolver has
  simp only [ready, List.mem_cons, List.not_mem_nil, or_false] at listed
  rcases listed with rfl | rfl | rfl
  · simp only [valueRule, List.mem_cons, List.not_mem_nil, or_false] at listed'
    rcases listed' with rfl | rfl | rfl
    · cases has
      exact passes
    · cases has
      exact passes
    · cases has
      exact passes
  · cases List.mem_singleton.1 listed'
    cases has
    exact arrays
  · cases List.mem_singleton.1 listed'
    cases has
    exact objects

/-! ### Values of nodes -/

section Nodes

variable {number index : Nat} {start stop : Position} {children : List (Child Json)}

/-- A document is worth what its only part is worth. -/
theorem worth_value {part : Child Json} (isIndex : index < 3) :
    (Token.node number valueSymbol index start stop [part]).worth (sourced source) =
      part.item.worth (sourced source) := by
  have resolved : (sourced source).grammar.resolver? valueSymbol index =
      some (.function (Lookup.valueAt 0)) := by
    match index, isIndex with
    | 0, _ => rfl
    | 1, _ => rfl
    | 2, _ => rfl
  rw [Token.worth_node resolved]
  rfl

theorem answers_labelled (label : String) :
    (Lookup.labelIndices label children).map
        (fun index => (Token.inside? children index []).bind (Token.worth (sourced source))) =
      (children.filter fun part => part.label == some label).map
        fun part => part.item.worth (sourced source) := by
  refine Lookup.map_labelIndices ?_ label
  intro index part isPart
  rw [Token.inside?, isPart]
  rfl

def worthsAt (input : Input Json) (label : String) (children : List (Child Json)) :
    List (Option Json) :=
  (children.filter fun part => part.label == some label).map fun part => part.item.worth input

theorem worth_array :
    (Token.node number arraySymbol 0 start stop children).worth (sourced source) =
      ((worthsAt (sourced source) itemLabel children).mapM id).map Json.array := by
  have resolved : (sourced source).grammar.resolver? arraySymbol 0 =
      some (.function arrayValue) := rfl
  rw [Token.worth_node resolved, Resolver.lookup, settle_arrayValue, worthsAt,
    ← answers_labelled]
  rfl

theorem worth_object :
    (Token.node number objectSymbol 0 start stop children).worth (sourced source) =
      (((worthsAt (sourced source) keyLabel children).zip
        (worthsAt (sourced source) valueLabel children)).mapM pairUp).map Json.object := by
  have resolved : (sourced source).grammar.resolver? objectSymbol 0 =
      some (.function objectValue) := rfl
  rw [Token.worth_node resolved, Resolver.lookup, settle_objectValue, worthsAt, worthsAt,
    ← answers_labelled, ← answers_labelled]
  rfl

theorem labelled_branches (label : String) (children : List (Child Json)) :
    labelled label (Token.branches children) =
      (children.filter fun part => part.label == some label).map fun part => part.item.tree := by
  rw [labelled, Token.branches_eq_map, List.filter_map, List.map_map]
  rfl

end Nodes

/-! ### Values of documents -/

theorem Key.pairUp (key : Key) (value : Option Json) :
    Json.pairUp (some (stringValue key.text), value) =
      if key.decodes then value.map fun found => (key.name, found) else none := by
  unfold Json.pairUp stringValue Key.decodes Key.name
  cases decode? key.text with
  | none => rfl
  | some decoded => cases value <;> rfl

mutual

theorem Document.worth (document : Document) {token : Token Json}
    (shows_ : document.Shows token.tree) :
    token.worth (sourced source) =
      if document.keysDecode then some document.image else none := by
  generalize same : token.tree = tree at shows_
  cases shows_ with
  | atom =>
      obtain ⟨number, children, rfl, parts⟩ := Token.of_tree_node same
      obtain ⟨inner, rfl, isInner⟩ := Token.of_branches_single parts
      obtain ⟨blank, leafNumber, rfl⟩ := Token.of_tree_leaf isInner
      rw [worth_value (by decide)]
      rfl
  | @array items _ _ _ _ parts show_ =>
      obtain ⟨number, children, rfl, isOuter⟩ := Token.of_tree_node same
      obtain ⟨inner, rfl, isInner⟩ := Token.of_branches_single isOuter
      obtain ⟨number', children, rfl, rfl⟩ := Token.of_tree_node isInner
      rw [labelled_branches] at show_
      rw [worth_value (by decide), worth_array, worthsAt, Items.worth items show_,
        Document.keysDecode, Document.image]
      split
      · rfl
      · rfl
  | @object members _ _ _ _ parts show_ =>
      obtain ⟨number, children, rfl, isOuter⟩ := Token.of_tree_node same
      obtain ⟨inner, rfl, isInner⟩ := Token.of_branches_single isOuter
      obtain ⟨number', children, rfl, rfl⟩ := Token.of_tree_node isInner
      rw [labelled_branches, labelled_branches] at show_
      rw [worth_value (by decide), worth_object, worthsAt, worthsAt, Members.worth members show_,
        Document.keysDecode, Document.image]
      split
      · rfl
      · rfl

theorem Items.worth (items : List Document) {kept : List (Child Json)}
    (show_ : Items.Show items (kept.map fun part => part.item.tree)) :
    (kept.map fun part => part.item.worth (sourced source)).mapM id =
      if Document.itemsDecode items then some (Document.itemImages items) else none := by
  cases items with
  | nil =>
      cases kept with
      | nil => rfl
      | cons part rest => cases show_
  | cons item others =>
      cases kept with
      | nil => cases show_
      | cons part rest =>
          cases show_ with
          | cons showsItem showOthers =>
              rw [List.map_cons, List.mapM_cons, Document.worth item showsItem,
                Items.worth others showOthers, Document.itemsDecode, Document.itemImages]
              cases item.keysDecode <;> cases Document.itemsDecode others <;> rfl

theorem Members.worth (members : List (Key × Document)) {keys values : List (Child Json)}
    (show_ : Members.Show members (keys.map fun part => part.item.tree)
      (values.map fun part => part.item.tree)) :
    ((keys.map fun part => part.item.worth (sourced source)).zip
        (values.map fun part => part.item.worth (sourced source))).mapM pairUp =
      if Document.membersDecode members then some (Document.memberImages members) else none := by
  cases members with
  | nil =>
      cases keys with
      | nil => rfl
      | cons part rest => cases show_
  | cons member others =>
      rcases member with ⟨key, value⟩
      cases keys with
      | nil => cases show_
      | cons name names =>
          cases values with
          | nil =>
              generalize List.map _ (name :: names) = trees at show_
              cases show_
          | cons part parts =>
              obtain ⟨⟨first, last, isKey⟩, showsValue, showOthers⟩ := show_.of_cons
              obtain ⟨blank, leafNumber, isLeaf⟩ := Token.of_tree_leaf isKey
              rw [List.map_cons, List.map_cons, List.zip_cons_cons, List.mapM_cons, isLeaf,
                Document.worth value showsValue, Members.worth others showOthers,
                Document.membersDecode, Document.memberImages]
              change (do
                let first ← pairUp (some (stringValue key.text), _)
                let others ← _
                pure (first :: others)) = _
              rw [Key.pairUp]
              cases key.decodes <;> cases value.keysDecode <;>
                cases Document.membersDecode others <;> rfl

end

end Json

end Packrat
