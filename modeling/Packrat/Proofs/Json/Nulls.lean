import Mathlib.Data.List.Basic
import Packrat.Proofs.Json.Read

/-!
Which parts of a document are read as null. The scalars of the value of a document are the values of
its atoms, at the same places and in the same order (`Document.scalars_image`). So null is read
exactly where the keyword stands, or a string that cannot be decoded (`nulls_exact`); the latter is
why not every null is a keyword (`nulls_not_exact`).
-/

set_option autoImplicit false

namespace Packrat.Json

/-! ### Places -/

abbrev Place : Type := List Nat

def placed {α : Type} (rows : List (List (Place × α))) : List (Place × α) :=
  rows.zipIdx.flatMap fun (row, index) => row.map (Prod.map (index :: ·) id)

mutual

/-- The parts of a value that have no parts themselves, with their places, in order. -/
def scalars : Json → List (Place × Json)
  | .array items => placed (scalarsOfItems items)
  | .object members => placed (scalarsOfMembers members)
  | scalar => [([], scalar)]

def scalarsOfItems : List Json → List (List (Place × Json))
  | [] => []
  | item :: rest => item.scalars :: scalarsOfItems rest

def scalarsOfMembers : List (String × Json) → List (List (Place × Json))
  | [] => []
  | (_, value) :: rest => value.scalars :: scalarsOfMembers rest

end

def isNull : Json → Bool
  | .null => true
  | _ => false

/-- The places of all nulls in a value, in order. -/
def nulls (value : Json) : List Place :=
  (value.scalars.filter fun entry => entry.2.isNull).map Prod.fst

mutual

/-- The atoms of a document with their places, in order. Names of members are no atoms. -/
def Document.atoms : Document → List (Place × Atom)
  | .atom content => [([], content)]
  | .array items => placed (Document.atomsOfItems items)
  | .object members => placed (Document.atomsOfMembers members)

def Document.atomsOfItems : List Document → List (List (Place × Atom))
  | [] => []
  | item :: rest => item.atoms :: Document.atomsOfItems rest

def Document.atomsOfMembers : List (Key × Document) → List (List (Place × Atom))
  | [] => []
  | (_, value) :: rest => value.atoms :: Document.atomsOfMembers rest

end

def Document.places (document : Document) (kind : Atom → Bool) : List Place :=
  (document.atoms.filter fun entry => kind entry.2).map Prod.fst

theorem placed_contents {α : Type} (rows : List (List (Place × α))) :
    (placed rows).map Prod.snd = rows.flatten.map Prod.snd := by
  have contents (index : Nat) (row : List (Place × α)) :
      (row.map (Prod.map (index :: ·) id)).map Prod.snd = row.map Prod.snd := by
    rw [List.map_map]
    rfl
  calc (placed rows).map Prod.snd
      = rows.zipIdx.flatMap fun entry => entry.1.map Prod.snd := by
        rw [placed, List.map_flatMap]
        simp only [contents]
    _ = (rows.zipIdx.map Prod.fst).flatMap (List.map Prod.snd) := by rw [List.flatMap_map]
    _ = rows.flatten.map Prod.snd := by
        rw [List.zipIdx_map_fst, List.map_flatten, List.flatMap_def]

theorem placed_map {α β : Type} (rows : List (List (Place × α))) (f : α → β) :
    placed (rows.map (List.map (Prod.map id f))) = (placed rows).map (Prod.map id f) := by
  rw [placed, placed, List.zipIdx_map, List.flatMap_map, List.map_flatMap]
  congr 1
  funext entry
  simp only [Prod.map, List.map_map, id]
  rfl

/-! ### Values of atoms -/

def nullWord : List Char := ['n', 'u', 'l', 'l']

namespace Atom

def isNullWord (atom : Atom) : Bool :=
  atom.text == nullWord

def isUndecodable : Atom → Bool
  | .string text _ => (decode? text).isNone
  | _ => false

theorem scalars_value (atom : Atom) : atom.value.scalars = [([], atom.value)] := by
  cases atom with
  | string text isString =>
      rw [value, stringValue]
      split <;> rfl
  | number text isNumber => rfl
  | keyword text listed =>
      rw [value, keywordValue]
      split
      · rfl
      · split <;> rfl

/-- What begins with other characters than keywords is not the keyword for null. -/
theorem not_nullWord {language : Lang} {starts : CharSet} {text : List Char}
    (begins : language.Begins starts) (apart : starts.mem 'n' = false) (belongs : language text) :
    (text == nullWord) = false := by
  obtain ⟨c, tail, rfl, member⟩ := begins text belongs
  rw [beq_eq_false_iff_ne]
  rintro ⟨⟩
  cases member.symm.trans apart

theorem isNull_value (atom : Atom) :
    atom.value.isNull = (atom.isNullWord || atom.isUndecodable) := by
  cases atom with
  | string text isString =>
      have noWord : (Atom.string text isString).isNullWord = false :=
        not_nullWord string_begins (by decide) isString
      rw [noWord, Bool.false_or, value, stringValue, isUndecodable]
      cases decode? text <;> rfl
  | number text isNumber =>
      have noWord : (Atom.number text isNumber).isNullWord = false :=
        not_nullWord number_begins (by decide) isNumber
      rw [noWord]
      rfl
  | keyword text listed =>
      simp only [keywords, List.mem_cons, List.not_mem_nil, or_false] at listed
      rcases listed with rfl | rfl | rfl <;> rfl

end Atom

mutual

theorem Document.scalars_image (document : Document) :
    document.image.scalars = document.atoms.map (Prod.map id Atom.value) := by
  cases document with
  | atom content => exact content.scalars_value
  | array items =>
      rw [image, scalars, atoms, scalars_itemImages items, placed_map]
  | object members =>
      rw [image, scalars, atoms, scalars_memberImages members, placed_map]

theorem Document.scalars_itemImages (items : List Document) :
    scalarsOfItems (itemImages items) =
      (atomsOfItems items).map (List.map (Prod.map id Atom.value)) := by
  cases items with
  | nil => rfl
  | cons item rest =>
      rw [itemImages, scalarsOfItems, atomsOfItems, List.map_cons, scalars_image item,
        scalars_itemImages rest]

theorem Document.scalars_memberImages (members : List (Key × Document)) :
    scalarsOfMembers (memberImages members) =
      (atomsOfMembers members).map (List.map (Prod.map id Atom.value)) := by
  cases members with
  | nil => rfl
  | cons member rest =>
      rcases member with ⟨key, value⟩
      rw [memberImages, scalarsOfMembers, atomsOfMembers, List.map_cons, scalars_image value,
        scalars_memberImages rest]

end

/-! ### Keywords among the lexemes -/

def nullWords (lexemes : List (List Char)) : List (List Char) :=
  lexemes.filter (· == nullWord)

theorem nullWords_append (first second : List (List Char)) :
    nullWords (first ++ second) = nullWords first ++ nullWords second :=
  List.filter_append ..

theorem nullWords_cons {lexeme : List Char} (other : (lexeme == nullWord) = false)
    (more : List (List Char)) : nullWords (lexeme :: more) = nullWords more :=
  List.filter_cons_of_neg (by rw [other]; exact Bool.false_ne_true)

theorem nullWords_separated (rows : List (List (List Char))) :
    nullWords (separated rows) = nullWords rows.flatten := by
  cases rows with
  | nil => rfl
  | cons first rest =>
      have noComma (row : List (List Char)) : nullWords ([','] :: row) = nullWords row :=
        nullWords_cons rfl row
      calc nullWords (separated (first :: rest))
          = nullWords first ++ rest.flatMap fun row => nullWords ([','] :: row) := by
            rw [separated, nullWords_append, nullWords, nullWords, List.filter_flatMap]
            rfl
        _ = nullWords (first :: rest).flatten := by
            simp only [noComma]
            rw [List.flatten_cons, nullWords_append, List.flatMap_def]
            exact congrArg _ (List.filter_flatten ..).symm

theorem nullWords_enclosed {opening closing : List Char} (rows : List (List (List Char)))
    (opens : (opening == nullWord) = false) (closes : (closing == nullWord) = false) :
    nullWords (opening :: (separated rows ++ [closing])) = nullWords rows.flatten := by
  rw [nullWords_cons opens, nullWords_append, nullWords_cons closes, nullWords_separated]
  exact List.append_nil _

def wordsOf (atoms : List (Place × Atom)) : List (List Char) :=
  (atoms.map Prod.snd).map Atom.text

theorem wordsOf_placed (rows : List (List (Place × Atom))) :
    wordsOf (placed rows) = wordsOf rows.flatten :=
  congrArg (List.map Atom.text) (placed_contents rows)

theorem wordsOf_append (first second : List (Place × Atom)) :
    wordsOf (first ++ second) = wordsOf first ++ wordsOf second := by
  rw [wordsOf, wordsOf, wordsOf, List.map_append, List.map_append]

/-! The keyword for null stands in a document as an atom only: names of members are strings, and all
other lexemes are brackets, commas and colons. -/

mutual

theorem Document.nullWords_lexemes (document : Document) :
    nullWords document.lexemes = nullWords (wordsOf document.atoms) := by
  cases document with
  | atom content => rfl
  | array items =>
      rw [lexemes, atoms, wordsOf_placed, nullWords_enclosed _ rfl rfl, nullWords_itemRows items]
  | object members =>
      rw [lexemes, atoms, wordsOf_placed, nullWords_enclosed _ rfl rfl,
        nullWords_memberRows members]

theorem Document.nullWords_itemRows (items : List Document) :
    nullWords (itemRows items).flatten = nullWords (wordsOf (atomsOfItems items).flatten) := by
  cases items with
  | nil => rfl
  | cons item rest =>
      rw [itemRows, atomsOfItems, List.flatten_cons, List.flatten_cons, nullWords_append,
        wordsOf_append, nullWords_append, nullWords_lexemes item, nullWords_itemRows rest]

theorem Document.nullWords_memberRows (members : List (Key × Document)) :
    nullWords (memberRows members).flatten =
      nullWords (wordsOf (atomsOfMembers members).flatten) := by
  cases members with
  | nil => rfl
  | cons member rest =>
      rcases member with ⟨key, value⟩
      have noKey : (key.text == nullWord) = false :=
        Atom.not_nullWord string_begins (by decide) key.isString
      rw [memberRows, atomsOfMembers, List.flatten_cons, List.flatten_cons, nullWords_append,
        wordsOf_append, nullWords_append, nullWords_cons noKey, nullWords_cons rfl,
        nullWords_lexemes value, nullWords_memberRows rest]

end

/-! ### Reading -/

theorem Document.nulls_image (document : Document) :
    document.image.nulls =
      document.places fun atom => atom.isNullWord || atom.isUndecodable := by
  have same : ((fun entry : Place × Json => entry.2.isNull) ∘ Prod.map id Atom.value) =
      fun entry => entry.2.isNullWord || entry.2.isUndecodable :=
    funext fun entry => entry.2.isNull_value
  rw [nulls, places, scalars_image, List.filter_map, same, List.map_map]
  rfl

/-- The string that a literal in the place of a value stands for is found at the same place. -/
theorem Document.string_in_scalars {document : Document} {place : Place} {literal : List Char}
    {isString : StringText literal} {decoded : List Char}
    (listed : (place, Atom.string literal isString) ∈ document.atoms)
    (decodes : decode? literal = some decoded) :
    (place, .string (String.ofList decoded)) ∈ document.image.scalars := by
  rw [scalars_image, List.mem_map]
  refine ⟨_, listed, ?_⟩
  rw [Prod.map_apply, Atom.value, stringValue, decodes]
  rfl

/-- A document that is read has a null at the place of each keyword for null and of each string
literal that cannot be decoded, and no other nulls. Each string literal that can be decoded is read
as a string. -/
theorem nulls_exact {text : List Char} {value : Json} (isValue : read text = some value) :
    (∃ document : Document, Spaced ready.isBlank document.lexemes text) ∧
    ∀ document : Document, Spaced ready.isBlank document.lexemes text →
      nullWords document.lexemes = nullWords (wordsOf document.atoms) ∧
      value.nulls = document.places (fun atom => atom.isNullWord || atom.isUndecodable) ∧
      ∀ place literal isString decoded,
        (place, Atom.string literal isString) ∈ document.atoms → decode? literal = some decoded →
          (place, .string (String.ofList decoded)) ∈ value.scalars := by
  refine ⟨?_, fun document spaced => ?_⟩
  · by_contra noDocument
    rw [read_none fun document spaced => noDocument ⟨document, spaced⟩] at isValue
    cases isValue
  · have isImage : document.image = value := by
      rw [Document.read_eq spaced] at isValue
      split at isValue
      · exact Option.some.inj isValue
      · cases isValue
    rw [← isImage]
    exact ⟨document.nullWords_lexemes, document.nulls_image,
      fun _ _ _ _ listed decodes => Document.string_in_scalars listed decodes⟩

def badEscape : Atom :=
  .string ['"', '\\', 'q', '"'] ⟨_, _, rfl, by decide, .escape (by decide) .close⟩

def mixedDocument : Document :=
  .object [(⟨['"', '"'], ⟨_, _, rfl, by decide, .close⟩⟩,
    .array [
      .atom badEscape,
      .atom (.keyword nullWord (by decide)),
      .atom (.string ['"', 'n', '"'] ⟨_, _, rfl, by decide, .plain (by decide) .close⟩)])]

theorem mixedDocument_nulls :
    read mixedDocument.lexemes.flatten = some mixedDocument.image ∧
      mixedDocument.image = .object [("", .array [.null, .null, .string "n"])] ∧
      nullWords mixedDocument.lexemes = [nullWord] ∧
      mixedDocument.places Atom.isNullWord = [[0, 1]] ∧
      mixedDocument.image.nulls = [[0, 0], [0, 1]] ∧
      ([0, 2], .string "n") ∈ mixedDocument.image.scalars := by
  have spaced : Spaced ready.isBlank mixedDocument.lexemes mixedDocument.lexemes.flatten :=
    .tight mixedDocument.lexemes
  have decodes : mixedDocument.keysDecode = true := rfl
  have isValue : read mixedDocument.lexemes.flatten = some mixedDocument.image := by
    rw [Document.read_eq spaced, if_pos decodes]
  obtain ⟨words, nulls, strings⟩ := (nulls_exact isValue).2 mixedDocument spaced
  have last : ([0, 2], Atom.string ['"', 'n', '"']
      ⟨_, _, rfl, by decide, .plain (by decide) .close⟩) ∈ mixedDocument.atoms := by
    simp [mixedDocument, Document.atoms, Document.atomsOfMembers, Document.atomsOfItems, placed]
  exact ⟨isValue, rfl, words, rfl, nulls, strings _ _ _ ['n'] last (by decide)⟩

/-- A string whose escapes cannot be replaced is a document, and is read as null. -/
theorem nulls_not_exact :
    read badEscape.text = some .null ∧ Json.null.nulls = [[]] ∧
      Spaced ready.isBlank (Document.atom badEscape).lexemes badEscape.text ∧
      (Document.atom badEscape).places Atom.isNullWord = [] ∧
      nullWords (Document.atom badEscape).lexemes = [] := by
  have spaced : Spaced ready.isBlank (Document.atom badEscape).lexemes badEscape.text :=
    .tight (Document.atom badEscape).lexemes
  have isNull : (Document.atom badEscape).image = .null := rfl
  refine ⟨?_, rfl, spaced, rfl, rfl⟩
  exact (Document.read_eq spaced).trans ((if_pos rfl).trans (congrArg some isNull))

end Packrat.Json
