import Packrat.Proofs.Json.Complete
import Packrat.Proofs.Json.Sound
import Packrat.Proofs.Reading.Whole

/-!
Reading whole texts. A text is read exactly if it is a document, up to blank text before each lexeme
and at the end, in which all names of members can be decoded; what is read is the value of the
document (`Document.read_eq_some_iff`).
-/

set_option autoImplicit false

namespace Packrat.Json

theorem sourced_wellFormed (source : List Char) : (sourced source).grammar.WellFormed :=
  Grammar.build_wellFormed grammar_eq

/-- No text of a terminal is empty, and a value begins with an array or an object only, which begin
with their brackets. -/
theorem sourced_guarded (source : List Char) : (sourced source).Guarded where
  literals := by
    change ∀ rule ∈ ready.rules, _
    decide
  terminals := by
    intro origin landing _ terminal listed leaf candidate scanned
    have covers {language : Lang} {starts : CharSet} (begins : language.Begins starts)
        (belongs : language leaf.text) : leaf.text ≠ [] := by
      obtain ⟨c, tail, isText, -⟩ := begins _ belongs
      rw [isText]
      exact List.cons_ne_nil c tail
    simp only [sourced, Grammar.on, ready, List.mem_cons, List.not_mem_nil, or_false] at listed
    rcases listed with rfl | rfl | rfl
    · exact covers string_begins (string_spells.matched scanned).2.1.1
    · exact covers number_begins (number_spells.matched scanned).2.1.1
    · exact covers keywords_begin (keyword_spells.matched scanned).2.1.1
  acyclic := by
    refine Grammar.acyclic_of_rank (fun symbol => if symbol = valueSymbol then 1 else 0) ?_
    change ∀ rule ∈ ready.rules, ∀ alternative ∈ _, _ → ∀ corner ∈ _,
      ready.isRule corner = true → _
    decide

section Reading

variable {text : List Char}

theorem Document.parse_complete {document : Document}
    (spaced : Spaced ready.isBlank document.lexemes text) :
    ∃ root, (ready.parse text).root = some root ∧ document.Shows root.tree ∧
      (ready.parse text).isComplete = true := by
  have ahead : (sourced text).Awaits .start (document.lexemes ++ []) := by
    rw [List.append_nil]
    exact (Input.Awaits.start (sourced text) document.lexemes).2 spaced
  obtain ⟨landing, tree, shown, read⟩ := document.reads .nil ahead
  obtain ⟨root, isRoot, rfl, complete⟩ :=
    Grammar.parse_of_reads (sourced_wellFormed text) (sourced_guarded text) read
  exact ⟨root, isRoot, shown, complete⟩

theorem Document.of_parse_complete (complete : (ready.parse text).isComplete = true) :
    ∃ (document : Document) (root : Token Json), (ready.parse text).root = some root ∧
      document.Shows root.tree ∧ Spaced ready.isBlank document.lexemes text := by
  obtain ⟨root, cell, isRoot, arena, scanned, derived, spaced⟩ :=
    Grammar.derived_of_complete (sourced_wellFormed text) complete
  obtain ⟨document, shown, written⟩ := Document.of_derived arena root cell scanned derived
  rw [written] at spaced
  exact ⟨document, root, isRoot, shown, spaced⟩

theorem Document.parse_value {document : Document} {root : Token Json}
    (isRoot : (ready.parse text).root = some root) (shown : document.Shows root.tree) :
    (ready.parse text).value.1 = if document.keysDecode then some document.image else none := by
  have value := Grammar.parse_value (sourced text) (sourced_wellFormed text) ready_plain
  change (ready.parse text).value.1 = (ready.parse text).root.bind _ at value
  rw [value, isRoot, Option.bind_some]
  exact document.worth shown

theorem read_eq (text : List Char) :
    read text = if (ready.parse text).isComplete then (ready.parse text).value.1 else none := by
  rw [read, grammar_eq]

theorem Document.read_eq {document : Document}
    (spaced : Spaced ready.isBlank document.lexemes text) :
    read text = if document.keysDecode then some document.image else none := by
  obtain ⟨root, isRoot, shown, complete⟩ := document.parse_complete spaced
  rw [Json.read_eq, if_pos complete, parse_value isRoot shown]

theorem read_none
    (noDocument : ∀ document : Document, ¬ Spaced ready.isBlank document.lexemes text) :
    read text = none := by
  rw [read_eq, if_neg]
  intro complete
  obtain ⟨document, -, -, -, spaced⟩ := Document.of_parse_complete complete
  exact noDocument document spaced

/-- Reading gives a value exactly if the text is a document with this value whose names can all be
decoded, and nothing in all other cases. -/
theorem read_exact (text : List Char) :
    (∀ value, read text = some value ↔
      ∃ document : Document, Spaced ready.isBlank document.lexemes text ∧
        document.keysDecode = true ∧ document.image = value) ∧
    (read text = none ↔
      ∀ document : Document, Spaced ready.isBlank document.lexemes text →
        document.keysDecode = false) := by
  have values (value : Json) : read text = some value ↔
      ∃ document : Document, Spaced ready.isBlank document.lexemes text ∧
        document.keysDecode = true ∧ document.image = value := by
    constructor
    · intro isValue
      by_cases isDocument : ∃ document : Document, Spaced ready.isBlank document.lexemes text
      · obtain ⟨document, spaced⟩ := isDocument
        rw [Document.read_eq spaced] at isValue
        split at isValue
        · next decodes => exact ⟨document, spaced, decodes, Option.some.inj isValue⟩
        · cases isValue
      · rw [read_none fun document spaced => isDocument ⟨document, spaced⟩] at isValue
        cases isValue
    · rintro ⟨document, spaced, decodes, rfl⟩
      rw [Document.read_eq spaced, if_pos decodes]
  refine ⟨values, ?_⟩
  rw [Option.eq_none_iff_forall_ne_some]
  constructor
  · intro nothing document spaced
    exact eq_false_of_ne_true fun decodes =>
      nothing document.image ((values _).2 ⟨document, spaced, decodes, rfl⟩)
  · intro undecodable value isValue
    obtain ⟨document, spaced, decodes, -⟩ := (values value).1 isValue
    cases decodes.symm.trans (undecodable document spaced)

end Reading

end Packrat.Json
