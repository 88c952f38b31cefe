import Packrat.Proofs.Json.Escapes
import Packrat.Proofs.Json.Read

/-!
Reading strings. However the characters of a string are spelled, the literal is one match of its
terminal, and a document that consists of it is the string (`read_spelled`).
-/

set_option autoImplicit false

namespace Packrat.Json

section Reading

variable {text : String} {pieces : List (List Char)}

theorem decode?_spelled (spelled : List.Forall₂ Spelled text.toList pieces) :
    decode? (quoted pieces.flatten) = some text.toList := by
  rw [decode?_quoted, unescape?_flatten (spelled.imp fun _ _ => .spelled)]

theorem stringValue_spelled (spelled : List.Forall₂ Spelled text.toList pieces) :
    stringValue (quoted pieces.flatten) = .string text := by
  rw [stringValue, decode?_spelled spelled]
  simp only [String.ofList_toList]

/-- Where a literal stands, whatever follows it, its terminal matches all of it. -/
theorem spelled_found (spelled : List.Forall₂ Spelled text.toList pieces) {landing : Landing}
    {after : List Char} (split : landing.rest = quoted pieces.flatten ++ after) :
    (LexicalCell.scan ready landing).1.leaf? stringSymbol =
      some (landing.leaf stringSymbol (quoted pieces.flatten) (some (.string text))) := by
  rw [string_leaf, string_found split (stringText_flatten spelled), stringValue_spelled spelled]

/-- A string is read from every literal that spells it, with any blank text around the literal. -/
theorem read_spelled {before after : List Char}
    (spelled : List.Forall₂ Spelled text.toList pieces)
    (blankBefore : ∀ c ∈ before, c ∈ [' ', '\t', '\r', '\n'])
    (blankAfter : ∀ c ∈ after, c ∈ [' ', '\t', '\r', '\n']) :
    (∀ (landing : Landing) (behind : List Char),
      landing.rest = quoted pieces.flatten ++ behind →
        (LexicalCell.scan ready landing).1.leaf? stringSymbol =
          some (landing.leaf stringSymbol (quoted pieces.flatten) (some (.string text)))) ∧
    read (before ++ (quoted pieces.flatten ++ after)) = some (.string text) := by
  refine ⟨fun landing behind split => spelled_found spelled split, ?_⟩
  have isBlank {gap : List Char} (blank : ∀ c ∈ gap, c ∈ [' ', '\t', '\r', '\n']) :
      ∀ c ∈ gap, ready.isBlank c = true :=
    fun c member => List.contains_iff_mem.2 (blank c member)
  let document : Document := .atom (.string (quoted pieces.flatten) (stringText_flatten spelled))
  have spaced : Spaced ready.isBlank document.lexemes
      (before ++ (quoted pieces.flatten ++ after)) :=
    .lexeme (isBlank blankBefore) (.finish (isBlank blankAfter))
  have decodes : document.keysDecode = true := rfl
  have image : document.image = .string text := stringValue_spelled spelled
  rw [Document.read_eq spaced, if_pos decodes, image]

/-- A quote and a slash in two characters each, a line feed and an accented letter in four digits of
either letter case, and a character beyond the first plane as it is. -/
def spellings : List (List Char) :=
  [['\\', '"'], ['\\', '/'], ['\\', 'u', '0', '0', '0', 'a'], ['😀'],
    ['\\', 'u', '0', '0', 'E', '9']]

theorem spellings_read :
    List.Forall₂ Spelled (String.ofList ['"', '/', '\n', '😀', 'é']).toList spellings ∧
      read (['\t'] ++ (quoted spellings.flatten ++ [' ', '\n'])) =
        some (.string (String.ofList ['"', '/', '\n', '😀', 'é'])) := by
  have lineFeed : Code ['0', '0', '0', 'a'] '\n'.toNat := ⟨rfl, rfl⟩
  have accented : Code ['0', '0', 'E', '9'] 'é'.toNat := ⟨rfl, rfl⟩
  have spelled :
      List.Forall₂ Spelled (String.ofList ['"', '/', '\n', '😀', 'é']).toList spellings := by
    rw [String.toList_ofList]
    exact .cons (.short (by decide)) (.cons (.short (by decide)) (.cons (.code lineFeed)
      (.cons (.plain (by decide) (by decide) (by decide)) (.cons (.code accented) .nil))))
  have blankAfter : ∀ c ∈ [' ', '\n'], c ∈ [' ', '\t', '\r', '\n'] :=
    List.forall_mem_cons.2 ⟨by decide, List.forall_mem_singleton.2 (by decide)⟩
  exact ⟨spelled, (read_spelled spelled (List.forall_mem_singleton.2 (by decide)) blankAfter).2⟩

end Reading

end Packrat.Json
