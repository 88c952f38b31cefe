import Packrat.Decimal.Reader
import Packrat.Grammar.Build
import Packrat.Json.Basic
import Packrat.Json.Escape
import Packrat.Parse
import Packrat.Regex.Engine

/-!
The grammar of JSON documents, and reading whole documents.
-/

set_option autoImplicit false

namespace Packrat.Json

/-! ### Symbols -/

def stringSymbol : Symbol := ⟨"STRING"⟩

def numberSymbol : Symbol := ⟨"NUMBER"⟩

def keywordSymbol : Symbol := ⟨"KEYWORD"⟩

def scalarSymbol : Symbol := ⟨"SCALAR"⟩

def valueSymbol : Symbol := ⟨"VALUE"⟩

def arraySymbol : Symbol := ⟨"ARRAY"⟩

def objectSymbol : Symbol := ⟨"OBJECT"⟩

/-! ### Values of terminals -/

def stringValue (text : List Char) : Json :=
  match decode? text with
  | some decoded => .string (String.ofList decoded)
  | none => .null

def numberValue (text : List Char) : Json :=
  .number ((Decimal.readDouble? text).getD Decimal.undefinedFloat)

def keywordValue (text : List Char) : Json :=
  if text = ['t', 'r', 'u', 'e'] then .bool true
  else if text = ['f', 'a', 'l', 's', 'e'] then .bool false
  else .null

/-! ### Values of rules -/

def itemLabel : String := "item"

def keyLabel : String := "key"

def valueLabel : String := "value"

def arrayValue : Lookup Json (Option Json) := do
  return (← Lookup.labelledValues itemLabel).map Json.array

/-- The members at the given places of names and values, if all names are strings and all values
are there. Those that have been found already come first, and are given the latest first. -/
def memberValues : List (Nat × Nat) → (found : List (String × Json)) →
    Lookup Json (Option (List (String × Json)))
  | [], found => pure (some found.reverse)
  | (key, value) :: rest, found => do
    match (← Lookup.valueAt key).bind Json.string? with
    | none => return none
    | some name =>
      match ← Lookup.valueAt value with
      | none => return none
      | some value => memberValues rest ((name, value) :: found)

def objectValue : Lookup Json (Option Json) := do
  let children := (← Lookup.scope).children
  let keys := Lookup.labelIndices keyLabel children
  let values := Lookup.labelIndices valueLabel children
  return (← memberValues (keys.zip values) []).map Json.object

/-! ### The grammar -/

def declarations : List (Declaration Json) :=
  [ .root valueSymbol,
    .terminal stringSymbol [
      .pattern (.pattern "\"([^\"\\\\\\x00-\\x1F]|\\\\.)*\""),
      .value stringValue],
    .terminal numberSymbol [
      .pattern (.pattern "-?(0|[1-9][0-9]*)(\\.[0-9]+)?([eE][+-]?[0-9]+)?"),
      .value numberValue],
    .terminal keywordSymbol [
      .pattern (.words ["true", "false", "null"]),
      .value keywordValue],
    .aliased scalarSymbol [stringSymbol, numberSymbol, keywordSymbol],
    .rule valueSymbol [
      .pattern [.symbol scalarSymbol],
      .pattern [.symbol arraySymbol],
      .pattern [.symbol objectSymbol],
      .value (.function (Lookup.valueAt 0))],
    .rule arraySymbol [
      .pattern [
        .literal "[",
        .optional [
          .labelled valueSymbol itemLabel,
          .many [.literal ",", .labelled valueSymbol itemLabel]],
        .literal "]"],
      .value (.function arrayValue)],
    .rule objectSymbol [
      .pattern [
        .literal "\x7b",
        .optional [
          .labelled stringSymbol keyLabel, .literal ":", .labelled valueSymbol valueLabel,
          .many [
            .literal ",", .labelled stringSymbol keyLabel, .literal ":",
            .labelled valueSymbol valueLabel]],
        .literal "\x7d"],
      .value (.function objectValue)]]

def grammar : Except GrammarError (Grammar Json) :=
  Grammar.build Regex.engine declarations

/-- The document that a text is, up to its end. -/
def read (text : List Char) : Option Json :=
  match grammar with
  | .error _ => none
  | .ok grammar =>
    let parse := grammar.parse text
    if parse.isComplete then parse.value.1 else none

end Packrat.Json
