import Packrat.Proofs.Json.Ready
import Packrat.Proofs.Regex.Recognizes
import Packrat.Proofs.Scan.Leaves
import Packrat.Proofs.Scan.Spelling

/-!
The texts of the tokens of JSON documents. `StringText` and `NumberText` say what their patterns
match, construct by construct; the programs of the patterns report the longest text of this form
(`string_recognizes`, `number_recognizes`). Together with the keywords they are the atoms of
documents (`Atom`). Different atoms begin with different characters, so a place has at most one of
them.
-/

set_option autoImplicit false
set_option linter.unusedSectionVars false

namespace Packrat

open Lang

namespace Json

/-! ### Strings -/

/-- What follows the quote at the beginning of a string: characters as they are, characters behind
a backslash, and a quote at the end. -/
inductive StringTail : List Char → Prop where
  | close : StringTail ['"']
  | plain {c rest} : plainCharacters.mem c = true → StringTail rest → StringTail (c :: rest)
  | escape {c rest} :
      escapable.mem c = true → StringTail rest → StringTail ('\\' :: c :: rest)

def StringText : Lang :=
  one (.one '"') StringTail

namespace StringTail

theorem not_nil : ¬ StringTail [] :=
  nofun

theorem plain_iff {c : Char} (isPlain : plainCharacters.mem c = true) (others : List Char) :
    StringTail (c :: others) ↔ StringTail others := by
  constructor
  · intro tail
    cases tail with
    | close => cases isPlain
    | plain _ rest => exact rest
    | escape _ _ => cases isPlain
  · exact .plain isPlain

theorem escape_iff (others : List Char) :
    StringTail ('\\' :: others) ↔ one escapable StringTail others := by
  constructor
  · intro tail
    cases tail with
    | plain impossible _ => cases impossible
    | escape isEscapable rest => exact ⟨_, _, rfl, isEscapable, rest⟩
  · rintro ⟨c, rest, rfl, isEscapable, isRest⟩
    exact .escape isEscapable isRest

theorem close_iff (others : List Char) : StringTail ('"' :: others) ↔ bare others := by
  constructor
  · intro tail
    cases tail with
    | close => rfl
    | plain impossible _ => cases impossible
  · rintro rfl
    exact .close

theorem not_other {c : Char} {others : List Char} (notPlain : plainCharacters.mem c = false)
    (notEscape : c ≠ '\\') (notClose : c ≠ '"') : ¬ StringTail (c :: others) := by
  intro tail
  cases tail with
  | close => exact notClose rfl
  | plain isPlain _ => cases isPlain.symm.trans notPlain
  | escape _ _ => exact notEscape rfl

theorem unique {text first second : List Char} (isFirst : StringTail first)
    (isSecond : StringTail second) (beginsFirst : first <+: text)
    (beginsSecond : second <+: text) : first = second := by
  induction isFirst generalizing text second with
  | close =>
      obtain ⟨after, rfl⟩ := beginsFirst
      cases isSecond with
      | close => rfl
      | plain isPlain _ =>
          obtain ⟨rfl, -⟩ := List.cons_prefix_cons.1 beginsSecond
          cases isPlain
      | escape _ _ => cases (List.cons_prefix_cons.1 beginsSecond).1
  | @plain c rest isPlain _ ih =>
      obtain ⟨after, rfl⟩ := beginsFirst
      cases isSecond with
      | close =>
          obtain ⟨rfl, -⟩ := List.cons_prefix_cons.1 beginsSecond
          cases isPlain
      | plain _ isRest =>
          obtain ⟨rfl, behind⟩ := List.cons_prefix_cons.1 beginsSecond
          rw [ih isRest (List.prefix_append rest after) behind]
      | escape _ _ =>
          obtain ⟨rfl, -⟩ := List.cons_prefix_cons.1 beginsSecond
          cases isPlain
  | @escape c rest _ _ ih =>
      obtain ⟨after, rfl⟩ := beginsFirst
      cases isSecond with
      | close => cases (List.cons_prefix_cons.1 beginsSecond).1
      | plain isPlain _ =>
          obtain ⟨rfl, -⟩ := List.cons_prefix_cons.1 beginsSecond
          cases isPlain
      | escape _ isRest =>
          obtain ⟨-, behind⟩ := List.cons_prefix_cons.1 beginsSecond
          obtain ⟨rfl, further⟩ := List.cons_prefix_cons.1 behind
          rw [ih isRest (List.prefix_append rest after) further]

end StringTail

section Loop

variable {text rest : List Char} {c : Char}

private theorem round_takes {plain escape close : Option Nat}
    (takesPlain : Takes stringSteps 4 text plain) (takesEscape : Takes stringSteps 6 text escape)
    (takesClose : Takes stringSteps 9 text close) :
    Takes stringSteps 2 text ((plain.or escape).or close) :=
  .fork rfl (.fork rfl takesPlain fun _ => takesEscape) fun _ => takesClose

private theorem refuses {address : Nat} {set : CharSet}
    (isOne : stringSteps[address]? = some (.one set)) (apart : set.mem c = false) :
    Takes stringSteps address (c :: rest) none :=
  .refuse isOne (by rintro d others ⟨⟩; exact apart)

private theorem refuses_other {address : Nat} {d : Char}
    (isOne : stringSteps[address]? = some (.one (.one d))) (apart : c ≠ d) :
    Takes stringSteps address (c :: rest) none :=
  refuses isOne (by rw [CharSet.mem_one, beq_eq_false_iff_ne]; exact apart)

private def TakesTail (text : List Char) : Prop :=
  ∃ length, Longest StringTail text length ∧ Takes stringSteps 2 text length

private theorem takesTail_nil : TakesTail [] := by
  have ended {address : Nat} {set : CharSet} (isOne : stringSteps[address]? = some (.one set)) :
      Takes stringSteps address [] none :=
    .refuse isOne nofun
  refine ⟨none, .nothing StringTail.not_nil ?_, round_takes (ended rfl) (ended rfl) (ended rfl)⟩
  rintro d tail others ⟨⟩

private theorem takesTail_plain (isPlain : plainCharacters.mem c = true)
    (behind : TakesTail rest) : TakesTail (c :: rest) := by
  have notEscape : c ≠ '\\' := by
    rintro rfl
    cases isPlain
  have notClose : c ≠ '"' := by
    rintro rfl
    cases isPlain
  obtain ⟨length, longest, takes⟩ := behind
  have whole := round_takes (.one rfl isPlain (.jump rfl (.jump rfl takes)))
    (refuses_other rfl notEscape) (refuses_other rfl notClose)
  rw [Option.or_none, Option.or_none] at whole
  exact ⟨_, longest.behind StringTail.not_nil (StringTail.plain_iff isPlain), whole⟩

private theorem takesTail_escape (behind : ∀ d others, rest = d :: others → TakesTail others) :
    TakesTail ('\\' :: rest) := by
  have escaped : ∃ length, Longest (one escapable StringTail) rest length ∧
      Takes stringSteps 7 rest length := by
    cases rest with
    | nil => exact ⟨none, .one_refused nofun, .refuse rfl nofun⟩
    | cons d others =>
        by_cases isEscapable : escapable.mem d = true
        · obtain ⟨length, longest, takes⟩ := behind d others rfl
          exact ⟨_, longest.one isEscapable, .one rfl isEscapable (.jump rfl takes)⟩
        · have apart := eq_false_of_ne_true isEscapable
          refine ⟨none, .one_refused ?_, refuses rfl apart⟩
          rintro e more ⟨⟩
          exact apart
  obtain ⟨length, longest, takes⟩ := escaped
  have notPlain : plainCharacters.mem '\\' = false := rfl
  have notClose : '\\' ≠ '"' := by decide
  have whole := round_takes (refuses rfl notPlain) (.one rfl rfl takes)
    (refuses_other rfl notClose)
  rw [Option.none_or, Option.or_none] at whole
  exact ⟨_, longest.behind StringTail.not_nil StringTail.escape_iff, whole⟩

private theorem takesTail_close : TakesTail ('"' :: rest) := by
  have accepts : Takes stringSteps 10 rest (some 0) := .accept rfl
  have notPlain : plainCharacters.mem '"' = false := rfl
  have notEscape : '"' ≠ '\\' := by decide
  have whole := round_takes (refuses rfl notPlain) (refuses_other rfl notEscape)
    (.one rfl rfl accepts)
  rw [Option.none_or, Option.none_or] at whole
  exact ⟨_, Longest.bare.behind StringTail.not_nil StringTail.close_iff, whole⟩

private theorem takesTail_other (notPlain : plainCharacters.mem c = false) (notEscape : c ≠ '\\')
    (notClose : c ≠ '"') : TakesTail (c :: rest) := by
  refine ⟨none, .nothing StringTail.not_nil ?_,
    round_takes (refuses rfl notPlain) (refuses_other rfl notEscape)
      (refuses_other rfl notClose)⟩
  rintro d tail others ⟨⟩
  exact StringTail.not_other notPlain notEscape notClose

end Loop

theorem tail_recognizes : Recognizes stringSteps 2 StringTail := by
  intro text
  induction size : text.length using Nat.strongRecOn generalizing text with
  | ind bound ih =>
      subst size
      cases text with
      | nil => exact takesTail_nil
      | cons c rest =>
          by_cases isPlain : plainCharacters.mem c = true
          · exact takesTail_plain isPlain (ih rest.length (Nat.lt_succ_self _) rest rfl)
          · have notPlain := eq_false_of_ne_true isPlain
            by_cases isEscape : c = '\\'
            · subst isEscape
              refine takesTail_escape ?_
              rintro d others rfl
              have shorter : others.length < ('\\' :: d :: others).length := by
                rw [List.length_cons, List.length_cons]
                omega
              exact ih others.length shorter others rfl
            · by_cases isClose : c = '"'
              · subst isClose
                exact takesTail_close
              · exact takesTail_other notPlain isEscape isClose

theorem string_recognizes : Recognizes stringSteps 1 StringText :=
  .one rfl tail_recognizes

/-! ### Numbers -/

def digitsBehind (rest : Lang) : Lang :=
  one digits (many digits rest)

def Exponent : Lang :=
  one exponentMarks (either (one signs (digitsBehind bare)) (digitsBehind bare))

def Fraction : Lang :=
  either (one (.one '.') (digitsBehind (either Exponent bare))) (either Exponent bare)

def Unsigned : Lang :=
  either (one (.one '0') Fraction) (one (.range '1' '9') (many digits Fraction))

def NumberText : Lang :=
  either (one (.one '-') Unsigned) Unsigned

theorem number_recognizes : Recognizes numberSteps 1 NumberText := by
  have accepts : Recognizes numberSteps 20 bare := .accept rfl
  have exponentDigits : Recognizes numberSteps 18 (digitsBehind bare) :=
    .some_ rfl rfl accepts avoids_bare
  have exponent : Recognizes numberSteps 15 Exponent :=
    .one rfl (.fork rfl (.one rfl exponentDigits) exponentDigits (.one (by decide)))
  have behind : Recognizes numberSteps 14 (either Exponent bare) :=
    .fork rfl exponent accepts avoids_bare
  have fractionDigits : Recognizes numberSteps 12 (digitsBehind (either Exponent bare)) :=
    .some_ rfl rfl behind (.either (.one (by decide)) avoids_bare)
  have fraction : Recognizes numberSteps 10 Fraction :=
    .fork rfl (.one rfl fractionDigits) behind (.either (.one (by decide)) avoids_bare)
  have whole : Recognizes numberSteps 6 (one (.range '1' '9') (many digits Fraction)) :=
    .one rfl (.any rfl rfl rfl fraction
      (.either (.one (by decide)) (.either (.one (by decide)) avoids_bare)))
  have unsigned : Recognizes numberSteps 3 Unsigned :=
    .fork rfl (.one rfl (.jump rfl fraction)) whole (.one (by decide))
  exact .fork rfl (.one rfl unsigned) unsigned (.either (.one (by decide)) (.one (by decide)))

/-! ### Where tokens begin and end -/

def quotes : CharSet := .one '"'

def numberStarts : CharSet := ⟨[(0x2d, 0x2d), (0x30, 0x39)]⟩

def keywordStarts : CharSet := ⟨[(0x66, 0x66), (0x6e, 0x6e), (0x74, 0x74)]⟩

def closers : CharSet :=
  ⟨[(9, 10), (13, 13), (0x20, 0x20), (0x2c, 0x2c), (0x5d, 0x5d), (0x7d, 0x7d)]⟩

theorem string_begins : StringText.Begins quotes :=
  .one ⟨by decide, by decide⟩

theorem number_begins : NumberText.Begins numberStarts := by
  have unsigned : Unsigned.Begins numberStarts :=
    .either (.one ⟨by decide, by decide⟩) (.one ⟨by decide, by decide⟩)
  exact .either (.one ⟨by decide, by decide⟩) unsigned

theorem keywords_begin : Lang.Begins (· ∈ keywords) keywordStarts := by
  intro text listed
  simp only [keywords, List.mem_cons, List.not_mem_nil, or_false] at listed
  rcases listed with rfl | rfl | rfl
  · exact ⟨_, _, rfl, by decide⟩
  · exact ⟨_, _, rfl, by decide⟩
  · exact ⟨_, _, rfl, by decide⟩

theorem number_misses : NumberText.Misses closers := by
  have digitsMiss {rest : Lang} (misses : rest.Misses closers) :
      (digitsBehind rest).Misses closers :=
    .one (by decide) (.many (by decide) misses)
  have exponent : Exponent.Misses closers :=
    .one (by decide) (.either (.one (by decide) (digitsMiss misses_bare)) (digitsMiss misses_bare))
  have behind : (either Exponent bare).Misses closers := .either exponent misses_bare
  have fraction : Fraction.Misses closers := .either (.one (by decide) (digitsMiss behind)) behind
  have unsigned : Unsigned.Misses closers :=
    .either (.one (by decide) fraction) (.one (by decide) (.many (by decide) fraction))
  exact .either (.one (by decide) unsigned) unsigned

theorem keywords_miss : Lang.Misses (· ∈ keywords) closers := by
  have outside : (keywords.all fun word => word.all fun c => !closers.mem c) = true := by decide
  intro text listed c member
  have apart := List.all_eq_true.1 (List.all_eq_true.1 outside text listed) c member
  rwa [Bool.not_eq_true'] at apart

/-! ### Terminals -/

theorem string_spells :
    stringTerminal.Spells fun text value => StringText text ∧ value = some (stringValue text) :=
  Terminal.spells_single (Scanner.reads_pattern (string_recognizes.scanPattern rfl))

theorem number_spells :
    numberTerminal.Spells fun text value => NumberText text ∧ value = some (numberValue text) :=
  Terminal.spells_single (Scanner.reads_pattern (number_recognizes.scanPattern rfl))

theorem keyword_spells :
    keywordTerminal.Spells fun text value => text ∈ keywords ∧ value = some (keywordValue text) :=
  Terminal.spells_single (Scanner.reads_words keywords)

/-! ### Atoms -/

inductive Atom where
  | string (text : List Char) (isString : StringText text)
  | number (text : List Char) (isNumber : NumberText text)
  | keyword (text : List Char) (listed : text ∈ keywords)

namespace Atom

def text : Atom → List Char
  | .string text _ => text
  | .number text _ => text
  | .keyword text _ => text

def value : Atom → Json
  | .string text _ => stringValue text
  | .number text _ => numberValue text
  | .keyword text _ => keywordValue text

end Atom

def atomStarts : CharSet :=
  ⟨[(0x22, 0x22), (0x2d, 0x2d), (0x30, 0x39), (0x66, 0x66), (0x6e, 0x6e), (0x74, 0x74)]⟩

theorem Atom.begins (atom : Atom) : ∃ c tail, atom.text = c :: tail ∧ atomStarts.mem c = true := by
  have inside {starts : CharSet} {language : Lang} {text : List Char}
      (begins : language.Begins starts) (belongs : language text)
      (covered : starts.Inside atomStarts) :
      ∃ c tail, text = c :: tail ∧ atomStarts.mem c = true := by
    obtain ⟨c, tail, isText, member⟩ := begins text belongs
    exact ⟨c, tail, isText, covered.mem member⟩
  cases atom with
  | string text isString => exact inside string_begins isString ⟨by decide, by decide⟩
  | number text isNumber => exact inside number_begins isNumber ⟨by decide, by decide⟩
  | keyword text listed => exact inside keywords_begin listed ⟨by decide, by decide⟩

section Cells

variable {landing : Landing} {text after : List Char}

theorem string_found (split : landing.rest = text ++ after) (isString : StringText text) :
    (LexicalCell.scanTerminal landing stringTerminal).map Prod.fst =
      some (landing.leaf stringSymbol text (some (stringValue text))) := by
  refine string_spells.finds_text split isString ?_
  rintro other begins ⟨c, tail, rfl, isQuote, isTail⟩
  obtain ⟨d, tail', rfl, isQuote', isTail'⟩ := isString
  obtain ⟨rfl, behind⟩ := List.cons_prefix_cons.1 begins
  have same := isTail.unique isTail' behind (List.prefix_append tail' after)
  subst same
  exact List.prefix_rfl

theorem scalar_leaf (landing : Landing) :
    (LexicalCell.scan ready landing).1.leaf? scalarSymbol =
      (LexicalCell.furthest ([stringTerminal, numberTerminal, keywordTerminal].filterMap
        fun terminal => (LexicalCell.scanTerminal landing terminal).map Prod.fst)).map
          (·.retag scalarSymbol) := by
  have found : (LexicalCell.scan ready landing).1.leaf? scalarAlias.symbol = _ :=
    LexicalCell.leaf?_alias scalarAlias [stringTerminal, numberTerminal, keywordTerminal]
      (by decide) rfl (by decide) rfl (fun _ listed => listed)
  rw [LexicalCell.ownLeaves, List.map_filterMap] at found
  exact found

theorem string_leaf (landing : Landing) :
    (LexicalCell.scan ready landing).1.leaf? stringSymbol =
      (LexicalCell.scanTerminal landing stringTerminal).map Prod.fst :=
  LexicalCell.leaf?_terminal stringTerminal (by decide) (List.mem_cons_self ..) (by decide)

theorem Atom.found (atom : Atom) (split : landing.rest = atom.text ++ after)
    (ends : ∀ c, after.head? = some c → closers.mem c = true) :
    (LexicalCell.scan ready landing).1.leaf? scalarSymbol =
      some (landing.leaf scalarSymbol atom.text (some atom.value)) := by
  rw [scalar_leaf]
  cases atom with
  | string text isString =>
      have apart := string_begins.head_apart isString split
      simp only [List.filterMap_cons, List.filterMap_nil, string_found split isString,
        number_spells.nothing number_begins (apart _ (by decide)),
        keyword_spells.nothing keywords_begin (apart _ (by decide))]
      rfl
  | number text isNumber =>
      have apart := number_begins.head_apart isNumber split
      have isFound := number_spells.finds_text split isNumber
        fun other begins isIn => number_misses.stops ends isIn begins
      simp only [List.filterMap_cons, List.filterMap_nil, isFound,
        string_spells.nothing string_begins (apart _ (by decide)),
        keyword_spells.nothing keywords_begin (apart _ (by decide))]
      rfl
  | keyword text listed =>
      have apart := keywords_begin.head_apart listed split
      have isFound := keyword_spells.finds_text split listed
        fun other begins isIn => keywords_miss.stops ends isIn begins
      simp only [List.filterMap_cons, List.filterMap_nil, isFound,
        string_spells.nothing string_begins (apart _ (by decide)),
        number_spells.nothing number_begins (apart _ (by decide))]
      rfl

theorem no_atom (differs : ∀ c, landing.rest.head? = some c → atomStarts.mem c = false) :
    (LexicalCell.scan ready landing).1.leaf? scalarSymbol = none := by
  have outside {starts : CharSet} (inside : starts.Inside atomStarts) :
      ∀ c, landing.rest.head? = some c → starts.mem c = false := by
    intro c isHead
    refine eq_false_of_ne_true fun member => ?_
    have apart := differs c isHead
    rw [inside.mem member] at apart
    cases apart
  rw [scalar_leaf]
  simp only [List.filterMap_cons, List.filterMap_nil,
    string_spells.nothing string_begins (outside ⟨by decide, by decide⟩),
    number_spells.nothing number_begins (outside ⟨by decide, by decide⟩),
    keyword_spells.nothing keywords_begin (outside ⟨by decide, by decide⟩)]
  rfl

theorem no_string (differs : ∀ c, landing.rest.head? = some c → quotes.mem c = false) :
    (LexicalCell.scan ready landing).1.leaf? stringSymbol = none := by
  rw [string_leaf, string_spells.nothing string_begins differs]

theorem string_of_leaf {leaf : Leaf Json}
    (found : (LexicalCell.scan ready landing).1.leaf? stringSymbol = some leaf) :
    ∃ text, StringText text ∧
      leaf = landing.leaf stringSymbol text (some (stringValue text)) := by
  rw [string_leaf] at found
  exact string_spells.of_found found

theorem atom_of_leaf {leaf : Leaf Json}
    (found : (LexicalCell.scan ready landing).1.leaf? scalarSymbol = some leaf) :
    ∃ atom : Atom, leaf = landing.leaf scalarSymbol atom.text (some atom.value) := by
  rw [scalar_leaf] at found
  obtain ⟨own, isFurthest, rfl⟩ := Option.map_eq_some_iff.1 found
  obtain ⟨terminal, listed, isOwn⟩ := List.mem_filterMap.1 (LexicalCell.furthest_mem isFurthest)
  simp only [List.mem_cons, List.not_mem_nil, or_false] at listed
  rcases listed with rfl | rfl | rfl
  · obtain ⟨text, isString, rfl⟩ := string_spells.of_found isOwn
    exact ⟨.string text isString, rfl⟩
  · obtain ⟨text, isNumber, rfl⟩ := number_spells.of_found isOwn
    exact ⟨.number text isNumber, rfl⟩
  · obtain ⟨text, isKeyword, rfl⟩ := keyword_spells.of_found isOwn
    exact ⟨.keyword text isKeyword, rfl⟩

end Cells

end Json

end Packrat
