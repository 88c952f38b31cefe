import Packrat.Proofs.Bridge.Gaps
import Packrat.Proofs.Bridge.Moved
import Packrat.Proofs.Chart.Lookup
import Packrat.Proofs.Reading.Lexemes
import Packrat.Proofs.Scan.Cuts
import Packrat.Proofs.Scan.Spelling

/-!
What blank runs consist of does not matter. Under a grammar whose literal texts have no blank
character, and whose scanners read no further than the word they begin at, two texts with the same
gapped form parse alike (`Grammar.parse_gapped`).
-/

set_option autoImplicit false
set_option linter.unusedSectionVars false

namespace Packrat

variable {V : Type} [Kinded V]

/-! ### Scanners that read words -/

/-- Whether what a scanner reports of a text behind blank text depends on the first word only, and
on whether anything follows it, and the scanner does not reach beyond this word. -/
structure Scanner.Wordwise (isBlank : Char → Bool) (scanner : Scanner) : Prop where
  same : ∀ text other, text.head?.any isBlank = false → other.head?.any isBlank = false →
    Text.word isBlank text = Text.word isBlank other →
    (Text.pastWord isBlank text = [] ↔ Text.pastWord isBlank other = []) →
    scanner.scan text = scanner.scan other
  within : ∀ text length, text.head?.any isBlank = false → scanner.scan text = some length →
    length ≤ Text.byteLength (Text.word isBlank text)

section Words

variable {isBlank : Char → Bool} {list : List (List Char)} {piece text : List Char}

theorem Text.beginning_word_iff (solid : ∀ c ∈ piece, isBlank c = false) :
    piece <+: text ↔ piece <+: Text.word isBlank text := by
  unfold Text.word
  constructor
  · rintro ⟨after, rfl⟩
    rw [List.takeWhile_append_of_pos fun c member => by simp [solid c member]]
    exact List.prefix_append _ _
  · intro begins
    exact begins.trans (List.takeWhile_prefix _)

theorem Scanner.words_wordwise (solid : ∀ word ∈ list, ∀ c ∈ word, isBlank c = false) :
    (Scanner.words list).Wordwise isBlank where
  same := by
    intro text other _ _ sameWord _
    rw [scan, scan]
    congr 1
    apply List.map_congr_left
    intro word member
    have begins : word.isPrefixOf text = word.isPrefixOf other := by
      rw [Bool.eq_iff_iff, List.isPrefixOf_iff_prefix, List.isPrefixOf_iff_prefix,
        Text.beginning_word_iff (solid word member), sameWord,
        ← Text.beginning_word_iff (solid word member)]
    rw [scanWord, scanWord, begins]
  within := by
    intro text length _ found
    rw [scan] at found
    obtain ⟨word, member, isWord⟩ := List.mem_map.1 (longest_mem found)
    unfold scanWord at isWord
    split at isWord
    · next begins =>
        cases isWord
        have inside := (Text.beginning_word_iff (solid word member)).1
          (List.isPrefixOf_iff_prefix.1 begins)
        obtain ⟨after, whole⟩ := inside
        rw [← whole, Text.byteLength_append]
        exact Nat.le_add_right _ _
    · cases isWord

end Words

/-- Whether the literal texts of a grammar have no blank character and its scanners read word by
word. -/
structure Grammar.Wordwise (grammar : Grammar V) : Prop where
  literals : ∀ text ∈ grammar.literals, ∀ c ∈ text.toList, grammar.isBlank c = false
  scanners : ∀ terminal ∈ grammar.terminals, ∀ candidate ∈ terminal.candidates,
    candidate.scanner.Wordwise grammar.isBlank

/-! ### Terminals at places with the same gapped form ahead -/

theorem Text.takeBytes?_append_of_le {beginning : List Char} (after : List Char) {count : Nat}
    (within : count ≤ byteLength beginning) :
    takeBytes? (beginning ++ after) count = takeBytes? beginning count := by
  induction beginning generalizing count with
  | nil =>
      cases Nat.le_zero.1 within
      rw [takeBytes?_zero, takeBytes?_zero]
  | cons c rest ih =>
      cases count with
      | zero => rw [takeBytes?_zero, takeBytes?_zero]
      | succ n =>
          rw [byteLength_cons] at within
          rw [List.cons_append, takeBytes?, takeBytes?]
          by_cases fits : c.utf8Size ≤ n + 1
          · rw [if_pos fits, if_pos fits, ih (by omega)]
          · rw [if_neg fits, if_neg fits]

namespace LexicalCell

section Candidates

variable {candidates : List (Candidate V)} {text other : List Char}

theorem longestCandidate_congr (same : ∀ candidate ∈ candidates,
    candidate.scanner.scan text = candidate.scanner.scan other) :
    longestCandidate candidates text = longestCandidate candidates other := by
  unfold longestCandidate
  apply List.foldl_ext
  intro best candidate member
  rw [same candidate member]

theorem longestCandidate_scan : ∀ found ∈ longestCandidate candidates text,
    found.2 ∈ candidates ∧ found.2.scanner.scan text = some found.1 := by
  unfold longestCandidate
  refine List.foldlRecOn
    (motive := fun best : Option (Nat × Candidate V) => ∀ found ∈ best,
      found.2 ∈ candidates ∧ found.2.scanner.scan text = some found.1) _ _ ?_ ?_
  · intro found none_
    cases none_
  · intro best known next member found better
    cases scanned : next.scanner.scan text with
    | none =>
        simp only [scanned] at better
        exact known found better
    | some count =>
        have isNext : some (count, next) = some found →
            found.2 ∈ candidates ∧ found.2.scanner.scan text = some found.1 := by
          rintro ⟨⟩
          exact ⟨member, scanned⟩
        cases best with
        | none =>
            simp only [scanned] at better
            exact isNext better
        | some former =>
            simp only [scanned] at better
            split at better
            · exact isNext better
            · exact known found better

end Candidates

variable {isBlank : Char → Bool} {here there : Landing} {terminal : Terminal V}

theorem scanTerminal_solid (wordwise : ∀ candidate ∈ terminal.candidates,
    candidate.scanner.Wordwise isBlank) (begins : here.rest.head?.any isBlank = false)
    {leaf : Leaf V} {candidate : Candidate V}
    (found : scanTerminal here terminal = some (leaf, candidate)) :
    ∀ c ∈ leaf.text, isBlank c = false := by
  simp only [scanTerminal, Option.bind_eq_bind, Option.bind_eq_some_iff] at found
  rcases found with ⟨⟨length, chosen⟩, isChosen, text, taken, made⟩
  simp only [pure, Option.some.injEq, Prod.mk.injEq] at made
  rcases made with ⟨rfl, rfl⟩
  obtain ⟨listed, scanned⟩ := longestCandidate_scan _ isChosen
  have within := (wordwise _ listed).within _ _ begins scanned
  obtain ⟨after, whole, size⟩ := (Text.takeBytes?_eq_some_iff _ _ _).1 taken
  have inside : text <+: Text.word isBlank here.rest := by
    apply Text.beginning_of_byteLength_le ⟨after, whole.symm⟩ (List.takeWhile_prefix _)
    rw [size]
    exact within
  intro c member
  have solid := List.mem_takeWhile_imp (inside.subset member)
  simpa using solid

/-- What a terminal that reads word by word matches at places with the same gapped form ahead is the
same. -/
theorem scanTerminal_gapped (wordwise : ∀ candidate ∈ terminal.candidates,
    candidate.scanner.Wordwise isBlank) (begins : here.rest.head?.any isBlank = false)
    (begins' : there.rest.head?.any isBlank = false)
    (same : Text.gapped isBlank here.rest = Text.gapped isBlank there.rest) :
    scanTerminal there terminal =
      (scanTerminal here terminal).map fun found => (found.1.moveTo there, found.2) := by
  have sameWord := Text.word_eq same
  have chosen : longestCandidate terminal.candidates there.rest =
      longestCandidate terminal.candidates here.rest := by
    apply longestCandidate_congr
    intro candidate listed
    exact ((wordwise candidate listed).same _ _ begins begins' sameWord
      (Text.pastWord_eq_nil_iff same)).symm
  unfold scanTerminal
  rw [chosen]
  cases longest : longestCandidate terminal.candidates here.rest with
  | none => rfl
  | some found =>
      rcases found with ⟨length, candidate⟩
      obtain ⟨listed, scanned⟩ := longestCandidate_scan _ longest
      have within := (wordwise _ listed).within _ _ begins scanned
      have taken : Text.takeBytes? there.rest length = Text.takeBytes? here.rest length := by
        have split (text : List Char) :
            Text.word isBlank text ++ Text.pastWord isBlank text = text :=
          List.takeWhile_append_dropWhile
        rw [← split here.rest, Text.takeBytes?_append_of_le _ within, ← split there.rest,
          Text.takeBytes?_append_of_le _ (sameWord ▸ within), sameWord]
      simp only [Option.bind_eq_bind, Option.bind_some, taken]
      cases Text.takeBytes? here.rest length with
      | none => rfl
      | some text => rfl

end LexicalCell

/-! ### Two texts with the same gapped form -/

namespace Grammar

variable {grammar : Grammar V} {source source' : List Char}

variable (grammar source source') in
structure SameAhead (rest rest' : List Char) (place place' : Position) : Prop where
  found : (grammar.on source).rest? place.offset = some rest
  found' : (grammar.on source').rest? place'.offset = some rest'
  stop : Text.Stop grammar.isBlank (source.dropWhile grammar.isBlank) rest
  stop' : Text.Stop grammar.isBlank (source'.dropWhile grammar.isBlank) rest'
  same : Text.gapped grammar.isBlank rest = Text.gapped grammar.isBlank rest'

namespace SameAhead

variable {rest rest' : List Char} {place place' : Position}

theorem through {piece : List Char}
    (ahead : grammar.SameAhead source source' (piece ++ rest) (piece ++ rest') place place')
    (solid : ∀ c ∈ piece, grammar.isBlank c = false) :
    grammar.SameAhead source source' rest rest' (place.through piece) (place'.through piece) where
  found := by
    rw [Position.through_offset]
    exact Input.rest?_append ahead.found
  found' := by
    rw [Position.through_offset]
    exact Input.rest?_append ahead.found'
  stop := ahead.stop.pass solid
  stop' := ahead.stop'.pass solid
  same := Text.gapped_behind solid ahead.same

theorem begins_iff {piece : List Char}
    (ahead : grammar.SameAhead source source' rest rest' place place')
    (solid : ∀ c ∈ piece, grammar.isBlank c = false) : piece <+: rest ↔ piece <+: rest' := by
  rw [Text.beginning_word_iff solid, Text.word_eq ahead.same, ← Text.beginning_word_iff solid]

theorem through_begins {piece : List Char}
    (ahead : grammar.SameAhead source source' rest rest' place place')
    (solid : ∀ c ∈ piece, grammar.isBlank c = false) (begins : piece <+: rest) :
    ∃ more more', grammar.SameAhead source source' more more' (place.through piece)
      (place'.through piece) := by
  obtain ⟨more', split'⟩ := (ahead.begins_iff solid).1 begins
  obtain ⟨more, split⟩ := begins
  rw [← split, ← split'] at ahead
  exact ⟨more, more', ahead.through solid⟩

theorem skip (ahead : grammar.SameAhead source source' rest rest' place place') :
    grammar.SameAhead source source' (rest.dropWhile grammar.isBlank)
      (rest'.dropWhile grammar.isBlank) (place.through (rest.takeWhile grammar.isBlank))
      (place'.through (rest'.takeWhile grammar.isBlank)) where
  found := by
    rw [Position.through_offset]
    apply Input.rest?_append
    rw [List.takeWhile_append_dropWhile]
    exact ahead.found
  found' := by
    rw [Position.through_offset]
    apply Input.rest?_append
    rw [List.takeWhile_append_dropWhile]
    exact ahead.found'
  stop := ahead.stop.skip
  stop' := ahead.stop'.skip
  same := by rw [Text.gapped_dropWhile, Text.gapped_dropWhile, ahead.same]

theorem lt_iff {more more' : List Char} {other other' : Position}
    (ahead : grammar.SameAhead source source' rest rest' place place')
    (further : grammar.SameAhead source source' more more' other other') :
    place.offset < other.offset ↔ place'.offset < other'.offset := by
  have size := Input.rest?_size ahead.found
  have size' := Input.rest?_size ahead.found'
  have sizeOther := Input.rest?_size further.found
  have sizeOther' := Input.rest?_size further.found'
  have order := ahead.stop.lt_iff further.stop
  have order' := ahead.stop'.lt_iff further.stop'
  rw [ahead.same, further.same] at order
  omega

theorem aligned (wordwise : grammar.Wordwise) {here there : Landing}
    (ahead : grammar.SameAhead source source' here.rest there.rest here.position there.position)
    (begins : here.rest.head?.any grammar.isBlank = false)
    (begins' : there.rest.head?.any grammar.isBlank = false) :
    here.Aligned grammar
      (fun place place' => ∃ rest rest', grammar.SameAhead source source' rest rest' place place')
      (fun _ _ => True) there where
  position := ⟨_, _, ahead⟩
  blank := trivial
  terminals := by
    intro terminal listed
    exact LexicalCell.scanTerminal_gapped (wordwise.scanners terminal listed) begins begins'
      ahead.same
  terminalStops := by
    intro terminal listed leaf candidate found
    have fits := LexicalCell.scanTerminal_fits found
    have solid := LexicalCell.scanTerminal_solid (wordwise.scanners terminal listed) begins found
    rw [fits.stop]
    exact ahead.through_begins solid fits.text
  literals := fun text listed => ahead.begins_iff (wordwise.literals text listed)
  literalStops := fun text listed begun =>
    ahead.through_begins (wordwise.literals text listed) begun

end SameAhead

def spacing (wordwise : grammar.Wordwise) (source source' : List Char) :
    Bridge (grammar.on source) (grammar.on source') where
  Meets place place' := ∃ rest rest', grammar.SameAhead source source' rest rest' place place'
  Skips _ _ := True
  grammar_eq := rfl
  lt_iff := by
    rintro place place' other other' ⟨rest, rest', ahead⟩ ⟨more, more', further⟩
    exact ahead.lt_iff further
  lands := by
    rintro place place' ⟨rest, rest', ahead⟩
    refine ⟨_, _, ((grammar.on source).land_eq_ok_iff place _).2 ⟨rest, ahead.found, rfl⟩,
      ((grammar.on source').land_eq_ok_iff place' _).2 ⟨rest', ahead.found', rfl⟩, ?_⟩
    exact ahead.skip.aligned wordwise (Text.head?_dropWhile rest) (Text.head?_dropWhile rest')

theorem spacing_lands (wordwise : grammar.Wordwise)
    (same : Text.gapped grammar.isBlank (source.dropWhile grammar.isBlank) =
      Text.gapped grammar.isBlank (source'.dropWhile grammar.isBlank)) :
    (grammar.spacing wordwise source source').Lands .start .start := by
  have landed (text : List Char) := ((grammar.on text).land_eq_ok_iff .start _).2
    ⟨text, (grammar.on text).rest?_zero, rfl⟩
  refine ⟨_, _, landed source, landed source', ?_⟩
  apply SameAhead.aligned wordwise
  · exact ⟨Input.land_rest? (landed source), Input.land_rest? (landed source'), .begin _ _,
      .begin _ _, same⟩
  · exact Text.head?_dropWhile source
  · exact Text.head?_dropWhile source'

end Grammar

/-- A token without its places and the blank texts in front of its leaves. -/
def Token.placeless (token : Token V) : Token V :=
  token.moved (fun _ => .start) (fun _ => [])

theorem Token.shape_placeless (token : Token V) : token.placeless.shape = token.shape :=
  token.shape_moved _ _

theorem Parse.isComplete_eq {parse : Parse V} {input : Input V} (same : parse.input = input) :
    parse.isComplete = parse.root.any fun root =>
      ((input.rest? root.stop.offset).getD []).all input.grammar.isBlank := by
  subst same
  unfold Parse.isComplete
  cases parse.root with
  | none => rfl
  | some root => rfl

namespace Grammar

variable {engine : RegexEngine} {grammar : Grammar V} {declarations : List (Declaration V)}
  {source source' : List Char}

theorem spacing_complete {wordwise : grammar.Wordwise} {found found' : Option (Token V)}
    (both : Option.Rel (grammar.spacing wordwise source source').Tokens found found') :
    (found'.any fun root =>
        (((grammar.on source').rest? root.stop.offset).getD []).all grammar.isBlank) =
      found.any fun root =>
        (((grammar.on source).rest? root.stop.offset).getD []).all grammar.isBlank := by
  cases both with
  | none => rfl
  | some tokens =>
      obtain ⟨rest, rest', ahead⟩ := tokens.stop
      rw [Option.any_some, Option.any_some, ahead.found, ahead.found', Option.getD_some,
        Option.getD_some]
      exact Bool.eq_iff_iff.2 (Text.all_blank_iff ahead.same).symm

/-- Under a grammar that reads word by word, two texts that differ in nothing but what their blank
runs consist of, and in the blank run that they begin with, parse alike. -/
theorem parse_gapped (built : Grammar.build engine declarations = .ok grammar)
    (wordwise : grammar.Wordwise)
    (same : Text.gapped grammar.isBlank (source.dropWhile grammar.isBlank) =
      Text.gapped grammar.isBlank (source'.dropWhile grammar.isBlank)) :
    (∀ symbol,
      (({} : Chart V).resolveAtStart (grammar.on source') symbol).1.map Token.placeless =
        (({} : Chart V).resolveAtStart (grammar.on source) symbol).1.map Token.placeless ∧
      (({} : Chart V).resolveAtStart (grammar.on source') symbol).1.map Token.shape =
        (({} : Chart V).resolveAtStart (grammar.on source) symbol).1.map Token.shape) ∧
    (grammar.parse source').root.map Token.placeless =
      (grammar.parse source).root.map Token.placeless ∧
    (grammar.parse source').isComplete = (grammar.parse source).isComplete := by
  have wellFormed : (grammar.on source).grammar.WellFormed := build_wellFormed built
  have lands := spacing_lands wordwise same
  have alike {found found' : Option (Token V)}
      (both : Option.Rel (grammar.spacing wordwise source source').Tokens found found') :
      found'.map Token.placeless = found.map Token.placeless :=
    Bridge.moved_eq_of_rel (fun _ => rfl) (fun _ => rfl) both
  have root := Bridge.parse_root wellFormed lands
  refine ⟨?_, alike root, ?_⟩
  · intro symbol
    have both : Option.Rel (grammar.spacing wordwise source source').Tokens
        (({} : Chart V).resolveAtStart (grammar.on source) symbol).1
        (({} : Chart V).resolveAtStart (grammar.on source') symbol).1 :=
      Bridge.resolveAtStart wellFormed .empty Chart.empty_sound Chart.empty_sound lands
    have shapes (found : Option (Token V)) :
        found.map Token.shape = (found.map Token.placeless).map Token.shape := by
      rw [Option.map_map]
      congr 1
      exact funext fun token => token.shape_placeless.symm
    refine ⟨alike both, ?_⟩
    rw [shapes, alike both, ← shapes]
  · have same (source : List Char) : (grammar.parse source).input = grammar.on source :=
      parse_input (grammar.on source)
    rw [Parse.isComplete_eq (same source'), Parse.isComplete_eq (same source)]
    exact spacing_complete root

theorem solid_of_all {isBlank : Char → Bool} {list : List (List Char)}
    (all : (list.all fun word => word.all fun c => !isBlank c) = true) :
    ∀ word ∈ list, ∀ c ∈ word, isBlank c = false := by
  intro word member c isChar
  have solid := List.all_eq_true.1 (List.all_eq_true.1 all word member) c isChar
  simpa using solid

/-- A sum with other blanks in and around it parses alike. -/
theorem sums_parse_gapped :
    Grammar.build Regex.engine Sums.declarations = .ok Sums.grammar ∧ Sums.grammar.Wordwise ∧
      Text.gapped Sums.grammar.isBlank
          (['1', ' ', '+', '1', ' ', 'x'].dropWhile Sums.grammar.isBlank) =
        Text.gapped Sums.grammar.isBlank
          ([' ', '1', ' ', ' ', ' ', '+', '1', ' ', ' ', 'x'].dropWhile Sums.grammar.isBlank) ∧
      (({} : Chart Scalar).resolveAtStart
        (Sums.grammar.on [' ', '1', ' ', ' ', ' ', '+', '1', ' ', ' ', 'x'])
        Sums.sumSymbol).1.map Token.shape = some "((1) + 1)" ∧
      (Sums.grammar.parse
        [' ', '1', ' ', ' ', ' ', '+', '1', ' ', ' ', 'x']).isComplete = false := by
  have wordwise : Sums.grammar.Wordwise := by
    have literals : (Sums.grammar.literals.map String.toList).all
        (fun word => word.all fun c => !Sums.grammar.isBlank c) = true := by
      decide +kernel
    constructor
    · exact fun text listed => solid_of_all literals text.toList (List.mem_map_of_mem listed)
    · intro terminal listed candidate chosen
      cases List.mem_singleton.1 listed
      cases List.mem_singleton.1 chosen
      exact Scanner.words_wordwise (solid_of_all (by decide +kernel))
  have same : Text.gapped Sums.grammar.isBlank
        (['1', ' ', '+', '1', ' ', 'x'].dropWhile Sums.grammar.isBlank) =
      Text.gapped Sums.grammar.isBlank
        ([' ', '1', ' ', ' ', ' ', '+', '1', ' ', ' ', 'x'].dropWhile Sums.grammar.isBlank) := by
    decide +kernel
  obtain ⟨found, -, complete⟩ := parse_gapped Sums.build_eq wordwise same
  refine ⟨Sums.build_eq, wordwise, same, ?_, ?_⟩
  · rw [(found Sums.sumSymbol).2]
    decide +kernel
  · rw [complete]
    decide +kernel

end Grammar

end Packrat
