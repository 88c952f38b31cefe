import Mathlib.Data.List.Forall2
import Packrat.Proofs.Chart.Cells
import Packrat.Proofs.Scan.Longest
import Packrat.Scanner

/-!
Which texts a terminal matches, and with which values. Where the scanners of its candidates report
the longest beginnings in their languages, a terminal matches the longest beginning in any of these
languages (`Terminal.spells`).
-/

set_option autoImplicit false
set_option linter.unusedSectionVars false

namespace Packrat

variable {V : Type} [Kinded V]

/-! ### Choices of languages -/

theorem Text.beginning_of_byteLength_le {text first second : List Char} (isFirst : first <+: text)
    (isSecond : second <+: text) (size : byteLength first ≤ byteLength second) :
    first <+: second := by
  rcases List.prefix_or_prefix_of_prefix isFirst isSecond with begins | ⟨tail, rfl⟩
  · exact begins
  · have none_ : tail = [] := by
      rw [← byteLength_eq_zero_iff]
      rw [byteLength_append] at size
      omega
    simp [none_]

def Lang.anyOf (languages : List Lang) : Lang := fun text =>
  ∃ language ∈ languages, language text

theorem Lang.Begins.anyOf {languages : List Lang} {set : CharSet}
    (each : ∀ language ∈ languages, Lang.Begins language set) :
    (Lang.anyOf languages).Begins set := by
  rintro text ⟨language, listed, belongs⟩
  exact each language listed text belongs

theorem Lang.Misses.anyOf {languages : List Lang} {set : CharSet}
    (each : ∀ language ∈ languages, Lang.Misses language set) :
    (Lang.anyOf languages).Misses set := by
  rintro text ⟨language, listed, belongs⟩
  exact each language listed text belongs

namespace Longest

variable {first second : Lang} {text : List Char} {length length' : Option Nat}

theorem longer (longest : Longest first text length) (longest' : Longest second text length') :
    Longest (Lang.either first second) text (Scanner.longer length length') := by
  cases longest with
  | none_ fails =>
      rw [Scanner.longer]
      exact .either (.none_ fails) (fun _ => longest')
        (fun piece _ begins _ belongs _ => absurd belongs (fails piece begins))
  | @some_ piece begins belongs greatest =>
      cases longest' with
      | none_ fails =>
          refine .some_ begins (.inl belongs) ?_
          rintro other begins' (belongs' | belongs')
          · exact greatest other begins' belongs'
          · exact absurd belongs' (fails other begins')
      | @some_ piece' begins' belongs' greatest' =>
          rw [Scanner.longer]
          rcases Nat.le_total (Text.byteLength piece) (Text.byteLength piece') with less | more
          · have inside := Text.beginning_of_byteLength_le begins begins' less
            rw [Nat.max_eq_right less]
            refine .some_ begins' (.inr belongs') ?_
            rintro other isOther (isIn | isIn)
            · exact (greatest other isOther isIn).trans inside
            · exact greatest' other isOther isIn
          · have inside := Text.beginning_of_byteLength_le begins' begins more
            rw [Nat.max_eq_left more]
            refine .some_ begins (.inl belongs) ?_
            rintro other isOther (isIn | isIn)
            · exact greatest other isOther isIn
            · exact (greatest' other isOther isIn).trans inside

theorem foldl_longer {languages : List Lang} {lengths : List (Option Nat)} {best : Option Nat}
    (each : List.Forall₂ (Longest · text) languages lengths) (longest : Longest first text best) :
    Longest (Lang.either first (Lang.anyOf languages)) text
      (lengths.foldl Scanner.longer best) := by
  induction each generalizing first best with
  | nil =>
      refine longest.congr fun piece => ⟨.inl, ?_⟩
      rintro (belongs | ⟨language, impossible, -⟩)
      · exact belongs
      · cases impossible
  | @cons language length languages lengths head _ ih =>
      refine (ih (longest.longer head)).congr fun piece => ?_
      constructor
      · rintro ((belongs | belongs) | ⟨other, member, belongs⟩)
        · exact .inl belongs
        · exact .inr ⟨language, List.mem_cons_self .., belongs⟩
        · exact .inr ⟨other, List.mem_cons_of_mem _ member, belongs⟩
      · rintro (belongs | ⟨other, member, belongs⟩)
        · exact .inl (.inl belongs)
        · rcases List.mem_cons.1 member with rfl | later
          · exact .inl (.inr belongs)
          · exact .inr ⟨other, later, belongs⟩

theorem longest {languages : List Lang} {lengths : List (Option Nat)}
    (each : List.Forall₂ (Longest · text) languages lengths) :
    Longest (Lang.anyOf languages) text (Scanner.longest lengths) := by
  have nothing : Longest (fun _ => False) text none := .none_ fun _ _ impossible => impossible
  refine (foldl_longer each nothing).congr fun piece => ⟨?_, .inr⟩
  rintro (impossible | belongs)
  · exact impossible.elim
  · exact belongs

end Longest

/-! ### Scanners -/

namespace Scanner

/-- A scanner that reports the longest beginning in a language. -/
def Reads (scanner : Scanner) (language : Lang) : Prop :=
  ∀ text, Longest language text (scanner.scan text)

theorem scanWord_longest (word text : List Char) :
    Longest (· = word) text (scanWord word text) := by
  unfold scanWord
  split
  · next begins =>
      refine .some_ (List.isPrefixOf_iff_prefix.1 begins) rfl ?_
      rintro other - rfl
      exact List.prefix_rfl
  · next differs =>
      refine .none_ ?_
      rintro piece begins rfl
      exact differs (List.isPrefixOf_iff_prefix.2 begins)

theorem reads_words (list : List (List Char)) : (Scanner.words list).Reads (· ∈ list) := by
  intro text
  have each : List.Forall₂ (Longest · text) (list.map fun word => (· = word))
      (list.map (scanWord · text)) := by
    rw [List.forall₂_map_left_iff, List.forall₂_map_right_iff, List.forall₂_same]
    exact fun word _ => scanWord_longest word text
  have scans : (Scanner.words list).scan text = longest (list.map (scanWord · text)) := by
    rw [scan]
  rw [scans]
  refine (Longest.longest each).congr fun piece => ?_
  simp [Lang.anyOf]

theorem reads_patterns {patterns : List Pattern} {languages : List Lang}
    (each : List.Forall₂
      (fun pattern language => ∀ text, Longest language text (scanPattern pattern text))
      patterns languages) :
    (Scanner.patterns patterns).Reads (Lang.anyOf languages) := by
  intro text
  have scans : (Scanner.patterns patterns).scan text =
      longest (patterns.map (scanPattern · text)) := by
    rw [scan]
  rw [scans]
  refine Longest.longest ?_
  rw [List.forall₂_map_right_iff]
  exact each.flip.imp fun _ _ longest => longest text

theorem reads_pattern {pattern : Pattern} {language : Lang}
    (longest : ∀ text, Longest language text (scanPattern pattern text)) :
    (Scanner.patterns [pattern]).Reads language := by
  intro text
  refine (reads_patterns (.cons longest .nil) text).congr fun piece => ?_
  simp [Lang.anyOf]

end Scanner

/-! ### Terminals -/

def Landing.leaf (landing : Landing) (symbol : Symbol) (text : List Char) (value : Option V) :
    Leaf V where
  symbol := symbol
  blank := landing.blank
  text := text
  start := landing.position
  stop := landing.position.through text
  value := value

@[simp] theorem Landing.leaf_text (landing : Landing) (symbol : Symbol) (text : List Char)
    (value : Option V) : (landing.leaf symbol text value).text = text :=
  rfl

theorem Leaf.FitsAt.eq_leaf {leaf : Leaf V} {landing : Landing} (fits : leaf.FitsAt landing) :
    leaf = landing.leaf leaf.symbol leaf.text leaf.value := by
  rcases leaf with ⟨symbol, blank, text, start, stop, value⟩
  obtain ⟨isBlank, isStart, isStop, -⟩ := fits
  cases isBlank
  cases isStart
  change stop = landing.position.through text at isStop
  rw [isStop]
  rfl

abbrev Spelling (V : Type) : Type := List Char → Option V → Prop

/-- Whether a terminal matches the longest of the texts that are spelled, with their values. -/
structure Terminal.Spells (terminal : Terminal V) (spelling : Spelling V) : Prop where
  matched : ∀ {landing leaf candidate},
    LexicalCell.scanTerminal landing terminal = some (leaf, candidate) →
      leaf.symbol = terminal.symbol ∧ spelling leaf.text leaf.value ∧
        ∀ other value, other <+: landing.rest → spelling other value → other <+: leaf.text
  unmatched : ∀ {landing}, LexicalCell.scanTerminal landing terminal = none →
    ∀ text value, text <+: landing.rest → ¬ spelling text value

namespace Terminal.Spells

variable {terminal : Terminal V} {spelling : Spelling V} {landing : Landing}

theorem congr {other : Spelling V} (spells : terminal.Spells spelling)
    (same : ∀ text value, spelling text value ↔ other text value) : terminal.Spells other := by
  refine ⟨?_, ?_⟩
  · intro landing leaf candidate found
    obtain ⟨isSymbol, spelled, greatest⟩ := spells.matched found
    exact ⟨isSymbol, (same _ _).1 spelled,
      fun text value begins isSpelled => greatest text value begins ((same _ _).2 isSpelled)⟩
  · intro landing nothing text value begins isSpelled
    exact spells.unmatched nothing text value begins ((same _ _).2 isSpelled)

theorem finds (spells : terminal.Spells spelling) {text : List Char} {value : Option V}
    (begins : text <+: landing.rest) (spelled : spelling text value)
    (greatest : ∀ other value, other <+: landing.rest → spelling other value → other <+: text)
    (only : ∀ other, spelling text other → other = value) :
    (LexicalCell.scanTerminal landing terminal).map Prod.fst =
      some (landing.leaf terminal.symbol text value) := by
  cases found : LexicalCell.scanTerminal landing terminal with
  | none => exact absurd spelled (spells.unmatched found text value begins)
  | some result =>
      rcases result with ⟨leaf, candidate⟩
      obtain ⟨isSymbol, isSpelled, longest⟩ := spells.matched found
      have fits := LexicalCell.scanTerminal_fits found
      have same : leaf.text = text :=
        (greatest _ _ fits.text isSpelled).eq_of_length_le
          (longest text value begins spelled).length_le
      rw [Option.map_some, fits.eq_leaf, isSymbol, same]
      rw [same] at isSpelled
      rw [only _ isSpelled]

theorem finds_none (spells : terminal.Spells spelling)
    (nothing : ∀ text value, text <+: landing.rest → ¬ spelling text value) :
    (LexicalCell.scanTerminal landing terminal).map Prod.fst = none := by
  cases found : LexicalCell.scanTerminal landing terminal with
  | none => rfl
  | some result =>
      obtain ⟨-, isSpelled, -⟩ := spells.matched found
      exact absurd isSpelled (nothing _ _ (LexicalCell.scanTerminal_fits found).text)

/-! ### Texts with one value each -/

section Values

variable {language : Lang} {value : List Char → V} {starts : CharSet} {text after : List Char}

theorem nothing
    (spells : terminal.Spells fun text found => language text ∧ found = some (value text))
    (begins : language.Begins starts)
    (differs : ∀ c, landing.rest.head? = some c → starts.mem c = false) :
    (LexicalCell.scanTerminal landing terminal).map Prod.fst = none := by
  refine spells.finds_none ?_
  rintro piece found ⟨behind, split⟩ ⟨belongs, -⟩
  obtain ⟨c, tail, rfl, member⟩ := begins piece belongs
  have apart := differs c (by rw [← split]; rfl)
  rw [member] at apart
  cases apart

theorem finds_text
    (spells : terminal.Spells fun text found => language text ∧ found = some (value text))
    (split : landing.rest = text ++ after) (belongs : language text)
    (greatest : ∀ other, other <+: text ++ after → language other → other <+: text) :
    (LexicalCell.scanTerminal landing terminal).map Prod.fst =
      some (landing.leaf terminal.symbol text (some (value text))) := by
  refine spells.finds ⟨after, split.symm⟩ ⟨belongs, rfl⟩ ?_ ?_
  · rintro other found begins ⟨isIn, -⟩
    rw [split] at begins
    exact greatest other begins isIn
  · rintro other ⟨-, same⟩
    exact same

theorem of_found {leaf : Leaf V}
    (spells : terminal.Spells fun text found => language text ∧ found = some (value text))
    (found : (LexicalCell.scanTerminal landing terminal).map Prod.fst = some leaf) :
    ∃ text, language text ∧ leaf = landing.leaf terminal.symbol text (some (value text)) := by
  obtain ⟨⟨own, candidate⟩, scanned, rfl⟩ := Option.map_eq_some_iff.1 found
  obtain ⟨isSymbol, ⟨belongs, isValue⟩, -⟩ := spells.matched scanned
  refine ⟨own.text, belongs, ?_⟩
  rw [← isValue, ← isSymbol]
  exact (LexicalCell.scanTerminal_fits scanned).eq_leaf

end Values

end Terminal.Spells

theorem Lang.Begins.head_apart {language : Lang} {starts : CharSet} {landing : Landing}
    {text after : List Char} (begins : language.Begins starts) (belongs : language text)
    (split : landing.rest = text ++ after) (others : CharSet) (apart : starts.Apart others) :
    ∀ c, landing.rest.head? = some c → others.mem c = false := by
  obtain ⟨d, tail, rfl, member⟩ := begins text belongs
  rw [split]
  rintro c ⟨⟩
  exact apart.not_mem member

/-! ### Candidates -/

/-- A candidate with the language that its scanner reads. -/
abbrev Offer (V : Type) : Type := Candidate V × Lang

namespace LexicalCell

def prefer (text : List Char) (best : Option (Nat × Candidate V)) (candidate : Candidate V) :
    Option (Nat × Candidate V) :=
  match candidate.scanner.scan text with
  | none => best
  | some length =>
    match best with
    | none => some (length, candidate)
    | some (other, _) => if other < length then some (length, candidate) else best

inductive Wins (offers : List (Offer V)) (text : List Char) :
    Option (Nat × Candidate V) → Prop where
  | none_ :
      (∀ offer ∈ offers, ∀ piece, piece <+: text → ¬ offer.2 piece) → Wins offers text none
  | some_ {candidate language piece} :
      (candidate, language) ∈ offers →
      piece <+: text →
      language piece →
      (∀ offer ∈ offers, ∀ other, other <+: text → offer.2 other → other <+: piece) →
      Wins offers text (some (Text.byteLength piece, candidate))

namespace Wins

variable {offers : List (Offer V)} {text : List Char} {best : Option (Nat × Candidate V)}

/-- The next candidate wins only if it has more to offer than the best so far. -/
theorem prefer {candidate : Candidate V} {language : Lang} (wins : Wins offers text best)
    (reads : candidate.scanner.Reads language) :
    Wins (offers ++ [(candidate, language)]) text (prefer text best candidate) := by
  unfold LexicalCell.prefer
  have offered := reads text
  generalize candidate.scanner.scan text = length at offered
  cases offered with
  | none_ fails =>
      cases wins with
      | none_ nothing =>
          refine .none_ (List.forall_mem_append.2 ⟨nothing, List.forall_mem_singleton.2 ?_⟩)
          exact fails
      | some_ listed begins belongs greatest =>
          refine .some_ (List.mem_append_left _ listed) begins belongs
            (List.forall_mem_append.2 ⟨greatest, List.forall_mem_singleton.2 ?_⟩)
          exact fun other isOther isIn => absurd isIn (fails other isOther)
  | @some_ piece begins belongs greatest =>
      have last : (candidate, language) ∈ offers ++ [(candidate, language)] :=
        List.mem_append_right _ (List.mem_singleton_self _)
      cases wins with
      | none_ nothing =>
          refine .some_ last begins belongs
            (List.forall_mem_append.2 ⟨?_, List.forall_mem_singleton.2 greatest⟩)
          exact fun offer member other isOther isIn =>
            absurd isIn (nothing offer member other isOther)
      | @some_ winner _ piece' listed' begins' belongs' greatest' =>
          change Wins _ text
            (if Text.byteLength piece' < Text.byteLength piece then _ else _)
          split
          · next longer =>
              have inside :=
                Text.beginning_of_byteLength_le begins' begins (Nat.le_of_lt longer)
              refine .some_ last begins belongs
                (List.forall_mem_append.2 ⟨?_, List.forall_mem_singleton.2 greatest⟩)
              exact fun offer member other isOther isIn =>
                (greatest' offer member other isOther isIn).trans inside
          · next short =>
              have inside :=
                Text.beginning_of_byteLength_le begins begins' (Nat.le_of_not_lt short)
              refine .some_ (List.mem_append_left _ listed') begins' belongs'
                (List.forall_mem_append.2 ⟨greatest', List.forall_mem_singleton.2 ?_⟩)
              exact fun other isOther isIn => (greatest other isOther isIn).trans inside

theorem foldl {candidates : List (Candidate V)} {languages : List Lang}
    (each : List.Forall₂ (fun candidate language => candidate.scanner.Reads language) candidates
      languages) (wins : Wins offers text best) :
    Wins (offers ++ candidates.zip languages) text
      (candidates.foldl (LexicalCell.prefer text) best) := by
  induction each generalizing offers best with
  | nil =>
      rw [List.zip_nil_left, List.append_nil]
      exact wins
  | @cons candidate language _ _ reads _ ih =>
      rw [List.zip_cons_cons, List.append_cons]
      exact ih (wins.prefer reads)

end Wins

end LexicalCell

open LexicalCell in
/-- A terminal matches the longest beginning in any language of its candidates. -/
theorem Terminal.spells (terminal : Terminal V) {languages : List Lang}
    (each : List.Forall₂ (fun candidate language => candidate.scanner.Reads language)
      terminal.candidates languages) :
    terminal.Spells fun text value =>
      ∃ offer ∈ terminal.candidates.zip languages,
        offer.2 text ∧ value = offer.1.transform.map fun transform => transform text := by
  have wins (text : List Char) : Wins (terminal.candidates.zip languages) text
      (longestCandidate terminal.candidates text) := by
    have begun : Wins ([] : List (Offer V)) text none := .none_ nofun
    exact begun.foldl each
  refine ⟨?_, ?_⟩
  · intro landing leaf candidate found
    simp only [scanTerminal, Option.bind_eq_bind, Option.bind_eq_some_iff] at found
    obtain ⟨⟨length, chosen⟩, longest, text, taken, made⟩ := found
    have won := wins landing.rest
    rw [longest] at won
    cases won with
    | @some_ _ language piece listed begins belongs greatest =>
        obtain ⟨after, split⟩ := begins
        rw [← split, Text.takeBytes?_append] at taken
        cases taken
        cases made
        refine ⟨rfl, ⟨_, listed, belongs, rfl⟩, ?_⟩
        rintro other value isOther ⟨offer, member, isIn, -⟩
        exact greatest offer member other isOther isIn
  · intro landing nothing text value begins isSpelled
    obtain ⟨offer, member, isIn, -⟩ := isSpelled
    have won := wins landing.rest
    cases longest : longestCandidate terminal.candidates landing.rest with
    | none =>
        rw [longest] at won
        cases won with
        | none_ fails => exact fails offer member text begins isIn
    | some result =>
        rw [longest] at won
        cases won with
        | @some_ chosen _ piece _ isPiece _ _ =>
            obtain ⟨after, split⟩ := isPiece
            have taken : Text.takeBytes? landing.rest (Text.byteLength piece) = some piece := by
              rw [← split, Text.takeBytes?_append]
            simp [scanTerminal, longest, taken] at nothing

theorem Terminal.spells_values (terminal : Terminal V) {languages : List Lang}
    {value : List Char → V}
    (each : List.Forall₂ (fun candidate language => candidate.scanner.Reads language)
      terminal.candidates languages)
    (agree : ∀ text, ∀ offer ∈ terminal.candidates.zip languages, offer.2 text →
      (offer.1.transform.map fun transform => transform text) = some (value text)) :
    terminal.Spells fun text found => Lang.anyOf languages text ∧ found = some (value text) := by
  refine (terminal.spells each).congr fun text found => ?_
  constructor
  · rintro ⟨offer, listed, belongs, rfl⟩
    exact ⟨⟨offer.2, (List.of_mem_zip listed).2, belongs⟩, agree text offer listed belongs⟩
  · rintro ⟨⟨language, listed, belongs⟩, rfl⟩
    rw [← List.map_snd_zip (Nat.le_of_eq each.length_eq.symm)] at listed
    obtain ⟨offer, isOffer, rfl⟩ := List.mem_map.1 listed
    exact ⟨offer, isOffer, belongs, (agree text offer isOffer belongs).symm⟩

theorem Terminal.spells_single {symbol : Symbol} {scanner : Scanner} {transform : List Char → V}
    {language : Lang} (reads : scanner.Reads language) :
    (⟨symbol, [⟨scanner, some transform⟩]⟩ : Terminal V).Spells fun text value =>
      language text ∧ value = some (transform text) := by
  have each : List.Forall₂ (fun (candidate : Candidate V) language =>
      candidate.scanner.Reads language) [⟨scanner, some transform⟩] [language] :=
    .cons reads .nil
  refine (Terminal.spells ⟨symbol, _⟩ each).congr fun text value => ?_
  simp

end Packrat
