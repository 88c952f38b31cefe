import Mathlib.Logic.Relation
import Packrat.Proofs.Scan.Greatest
import Packrat.Proofs.Scan.Selection

/-!
The slices that scanning takes. A sequence and a repetition count the bytes that they have come to
from the start of their text, and slice the text there for the next scanner. `Scanner.State.next?`
does so round by round: a slice that the text does not have breaks a scan off, and so does a number
beyond a limit. In a text within this limit nothing breaks, and after finitely many rounds the
answer is what the scanner reports, the size of a beginning of the text. So the text of a leaf can
be sliced, and its end be counted on from its start (`LexicalCell.scan_slices`).
-/

set_option autoImplicit false

namespace Packrat

namespace Scanner

inductive Frame where
  | join (rest : List Scanner) (text : List Char) (length : Nat)
  | any (rest : List Scanner) (text : List Char) (best : Option Nat)
  | passes (inner : Scanner) (min : Nat) (max : Option Nat) (text : List Char)
      (count length : Nat)

/-- A scan on its way: a scanner begins with a text, or an answer is given, and scanners wait for
it, the innermost first. A scan that has been broken off stays so. -/
inductive State where
  | begins (scanner : Scanner) (text : List Char) (frames : List Frame)
  | answers (found : Option Nat) (frames : List Frame)
  | broken

namespace State

def sliced (scanner : Scanner) (text : List Char) (length : Nat) (frames : List Frame) : State :=
  match Text.dropBytes? text length with
  | some rest => .begins scanner rest frames
  | none => .broken

def joinOn (parts : List Scanner) (text : List Char) (length : Nat) (frames : List Frame) :
    State :=
  match parts with
  | [] => .answers (some length) frames
  | scanner :: rest => sliced scanner text length (.join rest text length :: frames)

def anyOn (choices : List Scanner) (text : List Char) (best : Option Nat) (frames : List Frame) :
    State :=
  match choices with
  | [] => .answers best frames
  | scanner :: rest => .begins scanner text (.any rest text best :: frames)

/-- What a repetition reports that ends after so many passes. -/
def reached (min count length : Nat) : Option Nat :=
  if min ≤ count then some length else none

def passOn (inner : Scanner) (min : Nat) (max : Option Nat) (text : List Char)
    (count length : Nat) (frames : List Frame) : State :=
  if max.any (· ≤ count) then .answers (reached min count length) frames
  else sliced inner text length (.passes inner min max text count length :: frames)

def resume (limit : Nat) (found : Option Nat) (frames : List Frame) : Frame → State
  | .join rest text length =>
    match found with
    | none => .answers none frames
    | some more =>
      if length + more ≤ limit then joinOn rest text (length + more) frames else .broken
  | .any rest text best => anyOn rest text (longer best found) frames
  | .passes inner min max text count length =>
    match found with
    | none => .answers (reached min count length) frames
    | some 0 => .answers (reached min (Nat.max count min) length) frames
    | some (more + 1) =>
      if length + (more + 1) ≤ limit ∧ count + 1 ≤ limit then
        passOn inner min max text (count + 1) (length + (more + 1)) frames
      else .broken

/-- One round of a scan, unless it has come to its end. -/
def next? (limit : Nat) : State → Option State
  | .begins (.words list) text frames =>
    some (.answers (longest (list.map (scanWord · text))) frames)
  | .begins (.patterns list) text frames =>
    some (.answers (longest (list.map (scanPattern · text))) frames)
  | .begins (.fixed count) text frames => some (.answers (scanFixed count text) frames)
  | .begins (.join parts) text frames => some (joinOn parts text 0 frames)
  | .begins (.any choices) text frames => some (anyOn choices text none frames)
  | .begins (.repeated inner min max) text frames => some (passOn inner min max text 0 0 frames)
  | .answers found (frame :: frames) => some (resume limit found frames frame)
  | .answers _ [] | .broken => none

end State

end Scanner

/-! ### Slices that a text has -/

section Slicing

variable {limit length more : Nat} {text rest : List Char}

theorem Text.HasCut.le (cut : Text.HasCut text length) : length ≤ Text.byteLength text := by
  obtain ⟨piece, after, rfl, rfl⟩ := cut
  rw [Text.byteLength_append]
  exact Nat.le_add_right _ _

theorem Text.byteLength_rest_le (dropped : Text.dropBytes? text length = some rest)
    (fits : Text.byteLength text ≤ limit) : Text.byteLength rest ≤ limit := by
  obtain ⟨before, rfl, -⟩ := (Text.dropBytes?_eq_some_iff _ _ _).1 dropped
  rw [Text.byteLength_append] at fits
  omega

/-- A cut of what remains behind a slice is a slice of the whole text. -/
theorem Text.HasCut.exists_slice (cut : Text.HasCut rest more)
    (dropped : Text.dropBytes? text length = some rest) :
    ∃ left, Text.dropBytes? rest more = some left ∧
      Text.dropBytes? text (length + more) = some left := by
  obtain ⟨before, rfl, rfl⟩ := (Text.dropBytes?_eq_some_iff _ _ _).1 dropped
  obtain ⟨piece, after, rfl, rfl⟩ := cut
  refine ⟨after, Text.dropBytes?_append piece after, ?_⟩
  rw [Text.dropBytes?_behind, Text.dropBytes?_append]

end Slicing

/-! ### Rounds -/

namespace Scanner

open State

abbrev Rounds (limit : Nat) : State → State → Prop :=
  Relation.ReflTransGen fun before after => before.next? limit = some after

variable {limit : Nat}

theorem sliced_eq {text rest : List Char} {length : Nat}
    (dropped : Text.dropBytes? text length = some rest) (scanner : Scanner) (frames : List Frame) :
    sliced scanner text length frames = .begins scanner rest frames := by
  rw [sliced, dropped]

theorem scanPasses_stops {scan : List Char → Option Nat} {min : Nat} {max : Option Nat}
    {budget count length : Nat} {text : List Char}
    (stops : max.any (· ≤ count) = true ∨ scan text = none) :
    scanPasses scan min max budget count length text = reached min count length := by
  unfold scanPasses
  by_cases full : max.any (· ≤ count) = true
  · rw [if_pos full]
    rfl
  · rw [if_neg full, stops.resolve_left full]
    rfl

/-- The loop over passes comes to its answer if every pass does. The length and the number of passes
stay within the text, since a pass that goes on has matched something. -/
theorem passOn_rounds {inner : Scanner} {min : Nat} {max : Option Nat} {text rest : List Char}
    {budget count length : Nat}
    (passes : ∀ {text : List Char}, Text.byteLength text ≤ limit → ∀ frames,
      Rounds limit (.begins inner text frames) (.answers (inner.scan text) frames))
    (fits : Text.byteLength text ≤ limit) (dropped : Text.dropBytes? text length = some rest)
    (room : rest.length ≤ budget) (few : count ≤ length) (frames : List Frame) :
    Rounds limit (passOn inner min max text count length frames)
      (.answers (scanPasses inner.scan min max budget count length rest) frames) := by
  induction size : rest.length using Nat.strong_induction_on
    generalizing budget count length rest with
  | _ size ih =>
      by_cases full : max.any (· ≤ count) = true
      · rw [passOn, if_pos full, scanPasses_stops (.inl full)]
      · rw [passOn, if_neg full, sliced_eq dropped]
        refine (passes (Text.byteLength_rest_le dropped fits) _).trans (.head rfl ?_)
        cases found : inner.scan rest with
        | none =>
            rw [scanPasses_stops (.inr found)]
            exact .refl
        | some bytes =>
            cases bytes with
            | zero =>
                rw [scanPasses_idle (Bool.eq_false_iff.2 full) found, resume, reached,
                  if_pos (Nat.le_max_right count min)]
            | succ bytes =>
                obtain ⟨smaller, left, rfl, droppedLeft, shorter, room'⟩ :=
                  exists_rest inner.scan_cuts found room
                have cut := inner.scan_cuts rest (bytes + 1) found
                obtain ⟨_, same, onward⟩ := cut.exists_slice dropped
                cases droppedLeft.symm.trans same
                have within : length + (bytes + 1) ≤ limit :=
                  Nat.le_trans (cut.behind dropped).le fits
                rw [scanPasses_onward (Bool.eq_false_iff.2 full) found droppedLeft, resume,
                  if_pos ⟨within, by omega⟩]
                exact ih left.length (size ▸ shorter) onward room' (by omega) rfl

mutual

/-- A scanner that begins with a text within the limit comes to its answer, whatever waits. -/
theorem begins_rounds (scanner : Scanner) {text : List Char} (fits : Text.byteLength text ≤ limit)
    (frames : List Frame) :
    Rounds limit (.begins scanner text frames) (.answers (scanner.scan text) frames) := by
  cases scanner with
  | words list =>
      rw [scan]
      exact .single rfl
  | patterns list =>
      rw [scan]
      exact .single rfl
  | fixed count =>
      rw [scan]
      exact .single rfl
  | join parts =>
      have onward := joinOn_rounds parts fits (Text.dropBytes?_zero text) frames
      simp only [Nat.zero_add, Option.map_id'] at onward
      rw [scan]
      exact .head rfl onward
  | any choices =>
      rw [scan]
      exact .head rfl (anyOn_rounds choices fits none frames)
  | repeated inner min max =>
      rw [scan]
      exact .head rfl (passOn_rounds (fun fits frames => begins_rounds inner fits frames) fits
        (Text.dropBytes?_zero text) (Nat.le_refl _) (Nat.le_refl 0) frames)

theorem joinOn_rounds (parts : List Scanner) {text rest : List Char} {length : Nat}
    (fits : Text.byteLength text ≤ limit) (dropped : Text.dropBytes? text length = some rest)
    (frames : List Frame) :
    Rounds limit (joinOn parts text length frames)
      (.answers ((scanJoin parts rest).map (length + ·)) frames) := by
  cases parts with
  | nil => exact .refl
  | cons scanner others =>
      rw [joinOn, sliced_eq dropped]
      refine (begins_rounds scanner (Text.byteLength_rest_le dropped fits) _).trans (.head rfl ?_)
      rw [scanJoin]
      cases found : scanner.scan rest with
      | none => exact .refl
      | some more =>
          have cut := scanner.scan_cuts rest more found
          obtain ⟨left, droppedLeft, onward⟩ := cut.exists_slice dropped
          have within : length + more ≤ limit := Nat.le_trans (cut.behind dropped).le fits
          have behind := joinOn_rounds others fits onward frames
          rw [resume, if_pos within]
          cases isRest : scanJoin others left with
          | none => simpa [droppedLeft, isRest] using behind
          | some total => simpa [droppedLeft, isRest, Nat.add_assoc] using behind

theorem anyOn_rounds (choices : List Scanner) {text : List Char}
    (fits : Text.byteLength text ≤ limit) (best : Option Nat) (frames : List Frame) :
    Rounds limit (anyOn choices text best frames)
      (.answers ((scanEach choices text).foldl longer best) frames) := by
  cases choices with
  | nil => exact .refl
  | cons scanner rest =>
      rw [anyOn, scanEach, List.foldl_cons]
      exact (begins_rounds scanner fits _).trans
        (.head rfl (anyOn_rounds rest fits (longer best (scanner.scan text)) frames))

end

/-! ### Ends of scans -/

section Ends

variable {start state last : State}

theorem next?_unique (limit : Nat) :
    Relator.RightUnique fun before after : State => before.next? limit = some after :=
  fun _ _ _ first second => Option.some.inj (first.symm.trans second)

theorem rounds_halted (rounds : Rounds limit last state)
    (halted : last.next? limit = none) : last = state := by
  cases Relation.ReflTransGen.cases_head rounds with
  | inl same => exact same
  | inr onward =>
      obtain ⟨_, round, -⟩ := onward
      cases halted.symm.trans round

/-- There is one way only, so whatever comes up on it goes on to its end. -/
theorem rounds_toward (rounds : Rounds limit start last) (halted : last.next? limit = none)
    (way : Rounds limit start state) : Rounds limit state last := by
  rcases way.total_of_right_unique (next?_unique limit) rounds with onward | beyond
  · exact onward
  · rw [rounds_halted beyond halted]

theorem rounds_acc (rounds : Rounds limit start last) (halted : last.next? limit = none) :
    Acc (fun later earlier : State => earlier.next? limit = some later) start := by
  induction rounds using Relation.ReflTransGen.head_induction_on with
  | refl =>
      refine ⟨_, fun later round => ?_⟩
      cases halted.symm.trans round
  | head round _ ih =>
      refine ⟨_, fun later other => ?_⟩
      rwa [next?_unique limit other round]

end Ends

/-- Whether scanning a text comes to an end with the answer of the scanner, and no slice and no
number breaks it off. -/
structure Settles (limit : Nat) (scanner : Scanner) (text : List Char) : Prop where
  ends : Acc (fun later earlier : State => earlier.next? limit = some later)
    (.begins scanner text [])
  unbroken : ∀ state, Rounds limit (.begins scanner text []) state → state ≠ .broken
  answer : ∀ state, Rounds limit (.begins scanner text []) state → state.next? limit = none →
    state = .answers (scanner.scan text) []

theorem settles (scanner : Scanner) {text : List Char} (fits : Text.byteLength text ≤ limit) :
    scanner.Settles limit text := by
  have rounds := scanner.begins_rounds fits []
  refine ⟨rounds_acc rounds rfl, ?_, ?_⟩
  · rintro _ way rfl
    cases rounds_halted (rounds_toward rounds rfl way) rfl
  · intro state way halted
    exact rounds_halted (rounds_toward rounds rfl way) halted

end Scanner

/-! ### Leaves -/

namespace LexicalCell

variable {V : Type} [Kinded V]

/-- The text of a leaf is a slice of what remains at its place, and its end is counted on from
there. -/
theorem leaf_of_longestCandidate {input : Input V} {origin : Position} {landing : Landing}
    (landed : input.land origin = .ok landing) {terminal : Terminal V} {length : Nat}
    {candidate : Candidate V}
    (chosen : longestCandidate terminal.candidates landing.rest = some (length, candidate)) :
    ∃ leaf, scanTerminal landing terminal = some (leaf, candidate) ∧
      Text.takeBytes? landing.rest length = some leaf.text ∧
      landing.position.advance input.source (landing.position.offset + length) = .ok leaf.stop := by
  have leads := longestCandidate_leads chosen
  cases matched : scanTerminal landing terminal with
  | none =>
      cases (scanTerminal_eq_none_iff.1 matched candidate leads.mem).symm.trans leads.measures
  | some found =>
      rcases found with ⟨leaf, winner⟩
      obtain ⟨wins, -⟩ := scanTerminal_leads matched
      cases leads.unique wins
      cases leads.measures.symm.trans wins.measures
      have fits := scanTerminal_fits matched
      obtain ⟨after, split⟩ := fits.text
      refine ⟨leaf, rfl, by rw [← split, Text.takeBytes?_append], ?_⟩
      have remains := Input.land_rest? landed
      rw [Input.rest?_eq, ← split, Text.dropBytes?_eq_some_iff] at remains
      obtain ⟨before, isSource, size⟩ := remains
      rw [Position.advance_eq_ok_iff]
      exact ⟨before, leaf.text, after, by rw [isSource, List.append_assoc], size, rfl, fits.stop⟩

/-- A scanner, whatever it was made from and whatever its bounds are, comes to an end on every text
within the limit of its numbers. No slice on the way fails, and a length that is reported is the
size of a beginning of the text. So the longest match of a terminal can be sliced from what remains
at a place, and the position at its end be counted on from there. -/
theorem scan_slices (input : Input V) (limit : Nat) :
    (∀ (scanner : Scanner) (text : List Char), Text.byteLength text ≤ limit →
      scanner.Settles limit text ∧
      ∀ length, scanner.scan text = some length →
        length ≤ Text.byteLength text ∧ Text.HasCut text length) ∧
    ∀ origin landing, input.land origin = .ok landing →
      ∀ (terminal : Terminal V) length candidate,
        longestCandidate terminal.candidates landing.rest = some (length, candidate) →
        ∃ leaf, scanTerminal landing terminal = some (leaf, candidate) ∧
          Text.takeBytes? landing.rest length = some leaf.text ∧
          landing.position.advance input.source (landing.position.offset + length) =
            .ok leaf.stop := by
  refine ⟨fun scanner text fits => ⟨scanner.settles fits, fun length scanned => ?_⟩, ?_⟩
  · have cut := scanner.scan_cuts text length scanned
    exact ⟨cut.le, cut⟩
  · intro origin landing landed terminal length candidate chosen
    exact leaf_of_longestCandidate landed chosen

end LexicalCell

namespace Umlauts

def wordSymbol : Symbol := ⟨"WORD"⟩

def matcher : Matcher :=
  .join [.repeated (.any [.words ["äö"], .patterns ["x*"]]) 18446744073709551615 none, .fixed 1]

theorem compiles : (Scanner.compile Regex.engine matcher).toOption.isSome = true := by
  decide +kernel

def scanner : Scanner :=
  (Scanner.compile Regex.engine matcher).toOption.get compiles

def terminal : Terminal Scalar :=
  ⟨wordSymbol, [⟨.fixed 2, none⟩, ⟨scanner, none⟩]⟩

def text : List Char := "äöäöxü!".toList

def input : Input Scalar where
  grammar := ⟨[' '], wordSymbol, [terminal], {}, []⟩
  source := ' ' :: text

end Umlauts

/-- Two passes over characters of two bytes, one over one byte, and an empty one that stands for all
others. The leaf ends in front of the last character. -/
theorem umlauts_sliced :
    Umlauts.scanner.Settles 18446744073709551615 Umlauts.text ∧
      Umlauts.scanner.scan Umlauts.text = some 11 ∧ Text.HasCut Umlauts.text 11 ∧
      ∃ landing leaf, Umlauts.input.land .start = .ok landing ∧
        LexicalCell.scanTerminal landing Umlauts.terminal = some (leaf, ⟨Umlauts.scanner, none⟩) ∧
        Text.takeBytes? Umlauts.text 11 = some leaf.text ∧
        landing.position.advance Umlauts.input.source 12 = .ok leaf.stop := by
  have scanned : Umlauts.scanner.scan Umlauts.text = some 11 := by decide +kernel
  have shorter : (Scanner.fixed 2).scan Umlauts.text = some 4 := by decide +kernel
  have landed : Umlauts.input.land .start =
      .ok ⟨.start, [' '], Position.start.through [' '], Umlauts.text⟩ :=
    (Umlauts.input.land_eq_ok_iff _ _).2 ⟨_, Umlauts.input.rest?_zero, rfl⟩
  have chosen : LexicalCell.longestCandidate Umlauts.terminal.candidates Umlauts.text =
      some (11, ⟨Umlauts.scanner, none⟩) := by
    simp [LexicalCell.longestCandidate, Umlauts.terminal, scanned, shorter]
  obtain ⟨scans, leaves⟩ := LexicalCell.scan_slices Umlauts.input 18446744073709551615
  obtain ⟨settles, cuts⟩ := scans Umlauts.scanner Umlauts.text (by decide +kernel)
  obtain ⟨leaf, matched, taken, ends⟩ := leaves _ _ landed Umlauts.terminal 11 _ chosen
  exact ⟨settles, scanned, (cuts 11 scanned).2, _, leaf, landed, matched, taken, ends⟩

end Packrat
