import Packrat.Proofs.Grammar.Faults
import Packrat.Proofs.Scan.Cuts
import Packrat.Regex.Engine

/-!
The lengths that a matcher allows at the beginning of a text (`Matcher.lengths`), said without the
order in which a scanner tries them: a choice allows what one of its members does, a sequence the
sums over its parts, each on the text that the parts before it leave.

A repetition can be read in two ways. Either it makes passes that match something, and one that
matches nothing stands for all that are missing (`Lengths.proper`), or it makes any passes whose
number lies within its bounds (`Lengths.within`). What a scanner reports is a length of its matcher
(`Scanner.scan_derivable`).
-/

set_option autoImplicit false

namespace Packrat

/-- The lengths that are allowed at the beginning of each text. -/
abbrev Lengths : Type := List Char → Nat → Prop

namespace Lengths

/-- Passes one after the other, each on the text that the one before it leaves: how many there are,
the text, their length together, and the text behind them. -/
inductive Passes (inner : Lengths) : Nat → List Char → Nat → List Char → Prop where
  | done {text} : Passes inner 0 text 0 text
  | onward {count text first rest length left} :
      inner text first →
      Text.dropBytes? text first = some rest →
      Passes inner count rest length left →
      Passes inner (count + 1) text (first + length) left

/-- Passes that match something, not more than the upper bound, and either as many as the lower one
demands, or in front of a text where a pass may match nothing. -/
def proper (inner : Lengths) (min : Nat) (max : Option Nat) : Lengths := fun text length =>
  ∃ count left, Passes (fun text length => inner text length ∧ length ≠ 0) count text length left ∧
    (∀ limit, max = some limit → count ≤ limit) ∧ (min ≤ count ∨ inner left 0)

/-- Passes whose number lies within the bounds. -/
def within (inner : Lengths) (min : Nat) (max : Option Nat) : Lengths := fun text length =>
  ∃ count left, Passes inner count text length left ∧
    min ≤ count ∧ ∀ limit, max = some limit → count ≤ limit

end Lengths

namespace Matcher

section

variable (engine : RegexEngine) (repetition : Lengths → Nat → Option Nat → Lengths)

mutual

def lengths : Matcher → Lengths
  | .words list, text, length =>
    ∃ word ∈ list, word.toList <+: text ∧ Text.byteLength word.toList = length
  | .patterns list, text, length =>
    ∃ pattern ∈ list, ∃ ready start, anchoredPattern? engine pattern = some ready ∧
      ready.find? text = some (start, length)
  | .fixed count, text, length =>
    count ≤ text.length ∧ Text.byteLength (text.take count) = length
  | .join parts, text, length => lengthsJoined parts text length
  | .any choices, text, length => lengthsOfAny choices text length
  | .repeated inner min max, text, length => repetition (lengths inner) min max text length

def lengthsJoined : List Matcher → Lengths
  | [], _, length => length = 0
  | matcher :: rest, text, length =>
    ∃ first remaining more, lengths matcher text first ∧
      Text.dropBytes? text first = some remaining ∧ lengthsJoined rest remaining more ∧
        first + more = length

def lengthsOfAny : List Matcher → Lengths
  | [], _, _ => False
  | matcher :: rest, text, length => lengths matcher text length ∨ lengthsOfAny rest text length

end

end

end Matcher

/-! ### What compiling keeps -/

variable {engine : RegexEngine}

theorem ok_of_bind {ε α β : Type} {result : Except ε α} {next : α → β} {answer : β}
    (done : (result >>= fun value => pure (next value)) = .ok answer) :
    ∃ value, result = .ok value ∧ next value = answer := by
  cases result with
  | error fault => cases done
  | ok value => exact ⟨value, rfl, Except.ok.inj done⟩

theorem readPatterns_map {list : List String} {patterns : List Pattern}
    (done : readPatterns engine list = .ok patterns) :
    list.map (anchoredPattern? engine) = patterns.map some := by
  induction list generalizing patterns with
  | nil =>
      cases done
      rfl
  | cons pattern rest ih =>
      rw [readPatterns] at done
      cases isReady : anchoredPattern? engine pattern with
      | none =>
          rw [isReady] at done
          cases done
      | some first =>
          rw [isReady] at done
          obtain ⟨others, doneRest, rfl⟩ := ok_of_bind done
          rw [List.map_cons, List.map_cons, isReady, ih doneRest]

theorem mem_readPatterns_iff {list : List String} {patterns : List Pattern}
    (done : readPatterns engine list = .ok patterns) {ready : Pattern} :
    ready ∈ patterns ↔ ∃ pattern ∈ list, anchoredPattern? engine pattern = some ready := by
  rw [← List.mem_map, readPatterns_map done]
  simp

namespace Scanner

variable {scanner : Scanner}

theorem compile_words {list : List String} (compiled : compile engine (.words list) = .ok scanner) :
    scanner = .words (list.map String.toList) := by
  rw [compile] at compiled
  split at compiled
  · cases compiled
  · exact (Except.ok.inj compiled).symm

theorem compile_patterns {list : List String}
    (compiled : compile engine (.patterns list) = .ok scanner) :
    ∃ patterns, readPatterns engine list = .ok patterns ∧ scanner = .patterns patterns := by
  rw [compile] at compiled
  split at compiled
  · cases compiled
  · obtain ⟨patterns, done, rfl⟩ := ok_of_bind compiled
    exact ⟨patterns, done, rfl⟩

theorem compile_join {parts : List Matcher} (compiled : compile engine (.join parts) = .ok scanner)
    :
    ∃ scanners, compileAll engine parts = .ok scanners ∧ scanner = .join scanners := by
  rw [compile] at compiled
  split at compiled
  · cases compiled
  · obtain ⟨scanners, done, rfl⟩ := ok_of_bind compiled
    exact ⟨scanners, done, rfl⟩

theorem compile_any {choices : List Matcher}
    (compiled : compile engine (.any choices) = .ok scanner) :
    ∃ scanners, compileAll engine choices = .ok scanners ∧ scanner = .any scanners := by
  rw [compile] at compiled
  split at compiled
  · cases compiled
  · obtain ⟨scanners, done, rfl⟩ := ok_of_bind compiled
    exact ⟨scanners, done, rfl⟩

theorem compile_repeated {inner : Matcher} {min : Nat} {max : Option Nat}
    (compiled : compile engine (.repeated inner min max) = .ok scanner) :
    BoundsValid min max ∧
      ∃ pass, compile engine inner = .ok pass ∧ scanner = .repeated pass min max := by
  rw [compile] at compiled
  split at compiled
  · next valid =>
      obtain ⟨pass, done, rfl⟩ := ok_of_bind compiled
      refine ⟨boundFaults_eq_nil_iff.1 ?_, pass, done, rfl⟩
      rw [boundFaults, if_pos valid]
  · cases compiled

theorem compileAll_cons {matcher : Matcher} {rest : List Matcher} {scanners : List Scanner}
    (compiled : compileAll engine (matcher :: rest) = .ok scanners) :
    ∃ first others, compile engine matcher = .ok first ∧ compileAll engine rest = .ok others ∧
      scanners = first :: others := by
  rw [compileAll] at compiled
  cases isFirst : compile engine matcher with
  | error fault =>
      rw [isFirst] at compiled
      cases compiled
  | ok first =>
      rw [isFirst] at compiled
      obtain ⟨others, done, rfl⟩ := ok_of_bind compiled
      exact ⟨first, others, rfl, done, rfl⟩

end Scanner

/-! ### Scanned lengths are allowed -/

namespace Scanner

theorem scanWord_eq_some {word text : List Char} {length : Nat}
    (scanned : scanWord word text = some length) :
    word <+: text ∧ Text.byteLength word = length := by
  unfold scanWord at scanned
  split at scanned
  · next begins =>
      cases scanned
      exact ⟨List.isPrefixOf_iff_prefix.1 begins, rfl⟩
  · cases scanned

theorem scanFixed_eq_some {count : Nat} {text : List Char} {length : Nat}
    (scanned : scanFixed count text = some length) :
    count ≤ text.length ∧ Text.byteLength (text.take count) = length := by
  simp only [scanFixed] at scanned
  split at scanned
  · next full =>
      cases scanned
      rw [List.length_take] at full
      exact ⟨by omega, rfl⟩
  · cases scanned

/-- Everything that one round of the loop over passes can do. -/
theorem scanPasses_cases {scan : List Char → Option Nat} {min : Nat} {max : Option Nat}
    {budget count before : Nat} {text : List Char} {length : Nat}
    (scanned : scanPasses scan min max budget count before text = some length) :
    (length = before ∧ min ≤ count) ∨
    (length = before ∧ scan text = some 0 ∧ max.any (· ≤ count) = false) ∨
    ∃ room bytes rest, budget = room + 1 ∧ scan text = some (bytes + 1) ∧
      max.any (· ≤ count) = false ∧ Text.dropBytes? text (bytes + 1) = some rest ∧
      scanPasses scan min max room (count + 1) (before + (bytes + 1)) rest = some length := by
  have stop {reached : Nat}
      (stopped : (if min ≤ reached then some before else none) = some length) :
      length = before ∧ min ≤ reached := by
    split at stopped
    · next enough => exact ⟨(Option.some.inj stopped).symm, enough⟩
    · cases stopped
  unfold scanPasses at scanned
  dsimp only at scanned
  split at scanned
  · exact .inl (stop scanned)
  · next open_ =>
      split at scanned
      · exact .inl (stop scanned)
      · next idle => exact .inr (.inl ⟨(stop scanned).1, idle, Bool.eq_false_iff.2 open_⟩)
      · next bytes found =>
          split at scanned
          · next room rest dropped =>
              exact .inr (.inr ⟨room, bytes, rest, rfl, found, Bool.eq_false_iff.2 open_, dropped,
                scanned⟩)
          · cases scanned

/-- What the loop over passes adds to the length so far is what proper passes come to. -/
theorem scanPasses_proper {scan : List Char → Option Nat} {inner : Lengths} {min : Nat}
    {max : Option Nat} (sound : ∀ text length, scan text = some length → inner text length)
    {budget count before : Nat} {text : List Char} {length : Nat}
    (room : ∀ limit, max = some limit → count ≤ limit)
    (scanned : scanPasses scan min max budget count before text = some length) :
    ∃ further more left,
      Lengths.Passes (fun text length => inner text length ∧ length ≠ 0) further text more left ∧
        length = before + more ∧ (∀ limit, max = some limit → count + further ≤ limit) ∧
        (min ≤ count + further ∨ inner left 0) := by
  induction budget generalizing count before text with
  | zero =>
      rcases scanPasses_cases scanned with ⟨rfl, enough⟩ | ⟨rfl, idle, -⟩ | ⟨_, _, _, spent, -⟩
      · exact ⟨0, 0, text, .done, rfl, room, .inl enough⟩
      · exact ⟨0, 0, text, .done, rfl, room, .inr (sound _ _ idle)⟩
      · cases spent
  | succ budget ih =>
      rcases scanPasses_cases scanned with ⟨rfl, enough⟩ | ⟨rfl, idle, -⟩ |
        ⟨_, bytes, rest, ⟨⟩, found, below, dropped, onward⟩
      · exact ⟨0, 0, text, .done, rfl, room, .inl enough⟩
      · exact ⟨0, 0, text, .done, rfl, room, .inr (sound _ _ idle)⟩
      · obtain ⟨further, more, left, passes, rfl, atMost, enough⟩ :=
          ih (below_of_any_eq_false below) onward
        refine ⟨further + 1, bytes + 1 + more, left, ?_, by omega, ?_, ?_⟩
        · exact .onward ⟨sound _ _ found, Nat.succ_ne_zero bytes⟩ dropped passes
        · intro limit isLimit
          have := atMost limit isLimit
          omega
        · exact enough.imp_left fun reached => by omega

mutual

theorem lengths_of_scan {matcher : Matcher} {scanner : Scanner}
    (compiled : compile engine matcher = .ok scanner) {text : List Char} {length : Nat}
    (scanned : scanner.scan text = some length) :
    matcher.lengths engine Lengths.proper text length := by
  cases matcher with
  | words list =>
      cases compile_words compiled
      rw [scan, List.map_map] at scanned
      obtain ⟨word, listed, found⟩ := List.mem_map.1 (longest_mem scanned)
      exact ⟨word, listed, scanWord_eq_some found⟩
  | patterns list =>
      obtain ⟨patterns, done, rfl⟩ := compile_patterns compiled
      rw [scan] at scanned
      obtain ⟨ready, member, found⟩ := List.mem_map.1 (longest_mem scanned)
      obtain ⟨⟨start, stop⟩, isFound, rfl⟩ := Option.map_eq_some_iff.1 found
      obtain ⟨pattern, listed, isReady⟩ := (mem_readPatterns_iff done).1 member
      exact ⟨pattern, listed, ready, start, isReady, isFound⟩
  | fixed count =>
      cases compiled
      rw [scan] at scanned
      exact scanFixed_eq_some scanned
  | join parts =>
      obtain ⟨scanners, done, rfl⟩ := compile_join compiled
      rw [scan] at scanned
      exact lengthsJoined_of_scan done scanned
  | any choices =>
      obtain ⟨scanners, done, rfl⟩ := compile_any compiled
      rw [scan] at scanned
      exact lengthsOfAny_of_scan done (longest_mem scanned)
  | repeated inner min max =>
      obtain ⟨-, pass, done, rfl⟩ := compile_repeated compiled
      rw [scan] at scanned
      obtain ⟨further, more, left, passes, rfl, atMost, enough⟩ :=
        scanPasses_proper (fun _ _ => lengths_of_scan done) (fun _ _ => Nat.zero_le _) scanned
      rw [Nat.zero_add] at atMost enough ⊢
      exact ⟨further, left, passes, atMost, enough⟩

theorem lengthsJoined_of_scan {parts : List Matcher} {scanners : List Scanner}
    (compiled : compileAll engine parts = .ok scanners) {text : List Char} {length : Nat}
    (scanned : scanJoin scanners text = some length) :
    Matcher.lengthsJoined engine Lengths.proper parts text length := by
  cases parts with
  | nil =>
      cases compiled
      exact (Option.some.inj scanned).symm
  | cons matcher rest =>
      obtain ⟨scanner, others, isFirst, done, rfl⟩ := compileAll_cons compiled
      simp only [scanJoin, Option.bind_eq_bind, Option.bind_eq_some_iff] at scanned
      obtain ⟨first, found, remaining, dropped, more, behind, same⟩ := scanned
      exact ⟨first, remaining, more, lengths_of_scan isFirst found, dropped,
        lengthsJoined_of_scan done behind, Option.some.inj same⟩

theorem lengthsOfAny_of_scan {choices : List Matcher} {scanners : List Scanner}
    (compiled : compileAll engine choices = .ok scanners) {text : List Char} {length : Nat}
    (member : some length ∈ scanEach scanners text) :
    Matcher.lengthsOfAny engine Lengths.proper choices text length := by
  cases choices with
  | nil =>
      cases compiled
      cases member
  | cons matcher rest =>
      obtain ⟨scanner, others, isFirst, done, rfl⟩ := compileAll_cons compiled
      rw [scanEach] at member
      rcases List.mem_cons.1 member with here | later
      · exact .inl (lengths_of_scan isFirst here.symm)
      · exact .inr (lengthsOfAny_of_scan done later)

end

/-! ### What scanners report -/

/-- Whatever a scanner reports is a length that its matcher allows. -/
theorem scan_derivable {matcher : Matcher} {scanner : Scanner}
    (compiled : compile engine matcher = .ok scanner) {text : List Char} {length : Nat}
    (scanned : scanner.scan text = some length) :
    matcher.lengths engine Lengths.proper text length :=
  lengths_of_scan compiled scanned

/-- Two passes of a choice, then an empty one that stands for the third. -/
theorem padded_derivable :
    ∃ scanner, compile Regex.engine (.repeated (.any [.words ["ab"], .patterns ["x*"]]) 3 none) =
        .ok scanner ∧
      scanner.scan "abxxy".toList = some 4 ∧
      (Matcher.repeated (.any [.words ["ab"], .patterns ["x*"]]) 3 none).lengths Regex.engine
        Lengths.proper "abxxy".toList 4 := by
  have reported :
      (compile Regex.engine
        (.repeated (.any [.words ["ab"], .patterns ["x*"]]) 3 none)).toOption.bind
          (·.scan "abxxy".toList) = some 4 := by
    decide +kernel
  cases compiled :
      compile Regex.engine (.repeated (.any [.words ["ab"], .patterns ["x*"]]) 3 none) with
  | error fault =>
      rw [compiled] at reported
      cases reported
  | ok scanner =>
      rw [compiled] at reported
      exact ⟨scanner, rfl, reported, scan_derivable compiled reported⟩

end Scanner

end Packrat
