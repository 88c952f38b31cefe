import Mathlib.Data.List.Basic
import Packrat.Grammar.Build

/-!
The faults of matchers and of element sequences, all of them in reading order, and what it takes to
have none. A check that stops at a fault stops at the first (`Reports`).
-/

set_option autoImplicit false

namespace Packrat

/-! ### Checks -/

/-- Whether the result of a check is the first of all faults, or there are none. -/
def Reports {ε α : Type} (faults : List ε) : Except ε α → Prop
  | .ok _ => faults = []
  | .error fault => faults.head? = some fault

namespace Reports

variable {ε ε' α β : Type} {faults more : List ε} {result : Except ε α}

theorem bind {next : α → Except ε β} (first : Reports faults result)
    (onward : ∀ value, result = .ok value → Reports more (next value)) :
    Reports (faults ++ more) (result >>= next) := by
  cases result with
  | error fault =>
      cases faults with
      | nil => cases first
      | cons head tail => exact first
  | ok value =>
      cases (first : faults = [])
      exact onward value rfl

theorem map {next : α → β} (first : Reports faults result) :
    Reports faults (result >>= fun value => .ok (next value)) := by
  cases result with
  | error fault => exact first
  | ok value => exact first

theorem check {condition : Bool} {fault : ε} (onward : Reports more result) :
    Reports ((if condition then [] else [fault]) ++ more)
      (if condition then result else .error fault) := by
  cases condition with
  | true => exact onward
  | false => rfl

end Reports

def emptyFaults {α : Type} (list : List α) : List MatcherError :=
  if list.isEmpty then [.emptyPattern] else []

def boundFaults (min : Nat) (max : Option Nat) : List MatcherError :=
  if validBounds min max then [] else [.invalidRepetition min (max.getD 0)]

def BoundsValid (min : Nat) (max : Option Nat) : Prop :=
  ∀ limit, max = some limit → 1 ≤ limit ∧ min ≤ limit

theorem below_of_any_eq_false {max : Option Nat} {count : Nat}
    (room : max.any (· ≤ count) = false) : ∀ limit, max = some limit → count < limit := by
  intro limit same
  subst same
  simpa using room

theorem emptyFaults_eq_nil_iff {α : Type} {list : List α} : emptyFaults list = [] ↔ list ≠ [] := by
  cases list with
  | nil => simp [emptyFaults]
  | cons head tail => simp [emptyFaults]

theorem boundFaults_eq_nil_iff {min : Nat} {max : Option Nat} :
    boundFaults min max = [] ↔ BoundsValid min max := by
  unfold boundFaults BoundsValid
  cases max with
  | none => simp [validBounds]
  | some limit =>
      by_cases valid : validBounds min (some limit) = true
      · have fits : limit ≠ 0 ∧ min ≤ limit := by simpa [validBounds] using valid
        rw [if_pos valid]
        constructor
        · rintro - other ⟨⟩
          omega
        · exact fun _ => rfl
      · rw [if_neg valid]
        constructor
        · exact nofun
        · intro fits
          have both := fits limit rfl
          simp only [validBounds, bne_iff_ne, Bool.and_eq_true, decide_eq_true_eq] at valid
          omega

theorem reports_unless_empty {α β : Type} {list : List α} {faults : List MatcherError}
    {result : Except MatcherError β} (onward : Reports faults result) :
    Reports (emptyFaults list ++ faults)
      (if list.isEmpty then .error .emptyPattern else result) := by
  cases list with
  | nil => rfl
  | cons head tail => exact onward

/-! ### Matchers -/

mutual

def Matcher.regexes : Matcher → List String
  | .words _ => []
  | .patterns list => list
  | .fixed _ => []
  | .join parts => regexesAll parts
  | .any choices => regexesAll choices
  | .repeated inner _ _ => regexes inner

def Matcher.regexesAll : List Matcher → List String
  | [] => []
  | matcher :: rest => regexes matcher ++ regexesAll rest

end

def RegexEngine.accepts (engine : RegexEngine) (pattern : String) : Bool :=
  (engine.read? pattern.toList).isSome

def RegexEngine.acceptsAnchored (engine : RegexEngine) (pattern : String) : Bool :=
  (anchoredPattern? engine pattern).isSome

section

variable (accepts : String → Bool)

def patternFault? (pattern : String) : Option MatcherError :=
  if accepts pattern then none else some (.invalidRegex pattern)

namespace Matcher

mutual

/-- All faults of a matcher, where it is given which regular patterns are well formed. -/
def faults : Matcher → List MatcherError
  | .words list => emptyFaults list
  | .patterns list => emptyFaults list ++ list.filterMap (patternFault? accepts)
  | .fixed _ => []
  | .join parts => emptyFaults parts ++ faultsAll parts
  | .any choices => emptyFaults choices ++ faultsAll choices
  | .repeated inner min max => boundFaults min max ++ faults inner

def faultsAll : List Matcher → List MatcherError
  | [] => []
  | matcher :: rest => faults matcher ++ faultsAll rest

end

/-- A matcher without faults: nothing is empty, regular patterns are well formed, and the limits of
repetitions allow a pass. -/
inductive Valid : Matcher → Prop where
  | words {list : List String} : list ≠ [] → Valid (.words list)
  | patterns {list : List String} : list ≠ [] →
      (∀ pattern ∈ list, accepts pattern = true) → Valid (.patterns list)
  | fixed (count : Nat) : Valid (.fixed count)
  | join {parts : List Matcher} : parts ≠ [] → (∀ part ∈ parts, Valid part) → Valid (.join parts)
  | any {choices : List Matcher} : choices ≠ [] → (∀ choice ∈ choices, Valid choice) →
      Valid (.any choices)
  | repeated {inner : Matcher} {min : Nat} {max : Option Nat} : BoundsValid min max →
      Valid inner → Valid (.repeated inner min max)

end Matcher

end

section Compiling

variable {engine : RegexEngine}

theorem readPatterns_reports (list : List String) :
    Reports (list.filterMap (patternFault? engine.acceptsAnchored)) (readPatterns engine list) := by
  induction list with
  | nil => rfl
  | cons pattern rest ih =>
      rw [readPatterns, List.filterMap_cons, patternFault?, RegexEngine.acceptsAnchored]
      cases anchoredPattern? engine pattern with
      | none => rfl
      | some ready => exact ih.map

mutual

theorem compile_reports (matcher : Matcher) :
    Reports (matcher.faults engine.acceptsAnchored) (Scanner.compile engine matcher) := by
  cases matcher with
  | words list =>
      rw [Matcher.faults, Scanner.compile, ← List.append_nil (emptyFaults list)]
      exact reports_unless_empty rfl
  | patterns list =>
      rw [Matcher.faults, Scanner.compile]
      exact reports_unless_empty (readPatterns_reports list).map
  | fixed count => rfl
  | join parts =>
      rw [Matcher.faults, Scanner.compile]
      exact reports_unless_empty (compileAll_reports parts).map
  | any choices =>
      rw [Matcher.faults, Scanner.compile]
      exact reports_unless_empty (compileAll_reports choices).map
  | repeated inner min max =>
      rw [Matcher.faults, Scanner.compile]
      exact .check (compile_reports inner).map

theorem compileAll_reports (matchers : List Matcher) :
    Reports (Matcher.faultsAll engine.acceptsAnchored matchers)
      (Scanner.compileAll engine matchers) := by
  cases matchers with
  | nil => rfl
  | cons matcher rest =>
      rw [Matcher.faultsAll, Scanner.compileAll]
      exact (compile_reports matcher).bind fun scanner _ => (compileAll_reports rest).map

end

end Compiling

section Validity

variable {accepts accepts' : String → Bool}

mutual

theorem Matcher.faults_congr {matcher : Matcher}
    (same : ∀ pattern ∈ matcher.regexes, accepts pattern = accepts' pattern) :
    matcher.faults accepts = matcher.faults accepts' := by
  cases matcher with
  | words list => rfl
  | patterns list =>
      have sameFaults : list.filterMap (patternFault? accepts) =
          list.filterMap (patternFault? accepts') := by
        refine List.filterMap_congr ?_
        intro pattern listed
        rw [patternFault?, patternFault?, same pattern listed]
      rw [faults, faults, sameFaults]
  | fixed count => rfl
  | join parts => rw [faults, faults, faultsAll_congr same]
  | any choices => rw [faults, faults, faultsAll_congr same]
  | repeated inner min max => exact congrArg (boundFaults min max ++ ·) (faults_congr same)

theorem Matcher.faultsAll_congr {matchers : List Matcher}
    (same : ∀ pattern ∈ regexesAll matchers, accepts pattern = accepts' pattern) :
    faultsAll accepts matchers = faultsAll accepts' matchers := by
  cases matchers with
  | nil => rfl
  | cons matcher rest =>
      obtain ⟨sameFirst, sameRest⟩ := List.forall_mem_append.1 same
      rw [faultsAll, faultsAll, faults_congr sameFirst, faultsAll_congr sameRest]

end

theorem filterMap_patternFault?_eq_nil_iff {list : List String} :
    list.filterMap (patternFault? accepts) = [] ↔ ∀ pattern ∈ list, accepts pattern = true := by
  rw [List.filterMap_eq_nil_iff]
  apply forall₂_congr
  intro pattern _
  simp [patternFault?]

mutual

theorem Matcher.faults_eq_nil_iff (matcher : Matcher) :
    matcher.faults accepts = [] ↔ matcher.Valid accepts := by
  cases matcher with
  | words list =>
      rw [faults, emptyFaults_eq_nil_iff]
      constructor
      · exact .words
      · intro valid
        cases valid with
        | words filled => exact filled
  | patterns list =>
      rw [faults, List.append_eq_nil_iff, emptyFaults_eq_nil_iff,
        filterMap_patternFault?_eq_nil_iff]
      constructor
      · exact fun ⟨filled, readable⟩ => .patterns filled readable
      · intro valid
        cases valid with
        | patterns filled readable => exact ⟨filled, readable⟩
  | fixed count => exact ⟨fun _ => .fixed count, fun _ => rfl⟩
  | join parts =>
      rw [faults, List.append_eq_nil_iff, emptyFaults_eq_nil_iff, faultsAll_eq_nil_iff]
      constructor
      · exact fun ⟨filled, valid⟩ => .join filled valid
      · intro valid
        cases valid with
        | join filled valid => exact ⟨filled, valid⟩
  | any choices =>
      rw [faults, List.append_eq_nil_iff, emptyFaults_eq_nil_iff, faultsAll_eq_nil_iff]
      constructor
      · exact fun ⟨filled, valid⟩ => .any filled valid
      · intro valid
        cases valid with
        | any filled valid => exact ⟨filled, valid⟩
  | repeated inner min max =>
      rw [faults, List.append_eq_nil_iff, boundFaults_eq_nil_iff, faults_eq_nil_iff inner]
      constructor
      · exact fun ⟨bounds, valid⟩ => .repeated bounds valid
      · intro valid
        cases valid with
        | repeated bounds valid => exact ⟨bounds, valid⟩

theorem Matcher.faultsAll_eq_nil_iff (matchers : List Matcher) :
    faultsAll accepts matchers = [] ↔ ∀ matcher ∈ matchers, matcher.Valid accepts := by
  cases matchers with
  | nil => exact ⟨fun _ => nofun, fun _ => rfl⟩
  | cons matcher rest =>
      rw [faultsAll, List.append_eq_nil_iff, List.forall_mem_cons, faults_eq_nil_iff matcher,
        faultsAll_eq_nil_iff rest]

end

end Validity

/-! ### Elements -/

namespace Element

mutual

def faults : Element → List MatcherError
  | .literal _ => []
  | .symbol _ => []
  | .labelled _ _ => []
  | .repeated elements min max =>
    boundFaults min max ++ (emptyFaults elements ++ faultsAll elements)

def faultsAll : List Element → List MatcherError
  | [] => []
  | element :: rest => faults element ++ faultsAll rest

end

inductive Valid : Element → Prop where
  | literal (text : String) : Valid (.literal text)
  | symbol (name : Symbol) : Valid (.symbol name)
  | labelled (name : Symbol) (label : String) : Valid (.labelled name label)
  | repeated {elements : List Element} {min : Nat} {max : Option Nat} : BoundsValid min max →
      elements ≠ [] → (∀ element ∈ elements, Valid element) → Valid (.repeated elements min max)

def sequenceFaults (elements : List Element) : List MatcherError :=
  emptyFaults elements ++ faultsAll elements

end Element

mutual

theorem checkAll_reports (symbol : Symbol) (elements : List Element) :
    Reports ((Element.sequenceFaults elements).map (·.within symbol))
      (Element.checkAll symbol elements) := by
  cases elements with
  | nil => rfl
  | cons element rest =>
      rw [Element.checkAll]
      change Reports ((Element.faults element ++ Element.faultsAll rest).map (·.within symbol)) _
      rw [List.map_append]
      exact (check_reports symbol element).bind fun _ _ => checkRest_reports symbol rest

theorem checkRest_reports (symbol : Symbol) (elements : List Element) :
    Reports ((Element.faultsAll elements).map (·.within symbol))
      (Element.checkRest symbol elements) := by
  cases elements with
  | nil => rfl
  | cons element rest =>
      rw [Element.checkRest, Element.faultsAll, List.map_append]
      exact (check_reports symbol element).bind fun _ _ => checkRest_reports symbol rest

theorem check_reports (symbol : Symbol) (element : Element) :
    Reports ((Element.faults element).map (·.within symbol)) (Element.check symbol element) := by
  cases element with
  | literal text => rfl
  | symbol name => rfl
  | labelled name label => rfl
  | repeated elements min max =>
      rw [Element.check, Element.faults, List.map_append]
      have inside := checkAll_reports symbol elements
      cases valid : validBounds min max with
      | true =>
          simp only [boundFaults, valid]
          exact inside
      | false =>
          simp only [boundFaults, valid]
          rfl

end

mutual

theorem Element.faults_eq_nil_iff (element : Element) : element.faults = [] ↔ element.Valid := by
  cases element with
  | literal text => exact ⟨fun _ => .literal text, fun _ => rfl⟩
  | symbol name => exact ⟨fun _ => .symbol name, fun _ => rfl⟩
  | labelled name label => exact ⟨fun _ => .labelled name label, fun _ => rfl⟩
  | repeated elements min max =>
      rw [faults, List.append_eq_nil_iff, List.append_eq_nil_iff, boundFaults_eq_nil_iff,
        emptyFaults_eq_nil_iff, faultsAll_eq_nil_iff]
      constructor
      · exact fun ⟨bounds, filled, valid⟩ => .repeated bounds filled valid
      · intro valid
        cases valid with
        | repeated bounds filled valid => exact ⟨bounds, filled, valid⟩

theorem Element.faultsAll_eq_nil_iff (elements : List Element) :
    faultsAll elements = [] ↔ ∀ element ∈ elements, element.Valid := by
  cases elements with
  | nil => exact ⟨fun _ => nofun, fun _ => rfl⟩
  | cons element rest =>
      rw [faultsAll, List.append_eq_nil_iff, List.forall_mem_cons, faults_eq_nil_iff element,
        faultsAll_eq_nil_iff rest]

end

end Packrat
