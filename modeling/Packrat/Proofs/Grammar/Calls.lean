import Packrat.Proofs.Grammar.Faults
import Packrat.Proofs.Grammar.WellFormed

/-!
Declarations as rows of calls: a call opens each declaration, and each clause is a call behind it.
A call fails by itself, given those before it (`Call.fault?`), and the fault of the first call
that fails is the one that is told (`Draft.foldlM_faultOf`). What a draft holds after calls
without faults can be read off the calls (`Draft.Records`).
-/

set_option autoImplicit false
set_option linter.unusedSectionVars false

namespace Packrat

/-- A step of a declaration. Patterns and value functions belong to what was opened last. -/
inductive Call where
  | blanks (characters : List Char)
  | root (symbol : Symbol)
  | terminal (symbol : Symbol)
  | aliased (symbol : Symbol) (targets : List Symbol)
  | rule (symbol : Symbol)
  | matcher (symbol : Symbol) (matcher : Matcher)
  | elements (symbol : Symbol) (elements : List Element)
  | value (symbol : Symbol)

inductive Role where
  | terminal
  | aliased
  | rule

namespace Call

def declares? : Call → Option (Role × Symbol)
  | .terminal symbol => some (.terminal, symbol)
  | .aliased symbol _ => some (.aliased, symbol)
  | .rule symbol => some (.rule, symbol)
  | _ => none

def root? : Call → Option Symbol
  | .root symbol => some symbol
  | _ => none

def targetsOf (symbol : Symbol) : Call → List Symbol
  | .aliased other targets => if other = symbol then targets else []
  | _ => []

def isPattern : Call → Bool
  | .matcher _ _ => true
  | .elements _ _ => true
  | _ => false

def isClause : Call → Bool
  | .value _ => true
  | call => call.isPattern

/-! ### Rows of calls -/

def Declared (calls : List Call) (role : Role) (symbol : Symbol) : Prop :=
  ∃ call ∈ calls, call.declares? = some (role, symbol)

def Lexical (calls : List Call) (symbol : Symbol) : Prop :=
  Declared calls .terminal symbol ∨ Declared calls .aliased symbol

def targets (calls : List Call) (symbol : Symbol) : List Symbol :=
  calls.flatMap (targetsOf symbol)

def regexes : Call → List String
  | .matcher _ given => given.regexes
  | _ => []

def lastRoot (calls : List Call) : Option Symbol :=
  (calls.filterMap root?).getLast?

/-! ### Faults -/

def reservedFault? (symbol : Symbol) : Option GrammarError :=
  if symbol = .unknown then some .reservedSymbol else none

/-- Why a call fails, given the calls before it. A value function belongs to the patterns right
before it, so the last of these calls has to be one. -/
def fault? (accepts : String → Bool) (earlier : List Call) : Call → Option GrammarError
  | .blanks _ => none
  | .root _ => none
  | .terminal symbol => reservedFault? symbol
  | .aliased symbol added =>
    (reservedFault? symbol).or
      (if targets earlier symbol ++ added = [] then some (.emptyPattern symbol) else none)
  | .rule symbol => reservedFault? symbol
  | .matcher symbol given => (given.faults accepts).head?.map (·.within symbol)
  | .elements symbol given =>
    ((Element.sequenceFaults given).head?.map (·.within symbol)).or
      (if startsWithItself symbol given && given.length == 1 then
        some (.unproductiveRecursion symbol)
      else none)
  | .value symbol =>
    if earlier.getLast?.any isPattern then none else some (.valueWithoutPattern symbol)

def firstFault? (accepts : String → Bool) (earlier : List Call) :
    List Call → Option GrammarError
  | [] => none
  | call :: rest =>
    (call.fault? accepts earlier).or (firstFault? accepts (earlier ++ [call]) rest)

variable {accepts accepts' : String → Bool} {earlier calls more : List Call}

theorem fault?_congr {call : Call}
    (same : ∀ pattern ∈ call.regexes, accepts pattern = accepts' pattern) :
    call.fault? accepts earlier = call.fault? accepts' earlier := by
  cases call with
  | matcher symbol given => rw [fault?, fault?, Matcher.faults_congr same]
  | _ => rfl

theorem firstFault?_congr
    (same : ∀ call ∈ calls, ∀ pattern ∈ call.regexes, accepts pattern = accepts' pattern) :
    firstFault? accepts earlier calls = firstFault? accepts' earlier calls := by
  induction calls generalizing earlier with
  | nil => rfl
  | cons call rest ih =>
      obtain ⟨sameFirst, sameRest⟩ := List.forall_mem_cons.1 same
      rw [firstFault?, firstFault?, fault?_congr sameFirst, ih sameRest]

theorem firstFault?_append :
    firstFault? accepts earlier (calls ++ more) =
      (firstFault? accepts earlier calls).or (firstFault? accepts (earlier ++ calls) more) := by
  induction calls generalizing earlier with
  | nil =>
      rw [List.append_nil]
      rfl
  | cons call rest ih =>
      rw [List.cons_append, firstFault?, firstFault?, ih, Option.or_assoc, List.append_assoc]
      rfl

theorem firstFault?_eq_none_iff :
    firstFault? accepts earlier calls = none ↔
      ∀ before call after, calls = before ++ call :: after →
        call.fault? accepts (earlier ++ before) = none := by
  constructor
  · rintro sound before call after rfl
    rw [firstFault?_append, Option.or_eq_none_iff, firstFault?, Option.or_eq_none_iff] at sound
    exact sound.2.1
  · intro sound
    induction calls generalizing earlier with
    | nil => rfl
    | cons call rest ih =>
        rw [firstFault?, Option.or_eq_none_iff]
        constructor
        · have first := sound [] call rest rfl
          rw [List.append_nil] at first
          exact first
        · apply ih
          rintro before other after rfl
          rw [List.append_assoc]
          exact sound (call :: before) other after rfl

theorem firstFault?_eq_some {error : GrammarError}
    (fails : firstFault? accepts earlier calls = some error) :
    ∃ before call after, calls = before ++ call :: after ∧
      firstFault? accepts earlier before = none ∧
      call.fault? accepts (earlier ++ before) = some error := by
  induction calls generalizing earlier with
  | nil => cases fails
  | cons call rest ih =>
      rw [firstFault?, Option.or_eq_some_iff] at fails
      cases fails with
      | inl here =>
          refine ⟨[], call, rest, rfl, rfl, ?_⟩
          rw [List.append_nil]
          exact here
      | inr later =>
          obtain ⟨sound, fails⟩ := later
          obtain ⟨before, other, after, rfl, passed, fault⟩ := ih fails
          refine ⟨call :: before, other, after, rfl, ?_, ?_⟩
          · rw [firstFault?, sound]
            exact passed
          · rw [List.append_assoc] at fault
            exact fault

end Call

/-! ### Calls of declarations -/

variable {V : Type} [Kinded V]

def TerminalClause.call (symbol : Symbol) : TerminalClause V → Call
  | .pattern matcher => .matcher symbol matcher
  | .value _ => .value symbol

def RuleClause.call (symbol : Symbol) : RuleClause V → Call
  | .pattern elements => .elements symbol elements
  | .value _ => .value symbol

namespace Declaration

def opening : Declaration V → Call
  | .blanks characters => .blanks characters
  | .root symbol => .root symbol
  | .terminal symbol _ => .terminal symbol
  | .aliased symbol targets => .aliased symbol targets
  | .rule symbol _ => .rule symbol

def clauses : Declaration V → List Call
  | .terminal symbol clauses => clauses.map (TerminalClause.call symbol)
  | .rule symbol clauses => clauses.map (RuleClause.call symbol)
  | _ => []

def calls (declaration : Declaration V) : List Call :=
  declaration.opening :: declaration.clauses

theorem isClause_of_mem {declaration : Declaration V} {call : Call}
    (member : call ∈ declaration.clauses) : call.isClause = true := by
  cases declaration with
  | blanks characters => cases member
  | root symbol => cases member
  | aliased symbol targets => cases member
  | terminal symbol clauses =>
      obtain ⟨clause, -, rfl⟩ := List.mem_map.1 member
      cases clause with
      | pattern matcher => rfl
      | value transform => rfl
  | rule symbol clauses =>
      obtain ⟨clause, -, rfl⟩ := List.mem_map.1 member
      cases clause with
      | pattern elements => rfl
      | value resolver => rfl

end Declaration

/-! ### Faults of clauses -/

def faultOf {ε α : Type} : Except ε α → Option ε
  | .error fault => some fault
  | .ok _ => none

theorem faultOf_eq_none_iff {ε α : Type} {result : Except ε α} :
    faultOf result = none ↔ ∃ value, result = .ok value := by
  cases result with
  | error fault => simp [faultOf]
  | ok value => simp [faultOf]

theorem faultOf_eq_some_iff {ε α : Type} {result : Except ε α} {fault : ε} :
    faultOf result = some fault ↔ result = .error fault := by
  cases result with
  | error other => simp [faultOf]
  | ok value => simp [faultOf]

theorem Reports.faultOf {ε α : Type} {faults : List ε} {result : Except ε α}
    (reports : Reports faults result) : Packrat.faultOf result = faults.head? := by
  cases result with
  | error fault => exact reports.symm
  | ok value =>
      cases (reports : faults = [])
      rfl

theorem faultOf_bind {ε α β : Type} {result : Except ε α} {next : α → Except ε β}
    {fault? : Option ε} (onward : ∀ value, result = .ok value → faultOf (next value) = fault?) :
    faultOf (result >>= next) = (faultOf result).or fault? := by
  cases result with
  | error fault => rfl
  | ok value => exact onward value rfl

theorem faultOf_map {ε α β : Type} (result : Except ε α) (next : α → β) :
    faultOf (result >>= fun value => pure (next value)) = faultOf result := by
  cases result with
  | error fault => rfl
  | ok value => rfl

def Clause.Matches {P F : Type} (accepts : String → Bool) (symbol : Symbol) (call : Call) :
    Except GrammarError (Clause P F) → Prop
  | .error fault => ∀ earlier, call.fault? accepts earlier = some fault
  | .ok (.pattern _) => call.isPattern = true ∧ ∀ earlier, call.fault? accepts earlier = none
  | .ok (.value _) => call = .value symbol

theorem TerminalClause.check_matches {engine : RegexEngine} (symbol : Symbol)
    (clause : TerminalClause V) :
    Clause.Matches engine.acceptsAnchored symbol (clause.call symbol)
      (clause.check engine symbol) := by
  cases clause with
  | value transform => rfl
  | pattern matcher =>
      have first : Reports (matcher.faults engine.acceptsAnchored)
          (Scanner.compile engine matcher) := compile_reports matcher
      have fault? (earlier : List Call) :
          (Call.matcher symbol matcher).fault? engine.acceptsAnchored earlier =
            (faultOf (Scanner.compile engine matcher)).map (·.within symbol) :=
        congrArg (Option.map _) first.faultOf.symm
      rw [check]
      cases compiled : Scanner.compile engine matcher with
      | error fault =>
          rw [compiled] at fault?
          exact fault?
      | ok scanner =>
          rw [compiled] at fault?
          exact ⟨rfl, fault?⟩

theorem checkAlternative_faultOf (accepts : String → Bool) (symbol : Symbol)
    (elements : List Element) (earlier : List Call) :
    faultOf (checkAlternative symbol elements) =
      (Call.elements symbol elements).fault? accepts earlier := by
  have first := (checkAll_reports symbol elements).faultOf
  rw [List.head?_map] at first
  rw [Call.fault?, ← first, checkAlternative]
  cases Element.checkAll symbol elements with
  | error fault => rfl
  | ok passed =>
      change faultOf (if _ then _ else _) = if _ then _ else _
      split
      · rfl
      · rfl

theorem RuleClause.check_matches {accepts : String → Bool} (symbol : Symbol)
    (clause : RuleClause V) :
    Clause.Matches accepts symbol (clause.call symbol) (clause.check symbol) := by
  cases clause with
  | value resolver => rfl
  | pattern elements =>
      have fault? := checkAlternative_faultOf accepts symbol elements
      rw [check]
      cases checked : checkAlternative symbol elements with
      | error fault =>
          rw [checked] at fault?
          exact fun earlier => (fault? earlier).symm
      | ok passed =>
          rw [checked] at fault?
          exact ⟨rfl, fun earlier => (fault? earlier).symm⟩

theorem Clause.collect_faultOf {C P F A : Type} {accepts : String → Bool} {symbol : Symbol}
    {check : C → Except GrammarError (Clause P F)} {make : Option F → P → A} {call : C → Call}
    (checks : ∀ clause, Clause.Matches accepts symbol (call clause) (check clause))
    {settled : List A} {waiting : List P} {clauses : List C} {earlier : List Call}
    (opened : earlier.getLast?.any Call.isPattern = !waiting.isEmpty) :
    faultOf (Clause.collect symbol check make settled waiting clauses) =
      Call.firstFault? accepts earlier (clauses.map call) := by
  induction clauses generalizing settled waiting earlier with
  | nil => rfl
  | cons clause rest ih =>
      rw [Clause.collect, List.map_cons, Call.firstFault?]
      have comes := checks clause
      cases checked : check clause with
      | error fault =>
          rw [checked] at comes
          rw [comes earlier]
          rfl
      | ok kind =>
          rw [checked] at comes
          cases kind with
          | pattern ready =>
              rw [comes.2 earlier, Option.none_or]
              apply ih
              rw [List.getLast?_concat, Option.any_some, comes.1]
              simp
          | value function =>
              rw [(comes : call clause = .value symbol), Call.fault?, opened]
              cases waiting with
              | nil => rfl
              | cons first others =>
                  change faultOf (Clause.collect symbol check make _ [] rest) = _
                  apply ih
                  rw [List.getLast?_concat]
                  rfl

end Packrat
