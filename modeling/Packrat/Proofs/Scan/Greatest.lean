import Mathlib.Order.Bounds.Basic
import Packrat.Proofs.Scan.Lengths

/-!
How far scanners reach. Each part of a scanner commits to the longest that it can match, whatever
follows. Where only the last part has a choice (`Matcher.Steady`), the whole reports the greatest of
all lengths that its matcher allows (`Scanner.scan_greatest`); otherwise a shorter beginning may
have led further, or to a match at all (`Scanner.committed_not_greatest`).
-/

set_option autoImplicit false

namespace Packrat

/-! ### Matchers without a choice -/

namespace Lengths

variable {inner other : Lengths} {count : Nat} {text left : List Char} {length : Nat}

/-- No text has two lengths. -/
def Single (inner : Lengths) : Prop :=
  ∀ ⦃text first second⦄, inner text first → inner text second → first = second

theorem Passes.mono (larger : ∀ text length, inner text length → other text length)
    (passes : Passes inner count text length left) : Passes other count text length left := by
  induction passes with
  | done => exact .done
  | onward allowed dropped _ ih => exact .onward (larger _ _ allowed) dropped ih

theorem Passes.idle (idle : inner text 0) (count : Nat) : Passes inner count text 0 text := by
  induction count with
  | zero => exact .done
  | succ count ih => exact .onward idle (Text.dropBytes?_zero text) ih

theorem Passes.pad (passes : Passes inner count text length left) (idle : inner left 0)
    (more : Nat) : Passes inner (count + more) text length left := by
  induction passes with
  | done =>
      rw [Nat.zero_add]
      exact .idle idle more
  | onward allowed dropped _ ih =>
      rw [Nat.add_right_comm]
      exact .onward allowed dropped (ih idle)

theorem Passes.eq_zero (single : inner.Single) (idle : inner text 0)
    (passes : Passes inner count text length left) : length = 0 := by
  induction passes with
  | done => rfl
  | onward allowed dropped _ ih =>
      cases single idle allowed
      cases (Text.dropBytes?_zero _).symm.trans dropped
      rw [ih idle]

/-- Where the bounds allow a pass, empty passes stand for the ones that are missing. -/
theorem within_of_proper {min : Nat} {max : Option Nat} (valid : BoundsValid min max)
    (allowed : proper inner min max text length) : within inner min max text length := by
  obtain ⟨count, left, passes, atMost, enough⟩ := allowed
  have passes : Passes inner count text length left := passes.mono fun _ _ both => both.1
  rcases Nat.le_total min count with reached | missing
  · exact ⟨count, left, passes, reached, atMost⟩
  · rcases enough with reached | idle
    · exact ⟨count, left, passes, reached, atMost⟩
    · refine ⟨min, left, ?_, Nat.le_refl min, fun limit isLimit => (valid limit isLimit).2⟩
      have padded := passes.pad idle (min - count)
      rwa [Nat.add_sub_cancel' missing] at padded

end Lengths

namespace Matcher

section

variable {engine : RegexEngine} {accepts : String → Bool}

mutual

/-- What a scanner may report with empty passes standing for missing ones, it may report with all
passes made. -/
theorem lengths_within {matcher : Matcher} (valid : matcher.Valid accepts) {text : List Char}
    {length : Nat} (allowed : matcher.lengths engine Lengths.proper text length) :
    matcher.lengths engine Lengths.within text length := by
  cases valid with
  | words => exact allowed
  | patterns => exact allowed
  | fixed => exact allowed
  | join _ valid => exact lengthsJoined_within valid allowed
  | any _ valid => exact lengthsOfAny_within valid allowed
  | repeated bounds valid =>
      obtain ⟨count, left, passes, atMost, enough⟩ := Lengths.within_of_proper bounds allowed
      exact ⟨count, left, passes.mono fun _ _ => lengths_within valid, atMost, enough⟩

theorem lengthsJoined_within {parts : List Matcher} (valid : ∀ part ∈ parts, part.Valid accepts)
    {text : List Char} {length : Nat}
    (allowed : lengthsJoined engine Lengths.proper parts text length) :
    lengthsJoined engine Lengths.within parts text length := by
  cases parts with
  | nil => exact allowed
  | cons matcher rest =>
      obtain ⟨validFirst, validRest⟩ := List.forall_mem_cons.1 valid
      obtain ⟨first, remaining, more, here, dropped, behind, same⟩ := allowed
      exact ⟨first, remaining, more, lengths_within validFirst here, dropped,
        lengthsJoined_within validRest behind, same⟩

theorem lengthsOfAny_within {choices : List Matcher}
    (valid : ∀ choice ∈ choices, choice.Valid accepts) {text : List Char} {length : Nat}
    (allowed : lengthsOfAny engine Lengths.proper choices text length) :
    lengthsOfAny engine Lengths.within choices text length := by
  cases choices with
  | nil => exact allowed
  | cons matcher rest =>
      obtain ⟨validFirst, validRest⟩ := List.forall_mem_cons.1 valid
      exact allowed.imp (lengths_within validFirst) (lengthsOfAny_within validRest)

end

/-- Whatever a scanner reports is also made of passes whose number lies within the bounds. -/
theorem allowed_of_scan {matcher : Matcher} {scanner : Scanner}
    (compiled : Scanner.compile engine matcher = .ok scanner) {text : List Char} {length : Nat}
    (scanned : scanner.scan text = some length) :
    matcher.lengths engine Lengths.within text length := by
  have reports : Reports (matcher.faults engine.acceptsAnchored) (Scanner.compile engine matcher) :=
    compile_reports matcher
  rw [compiled] at reports
  exact lengths_within (faults_eq_nil_iff matcher |>.1 reports)
    (Scanner.lengths_of_scan compiled scanned)

end

section

variable (engine : RegexEngine)

mutual

/-- Matchers in which no part of a sequence that others follow, and nothing that is repeated, has
two lengths on one text. -/
def Steady : Matcher → Prop
  | .words _ => True
  | .patterns _ => True
  | .fixed _ => True
  | .join parts => SteadyJoined parts
  | .any choices => SteadyAll choices
  | .repeated inner _ _ => Steady inner ∧ (inner.lengths engine Lengths.within).Single

def SteadyJoined : List Matcher → Prop
  | [] => True
  | matcher :: rest =>
    Steady matcher ∧ (rest = [] ∨ (matcher.lengths engine Lengths.within).Single) ∧
      SteadyJoined rest

def SteadyAll : List Matcher → Prop
  | [] => True
  | matcher :: rest => Steady matcher ∧ SteadyAll rest

end

end

end Matcher

/-! ### The greatest length -/

namespace Scanner

theorem longer_reaches {best next : Option Nat} {length : Nat}
    (offered : best = some length ∨ next = some length) :
    ∃ reached, longer best next = some reached ∧ length ≤ reached := by
  rcases offered with rfl | rfl
  · cases next with
    | none => exact ⟨length, rfl, Nat.le_refl length⟩
    | some other => exact ⟨_, rfl, Nat.le_max_left length other⟩
  · cases best with
    | none => exact ⟨length, rfl, Nat.le_refl length⟩
    | some other => exact ⟨_, rfl, Nat.le_max_right other length⟩

theorem foldl_longer_reaches {lengths : List (Option Nat)} {best : Option Nat} {length : Nat}
    (offered : best = some length ∨ some length ∈ lengths) :
    ∃ reached, lengths.foldl longer best = some reached ∧ length ≤ reached := by
  induction lengths generalizing best length with
  | nil => exact ⟨length, offered.resolve_right List.not_mem_nil, Nat.le_refl length⟩
  | cons head rest ih =>
      rw [List.mem_cons, ← or_assoc, eq_comm (b := head)] at offered
      rcases offered with here | later
      · obtain ⟨further, isFurther, below⟩ := longer_reaches here
        obtain ⟨reached, folded, below'⟩ := ih (.inl isFurther)
        exact ⟨reached, folded, Nat.le_trans below below'⟩
      · exact ih (.inr later)

theorem longest_reaches {lengths : List (Option Nat)} {length : Nat}
    (member : some length ∈ lengths) :
    ∃ reached, longest lengths = some reached ∧ length ≤ reached :=
  foldl_longer_reaches (.inr member)

section Passes

variable {scan : List Char → Option Nat} {inner : Lengths} {min : Nat} {max : Option Nat}
  {budget count before : Nat} {text : List Char}

/-- The loop ends where the upper bound is reached or no pass matches anything. -/
theorem scanPasses_halts (enough : min ≤ count)
    (halts : max.any (· ≤ count) = true ∨ ∀ bytes, scan text ≠ some (bytes + 1)) :
    scanPasses scan min max budget count before text = some before := by
  unfold scanPasses
  simp only [if_pos enough, if_pos (Nat.le_max_right count min)]
  split
  · rfl
  · next open_ =>
      split
      · rfl
      · rfl
      · next bytes found => exact absurd found (halts.resolve_left open_ bytes)

theorem scanPasses_idle (open_ : max.any (· ≤ count) = false) (idle : scan text = some 0) :
    scanPasses scan min max budget count before text = some before := by
  unfold scanPasses
  simp only [open_, idle, Bool.false_eq_true, if_false]
  exact if_pos (Nat.le_max_right count min)

theorem scanPasses_onward {bytes : Nat} {rest : List Char} (open_ : max.any (· ≤ count) = false)
    (found : scan text = some (bytes + 1))
    (dropped : Text.dropBytes? text (bytes + 1) = some rest) :
    scanPasses scan min max (budget + 1) count before text =
      scanPasses scan min max budget (count + 1) (before + (bytes + 1)) rest := by
  rw [scanPasses]
  simp only [open_, found, dropped, Bool.false_eq_true, if_false]

/-- What remains behind a pass that matches something is shorter, so the budget suffices. -/
theorem exists_rest (cuts : ∀ text length, scan text = some length → Text.HasCut text length)
    {bytes : Nat} (found : scan text = some (bytes + 1)) (room : text.length ≤ budget) :
    ∃ smaller rest, budget = smaller + 1 ∧ Text.dropBytes? text (bytes + 1) = some rest ∧
      rest.length < text.length ∧ rest.length ≤ smaller := by
  obtain ⟨piece, rest, rfl, size⟩ := cuts _ _ found
  have some_ : piece.length ≠ 0 := by
    intro none_
    rw [List.eq_nil_of_length_eq_zero none_] at size
    cases size
  rw [List.length_append] at room ⊢
  obtain ⟨smaller, rfl⟩ := Nat.exists_eq_succ_of_ne_zero (show budget ≠ 0 by omega)
  refine ⟨smaller, rest, rfl, (Text.dropBytes?_eq_some_iff _ _ _).2 ⟨piece, rfl, size⟩, ?_, ?_⟩
  · omega
  · omega

/-- Once the lower bound is met, the loop comes to an answer. -/
theorem scanPasses_answers (cuts : ∀ text length, scan text = some length → Text.HasCut text length)
    (room : text.length ≤ budget) (enough : min ≤ count) :
    ∃ reached, scanPasses scan min max budget count before text = some reached ∧
      before ≤ reached := by
  induction size : text.length using Nat.strong_induction_on
    generalizing budget count before text with
  | _ size ih =>
      by_cases halts : max.any (· ≤ count) = true ∨ ∀ bytes, scan text ≠ some (bytes + 1)
      · exact ⟨before, scanPasses_halts enough halts, Nat.le_refl before⟩
      · obtain ⟨open_, matches_⟩ := not_or.1 halts
        obtain ⟨bytes, found⟩ := not_forall_not.1 matches_
        obtain ⟨smaller, rest, rfl, dropped, shorter, room'⟩ := exists_rest cuts found room
        rw [scanPasses_onward (Bool.eq_false_iff.2 open_) found dropped]
        obtain ⟨reached, onward, below⟩ :
            ∃ reached, scanPasses scan min max smaller (count + 1) (before + (bytes + 1)) rest =
              some reached ∧ before + (bytes + 1) ≤ reached :=
          ih rest.length (size ▸ shorter) room' (Nat.le_succ_of_le enough) rfl
        exact ⟨reached, onward, by omega⟩

/-- Where a pass has one length on each text, the loop comes as far as any passes do. -/
theorem scanPasses_reaches
    (cuts : ∀ text length, scan text = some length → Text.HasCut text length)
    (sound : ∀ text length, scan text = some length → inner text length)
    (finds : ∀ text length, inner text length → ∃ reached, scan text = some reached)
    (single : inner.Single) {further more : Nat} {left : List Char}
    (passes : Lengths.Passes inner further text more left) (room : text.length ≤ budget)
    (enough : min ≤ count + further)
    (atMost : ∀ limit, max = some limit → count + further ≤ limit) :
    ∃ reached, scanPasses scan min max budget count before text = some reached ∧
      before + more ≤ reached := by
  induction passes generalizing budget count before with
  | done => exact scanPasses_answers cuts room enough
  | @onward further text first rest more left allowed dropped passes ih =>
      have open_ : max.any (· ≤ count) = false := by
        rw [Option.any_eq_false]
        intro limit isLimit
        have := atMost limit isLimit
        simp only [decide_eq_false_iff_not]
        omega
      obtain ⟨length, found⟩ := finds text first allowed
      cases single (sound text length found) allowed
      cases first with
      | zero =>
          cases (Text.dropBytes?_zero text).symm.trans dropped
          rw [passes.eq_zero single allowed]
          exact ⟨before, scanPasses_idle open_ found, Nat.le_refl before⟩
      | succ bytes =>
          obtain ⟨smaller, rest', rfl, dropped', -, room'⟩ := exists_rest cuts found room
          cases dropped'.symm.trans dropped
          rw [scanPasses_onward open_ found dropped]
          obtain ⟨reached, onward, below⟩ :
              ∃ reached, scanPasses scan min max smaller (count + 1) (before + (bytes + 1)) rest =
                some reached ∧ before + (bytes + 1) + more ≤ reached := by
            refine ih room' (by omega) fun limit isLimit => ?_
            have := atMost limit isLimit
            omega
          exact ⟨reached, onward, by omega⟩

end Passes

section Reaching

variable {engine : RegexEngine}

mutual

/-- Without a choice, what a scanner reports is not less than any length of its matcher. -/
theorem scan_reaches {matcher : Matcher} {scanner : Scanner}
    (compiled : compile engine matcher = .ok scanner) (steady : matcher.Steady engine)
    {text : List Char} {length : Nat} (allowed : matcher.lengths engine Lengths.within text length)
    :
    ∃ reached, scanner.scan text = some reached ∧ length ≤ reached := by
  cases matcher with
  | words list =>
      cases compile_words compiled
      obtain ⟨word, listed, begins, rfl⟩ := allowed
      rw [scan, List.map_map]
      refine longest_reaches (List.mem_map.2 ⟨word, listed, ?_⟩)
      exact if_pos (List.isPrefixOf_iff_prefix.2 begins)
  | patterns list =>
      obtain ⟨patterns, done, rfl⟩ := compile_patterns compiled
      obtain ⟨pattern, listed, ready, start, isReady, found⟩ := allowed
      rw [scan]
      refine longest_reaches (List.mem_map.2 ⟨ready, ?_, ?_⟩)
      · exact (mem_readPatterns_iff done).2 ⟨pattern, listed, isReady⟩
      · rw [scanPattern, found, Option.map_some]
  | fixed count =>
      cases compiled
      obtain ⟨full, rfl⟩ := allowed
      refine ⟨Text.byteLength (text.take count), ?_, Nat.le_refl _⟩
      rw [scan]
      exact if_pos (List.length_take_of_le full)
  | join parts =>
      obtain ⟨scanners, done, rfl⟩ := compile_join compiled
      rw [scan]
      exact scanJoin_reaches done steady allowed
  | any choices =>
      obtain ⟨scanners, done, rfl⟩ := compile_any compiled
      rw [scan]
      obtain ⟨reached, member, below⟩ := scanEach_reaches done steady allowed
      obtain ⟨further, longest_, below'⟩ := longest_reaches member
      exact ⟨further, longest_, Nat.le_trans below below'⟩
  | repeated inner min max =>
      obtain ⟨-, pass, done, rfl⟩ := compile_repeated compiled
      obtain ⟨further, left, passes, enough, atMost⟩ := allowed
      rw [scan, ← Nat.zero_add length]
      refine scanPasses_reaches pass.scan_cuts (fun _ _ => Matcher.allowed_of_scan done)
        (fun _ _ inside => ?_) steady.2 passes (Nat.le_refl _) ?_ ?_
      · obtain ⟨reached, found, -⟩ := scan_reaches done steady.1 inside
        exact ⟨reached, found⟩
      · rwa [Nat.zero_add]
      · rwa [Nat.zero_add]

theorem scanJoin_reaches {parts : List Matcher} {scanners : List Scanner}
    (compiled : compileAll engine parts = .ok scanners) (steady : Matcher.SteadyJoined engine parts)
    {text : List Char} {length : Nat}
    (allowed : Matcher.lengthsJoined engine Lengths.within parts text length) :
    ∃ reached, scanJoin scanners text = some reached ∧ length ≤ reached := by
  cases parts with
  | nil =>
      cases compiled
      exact ⟨0, rfl, Nat.le_of_eq allowed⟩
  | cons matcher rest =>
      obtain ⟨scanner, others, isFirst, done, rfl⟩ := compileAll_cons compiled
      obtain ⟨first, remaining, more, here, dropped, behind, rfl⟩ := allowed
      obtain ⟨steadyFirst, last | single, steadyRest⟩ := steady
      · subst last
        cases done
        cases behind
        obtain ⟨reached, found, below⟩ := scan_reaches isFirst steadyFirst here
        obtain ⟨piece, after, rfl, size⟩ := scan_cuts scanner text reached found
        refine ⟨reached, ?_, below⟩
        simp [scanJoin, found, ← size]
      · obtain ⟨reached, found, -⟩ := scan_reaches isFirst steadyFirst here
        cases single (Matcher.allowed_of_scan isFirst found) here
        obtain ⟨further, foundRest, below⟩ := scanJoin_reaches done steadyRest behind
        refine ⟨first + further, ?_, Nat.add_le_add_left below first⟩
        simp [scanJoin, found, dropped, foundRest]

theorem scanEach_reaches {choices : List Matcher} {scanners : List Scanner}
    (compiled : compileAll engine choices = .ok scanners)
    (steady : Matcher.SteadyAll engine choices) {text : List Char} {length : Nat}
    (allowed : Matcher.lengthsOfAny engine Lengths.within choices text length) :
    ∃ reached, some reached ∈ scanEach scanners text ∧ length ≤ reached := by
  cases choices with
  | nil => exact allowed.elim
  | cons matcher rest =>
      obtain ⟨scanner, others, isFirst, done, rfl⟩ := compileAll_cons compiled
      rw [scanEach]
      rcases allowed with here | later
      · obtain ⟨reached, found, below⟩ := scan_reaches isFirst steady.1 here
        exact ⟨reached, List.mem_cons.2 (.inl found.symm), below⟩
      · obtain ⟨reached, member, below⟩ := scanEach_reaches done steady.2 later
        exact ⟨reached, List.mem_cons_of_mem _ member, below⟩

end

/-- What a scanner reports is made of passes whose number lies within the bounds. Where nothing that
others follow has a choice it is the greatest such length, and nothing is reported only if there is
none. -/
theorem scan_greatest {matcher : Matcher} {scanner : Scanner}
    (compiled : compile engine matcher = .ok scanner) (text : List Char) :
    (∀ length, scanner.scan text = some length →
      matcher.lengths engine Lengths.within text length) ∧
    (matcher.Steady engine →
      (scanner.scan text = none → ∀ length, ¬ matcher.lengths engine Lengths.within text length) ∧
      ∀ length, scanner.scan text = some length →
        IsGreatest {length | matcher.lengths engine Lengths.within text length} length) := by
  have allowed (length : Nat) (scanned : scanner.scan text = some length) :
      matcher.lengths engine Lengths.within text length := Matcher.allowed_of_scan compiled scanned
  refine ⟨allowed, fun steady => ⟨?_, ?_⟩⟩
  · intro nothing length isLength
    obtain ⟨reached, found, -⟩ := scan_reaches compiled steady isLength
    cases nothing.symm.trans found
  · intro length scanned
    refine ⟨allowed length scanned, ?_⟩
    intro other isLength
    obtain ⟨reached, found, below⟩ := scan_reaches compiled steady isLength
    cases scanned.symm.trans found
    exact below

theorem words_single (word : String) :
    ((Matcher.words [word]).lengths engine Lengths.within).Single := by
  rintro text first second ⟨word', listed, -, rfl⟩ ⟨word'', listed', -, rfl⟩
  cases List.mem_singleton.1 listed
  cases List.mem_singleton.1 listed'
  rfl

end Reaching

/-- A word has one length, so what follows it and what repeats it reach as far as they can. -/
theorem steady_greatest :
    ∃ scanner, compile Regex.engine (.join [.words ["a"], .repeated (.words ["b"]) 1 (some 2)]) =
        .ok scanner ∧
      scanner.scan "abbbc".toList = some 3 ∧
      IsGreatest {length |
        (Matcher.join [.words ["a"], .repeated (.words ["b"]) 1 (some 2)]).lengths Regex.engine
          Lengths.within "abbbc".toList length} 3 := by
  have steady :
      (Matcher.join [.words ["a"], .repeated (.words ["b"]) 1 (some 2)]).Steady Regex.engine :=
    ⟨trivial, .inr (words_single "a"), ⟨trivial, words_single "b"⟩, .inl rfl, trivial⟩
  have compiled : compile Regex.engine
      (.join [.words ["a"], .repeated (.words ["b"]) 1 (some 2)]) =
      .ok (.join [.words [['a']], .repeated (.words [['b']]) 1 (some 2)]) := by
    rfl
  have scanned : (Scanner.join [.words [['a']], .repeated (.words [['b']]) 1 (some 2)]).scan
      "abbbc".toList = some 3 := by
    decide +kernel
  exact ⟨_, compiled, scanned, ((scan_greatest compiled _).2 steady).2 3 scanned⟩

/-- A set commits to its longest word. What follows may then match nothing, or less than it would
behind a shorter word. -/
theorem committed_not_greatest :
    (∃ scanner, compile Regex.engine (.join [.words ["a", "ab"], .words ["b"]]) = .ok scanner ∧
      scanner.scan "ab".toList = none ∧
      (Matcher.join [.words ["a", "ab"], .words ["b"]]).lengths Regex.engine Lengths.within
        "ab".toList 2) ∧
    ∃ scanner, compile Regex.engine (.join [.words ["a", "ab"], .any [.words ["bc"], .fixed 0]]) =
        .ok scanner ∧
      scanner.scan "abc".toList = some 2 ∧
      (Matcher.join [.words ["a", "ab"], .any [.words ["bc"], .fixed 0]]).lengths Regex.engine
        Lengths.within "abc".toList 3 := by
  have shorter (rest : List Char) :
      (Matcher.words ["a", "ab"]).lengths Regex.engine Lengths.within ('a' :: rest) 1 :=
    ⟨"a", List.mem_cons_self, ⟨rest, rfl⟩, rfl⟩
  refine ⟨⟨.join [.words [['a'], ['a', 'b']], .words [['b']]], rfl, by decide +kernel, ?_⟩,
    ⟨.join [.words [['a'], ['a', 'b']], .any [.words [['b', 'c']], .fixed 0]], rfl,
      by decide +kernel, ?_⟩⟩
  · refine ⟨1, ['b'], 1, shorter ['b'], rfl, ?_, rfl⟩
    exact ⟨1, [], 0, ⟨"b", List.mem_cons_self, List.prefix_rfl, rfl⟩, rfl, rfl, rfl⟩
  · refine ⟨1, ['b', 'c'], 2, shorter ['b', 'c'], rfl, ?_, rfl⟩
    exact ⟨2, [], 0, .inl ⟨"bc", List.mem_cons_self, List.prefix_rfl, rfl⟩, rfl, rfl, rfl⟩

end Scanner

end Packrat
