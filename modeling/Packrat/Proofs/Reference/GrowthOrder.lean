import Packrat.Proofs.Reference.SeedOrder

/-!
The order of extensions. An extension that reaches further takes the place of the node at once, so
another that would have reached further still may no longer apply: with one order of the extensions
a token may end before its end with another (`Chart.suffixes_not_free`). The order does not matter
where every seed grows to one end, however it grows (`Chart.Reachable.growth_order_free`).
-/

set_option autoImplicit false
set_option linter.unusedSectionVars false

namespace Packrat

variable {V : Type} [Kinded V]

/-! ### Digits with suffixes

A digit may have any number of suffixes of two kinds. -/

namespace Suffixes

open Sums (digitSymbol digits_cover)

def wordSymbol : Symbol := ⟨"WORD"⟩

def suffixed (text : String) : Alternative Scalar :=
  ⟨[.symbol wordSymbol, .literal text], none, true⟩

def bare : Alternative Scalar :=
  ⟨[.symbol digitSymbol], none, false⟩

def declarations (first second : String) : List (Declaration Scalar) :=
  [ .blanks [' '],
    .root wordSymbol,
    .terminal digitSymbol [.pattern (.words ["0", "1"])],
    .rule wordSymbol [
      .pattern [.symbol digitSymbol],
      .pattern [.symbol wordSymbol, .literal first],
      .pattern [.symbol wordSymbol, .literal second]]]

def grammar (first second : String) : Grammar Scalar where
  blanks := [' ']
  root := wordSymbol
  terminals := [⟨digitSymbol, [⟨.words [['0'], ['1']], none⟩]⟩]
  aliases := {}
  rules := [⟨wordSymbol, [bare, suffixed first, suffixed second]⟩]

theorem build_eq (first second : String) :
    Grammar.build Regex.engine (declarations first second) = .ok (grammar first second) := by
  rfl

def input (first second : String) (source : List Char) : Input Scalar :=
  (grammar first second).on source

variable {first second : String} {source : List Char}

theorem guarded (filled : first ≠ "") (filled' : second ≠ "") :
    (input first second source).Guarded where
  literals := by
    intro rule isRule alternative listed
    cases List.mem_singleton.1 isRule
    simp only [List.mem_cons, List.not_mem_nil, or_false] at listed
    rcases listed with rfl | rfl | rfl
    · rfl
    · simp [suffixed, Element.allSolid, Element.solid, filled]
    · simp [suffixed, Element.allSolid, Element.solid, filled']
  terminals := by
    intro origin landing _ terminal isTerminal leaf candidate found
    cases List.mem_singleton.1 isTerminal
    exact digits_cover found
  acyclic := by
    refine Grammar.acyclic_of_rank (fun _ => 0) ?_
    intro rule isRule alternative listed plain corner isHead cornerIsRule
    cases List.mem_singleton.1 isRule
    simp only [List.mem_cons, List.not_mem_nil, or_false] at listed
    rcases listed with rfl | rfl | rfl
    · cases List.mem_singleton.1 isHead
      cases cornerIsRule
    · cases plain
    · cases plain

theorem reordered :
    (input first second source).Reordered Eq List.Perm (input second first source) where
  grammar :=
    { blanks := rfl
      root := rfl
      terminals := rfl
      aliases := rfl
      rules := .cons ⟨rfl, rfl, .swap _ _ _⟩ .nil }
  source := rfl

end Suffixes

/-! ### Growth to one end -/

namespace Input

/-- However the seed of a rule grows until nothing lengthens it, it ends at one place. -/
def Confluent (input : Input V) : Prop :=
  ∀ ⦃place symbol first node node'⦄, input.Lands place → input.IsSeed place symbol first →
    Relation.ReflTransGen (input.Lengthens symbol) first node → input.Exhausted symbol node →
    Relation.ReflTransGen (input.Lengthens symbol) first node' → input.Exhausted symbol node' →
    node.stop.offset = node'.stop.offset

variable {input : Input V}

theorem Exhausted.not_lengthens {symbol : Symbol} {node longer : Tree V}
    (exhausted : input.Exhausted symbol node) : ¬ input.Lengthens symbol node longer := by
  rintro ⟨further, index, alternative, isAlternative, prolongs⟩
  obtain ⟨found, prolongs', top⟩ := exhausted index alternative isAlternative prolongs.1
  exact Nat.not_lt_of_le (top longer (prolongs'.unique prolongs)) further

theorem Exhausted.eq_of_chain {symbol : Symbol} {node other : Tree V}
    (exhausted : input.Exhausted symbol node)
    (chain : Relation.ReflTransGen (input.Lengthens symbol) node other) : node = other := by
  rcases chain.cases_head with same | ⟨longer, step, -⟩
  · exact same
  · exact absurd step exhausted.not_lengthens

theorem confluent_of_unique
    (unique : ∀ symbol, Relator.RightUnique (input.Lengthens symbol)) : input.Confluent := by
  intro place symbol first node node' _ _ chain exhausted chain' exhausted'
  rcases Relation.ReflTransGen.total_of_right_unique (unique symbol) chain chain' with
    onward | onward
  · rw [exhausted.eq_of_chain onward]
  · rw [exhausted'.eq_of_chain onward]

end Input

/-! ### Reordered grammars -/

/-- Where the extensions of one rule are those of another in some order, the entries of the other
can be put into that order. -/
theorem Rule.exists_entries {rule rule' : Rule V}
    (reordered : rule.extensions.Perm rule'.extensions) :
    ∃ entries, Alternative.leading entries = rule.extensions ∧
      ∀ entry, entry ∈ entries ↔
        entry ∈ rule'.alternatives.zipIdx ∧ entry.1.recursive = true := by
  have own : rule'.extensions =
      (rule'.alternatives.zipIdx.filter fun entry => entry.1.recursive).map Prod.fst := by
    rw [← Alternative.leading_zipIdx, Alternative.leading, List.filter_map]
    rfl
  rw [own] at reordered
  obtain ⟨entries, isMap, permuted⟩ :=
    (congrFun₂ (List.eq_map_comp_perm Prod.fst) _ _).mpr reordered
  refine ⟨entries, ?_, fun entry => ?_⟩
  · rw [Alternative.leading, ← isMap, extensions, List.filter_filter]
    exact List.filter_congr fun _ _ => Bool.and_self _
  · rw [permuted.mem_iff, List.mem_filter]

namespace Chart

theorem parses_exists {input : Input V} (wellFormed : input.grammar.WellFormed)
    (guarded : input.Guarded) {place : Position} (lands : input.Lands place) (symbol : Symbol) :
    ∃ found, Parses input (.resolve place symbol) (.tree found) := by
  obtain ⟨origin, landing, counts, landed, rfl⟩ := lands
  obtain ⟨landing', found, after, landed', done⟩ := tokenAt_exists counts symbol ({} : Chart V)
  exact ⟨_, (empty_agrees.tokenAt wellFormed guarded counts landed done).2⟩

end Chart

/-- Where only the order of extensions differs, seeds that grow to one end grow to the same end. -/
theorem Input.Reordered.mirrors_of_extensions {input other : Input V}
    (reordered : input.Reordered Eq List.Perm other) (wellFormed : other.grammar.WellFormed)
    (guarded : other.Guarded) (confluent : other.Confluent) : input.Mirrors other := by
  refine reordered.mirrors_of_growth (fun _ _ same alternative => by rw [same]) ?_
  intro place symbol first found rule rule' lands isRule permuted seeds extend
  have countsFirst := seeds.placed ⟨lands, nofun⟩ first rfl
  have isSeed := Parses.seeds_isSeed isRule seeds
  obtain ⟨entries, isLeading, listed⟩ := Rule.exists_entries permuted
  obtain ⟨found', extend', sameFound⟩ := (extend.mirrored (Input.Mirrors.refl other) countsFirst
    (.extend ((Alternative.leading_zipIdx rule).trans isLeading.symm) rfl)).tree
  obtain ⟨node, rfl, chain, exhausted⟩ := extend'.extend_grows
    (fun entry member => Grammar.lists_zipIdx isRule entry ((listed entry).1 member).1)
    (fun index alternative isAlternative recursive => (listed _).2
      ⟨(Grammar.alternative?_iff isRule).1 isAlternative, recursive⟩)
  obtain ⟨own, resolved⟩ := Chart.parses_exists wellFormed guarded lands symbol
  refine ⟨own, resolved, sameFound.trans ?_⟩
  cases resolved with
  | lexical noRule => cases noRule.symm.trans isRule
  | barren isRule' seeds' =>
      cases isRule.symm.trans isRule'
      cases seeds.unique seeds'
  | grown isRule' seeds' ownExtend =>
      cases isRule.symm.trans isRule'
      cases seeds.unique seeds'
      obtain ⟨node', rfl, chain', exhausted'⟩ := ownExtend.extend_grows
        (Grammar.lists_zipIdx isRule)
        (fun _ _ isAlternative _ => (Grammar.alternative?_iff isRule).1 isAlternative)
      have counts := extend'.placed countsFirst node rfl
      have counts' := ownExtend.placed countsFirst node' rfl
      exact congrArg some (counts.unique counts'
        (confluent lands isSeed chain exhausted chain' exhausted'))

/-! ### Suffixes that begin differently -/

namespace Parses

variable {input : Input V} {text : String} {cursor : Position}

theorem element_literal {run : Option (List (Branch V) × Position)}
    (parses : Parses input (.element (.literal text) cursor) (.run run)) :
    ∃ landing, input.land cursor = .ok landing ∧
      run = (input.literalAt? landing.position text).map
        fun leaf => ([⟨none, leaf⟩], leaf.stop) := by
  cases parses with
  | literal lands => exact ⟨_, lands, rfl⟩
  | reference names _ _ => cases names

theorem sequence_literal {rest : List Element} {run : List (Branch V) × Position}
    (parses : Parses input (.sequence (.literal text :: rest) cursor) (.run (some run))) :
    ∃ landing, input.land cursor = .ok landing ∧ text.toList <+: landing.rest := by
  generalize isFound : some run = found at parses
  cases parses with
  | sequenceStuck _ => cases isFound
  | sequenceStep element _ =>
      obtain ⟨landing, landed, isRun⟩ := element.element_literal
      obtain ⟨leaf, isLeaf, -⟩ := Option.map_eq_some_iff.1 isRun.symm
      obtain ⟨cell, here, mapped⟩ := Option.bind_eq_some_iff.1 isLeaf
      obtain ⟨found, matched, -⟩ := Option.map_eq_some_iff.1 mapped
      obtain ⟨follows, isRest, rfl⟩ := Option.map_eq_some_iff.1 here
      cases (Input.land_rest? landed).symm.trans isRest
      obtain ⟨fits, -, isText⟩ := LexicalCell.literal?_fits matched
      have starts : found.text <+: landing.rest := fits.text
      rw [isText] at starts
      exact ⟨landing, landed, starts⟩

end Parses

namespace Suffixes

variable {first second : String} {source : List Char} {symbol : Symbol} {index : Nat}

theorem suffixed_of_recursive {alternative : Alternative Scalar}
    (found : (grammar first second).alternative? symbol index = some alternative)
    (recursive : alternative.recursive = true) :
    index = 1 ∧ alternative = suffixed first ∨ index = 2 ∧ alternative = suffixed second := by
  obtain ⟨rule, isRule, atIndex⟩ := Grammar.rule?_of_alternative? found
  cases List.mem_singleton.1 (List.mem_of_find?_eq_some isRule)
  match index, atIndex with
  | 0, atIndex =>
      cases atIndex
      cases recursive
  | 1, atIndex => exact .inl ⟨rfl, (Option.some.inj atIndex).symm⟩
  | 2, atIndex => exact .inr ⟨rfl, (Option.some.inj atIndex).symm⟩

/-- A suffix is added only where it follows. -/
theorem follows_of_prolongs {text : String} {base node : Tree Scalar}
    (prolongs : (input first second source).Prolongs symbol base (suffixed text, index)
      (some node)) :
    ∃ landing, (input first second source).land base.stop = .ok landing ∧
      text.toList <+: landing.rest := by
  obtain ⟨-, head, tail, run, starts, parses, isNode⟩ := prolongs
  cases starts
  cases run with
  | none => cases isNode
  | some run => exact parses.sequence_literal

theorem confluent (apart : ¬ first.toList <+: second.toList)
    (apart' : ¬ second.toList <+: first.toList) : (input first second source).Confluent := by
  refine Input.confluent_of_unique fun symbol shorter longer longer' step step' => ?_
  obtain ⟨-, index, alternative, isAlternative, prolongs⟩ := step
  obtain ⟨-, index', alternative', isAlternative', prolongs'⟩ := step'
  have clash (follows : ∃ landing, (input first second source).land shorter.stop = .ok landing ∧
      first.toList <+: landing.rest) (follows' : ∃ landing,
        (input first second source).land shorter.stop = .ok landing ∧
          second.toList <+: landing.rest) : False := by
    obtain ⟨landing, landed, begins⟩ := follows
    obtain ⟨landing', landed', begins'⟩ := follows'
    cases landed.symm.trans landed'
    rcases List.prefix_or_prefix_of_prefix begins begins' with before | before
    · exact apart before
    · exact apart' before
  rcases suffixed_of_recursive isAlternative prolongs.1 with ⟨rfl, rfl⟩ | ⟨rfl, rfl⟩ <;>
    rcases suffixed_of_recursive isAlternative' prolongs'.1 with ⟨rfl, rfl⟩ | ⟨rfl, rfl⟩
  · exact Option.some.inj (prolongs.unique prolongs')
  · exact (clash (follows_of_prolongs prolongs) (follows_of_prolongs prolongs')).elim
  · exact (clash (follows_of_prolongs prolongs') (follows_of_prolongs prolongs)).elim
  · exact Option.some.inj (prolongs.unique prolongs')

end Suffixes

/-! ### Lookups -/

namespace Chart

variable {engine : RegexEngine} {declarations declarations' : List (Declaration V)}
  {input other : Input V} {chart chart' : Chart V} {origin : Position}

/-- Where every seed grows to one end, the order of alternatives that start with the rule itself
does not matter either: a symbol has a token at a position under both grammars or under neither, and
both tokens end at the same place. -/
theorem Reachable.growth_order_free (built : Grammar.build engine declarations = .ok input.grammar)
    (built' : Grammar.build engine declarations' = .ok other.grammar)
    (reordered : input.Reordered Eq List.Perm other) (guarded : input.Guarded)
    (confluent : input.Confluent) (reachable : chart.Reachable input input.Counts)
    (reachable' : chart'.Reachable other other.Counts) (counts : input.Counts origin)
    (symbol : Symbol) :
    ∃ found after found' after', chart.tokenAt input origin symbol = .ok (found, after) ∧
      chart'.tokenAt other origin symbol = .ok (found', after') ∧
      found.map Token.stop = found'.map Token.stop := by
  have wellFormed := Grammar.build_wellFormed built
  have wellFormed' := Grammar.build_wellFormed built'
  have guarded' := guarded.reordered (reordered.mono (fun _ _ => .of_eq) fun _ _ => id)
  have mirrors : other.Mirrors input :=
    (reordered.symm (fun _ _ => Eq.symm) fun _ _ => List.Perm.symm).mirrors_of_extensions
      wellFormed guarded confluent
  obtain ⟨found', after', found, after, done', done, same⟩ :=
    Agrees.tokenAt_mirrored mirrors (reachable'.agrees wellFormed' guarded')
      (reachable.agrees wellFormed guarded) wellFormed' wellFormed guarded' guarded
      (reordered.counts_iff.1 counts) counts symbol
  exact ⟨found, after, found', after', done, done', same.symm⟩

/-- Suffixes that begin differently may be declared in either order. -/
theorem suffixes_swapped :
    ∃ token after token' after',
      ({} : Chart Scalar).tokenAt (Suffixes.input "+" "-" ['1', '+', ' ', '-', '+']) .start
        Suffixes.wordSymbol = .ok (some token, after) ∧
      ({} : Chart Scalar).tokenAt (Suffixes.input "-" "+" ['1', '+', ' ', '-', '+']) .start
        Suffixes.wordSymbol = .ok (some token', after') ∧
      token.stop = token'.stop ∧ token.stop.offset = 5 := by
  have ends : (({} : Chart Scalar).tokenAt (Suffixes.input "+" "-" ['1', '+', ' ', '-', '+'])
      .start Suffixes.wordSymbol).toOption.bind (fun result => result.1.map (·.stop.offset)) =
      some 5 := by
    decide +kernel
  obtain ⟨found, after, found', after', done, done', same⟩ :=
    Reachable.growth_order_free (Suffixes.build_eq "+" "-") (Suffixes.build_eq "-" "+")
      Suffixes.reordered (Suffixes.guarded (by decide) (by decide))
      (Suffixes.confluent (by decide) (by decide)) .opened .opened
      (Suffixes.input "+" "-" ['1', '+', ' ', '-', '+']).counts_start Suffixes.wordSymbol
  rw [done] at ends
  obtain ⟨token, rfl, stops⟩ := Option.map_eq_some_iff.1 ends
  obtain ⟨token', rfl, sameStop⟩ := Option.map_eq_some_iff.1 same.symm
  exact ⟨token, after, token', after', done, done', sameStop.symm, stops⟩

/-- Where one suffix begins with the other, the order decides how much is matched: the shorter one,
if it comes first, is added at once, and then the longer one does not follow any more. -/
theorem suffixes_not_free :
    Grammar.build Regex.engine (Suffixes.declarations "+" "+-") = .ok (Suffixes.grammar "+" "+-") ∧
    Grammar.build Regex.engine (Suffixes.declarations "+-" "+") = .ok (Suffixes.grammar "+-" "+") ∧
    (Suffixes.input "+" "+-" ['1', '+', '-']).Reordered Eq List.Perm
      (Suffixes.input "+-" "+" ['1', '+', '-']) ∧
    (Suffixes.input "+" "+-" ['1', '+', '-']).Guarded ∧
    (Suffixes.input "+-" "+" ['1', '+', '-']).Guarded ∧
    (({} : Chart Scalar).tokenAt (Suffixes.input "+" "+-" ['1', '+', '-']) .start
      Suffixes.wordSymbol).toOption.bind (fun result => result.1.map (·.stop.offset)) = some 2 ∧
    (({} : Chart Scalar).tokenAt (Suffixes.input "+-" "+" ['1', '+', '-']) .start
      Suffixes.wordSymbol).toOption.bind (fun result => result.1.map (·.stop.offset)) = some 3 := by
  refine ⟨Suffixes.build_eq _ _, Suffixes.build_eq _ _, Suffixes.reordered,
    Suffixes.guarded (by decide) (by decide), Suffixes.guarded (by decide) (by decide), ?_, ?_⟩
  · decide +kernel
  · decide +kernel

end Chart

end Packrat
