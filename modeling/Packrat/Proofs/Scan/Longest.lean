import Packrat.CharSet
import Packrat.Text.Bytes

/-!
The longest beginning of a text that belongs to a language, by its number of bytes (`Longest`). A
language is any set of texts; the ones here are put together from sets of characters, and each part
says what may follow it.
-/

set_option autoImplicit false

namespace Packrat

namespace CharSet

/-- Whether two sets have no range in common, not even in part. -/
def Apart (first second : CharSet) : Prop :=
  ∀ range ∈ first.ranges, ∀ other ∈ second.ranges, range.2 < other.1 ∨ other.2 < range.1

instance (first second : CharSet) : Decidable (first.Apart second) :=
  inferInstanceAs (Decidable (∀ range ∈ first.ranges, ∀ other ∈ second.ranges,
    range.2 < other.1 ∨ other.2 < range.1))

theorem exists_range {ranges : List (Nat × Nat)} {code : Nat} (held : holds ranges code = true) :
    ∃ range ∈ ranges, range.1 ≤ code ∧ code ≤ range.2 := by
  induction ranges with
  | nil => cases held
  | cons range rest ih =>
      simp only [holds, Bool.and_eq_true, Bool.or_eq_true, decide_eq_true_eq] at held
      rcases held with ⟨low, high | later⟩
      · exact ⟨range, List.mem_cons_self .., low, high⟩
      · obtain ⟨other, listed, within⟩ := ih later
        exact ⟨other, List.mem_cons_of_mem range listed, within⟩

theorem Apart.not_mem {first second : CharSet} (apart : first.Apart second) {c : Char}
    (member : first.mem c = true) : second.mem c = false := by
  refine eq_false_of_ne_true fun member' => ?_
  obtain ⟨range, listed, low, high⟩ := exists_range member
  obtain ⟨other, listed', low', high'⟩ := exists_range member'
  have := apart range listed other listed'
  omega

structure Inside (first second : CharSet) : Prop where
  ascending : second.ranges.Pairwise fun range next => range.1 ≤ next.1
  covered : ∀ range ∈ first.ranges, ∃ other ∈ second.ranges,
    other.1 ≤ range.1 ∧ range.2 ≤ other.2

theorem holds_of_range {ranges : List (Nat × Nat)} {range : Nat × Nat} {code : Nat}
    (ascending : ranges.Pairwise fun range next => range.1 ≤ next.1) (listed : range ∈ ranges)
    (low : range.1 ≤ code) (high : code ≤ range.2) : holds ranges code = true := by
  induction ranges with
  | nil => cases listed
  | cons head rest ih =>
      rw [List.pairwise_cons] at ascending
      simp only [holds, Bool.and_eq_true, Bool.or_eq_true, decide_eq_true_eq]
      rcases List.mem_cons.1 listed with rfl | later
      · exact ⟨low, .inl high⟩
      · exact ⟨Nat.le_trans (ascending.1 range later) low, .inr (ih ascending.2 later)⟩

theorem Inside.mem {first second : CharSet} (inside : first.Inside second) {c : Char}
    (member : first.mem c = true) : second.mem c = true := by
  obtain ⟨range, listed, low, high⟩ := exists_range member
  obtain ⟨other, listed', low', high'⟩ := inside.covered range listed
  exact holds_of_range inside.ascending listed' (Nat.le_trans low' low) (Nat.le_trans high high')

end CharSet

abbrev Lang : Type := List Char → Prop

namespace Lang

def bare : Lang := fun text => text = []

def one (set : CharSet) (rest : Lang) : Lang := fun text =>
  ∃ c tail, text = c :: tail ∧ set.mem c = true ∧ rest tail

def either (first other : Lang) : Lang := fun text => first text ∨ other text

def many (set : CharSet) (rest : Lang) : Lang := fun text =>
  ∃ run tail, text = run ++ tail ∧ (∀ c ∈ run, set.mem c = true) ∧ rest tail

def Avoids (language : Lang) (set : CharSet) : Prop :=
  ∀ c tail, language (c :: tail) → set.mem c = false

theorem many_iff {set : CharSet} {rest : Lang} {text : List Char} :
    many set rest text ↔ either (one set (many set rest)) rest text := by
  constructor
  · rintro ⟨run, tail, rfl, members, belongs⟩
    cases run with
    | nil => exact .inr belongs
    | cons c others =>
        obtain ⟨member, membersOthers⟩ := List.forall_mem_cons.1 members
        exact .inl ⟨c, others ++ tail, rfl, member, others, tail, rfl, membersOthers, belongs⟩
  · rintro (⟨c, -, rfl, member, run, tail, rfl, members, belongs⟩ | belongs)
    · exact ⟨c :: run, tail, rfl, List.forall_mem_cons.2 ⟨member, members⟩, belongs⟩
    · exact ⟨[], text, rfl, nofun, belongs⟩

end Lang

open Lang

/-- The size of the longest beginning of a text in a language, or nothing if no beginning belongs to
it. -/
inductive Longest (language : Lang) (text : List Char) : Option Nat → Prop where
  | none_ : (∀ piece, piece <+: text → ¬ language piece) → Longest language text none
  | some_ {piece} :
      piece <+: text →
      language piece →
      (∀ other, other <+: text → language other → other <+: piece) →
      Longest language text (some (Text.byteLength piece))

namespace Longest

variable {language first other rest : Lang} {set : CharSet} {text tail : List Char} {c : Char}
  {length length' : Option Nat}

theorem congr (same : ∀ piece, language piece ↔ other piece)
    (longest : Longest language text length) : Longest other text length := by
  cases longest with
  | none_ fails =>
      exact .none_ fun piece begins belongs => fails piece begins ((same piece).2 belongs)
  | some_ begins belongs greatest =>
      exact .some_ begins ((same _).1 belongs) fun piece begins' belongs' =>
        greatest piece begins' ((same piece).2 belongs')

theorem bare : Longest bare text (some 0) := by
  refine .some_ List.nil_prefix rfl ?_
  rintro other - rfl
  exact List.prefix_rfl

theorem one (member : set.mem c = true) (longest : Longest rest tail length) :
    Longest (Lang.one set rest) (c :: tail) (length.map (c.utf8Size + ·)) := by
  cases longest with
  | none_ fails =>
      refine .none_ ?_
      rintro piece begins ⟨d, others, rfl, -, belongs⟩
      exact fails others (List.cons_prefix_cons.1 begins).2 belongs
  | @some_ piece begins belongs greatest =>
      have whole :
          Longest (Lang.one set rest) (c :: tail) (some (Text.byteLength (c :: piece))) := by
        refine .some_ (List.cons_prefix_cons.2 ⟨rfl, begins⟩) ⟨c, piece, rfl, member, belongs⟩ ?_
        rintro other begins' ⟨d, others, rfl, -, belongs'⟩
        obtain ⟨rfl, behind⟩ := List.cons_prefix_cons.1 begins'
        exact List.cons_prefix_cons.2 ⟨rfl, greatest others behind belongs'⟩
      exact whole

theorem one_refused (refuses : ∀ c tail, text = c :: tail → set.mem c = false) :
    Longest (Lang.one set rest) text none := by
  refine .none_ ?_
  rintro piece ⟨after, rfl⟩ ⟨c, others, rfl, member, -⟩
  cases member.symm.trans (refuses c _ rfl)

/-- The second of two languages matters only where the first has nothing to offer, if the second
never has more to offer. -/
theorem either (longest : Longest first text length)
    (otherwise : length = none → Longest other text length')
    (never : ∀ piece piece', piece <+: text → piece' <+: text → first piece → other piece' →
      piece' <+: piece) :
    Longest (either first other) text (length.or length') := by
  cases longest with
  | none_ fails =>
      rw [Option.none_or]
      cases otherwise rfl with
      | none_ fails' =>
          refine .none_ ?_
          rintro piece begins (belongs | belongs)
          · exact fails piece begins belongs
          · exact fails' piece begins belongs
      | some_ begins belongs greatest =>
          refine .some_ begins (.inr belongs) ?_
          rintro piece begins' (belongs' | belongs')
          · exact absurd belongs' (fails piece begins')
          · exact greatest piece begins' belongs'
  | some_ begins belongs greatest =>
      refine .some_ begins (.inl belongs) ?_
      rintro piece begins' (belongs' | belongs')
      · exact greatest piece begins' belongs'
      · exact never _ _ begins begins' belongs belongs'

theorem either_apart (longest : Longest (Lang.one set rest) text length)
    (otherwise : length = none → Longest other text length') (avoids : other.Avoids set) :
    Longest (Lang.either (Lang.one set rest) other) text (length.or length') := by
  refine longest.either otherwise ?_
  rintro piece piece' begins begins' ⟨c, others, rfl, member, -⟩ belongs
  cases piece' with
  | nil => exact List.nil_prefix
  | cons d others' =>
      obtain ⟨after, rfl⟩ := begins
      obtain ⟨rfl, -⟩ := List.cons_prefix_cons.1 begins'
      cases member.symm.trans (avoids _ _ belongs)

/-- A run goes on as long as it can; what follows it is tried only where no longer run comes to
anything. -/
theorem many (longest : Longest (Lang.one set (many set rest)) text length)
    (otherwise : length = none → Longest rest text length') (avoids : rest.Avoids set) :
    Longest (Lang.many set rest) text (length.or length') :=
  (longest.either_apart otherwise avoids).congr fun _ => many_iff.symm

end Longest

/-! ### Characters of texts -/

namespace Lang

variable {set other : CharSet} {first rest : Lang}

theorem avoids_bare : bare.Avoids set := by
  intro c tail impossible
  cases impossible

theorem Avoids.one (apart : other.Apart set) : (Lang.one other rest).Avoids set := by
  rintro c tail ⟨d, others, same, member, -⟩
  cases same
  exact apart.not_mem member

theorem Avoids.either (avoidsFirst : first.Avoids set) (avoidsRest : rest.Avoids set) :
    (Lang.either first rest).Avoids set := by
  rintro c tail (belongs | belongs)
  · exact avoidsFirst c tail belongs
  · exact avoidsRest c tail belongs

def Misses (language : Lang) (set : CharSet) : Prop :=
  ∀ text, language text → ∀ c ∈ text, set.mem c = false

def Begins (language : Lang) (set : CharSet) : Prop :=
  ∀ text, language text → ∃ c tail, text = c :: tail ∧ set.mem c = true

theorem misses_bare : bare.Misses set := by
  rintro text rfl
  exact nofun

theorem Misses.one (apart : other.Apart set) (misses : rest.Misses set) :
    (Lang.one other rest).Misses set := by
  rintro text ⟨c, tail, rfl, member, belongs⟩
  exact List.forall_mem_cons.2 ⟨apart.not_mem member, misses tail belongs⟩

theorem Misses.either (missesFirst : first.Misses set) (missesRest : rest.Misses set) :
    (Lang.either first rest).Misses set := by
  rintro text (belongs | belongs)
  · exact missesFirst text belongs
  · exact missesRest text belongs

theorem Misses.many (apart : other.Apart set) (misses : rest.Misses set) :
    (Lang.many other rest).Misses set := by
  rintro text ⟨run, tail, rfl, inside, belongs⟩
  exact List.forall_mem_append.2
    ⟨fun c member => apart.not_mem (inside c member), misses tail belongs⟩

theorem Begins.one (inside : other.Inside set) : (Lang.one other rest).Begins set := by
  rintro text ⟨c, tail, rfl, member, -⟩
  exact ⟨c, tail, rfl, inside.mem member⟩

theorem Begins.either (beginsFirst : first.Begins set) (beginsRest : rest.Begins set) :
    (Lang.either first rest).Begins set := by
  rintro text (belongs | belongs)
  · exact beginsFirst text belongs
  · exact beginsRest text belongs

/-- A text of a language does not go on into what follows if this begins with a character that
does not occur in texts of the language. -/
theorem Misses.stops {text longer after : List Char} (misses : rest.Misses set)
    (ends : ∀ c, after.head? = some c → set.mem c = true) (belongs : rest longer)
    (begins : longer <+: text ++ after) : longer <+: text := by
  obtain ⟨beyond, split⟩ := begins
  rcases List.append_eq_append_iff.1 split with ⟨tail, rfl, -⟩ | ⟨tail, rfl, rfl⟩
  · exact List.prefix_append longer tail
  · cases tail with
    | nil => simp
    | cons c tail =>
        have outside := misses _ belongs c (List.mem_append_right text (List.mem_cons_self ..))
        rw [ends c rfl] at outside
        cases outside

end Lang

namespace Longest

variable {language rest : Lang} {text tail : List Char} {c : Char} {length : Option Nat}

theorem behind (longest : Longest rest tail length) (proper : ¬ language [])
    (same : ∀ others, language (c :: others) ↔ rest others) :
    Longest language (c :: tail) (length.map (c.utf8Size + ·)) := by
  have member : (CharSet.one c).mem c = true := by
    rw [CharSet.mem_one, beq_self_eq_true]
  have single : Longest (Lang.one (.one c) rest) (c :: tail) (length.map (c.utf8Size + ·)) :=
    longest.one member
  generalize length.map (c.utf8Size + ·) = total at single ⊢
  cases single with
  | none_ fails =>
      refine .none_ ?_
      intro piece begins belongs
      cases piece with
      | nil => exact proper belongs
      | cons d others =>
          obtain ⟨rfl, -⟩ := List.cons_prefix_cons.1 begins
          exact fails _ begins ⟨d, others, rfl, member, (same others).1 belongs⟩
  | some_ begins belongs greatest =>
      obtain ⟨d, others, rfl, isHead, isRest⟩ := belongs
      rw [CharSet.mem_one] at isHead
      cases eq_of_beq isHead
      refine .some_ begins ((same others).2 isRest) ?_
      intro piece isPiece belongs'
      cases piece with
      | nil => exact List.nil_prefix
      | cons e others' =>
          obtain ⟨rfl, -⟩ := List.cons_prefix_cons.1 isPiece
          exact greatest _ isPiece ⟨e, others', rfl, member, (same others').1 belongs'⟩

theorem nothing (proper : ¬ language [])
    (differs : ∀ c tail others, text = c :: tail → ¬ language (c :: others)) :
    Longest language text none := by
  refine .none_ ?_
  rintro piece ⟨after, rfl⟩ belongs
  cases piece with
  | nil => exact proper belongs
  | cons c others => exact differs c (others ++ after) others rfl belongs

end Longest

end Packrat
