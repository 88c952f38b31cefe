import Mathlib.Data.List.TakeWhile
import Packrat.Proofs.Reference.Erase
import Packrat.Proofs.Scan.Longest

/-!
Texts as rows of lexemes. Blank text may stand before each lexeme and at the end (`Spaced`), and a
place of a text may have such a row ahead of it (`Input.Awaits`). Where the first lexeme does not
begin with a blank character, skipping the blank text leads to it (`Input.Awaits.faces`).
-/

set_option autoImplicit false
set_option linter.unusedSectionVars false

namespace Packrat

variable {V : Type} [Kinded V]

/-! ### Texts under a grammar -/

theorem Input.length_self (source : List Char) :
    Text.byteLength source = Text.byteLength source := rfl

theorem Input.cuts_self (source : List Char) : Text.cuts source = Text.cuts source := rfl

def Grammar.on (grammar : Grammar V) (source : List Char) : Input V where
  grammar := grammar
  source := source
  length_eq := Input.length_self source
  cuts_eq := Input.cuts_self source

/-! ### Rows of lexemes -/

/-- Whether a text consists of lexemes in order, with any blank text before each and at the end. -/
inductive Spaced (isBlank : Char → Bool) : List (List Char) → List Char → Prop where
  | finish {gap} : (∀ c ∈ gap, isBlank c = true) → Spaced isBlank [] gap
  | lexeme {gap lexeme lexemes text} :
      (∀ c ∈ gap, isBlank c = true) →
      Spaced isBlank lexemes text →
      Spaced isBlank (lexeme :: lexemes) (gap ++ (lexeme ++ text))

/-- Whether the first of some lexemes, if there is one, begins with a character that is not
blank. -/
def Solid (isBlank : Char → Bool) (lexemes : List (List Char)) : Prop :=
  ∀ lexeme ∈ lexemes.head?, ∃ c tail, lexeme = c :: tail ∧ isBlank c = false

theorem Solid.cons {isBlank : Char → Bool} {c : Char} {tail : List Char} {more : List (List Char)}
    (apart : isBlank c = false) : Solid isBlank ((c :: tail) :: more) := by
  rintro _ ⟨⟩
  exact ⟨c, tail, rfl, apart⟩

theorem Solid.covers {isBlank : Char → Bool} {lexeme : List Char} {more : List (List Char)}
    (solid : Solid isBlank (lexeme :: more)) : lexeme ≠ [] := by
  obtain ⟨c, tail, isText, -⟩ := solid lexeme rfl
  rw [isText]
  exact List.cons_ne_nil c tail

def firstOf (lexemes : List (List Char)) : Option Char :=
  lexemes.head?.bind List.head?

namespace Spaced

variable {isBlank : Char → Bool} {lexemes : List (List Char)} {text gap : List Char}

theorem behind (blank : ∀ c ∈ gap, isBlank c = true) (spaced : Spaced isBlank lexemes text) :
    Spaced isBlank lexemes (gap ++ text) := by
  cases spaced with
  | finish blank' => exact .finish (List.forall_mem_append.2 ⟨blank, blank'⟩)
  | @lexeme gap' _ _ _ blank' rest =>
      rw [← List.append_assoc]
      exact .lexeme (List.forall_mem_append.2 ⟨blank, blank'⟩) rest

/-- Lexemes with nothing between them. -/
theorem tight (lexemes : List (List Char)) : Spaced isBlank lexemes lexemes.flatten := by
  induction lexemes with
  | nil => exact .finish nofun
  | cons lexeme more ih =>
      have noGap : ∀ c ∈ ([] : List Char), isBlank c = true := nofun
      exact .lexeme noGap ih

theorem skip (solid : Solid isBlank lexemes) (spaced : Spaced isBlank lexemes text) :
    (text.dropWhile isBlank).head? = firstOf lexemes ∧
      ∀ lexeme more, lexemes = lexeme :: more →
        ∃ after, text.dropWhile isBlank = lexeme ++ after ∧ Spaced isBlank more after := by
  cases spaced with
  | finish blank =>
      refine ⟨?_, nofun⟩
      rw [List.dropWhile_eq_nil_iff.2 blank]
      rfl
  | @lexeme gap first more after blank rest =>
      obtain ⟨c, tail, rfl, apart⟩ := solid _ rfl
      have dropped : (gap ++ (c :: tail ++ after)).dropWhile isBlank = c :: tail ++ after := by
        rw [List.dropWhile_append_of_pos blank, List.cons_append, List.dropWhile_cons_of_neg]
        rw [apart]
        exact Bool.false_ne_true
      rw [dropped]
      refine ⟨rfl, ?_⟩
      rintro _ _ ⟨⟩
      exact ⟨after, rfl, rest⟩

theorem head? {c : Char} (solid : Solid isBlank lexemes) (spaced : Spaced isBlank lexemes text)
    (isHead : text.head? = some c) : isBlank c = true ∨ firstOf lexemes = some c := by
  cases text with
  | nil => cases isHead
  | cons first rest =>
      cases isHead
      by_cases blank : isBlank c = true
      · exact .inl blank
      · have begins := (spaced.skip solid).1
        rw [List.dropWhile_cons_of_neg blank] at begins
        exact .inr begins.symm

end Spaced

/-- Whether lexemes, with blank text between them, are all that follows a place of the text. -/
def Input.Awaits (input : Input V) (cursor : Position) (lexemes : List (List Char)) : Prop :=
  ∃ rest, input.rest? cursor.offset = some rest ∧ Spaced input.grammar.isBlank lexemes rest

/-! ### First characters -/

/-- Whether the first of some lexemes, if there is one, begins with a character of a set, and with
one that is not blank. -/
def Led (isBlank : Char → Bool) (set : CharSet) (lexemes : List (List Char)) : Prop :=
  ∀ lexeme ∈ lexemes.head?, ∃ c tail, lexeme = c :: tail ∧ isBlank c = false ∧ set.mem c = true

namespace Led

variable {isBlank : Char → Bool} {set : CharSet} {lexemes : List (List Char)} {c : Char}

theorem nil : Led isBlank set [] :=
  nofun

theorem cons {tail : List Char} {more : List (List Char)} (apart : isBlank c = false)
    (member : set.mem c = true) : Led isBlank set ((c :: tail) :: more) := by
  rintro _ ⟨⟩
  exact ⟨c, tail, rfl, apart, member⟩

theorem solid (led : Led isBlank set lexemes) : Solid isBlank lexemes := by
  intro lexeme isHead
  obtain ⟨c, tail, isLexeme, apart, -⟩ := led lexeme isHead
  exact ⟨c, tail, isLexeme, apart⟩

theorem first (led : Led isBlank set lexemes) (isFirst : firstOf lexemes = some c) :
    set.mem c = true := by
  obtain ⟨lexeme, isHead, begins⟩ := Option.bind_eq_some_iff.1 isFirst
  obtain ⟨d, tail, rfl, -, member⟩ := led lexeme isHead
  cases begins
  exact member

theorem apart (led : Led isBlank set lexemes) {other : CharSet} (isApart : set.Apart other) :
    ∀ c, firstOf lexemes = some c → other.mem c = false :=
  fun _ isFirst => isApart.not_mem (led.first isFirst)

theorem ends {text : List Char} (led : Led isBlank set lexemes)
    (blanks : ∀ c, isBlank c = true → set.mem c = true) (spaced : Spaced isBlank lexemes text) :
    ∀ c, text.head? = some c → set.mem c = true := by
  intro c isHead
  rcases spaced.head? led.solid isHead with blank | isFirst
  · exact blanks c blank
  · exact led.first isFirst

end Led

theorem Grammar.blank_mem {grammar : Grammar V} {set : CharSet}
    (each : (grammar.blanks.all fun c => set.mem c) = true) :
    ∀ c, grammar.isBlank c = true → set.mem c = true :=
  fun c blank => List.all_eq_true.1 each c (List.contains_iff_mem.1 blank)

/-! ### Places -/

def Landing.settled (landing : Landing) : Landing :=
  ⟨landing.position, [], landing.position, landing.rest⟩

theorem Input.land_again {input : Input V} {cursor : Position} {landing : Landing}
    (landed : input.land cursor = .ok landing) :
    input.land landing.position = .ok landing.settled := by
  have onward := Input.land_rest? landed
  have stays := Input.land_settled landed
  rw [Input.settle?, onward, Option.map_some, Option.some.injEq, Nat.add_eq_left,
    Text.byteLength_eq_zero_iff] at stays
  refine (input.land_eq_ok_iff _ _).2 ⟨_, onward, ?_⟩
  have whole := List.takeWhile_append_dropWhile (p := input.grammar.isBlank) (l := landing.rest)
  rw [stays, List.nil_append] at whole
  rw [stays, whole]
  rfl

structure Input.Faces (input : Input V) (cursor : Position) (lexemes : List (List Char))
    (landing : Landing) : Prop where
  landed : input.land cursor = .ok landing
  head? : landing.rest.head? = firstOf lexemes
  onward : ∀ {lexeme more}, lexemes = lexeme :: more →
    ∃ after, landing.rest = lexeme ++ after ∧ Spaced input.grammar.isBlank more after ∧
      input.Awaits (landing.position.through lexeme) more

theorem Input.Faces.settled {input : Input V} {cursor : Position} {lexemes : List (List Char)}
    {landing : Landing} (faces : input.Faces cursor lexemes landing) :
    input.Faces landing.position lexemes landing.settled where
  landed := Input.land_again faces.landed
  head? := faces.head?
  onward := faces.onward

namespace Input.Awaits

variable {input : Input V} {cursor place : Position} {lexemes : List (List Char)}

theorem of_offset (ahead : input.Awaits cursor lexemes) (same : place.offset = cursor.offset) :
    input.Awaits place lexemes := by
  unfold Input.Awaits
  rw [same]
  exact ahead

theorem start (input : Input V) (lexemes : List (List Char)) :
    input.Awaits .start lexemes ↔ Spaced input.grammar.isBlank lexemes input.source := by
  unfold Input.Awaits
  rw [Position.start, Input.rest?_zero]
  constructor
  · rintro ⟨rest, ⟨⟩, spaced⟩
    exact spaced
  · intro spaced
    exact ⟨_, rfl, spaced⟩

theorem nil_iff {rest : List Char} (found : input.rest? cursor.offset = some rest) :
    input.Awaits cursor [] ↔ rest.all input.grammar.isBlank = true := by
  unfold Input.Awaits
  rw [found, List.all_eq_true]
  constructor
  · rintro ⟨text, ⟨⟩, spaced⟩
    cases spaced with
    | finish blank => exact blank
  · intro blank
    exact ⟨_, rfl, .finish blank⟩

theorem of_settle? (settled : input.settle? cursor.offset = some place.offset)
    (ahead : input.Awaits place lexemes) : input.Awaits cursor lexemes := by
  obtain ⟨rest, found, spaced⟩ := ahead
  obtain ⟨text, foundText, size⟩ := Option.map_eq_some_iff.1 settled
  have onward : input.rest? place.offset = some (text.dropWhile input.grammar.isBlank) := by
    rw [← size]
    refine Input.rest?_append ?_
    rw [List.takeWhile_append_dropWhile]
    exact foundText
  cases found.symm.trans onward
  refine ⟨text, foundText, ?_⟩
  rw [← List.takeWhile_append_dropWhile (p := input.grammar.isBlank) (l := text)]
  exact spaced.behind fun c member => List.mem_takeWhile_imp member

theorem cons {lexeme after : List Char} (found : input.rest? place.offset = some (lexeme ++ after))
    (ahead : input.Awaits (place.through lexeme) lexemes) :
    input.Awaits place (lexeme :: lexemes) := by
  obtain ⟨rest, foundRest, spaced⟩ := ahead
  rw [Position.through_offset, Input.rest?_append found] at foundRest
  cases foundRest
  have whole : Spaced input.grammar.isBlank (lexeme :: lexemes) ([] ++ (lexeme ++ after)) :=
    .lexeme nofun spaced
  exact ⟨_, found, whole⟩

theorem faces (ahead : input.Awaits cursor lexemes)
    (solid : Solid input.grammar.isBlank lexemes) :
    ∃ landing, input.Faces cursor lexemes landing := by
  obtain ⟨rest, found, spaced⟩ := ahead
  have landed := (input.land_eq_ok_iff cursor _).2 ⟨rest, found, rfl⟩
  obtain ⟨isHead, onward⟩ := spaced.skip solid
  refine ⟨_, landed, isHead, ?_⟩
  intro lexeme more same
  obtain ⟨after, split, spacedMore⟩ := onward lexeme more same
  refine ⟨after, split, spacedMore, after, ?_, spacedMore⟩
  have here := Input.land_rest? landed
  rw [split] at here
  rw [Position.through_offset]
  exact Input.rest?_append here

end Input.Awaits

end Packrat
