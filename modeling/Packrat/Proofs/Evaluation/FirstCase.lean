import Packrat.Item.Basic
import Packrat.Proofs.Evaluation.Calls
import Packrat.Proofs.Evaluation.Lookups
import Packrat.Proofs.Evaluation.Replay

/-!
Value functions by cases. Gathering the kinds of a signature one by one finds the leftmost parts of
these kinds, if the signature can be found at all (`Cases.settle_gather`); it can exactly if it is a
subsequence of the kinds of all values (`Cases.sublist_kinds_iff`). So the first case with such a
signature decides the value (`Cases.apply_decides`).
-/

set_option autoImplicit false
set_option linter.unusedSectionVars false

namespace Packrat

variable {V : Type} [Kinded V]

/-- The values of the parts of a token, as far as they are known. -/
def Token.partValues (token : Token V) (valuation : Valuation V) : List (Option V) :=
  token.children.map fun child => valuation.read child.item

namespace Cases

def kinds (values : List (Option V)) : List (Kinded.Kind V) :=
  values.filterMap (Option.map Kinded.kind)

/-- Values of the kinds of a signature at increasing places, from a cursor on. -/
inductive Embeds (values : List (Option V)) :
    (cursor : Nat) → (signature : List (Kinded.Kind V)) → (places : List Nat) →
      (found : List V) → Prop where
  | nil {cursor} : Embeds values cursor [] [] []
  | cons {cursor place value signature places found} :
      cursor ≤ place → values[place]? = some (some value) →
      Embeds values (place + 1) signature places found →
      Embeds values cursor (Kinded.kind value :: signature) (place :: places) (value :: found)

/-- Whether no other places for a signature lie further to the left. -/
structure Leftmost (values : List (Option V)) (cursor : Nat) (signature : List (Kinded.Kind V))
    (places : List Nat) (found : List V) : Prop where
  embeds : Embeds values cursor signature places found
  least : ∀ others list, Embeds values cursor signature others list →
    List.Forall₂ (· ≤ ·) places others

/-- What cases make of the values of the parts of a node, and what is noted: the first case whose
signature is a subsequence of the kinds gets the leftmost values of these kinds, and its result
counts in any case. -/
inductive Decides (values : List (Option V)) (cases : Cases V) : Option V → List Note → Prop where
  | taken {before : Cases V} {case : Case V} {behind : Cases V} {places : List Nat}
      {found : List V} :
      cases = before ++ case :: behind →
      (∀ other ∈ before, ¬other.signature.Sublist (kinds values)) →
      case.signature.Sublist (kinds values) →
      Leftmost values 0 case.signature places found →
      Decides values cases (case.transform found) (.caseTaken before.length :: case.remarks found)
  | unmatched :
      (∀ case ∈ cases, ¬case.signature.Sublist (kinds values)) → Decides values cases none []

/-! ### Embeddings -/

section Embeddings

variable {values : List (Option V)} {cursor : Nat} {signature : List (Kinded.Kind V)}
  {places : List Nat} {found : List V}

theorem Embeds.earlier {later : Nat} (embeds : Embeds values later signature places found)
    (before : cursor ≤ later) : Embeds values cursor signature places found := by
  cases embeds with
  | nil => exact .nil
  | cons behind here rest => exact .cons (Nat.le_trans before behind) here rest

theorem Embeds.sublist (embeds : Embeds values cursor signature places found) :
    signature.Sublist (kinds (values.drop cursor)) := by
  induction embeds with
  | nil => exact List.nil_sublist _
  | @cons cursor place value signature places found behind here _ ih =>
      obtain ⟨inside, isHere⟩ := List.getElem?_eq_some_iff.1 here
      have split : values.drop place = some value :: values.drop (place + 1) := by
        rw [List.drop_eq_getElem_cons inside, isHere]
      have onward : (kinds (values.drop place)).Sublist (kinds (values.drop cursor)) :=
        (List.drop_sublist_drop_left values behind).filterMap _
      apply List.Sublist.trans ?_ onward
      rw [split]
      exact ih.cons_cons _

theorem exists_embeds (rest before : List (Option V)) (split : values = before ++ rest)
    (sublist : signature.Sublist (kinds rest)) :
    ∃ places found, Embeds values before.length signature places found := by
  induction rest generalizing before signature with
  | nil =>
      cases List.sublist_nil.1 sublist
      exact ⟨[], [], .nil⟩
  | cons head rest ih =>
      have size : (before ++ [head]).length = before.length + 1 := List.length_append
      have onward {signature : List (Kinded.Kind V)} (sublist : signature.Sublist (kinds rest)) :
          ∃ places found, Embeds values (before.length + 1) signature places found := by
        rw [← size]
        exact ih (before ++ [head]) (by rw [split, List.append_assoc]; rfl) sublist
      have skip (sublist : signature.Sublist (kinds rest)) :
          ∃ places found, Embeds values before.length signature places found := by
        obtain ⟨places, found, embeds⟩ := onward sublist
        exact ⟨places, found, embeds.earlier (Nat.le_succ _)⟩
      cases head with
      | none => exact skip sublist
      | some value =>
          cases List.sublist_cons_iff.1 sublist with
          | inl others => exact skip others
          | inr first =>
              obtain ⟨signature, rfl, others⟩ := first
              obtain ⟨places, found, embeds⟩ := onward others
              have here : values[before.length]? = some (some value) := by
                rw [split, List.getElem?_append_right (Nat.le_refl _), Nat.sub_self]
                rfl
              exact ⟨_, _, .cons (Nat.le_refl _) here embeds⟩

/-- A signature can be found exactly if it is a subsequence of the kinds of the values. -/
theorem sublist_kinds_iff :
    signature.Sublist (kinds values) ↔ ∃ places found, Embeds values 0 signature places found := by
  constructor
  · exact exists_embeds values [] rfl
  · rintro ⟨places, found, embeds⟩
    exact embeds.sublist

end Embeddings

/-! ### Gathering -/

section Gathering

variable {values : List (Option V)} {answers : Nat → List Nat → Option V} {scope : Scope V}
  {cursor after : Nat} {kind : Kinded.Kind V} {signature : List (Kinded.Kind V)}

structure Answered (values : List (Option V)) (answers : Nat → List Nat → Option V)
    (scope : Scope V) : Prop where
  size : scope.children.length = values.length
  answer : ∀ index, answers index [] = values[index]?.join

theorem Answered.ofKind_eq_some_iff (answered : Answered values answers scope) {index : Nat}
    {value : V} :
    Lookup.ofKind answers kind index = some (value, after) ↔
      values[index]? = some (some value) ∧ Kinded.kind value = kind ∧ index + 1 = after := by
  rw [Lookup.ofKind, answered.answer]
  rcases values[index]? with _ | _ | other
  · simp
  · simp
  · simp only [Option.join_some, Option.bind_some, Option.some.injEq]
    split
    · next isKind => aesop
    · next apart => aesop

/-- A search that finds something finds the first value of the kind from the cursor on. -/
theorem Answered.nextOfKind_some (answered : Answered values answers scope) {value : V}
    (found : (Lookup.nextOfKind kind scope cursor).settle answers = (some value, after)) :
    ∃ place, place + 1 = after ∧ cursor ≤ place ∧ values[place]? = some (some value) ∧
      Kinded.kind value = kind ∧ ∀ other another, cursor ≤ other →
        values[other]? = some (some another) → Kinded.kind another = kind → place ≤ other := by
  rw [Lookup.settle_nextOfKind] at found
  split at found
  · next value after isFound =>
      cases found
      obtain ⟨passed, place, behind, isRange, here, nothing⟩ :=
        List.findSome?_eq_some_iff.1 isFound
      obtain ⟨count, -, rfl, rest⟩ := List.range'_eq_append_iff.1 isRange
      obtain ⟨rfl, -, -⟩ := List.range'_eq_cons_iff.1 rest.symm
      obtain ⟨isValue, isKind, isAfter⟩ := answered.ofKind_eq_some_iff.1 here
      refine ⟨_, isAfter, by omega, isValue, isKind, ?_⟩
      intro other another behind isOther sameKind
      by_contra earlier
      have isPassed : other ∈ List.range' cursor count := by
        rw [List.mem_range'_1]
        omega
      have hit := answered.ofKind_eq_some_iff.2 ⟨isOther, sameKind, rfl⟩
      cases (nothing other isPassed).symm.trans hit
  · cases found

/-- A search that finds nothing passes no value of the kind. -/
theorem Answered.nextOfKind_none (answered : Answered values answers scope)
    (missed : (Lookup.nextOfKind kind scope cursor).settle answers = (none, after))
    {place : Nat} {value : V} (behind : cursor ≤ place)
    (here : values[place]? = some (some value)) : Kinded.kind value ≠ kind := by
  intro isKind
  rw [Lookup.settle_nextOfKind] at missed
  split at missed
  · cases missed
  · next nothing =>
      have inside := (List.getElem?_eq_some_iff.1 here).1
      have searched :
          place ∈ List.range' cursor (scope.children.length - cursor) := by
        rw [List.mem_range'_1, answered.size]
        omega
      have hit := answered.ofKind_eq_some_iff.2 ⟨here, isKind, rfl⟩
      cases (List.findSome?_eq_none_iff.1 nothing place searched).symm.trans hit

/-- The first value of a kind, and the leftmost values behind it, are the leftmost. -/
theorem Leftmost.cons {place : Nat} {value : V} {places : List Nat} {found : List V}
    (behind : cursor ≤ place) (here : values[place]? = some (some value))
    (first : ∀ other another, cursor ≤ other → values[other]? = some (some another) →
      Kinded.kind another = Kinded.kind value → place ≤ other)
    (rest : Leftmost values (place + 1) signature places found) :
    Leftmost values cursor (Kinded.kind value :: signature) (place :: places) (value :: found) where
  embeds := .cons behind here rest.embeds
  least := by
    intro others list embeds
    generalize isSignature : Kinded.kind value :: signature = whole at embeds
    cases embeds with
    | nil => cases isSignature
    | @cons _ other another _ _ _ isBehind isHere onward =>
        obtain ⟨sameKind, rfl⟩ := List.cons.inj isSignature
        have early := first other another isBehind isHere sameKind.symm
        exact .cons early (rest.least _ _ (onward.earlier (Nat.succ_le_succ early)))

/-- Gathering that comes to an end finds the leftmost values of a signature. -/
theorem Answered.leftmost_of_gather (answered : Answered values answers scope) {found : List V}
    (gathered : ((gather signature scope cursor).settle answers).1 = some found) :
    ∃ places, Leftmost values cursor signature places found := by
  induction signature generalizing cursor found with
  | nil =>
      cases gathered
      refine ⟨[], .nil, ?_⟩
      intro others list embeds
      cases embeds
      exact .nil
  | cons kind signature ih =>
      cases asked : (Lookup.nextOfKind kind scope cursor).settle answers with
      | mk answer after =>
          cases answer with
          | none =>
              rw [settle_gather_missing asked] at gathered
              cases gathered
          | some value =>
              rw [settle_gather_behind asked, Prod.map_fst] at gathered
              obtain ⟨others, isOthers, rfl⟩ := Option.map_eq_some_iff.1 gathered
              obtain ⟨place, rfl, behind, here, rfl, first⟩ := answered.nextOfKind_some asked
              obtain ⟨places, leftmost⟩ := ih isOthers
              exact ⟨place :: places, .cons behind here first leftmost⟩

/-- Gathering that fails misses nothing: the signature cannot be found at all. -/
theorem Answered.not_embeds_of_gather (answered : Answered values answers scope)
    (failed : ((gather signature scope cursor).settle answers).1 = none) {places : List Nat}
    {found : List V} : ¬Embeds values cursor signature places found := by
  intro embeds
  induction signature generalizing cursor places found with
  | nil => cases failed
  | cons kind signature ih =>
      cases embeds with
      | @cons _ place value _ places found behind here onward =>
          cases asked : (Lookup.nextOfKind (Kinded.kind value) scope cursor).settle answers with
          | mk answer after =>
              cases answer with
              | none => exact answered.nextOfKind_none asked behind here rfl
              | some other =>
                  rw [settle_gather_behind asked, Prod.map_fst, Option.map_eq_none_iff] at failed
                  obtain ⟨first, rfl, -, -, -, least⟩ := answered.nextOfKind_some asked
                  have early := least place value behind here rfl
                  exact ih failed (onward.earlier (Nat.succ_le_succ early))

end Gathering

/-! ### Notes -/

section Notes

variable {answers : Nat → List Nat → Option V} {scope : Scope V} {cursor : Nat}

theorem notes_gather (signature : List (Kinded.Kind V)) :
    (gather signature scope cursor).notes answers = [] := by
  induction signature generalizing cursor with
  | nil => rfl
  | cons kind signature ih =>
      rw [gather, Lookup.notes_bind, Lookup.notes_nextOfKind, List.nil_append]
      rcases (Lookup.nextOfKind kind scope cursor).settle answers with ⟨_ | value, after⟩
      · rfl
      · dsimp only
        rw [Lookup.notes_bind, ih, List.nil_append]
        rcases (gather signature scope after).settle answers with ⟨_ | others, last⟩
        · rfl
        · rfl

theorem notes_noteAll (notes : List Note) :
    (noteAll notes scope cursor : Query V (Unit × Nat)).notes answers = notes := by
  induction notes with
  | nil => rfl
  | cons what rest ih => exact congrArg (what :: ·) ih

end Notes

/-! ### Trying the cases -/

section Trying

variable {values : List (Option V)} {answers : Nat → List Nat → Option V} {scope : Scope V}
  {cursor after index : Nat} {case : Case V} {rest : Cases V}

theorem settle_applyFrom_failed
    (failed : (gather case.signature scope 0).settle answers = (none, after)) :
    (applyFrom index (case :: rest) scope cursor).settle answers =
      (applyFrom (index + 1) rest scope after).settle answers := by
  rw [applyFrom, Lookup.settle_bind]
  change ((gather case.signature >>= _) scope 0).settle answers = _
  rw [Lookup.settle_bind, failed]

theorem notes_applyFrom_failed
    (failed : (gather case.signature scope 0).settle answers = (none, after)) :
    (applyFrom index (case :: rest) scope cursor).notes answers =
      (applyFrom (index + 1) rest scope after).notes answers := by
  rw [applyFrom, Lookup.notes_bind]
  change ((gather case.signature >>= _) scope 0).notes answers = _
  rw [Lookup.notes_bind, notes_gather, failed]
  rfl

theorem notes_applyFrom {found : List V}
    (gathered : (gather case.signature scope 0).settle answers = (some found, after)) :
    (applyFrom index (case :: rest) scope cursor).notes answers =
      .caseTaken index :: case.remarks found := by
  rw [applyFrom, Lookup.notes_bind]
  change ((gather case.signature >>= _) scope 0).notes answers = _
  rw [Lookup.notes_bind, notes_gather, gathered, List.nil_append]
  dsimp only
  rw [Lookup.notes_bind, Lookup.notes_bind, notes_noteAll]
  exact congrArg (_ :: ·) (List.append_nil _)

/-- Behind cases that do not fit, whatever the cursor has come to, the others decide. -/
theorem Answered.applyFrom_decides (answered : Answered values answers scope)
    (tried rest : Cases V)
    (unfit : ∀ other ∈ tried, ¬other.signature.Sublist (kinds values)) :
    Decides values (tried ++ rest) ((applyFrom tried.length rest scope cursor).settle answers).1
      ((applyFrom tried.length rest scope cursor).notes answers) := by
  induction rest generalizing tried cursor with
  | nil =>
      rw [List.append_nil]
      exact .unmatched unfit
  | cons case rest ih =>
      cases gathered : (gather case.signature scope 0).settle answers with
      | mk found after =>
          cases found with
          | none =>
              have missing : ¬case.signature.Sublist (kinds values) := by
                rw [sublist_kinds_iff]
                rintro ⟨places, found, embeds⟩
                exact answered.not_embeds_of_gather (congrArg Prod.fst gathered) embeds
              rw [settle_applyFrom_failed gathered, notes_applyFrom_failed gathered]
              have others := @ih after (tried ++ [case])
                (List.forall_mem_append.2 ⟨unfit, List.forall_mem_singleton.2 missing⟩)
              rw [List.length_append, List.append_assoc] at others
              exact others
          | some found =>
              obtain ⟨places, leftmost⟩ :=
                answered.leftmost_of_gather (congrArg Prod.fst gathered)
              rw [settle_applyFrom tried.length rest gathered, notes_applyFrom gathered]
              exact .taken rfl unfit (sublist_kinds_iff.2 ⟨_, _, leftmost.embeds⟩) leftmost

end Trying

end Cases

/-! ### Nodes -/

theorem Token.partValues_answered (token : Token V) (source : List Char)
    (valuation : Valuation V) :
    Cases.Answered (token.partValues valuation)
      (fun index path => (inside? token.children index path).bind valuation.read)
      ⟨source, token⟩ where
  size := (List.length_map _).symm
  answer := by
    intro index
    rw [partValues, List.getElem?_map, inside?]
    cases token.children[index]? with
    | none => rfl
    | some child => rfl

/-- Cases are applied to a node whose inner nodes are told apart by their numbers, wherever the
cursor is and whatever has been evaluated before. The values of the parts decide, as they are known
then or at any later time, also when all of them have been asked for: the first case whose kinds are
a subsequence of theirs gets the leftmost values of these kinds, and nothing but this is noted. -/
theorem Cases.apply_decides {input : Input V} {numbering : Numbering V} {token : Token V}
    (numbered : token.Numbered numbering) (cases : Cases V) (cursor : Nat)
    {valuation later : Valuation V}
    (steps : Relation.ReflTransGen Valuation.Step
      (token.converse input (cases.apply ⟨input.source, token⟩ cursor) valuation).2 later) :
    ∃ notes,
      Decides (token.partValues later) cases
        (token.converse input (cases.apply ⟨input.source, token⟩ cursor) valuation).1.1 notes ∧
      token.Happens input notes valuation
        (token.converse input (cases.apply ⟨input.source, token⟩ cursor) valuation).2 := by
  have plain : (cases.apply ⟨input.source, token⟩ cursor).Plain := plain_apply cases _ cursor
  obtain ⟨result, happens⟩ := numbered.replay plain steps
  have answered := token.partValues_answered input.source later
  have decides := @Answered.applyFrom_decides _ _ _ _ _ cursor answered [] cases nofun
  rw [List.nil_append] at decides
  rw [result]
  exact ⟨_, decides, happens⟩

namespace Offers

def offerSymbol : Symbol := ⟨"OFFER"⟩

def amountSymbol : Symbol := ⟨"AMOUNT"⟩

def digitSymbol : Symbol := ⟨"DIGIT"⟩

def wordSymbol : Symbol := ⟨"WORD"⟩

def flagSymbol : Symbol := ⟨"FLAG"⟩

def readDigit (word : List Char) : Item :=
  .int (if word = ['3'] then 3 else 4)

def readFlag (word : List Char) : Item :=
  .flag (word == ['y', 'e', 's'])

def cases : Cases Item :=
  [ { signature := [ItemKind.flag, ItemKind.flag], transform := fun _ => none },
    { signature := [ItemKind.flag, ItemKind.int], transform := List.getLast? },
    { signature := [ItemKind.text], transform := List.head? }]

def declarations : List (Declaration Item) :=
  [ .blanks [' '],
    .root offerSymbol,
    .terminal digitSymbol [.pattern (.words ["3", "4"]), .value readDigit],
    .terminal wordSymbol [.pattern (.words ["abc"]), .value fun _ => .text "abc"],
    .terminal flagSymbol [.pattern (.words ["yes", "no"]), .value readFlag],
    .rule amountSymbol [.pattern [.symbol digitSymbol], .value (.function (Lookup.valueAt 0))],
    .rule offerSymbol [
      .pattern [.literal "[", .symbol wordSymbol, .symbol flagSymbol, .symbol amountSymbol,
        .symbol amountSymbol, .literal "]"],
      .value (.cases cases)]]

def grammar : Grammar Item where
  blanks := [' ']
  root := offerSymbol
  terminals := [
    ⟨digitSymbol, [⟨.words [['3'], ['4']], some readDigit⟩]⟩,
    ⟨wordSymbol, [⟨.words [['a', 'b', 'c']], some fun _ => .text "abc"⟩]⟩,
    ⟨flagSymbol, [⟨.words [['y', 'e', 's'], ['n', 'o']], some readFlag⟩]⟩]
  aliases := {}
  rules := [
    ⟨amountSymbol, [⟨[.symbol digitSymbol], some (.function (Lookup.valueAt 0)), false⟩]⟩,
    ⟨offerSymbol, [⟨[.literal "[", .symbol wordSymbol, .symbol flagSymbol, .symbol amountSymbol,
      .symbol amountSymbol, .literal "]"], some (.cases cases), false⟩]⟩]

theorem build_eq : Grammar.build Regex.engine declarations = .ok grammar := by
  rfl

def source : List Char := "[abc yes 3 4]".toList

theorem parse_isSome : (grammar.parse source).root.isSome = true := by
  decide +kernel

def offer : Token Item :=
  (grammar.parse source).root.get parse_isSome

theorem offer_numbered : ∃ numbering, offer.Numbered numbering := by
  obtain ⟨-, numbering, numbered⟩ := Grammar.parse_numbered build_eq source
  exact ⟨numbering, numbered offer ⟨offer, .refl, .inl (Option.some_get parse_isSome).symm⟩⟩

def input : Input Item :=
  grammar.on source

def applied : (Option Item × Nat) × Valuation Item :=
  offer.converse input (cases.apply ⟨input.source, offer⟩ 5) {}

end Offers

/-- A flag and the first of two amounts decide, after a second flag has been looked for in vain. -/
theorem offers_decided :
    Cases.kinds (Offers.offer.partValues Offers.applied.2) =
        [ItemKind.text, ItemKind.flag, ItemKind.int, ItemKind.int] ∧
      Offers.applied.1.1.bind Item.int? = some 3 ∧
      ∃ notes, Cases.Decides (Offers.offer.partValues Offers.applied.2) Offers.cases
          Offers.applied.1.1 notes ∧
        Offers.offer.Happens Offers.input notes {} Offers.applied.2 := by
  obtain ⟨numbering, numbered⟩ := Offers.offer_numbered
  refine ⟨by decide +kernel, by decide +kernel, ?_⟩
  unfold Offers.applied
  exact Cases.apply_decides numbered Offers.cases 5 .refl

end Packrat
