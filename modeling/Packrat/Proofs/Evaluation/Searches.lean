import Packrat.Proofs.Evaluation.FirstCase

/-!
Searching with the cursor. Searches of all sorts may follow each other in any order (`Searches`).
Each finds the first part from the cursor on that fits, and leaves the cursor behind it, or finds
none and leaves the cursor where it is; so the parts that are found stand one behind the other
(`Walks`). To search for one kind again and again, from the first part on and until nothing is
found, gives all values of the kind (`Token.Numbered.searches_walk`).
-/

set_option autoImplicit false
set_option linter.unusedSectionVars false

namespace Packrat

variable {V : Type} [Kinded V]

/-- A search from the cursor on: for a value of a kind, for a part with a symbol, or for the value
of a part with a symbol. -/
inductive Search (V : Type) [Kinded V] where
  | ofKind (kind : Kinded.Kind V)
  | of (symbol : Symbol)
  | valueOf (symbol : Symbol)

inductive Finding (V : Type) where
  | value (found : Option V)
  | token (found : Option (Token V))

namespace Search

def lookup : Search V → Lookup V (Finding V)
  | .ofKind kind => return .value (← Lookup.nextOfKind kind)
  | .of symbol => return .token (← Lookup.nextOf symbol)
  | .valueOf symbol => return .value (← Lookup.nextValueOf symbol)

/-- Whether a part is searched for, as far as values are known. -/
def Fits (read : Token V → Option V) : Search V → Token V → Prop
  | .ofKind kind, part => ∃ value, read part = some value ∧ Kinded.kind value = kind
  | .of symbol, part => part.symbol = symbol
  | .valueOf symbol, part => part.symbol = symbol

def finding (read : Token V → Option V) : Search V → Option (Token V) → Finding V
  | .ofKind _, found => .value (found.bind read)
  | .of _, found => .token found
  | .valueOf _, found => .value (found.bind read)

variable (search : Search V) (read : Token V → Option V) (parts : List (Child V)) (cursor : Nat)

structure First (place : Nat) (part : Child V) : Prop where
  behind : cursor ≤ place
  here : parts[place]? = some part
  fits : search.Fits read part.item
  passed : ∀ earlier other, cursor ≤ earlier → earlier < place → parts[earlier]? = some other →
    ¬search.Fits read other.item

def Missing : Prop :=
  ∀ place other, cursor ≤ place → parts[place]? = some other → ¬search.Fits read other.item

end Search

/-- Searches that a value function makes one after the other inside a token, with what each of them
gives and where it leaves the cursor. Between them, whatever else may be evaluated. -/
inductive Searches (input : Input V) (token : Token V) :
    (cursor : Nat) → Valuation V → List (Search V) → List (Finding V × Nat) → Valuation V →
      Prop where
  | done {cursor : Nat} {valuation : Valuation V} :
      Searches input token cursor valuation [] [] valuation
  | next {cursor reached : Nat} {search : Search V} {searches : List (Search V)}
      {finding : Finding V} {outcomes : List (Finding V × Nat)}
      {before between after last : Valuation V} :
      Relation.ReflTransGen Valuation.Step before between →
      token.converse input (search.lookup ⟨input.source, token⟩ cursor) between =
        ((finding, reached), after) →
      Searches input token reached after searches outcomes last →
      Searches input token cursor before (search :: searches) ((finding, reached) :: outcomes) last

/-- What searches come to among some parts: the places of the parts that are found, and for each
search what it gives and where the cursor is then. -/
inductive Walks (read : Token V → Option V) (parts : List (Child V)) :
    (cursor : Nat) → List (Search V) → List (Finding V × Nat) → (places : List Nat) → Prop where
  | done {cursor : Nat} : Walks read parts cursor [] [] []
  | found {cursor place : Nat} {search : Search V} {part : Child V} {searches : List (Search V)}
      {outcomes : List (Finding V × Nat)} {places : List Nat} :
      search.First read parts cursor place part →
      Walks read parts (place + 1) searches outcomes places →
      Walks read parts cursor (search :: searches)
        ((search.finding read (some part.item), place + 1) :: outcomes) (place :: places)
  | missed {cursor : Nat} {search : Search V} {searches : List (Search V)}
      {outcomes : List (Finding V × Nat)} {places : List Nat} :
      search.Missing read parts cursor →
      Walks read parts cursor searches outcomes places →
      Walks read parts cursor (search :: searches)
        ((search.finding read none, cursor) :: outcomes) places

section Order

variable {read : Token V → Option V} {parts : List (Child V)} {cursor : Nat}
  {searches : List (Search V)} {outcomes : List (Finding V × Nat)} {places : List Nat}

theorem Walks.behind (walks : Walks read parts cursor searches outcomes places) :
    ∀ place ∈ places, cursor ≤ place := by
  induction walks with
  | done => exact nofun
  | found first _ ih =>
      refine List.forall_mem_cons.2 ⟨first.behind, fun place member => ?_⟩
      exact Nat.le_trans (Nat.le_succ_of_le first.behind) (ih place member)
  | missed _ _ ih => exact ih

/-- Every part that is found stands behind those that have been found before. -/
theorem Walks.ascending (walks : Walks read parts cursor searches outcomes places) :
    places.Pairwise (· < ·) := by
  induction walks with
  | done => exact .nil
  | found _ onward ih => exact .cons onward.behind ih
  | missed _ _ ih => exact ih

end Order

/-! ### Searches are plain -/

namespace Lookup

theorem plain_nextIndexOf (symbol : Symbol) :
    (nextIndexOf symbol : Lookup V (Option Nat)).Plain := by
  intro scope cursor
  rw [nextIndexOf]
  split
  · exact .done _
  · exact .done _

variable (kind : Kinded.Kind V)

theorem plain_valuesFrom (index count : Nat) (found : List V) :
    (valuesFrom kind index count found).Plain := by
  induction count generalizing index found with
  | zero => exact .done _
  | succ count ih => exact .value fun _ => ih _ _

theorem plain_valuesOfKind : (valuesOfKind kind).Plain :=
  fun _ _ => (plain_valuesFrom kind _ _ _).bind fun _ => .done _

theorem plain_takeOfKind (limit : Nat) (taken : List V) : (takeOfKind kind limit taken).Plain := by
  induction limit generalizing taken with
  | zero => exact .pure _
  | succ limit ih =>
      apply (plain_nextOfKind kind).bind
      rintro (_ | value)
      · exact .pure _
      · exact ih _

theorem plain_reset_allOfKind : (reset >>= fun _ => allOfKind kind : Lookup V (List V)).Plain :=
  (plain_moveTo 0).bind fun _ =>
    Plain.bind (fun _ _ => .done _) fun _ => plain_takeOfKind kind _ _

end Lookup

namespace Search

theorem plain_lookup (search : Search V) : search.lookup.Plain := by
  cases search with
  | ofKind kind => exact (Lookup.plain_nextOfKind kind).bind fun _ => .pure _
  | of symbol =>
      refine Lookup.Plain.bind ((Lookup.plain_nextIndexOf symbol).bind ?_) fun _ => .pure _
      rintro (_ | index)
      · exact .pure _
      · exact fun _ _ => .done _
  | valueOf symbol =>
      refine Lookup.Plain.bind ((Lookup.plain_nextIndexOf symbol).bind ?_) fun _ => .pure _
      rintro (_ | index)
      · exact .pure _
      · exact Lookup.plain_valueAt index

/-! ### One search -/

section Step

variable {read : Token V → Option V} {parts : List (Child V)} {cursor place : Nat}
  {symbol : Symbol}

theorem findSymbol_some (found : Lookup.findSymbol symbol parts cursor = some place) :
    ∃ part, (Search.of symbol).First read parts cursor place part := by
  obtain ⟨further, isFirst, rfl⟩ := Option.map_eq_some_iff.1 found
  obtain ⟨inside, isSymbol, others⟩ := List.findIdx?_eq_some_iff_getElem.1 isFirst
  rw [List.getElem_drop] at isSymbol
  rw [List.length_drop] at inside
  refine ⟨parts[cursor + further], Nat.le_add_right _ _, List.getElem?_eq_getElem (by omega),
    eq_of_beq isSymbol, ?_⟩
  intro earlier other behind before here fits
  obtain ⟨passed, rfl⟩ := Nat.exists_eq_add_of_le behind
  have apart := others passed (by omega)
  obtain ⟨within, isOther⟩ := List.getElem?_eq_some_iff.1 here
  rw [List.getElem_drop, isOther] at apart
  exact apart (beq_iff_eq.2 fits)

theorem findSymbol_none (nothing : Lookup.findSymbol symbol parts cursor = none) :
    (Search.of symbol).Missing read parts cursor := by
  intro place other behind here fits
  rw [Lookup.findSymbol, Option.map_eq_none_iff, List.findIdx?_eq_none_iff] at nothing
  have member : other ∈ parts.drop cursor := by
    refine List.mem_of_getElem? (i := place - cursor) ?_
    rw [List.getElem?_drop, ← here]
    congr 1
    omega
  have apart := nothing other member
  rw [beq_iff_eq.2 fits] at apart
  cases apart

end Step

section Settling

variable {token : Token V} {source : List Char} {valuation : Valuation V} {cursor : Nat}

theorem partValues_eq_some {place : Nat} {value : V} :
    (token.partValues valuation)[place]? = some (some value) ↔
      ∃ part, token.children[place]? = some part ∧ valuation.read part.item = some value := by
  rw [Token.partValues, List.getElem?_map, Option.map_eq_some_iff]

variable (token source valuation cursor)

/-- What a search for a kind does, once all values are known that it has asked for. -/
theorem settle_nextOfKind_cases (kind : Kinded.Kind V) :
    (∃ place part value,
      (Search.ofKind kind).First valuation.read token.children cursor place part ∧
      valuation.read part.item = some value ∧
      (Lookup.nextOfKind kind ⟨source, token⟩ cursor).settle (token.known valuation) =
        (some value, place + 1)) ∨
    (Search.ofKind kind).Missing valuation.read token.children cursor ∧
      (Lookup.nextOfKind kind ⟨source, token⟩ cursor).settle (token.known valuation) =
        (none, cursor) := by
  have answered := token.partValues_answered source valuation
  cases asked : (Lookup.nextOfKind kind ⟨source, token⟩ cursor).settle (token.known valuation) with
  | mk answer after =>
      cases answer with
      | none =>
          have stays : after = cursor := by
            rw [Lookup.settle_nextOfKind] at asked
            split at asked
            · cases asked
            · exact (congrArg Prod.snd asked).symm
          refine .inr ⟨?_, by rw [stays]⟩
          rintro place other behind here ⟨value, isValue, isKind⟩
          exact answered.nextOfKind_none asked behind
            (partValues_eq_some.2 ⟨other, here, isValue⟩) isKind
      | some value =>
          obtain ⟨place, rfl, behind, isHere, isKind, least⟩ := answered.nextOfKind_some asked
          obtain ⟨part, here, isValue⟩ := partValues_eq_some.1 isHere
          refine .inl ⟨place, part, value, ⟨behind, here, ⟨value, isValue, isKind⟩, ?_⟩, isValue,
            rfl⟩
          rintro earlier other before lower isOther ⟨another, isAnother, sameKind⟩
          have late := least earlier another before
            (partValues_eq_some.2 ⟨other, isOther, isAnother⟩) sameKind
          omega

theorem settle_nextIndexOf_cases (symbol : Symbol) :
    (∃ place part, (Search.of symbol).First valuation.read token.children cursor place part ∧
      (Lookup.nextIndexOf symbol ⟨source, token⟩ cursor).settle (token.known valuation) =
        (some place, place + 1)) ∨
    (Search.of symbol).Missing valuation.read token.children cursor ∧
      (Lookup.nextIndexOf symbol ⟨source, token⟩ cursor).settle (token.known valuation) =
        (none, cursor) := by
  rw [Lookup.nextIndexOf]
  cases found : Lookup.findSymbol symbol token.children cursor with
  | none => exact .inr ⟨findSymbol_none found, by simp only [Scope.children, found]; rfl⟩
  | some place =>
      obtain ⟨part, first⟩ := findSymbol_some found
      exact .inl ⟨place, part, first, by simp only [Scope.children, found]; rfl⟩

/-- A search finds the first part that fits and leaves the cursor behind it, or none fits and the
cursor stays. -/
theorem settle_lookup_cases (search : Search V) :
    (∃ place part, search.First valuation.read token.children cursor place part ∧
      (search.lookup ⟨source, token⟩ cursor).settle (token.known valuation) =
        (search.finding valuation.read (some part.item), place + 1)) ∨
    search.Missing valuation.read token.children cursor ∧
      (search.lookup ⟨source, token⟩ cursor).settle (token.known valuation) =
        (search.finding valuation.read none, cursor) := by
  cases search with
  | ofKind kind =>
      rw [lookup, Lookup.settle_bind]
      rcases settle_nextOfKind_cases token source valuation cursor kind with
        ⟨place, part, value, first, isValue, found⟩ | ⟨missing, found⟩
      · refine .inl ⟨place, part, first, ?_⟩
        rw [found, finding, Option.bind_some, isValue]
        rfl
      · refine .inr ⟨missing, ?_⟩
        rw [found]
        rfl
  | of symbol =>
      rw [lookup, Lookup.settle_bind, Lookup.nextOf, Lookup.settle_bind]
      rcases settle_nextIndexOf_cases token source valuation cursor symbol with
        ⟨place, part, first, found⟩ | ⟨missing, found⟩
      · refine .inl ⟨place, part, first, ?_⟩
        rw [found]
        change (Finding.token (token.children[place]?.map Labelled.item), place + 1) = _
        rw [first.here]
        rfl
      · refine .inr ⟨missing, ?_⟩
        rw [found]
        rfl
  | valueOf symbol =>
      rw [lookup, Lookup.settle_bind, Lookup.nextValueOf, Lookup.settle_bind]
      rcases settle_nextIndexOf_cases token source valuation cursor symbol with
        ⟨place, part, first, found⟩ | ⟨missing, found⟩
      · refine .inl ⟨place, part, ⟨first.behind, first.here, first.fits, first.passed⟩, ?_⟩
        rw [found]
        change (Finding.value (token.known valuation place []), place + 1) = _
        rw [Token.known, Token.inside?, first.here]
        rfl
      · refine .inr ⟨missing, ?_⟩
        rw [found]
        rfl

end Settling

end Search

/-! ### Searches one after the other -/

/-- Makes searches one after the other, and tells what each of them gives and where it leaves the
cursor. -/
def Search.lookupAll : List (Search V) → Lookup V (List (Finding V × Nat))
  | [] => pure []
  | search :: searches => do
    let finding ← search.lookup
    let reached ← Lookup.cursor
    return (finding, reached) :: (← lookupAll searches)

/-- A value function can make any searches. -/
theorem Search.searches_lookupAll (input : Input V) (token : Token V) (searches : List (Search V))
    (cursor : Nat) (valuation : Valuation V) :
    Searches input token cursor valuation searches
      (token.converse input (lookupAll searches ⟨input.source, token⟩ cursor) valuation).1.1
      (token.converse input (lookupAll searches ⟨input.source, token⟩ cursor) valuation).2 := by
  induction searches generalizing cursor valuation with
  | nil => exact .done
  | cons search searches ih =>
      rw [lookupAll, Token.converse_bind, Token.converse_bind, Token.converse_bind]
      exact .next .refl rfl (ih _ _)

section Running

variable {input : Input V} {numbering : Numbering V} {token : Token V} {cursor : Nat}
  {before last later : Valuation V} {searches : List (Search V)}
  {outcomes : List (Finding V × Nat)}

theorem Searches.steps (numbered : token.Numbered numbering)
    (made : Searches input token cursor before searches outcomes last) :
    Relation.ReflTransGen Valuation.Step before last := by
  induction made with
  | done => exact .refl
  | @next cursor _ search _ _ _ _ between _ _ steps called _ ih =>
      have during : Relation.ReflTransGen Valuation.Step between
          (token.converse input (search.lookup ⟨input.source, token⟩ cursor) between).2 :=
        numbered.converse_steps _ between
      rw [called] at during
      exact (steps.trans during).trans ih

/-- Searches walk over the parts, by the values that are known in the end or at any later time. -/
theorem Searches.walks (numbered : token.Numbered numbering)
    (made : Searches input token cursor before searches outcomes last)
    (steps : Relation.ReflTransGen Valuation.Step last later) :
    ∃ places, Walks later.read token.children cursor searches outcomes places := by
  induction made with
  | done => exact ⟨[], .done⟩
  | @next cursor reached search _ finding _ _ between after _ _ called onward ih =>
      obtain ⟨places, walks⟩ := ih steps
      have settled := numbered.settle_converse (search.plain_lookup _ cursor) called
        ((onward.steps numbered).trans steps)
      rcases search.settle_lookup_cases token input.source later cursor with
        ⟨place, part, first, found⟩ | ⟨missing, found⟩
      · obtain ⟨rfl, rfl⟩ := Prod.mk.inj (settled.trans found)
        exact ⟨place :: places, .found first walks⟩
      · obtain ⟨rfl, rfl⟩ := Prod.mk.inj (settled.trans found)
        exact ⟨places, .missed missing walks⟩

end Running

/-! ### All values of a kind -/

def Token.ofKind (read : Token V → Option V) (kind : Kinded.Kind V) (parts : List (Child V)) :
    List V :=
  parts.filterMap fun part => (read part.item).filter fun value => Kinded.kind value = kind

section Kinds

variable {read : Token V → Option V} {kind : Kinded.Kind V} {parts : List (Child V)}
  {cursor place : Nat} {part : Child V} {value : V}

theorem Search.filter_of_not_fits (unfit : ¬(Search.ofKind kind).Fits read part.item) :
    ((read part.item).filter fun value => Kinded.kind value = kind) = none := by
  cases isValue : read part.item with
  | none => rfl
  | some value =>
      refine Option.filter_some_neg ?_
      simpa using fun isKind => unfit ⟨value, isValue, isKind⟩

theorem Search.Missing.ofKind (missing : (Search.ofKind kind).Missing read parts cursor) :
    Token.ofKind read kind (parts.drop cursor) = [] := by
  rw [Token.ofKind, List.filterMap_eq_nil_iff]
  intro other member
  obtain ⟨further, here⟩ := List.getElem?_of_mem member
  rw [List.getElem?_drop] at here
  exact filter_of_not_fits (missing _ other (Nat.le_add_right _ _) here)

theorem Search.First.ofKind (first : (Search.ofKind kind).First read parts cursor place part)
    (isValue : read part.item = some value) :
    Token.ofKind read kind (parts.drop cursor) =
      value :: Token.ofKind read kind (parts.drop (place + 1)) := by
  obtain ⟨further, rfl⟩ := Nat.exists_eq_add_of_le first.behind
  obtain ⟨inside, isPart⟩ := List.getElem?_eq_some_iff.1 first.here
  have split : parts.drop cursor =
      (parts.drop cursor).take further ++ part :: parts.drop (cursor + further + 1) := by
    rw [← isPart, ← List.drop_eq_getElem_cons inside, ← List.drop_drop, List.take_append_drop]
  have nothing : Token.ofKind read kind ((parts.drop cursor).take further) = [] := by
    rw [Token.ofKind, List.filterMap_eq_nil_iff]
    intro other member
    obtain ⟨index, here⟩ := List.getElem?_of_mem member
    rw [List.getElem?_take, List.getElem?_drop] at here
    split at here
    · exact filter_of_not_fits
        (first.passed (cursor + index) other (Nat.le_add_right _ _) (by omega) here)
    · cases here
  have isKind : Kinded.kind value = kind := by
    obtain ⟨other, isOther, isKind⟩ := first.fits
    cases isValue.symm.trans isOther
    exact isKind
  rw [split, Token.ofKind, List.filterMap_append, ← Token.ofKind, nothing, List.nil_append,
    List.filterMap_cons_some (b := value), ← Token.ofKind]
  rw [isValue]
  exact Option.filter_some_pos (by simpa using isKind)

/-- Searching for a kind until nothing is found gives the values of the kind from the cursor on. -/
theorem Walks.ofKind {count : Nat} {outcomes : List (Finding V × Nat)} {places : List Nat}
    (walks : Walks read parts cursor (List.replicate (count + 1) (.ofKind kind)) outcomes places)
    (size : (Token.ofKind read kind (parts.drop cursor)).length = count) :
    outcomes.map Prod.fst =
      (Token.ofKind read kind (parts.drop cursor)).map (Finding.value ∘ some) ++ [.value none] := by
  induction count generalizing cursor outcomes places with
  | zero =>
      cases walks with
      | found first _ =>
          obtain ⟨value, isValue, -⟩ := first.fits
          rw [first.ofKind isValue] at size
          cases size
      | missed missing onward =>
          cases onward
          rw [missing.ofKind]
          rfl
  | succ count ih =>
      rw [List.replicate_succ] at walks
      cases walks with
      | found first onward =>
          obtain ⟨value, isValue, -⟩ := first.fits
          rw [first.ofKind isValue] at size ⊢
          rw [List.map_cons, ih onward (Nat.succ.inj size), Search.finding, Option.bind_some,
            isValue]
          rfl
      | missed missing _ =>
          rw [missing.ofKind] at size
          cases size

end Kinds

namespace Lookup

section Settling

variable (token : Token V) (source : List Char) (valuation : Valuation V) (cursor : Nat)
  (kind : Kinded.Kind V)

theorem settle_valuesFrom {before rest : List (Child V)} (split : token.children = before ++ rest)
    (found : List V) :
    (valuesFrom kind before.length rest.length found).settle (token.known valuation) =
      found.reverse ++ Token.ofKind valuation.read kind rest := by
  induction rest generalizing before found with
  | nil => exact (List.append_nil _).symm
  | cons part rest ih =>
      have here : token.known valuation before.length [] = valuation.read part.item := by
        rw [Token.known, Token.inside?, split, List.getElem?_append_right (Nat.le_refl _),
          Nat.sub_self]
        rfl
      have onward := @ih (before ++ [part]) (by rw [split, List.append_assoc]; rfl)
      rw [List.length_append, List.length_singleton] at onward
      rw [List.length_cons, valuesFrom, Query.settle, here, onward, Token.ofKind, Token.ofKind,
        List.reverse_append, List.append_assoc, List.filterMap_cons]
      cases (valuation.read part.item).filter fun value => Kinded.kind value = kind with
      | none => rfl
      | some value => rfl

theorem settle_valuesOfKind :
    (valuesOfKind kind ⟨source, token⟩ cursor).settle (token.known valuation) =
      (Token.ofKind valuation.read kind token.children, cursor) := by
  rw [valuesOfKind, Query.settle_bind]
  exact congrArg (·, cursor) (settle_valuesFrom token valuation kind (List.nil_append _).symm [])

theorem settle_takeOfKind {limit : Nat} (taken : List V)
    (enough : (Token.ofKind valuation.read kind (token.children.drop cursor)).length < limit) :
    ((takeOfKind kind limit taken ⟨source, token⟩ cursor).settle (token.known valuation)).1 =
      taken.reverse ++ Token.ofKind valuation.read kind (token.children.drop cursor) := by
  induction limit generalizing cursor taken with
  | zero => exact absurd enough (Nat.not_lt_zero _)
  | succ limit ih =>
      rw [takeOfKind, settle_bind]
      rcases Search.settle_nextOfKind_cases token source valuation cursor kind with
        ⟨place, part, value, first, isValue, found⟩ | ⟨missing, found⟩
      · rw [first.ofKind isValue] at enough ⊢
        rw [found]
        have onward := ih (place + 1) (value :: taken) (Nat.lt_of_succ_lt_succ enough)
        rw [List.reverse_cons, List.append_assoc] at onward
        exact onward
      · rw [found, missing.ofKind, List.append_nil]
        rfl

theorem settle_reset_allOfKind :
    (((reset >>= fun _ => allOfKind kind : Lookup V (List V)) ⟨source, token⟩ cursor).settle
      (token.known valuation)).1 = Token.ofKind valuation.read kind token.children := by
  rw [settle_bind, allOfKind, settle_bind]
  change ((takeOfKind kind (token.children.length + 1) [] ⟨source, token⟩ 0).settle _).1 = _
  have few : (Token.ofKind valuation.read kind token.children).length ≤ token.children.length :=
    List.length_filterMap_le ..
  exact settle_takeOfKind token source valuation 0 kind [] (Nat.lt_succ_of_le few)

end Settling

end Lookup

/-! ### What searches come to -/

/-- A value function searches inside a node whose inner nodes are told apart by their numbers. The
parts that its searches find stand one behind the other. Each is the first that fits from the cursor
on, and the cursor moves behind it; it stays where nothing is found. All values of a kind are what
as many searches for the kind give from the first part on, and one more gives nothing; so they are
what is found behind a reset until nothing is found. -/
theorem Token.Numbered.searches_walk {input : Input V} {numbering : Numbering V} {token : Token V}
    (numbered : token.Numbered numbering) :
    (∀ cursor before searches outcomes last later,
      Searches input token cursor before searches outcomes last →
      Relation.ReflTransGen Valuation.Step last later →
      ∃ places, Walks later.read token.children cursor searches outcomes places ∧
        places.Pairwise (· < ·)) ∧
    ∀ kind cursor before values reached after later,
      token.converse input (Lookup.valuesOfKind kind ⟨input.source, token⟩ cursor) before =
        ((values, reached), after) →
      Relation.ReflTransGen Valuation.Step after later →
      reached = cursor ∧
      (∀ start outcomes last,
        Searches input token 0 start (List.replicate (values.length + 1) (.ofKind kind)) outcomes
          last →
        Relation.ReflTransGen Valuation.Step last later →
        outcomes.map Prod.fst = values.map (Finding.value ∘ some) ++ [.value none]) ∧
      ∀ cursor start taken last,
        token.converse input
          ((do Lookup.reset; Lookup.allOfKind kind : Lookup V (List V)) ⟨input.source, token⟩
            cursor) start = (taken, last) →
        Relation.ReflTransGen Valuation.Step last later →
        taken.1 = values := by
  refine ⟨?_, ?_⟩
  · intro cursor before searches outcomes last later made steps
    obtain ⟨places, walks⟩ := made.walks numbered steps
    exact ⟨places, walks, walks.ascending⟩
  · intro kind cursor before values reached after later asked steps
    have asked' := numbered.settle_converse (Lookup.plain_valuesOfKind kind _ cursor) asked steps
    rw [Lookup.settle_valuesOfKind] at asked'
    obtain ⟨rfl, rfl⟩ := Prod.mk.inj asked'
    refine ⟨rfl, ?_, ?_⟩
    · intro start outcomes last made steps'
      obtain ⟨places, walks⟩ := made.walks numbered steps'
      exact walks.ofKind rfl
    · intro cursor' start taken last called steps'
      rw [numbered.settle_converse (Lookup.plain_reset_allOfKind kind _ cursor') called steps']
      exact Lookup.settle_reset_allOfKind token input.source later cursor' kind

namespace Offers

/-- For an amount, for a flag in vain, for the value of an amount, for the value of a literal, which
has none, and for a word in vain. -/
def searches : List (Search Item) :=
  [.ofKind ItemKind.int, .of flagSymbol, .valueOf amountSymbol, .valueOf .unknown, .of wordSymbol]

def searched : (List (Finding Item × Nat) × Nat) × Valuation Item :=
  offer.converse input (Search.lookupAll searches ⟨input.source, offer⟩ 0) {}

def amounts : (List Item × Nat) × Valuation Item :=
  offer.converse input (Lookup.valuesOfKind ItemKind.int ⟨input.source, offer⟩ 5) {}

def again : (List (Finding Item × Nat) × Nat) × Valuation Item :=
  offer.converse input
    (Search.lookupAll (List.replicate (amounts.1.1.length + 1) (.ofKind ItemKind.int))
      ⟨input.source, offer⟩ 0) amounts.2

end Offers

/-- Both amounts and the last bracket are found. The amounts are all values of their kind, whichever
way they are asked for. -/
theorem offers_searched :
    Offers.searched.1.1.map Prod.snd = [4, 4, 5, 6, 6] ∧
      (∃ places, Walks Offers.searched.2.read Offers.offer.children 0 Offers.searches
        Offers.searched.1.1 places ∧ places.Pairwise (· < ·)) ∧
      Offers.amounts.1.1.map Item.int? = [some 3, some 4] ∧
      Offers.again.1.1.map Prod.fst =
        Offers.amounts.1.1.map (Finding.value ∘ some) ++ [.value none] := by
  obtain ⟨numbering, numbered⟩ := Offers.offer_numbered
  have made : Searches Offers.input Offers.offer 0 {} Offers.searches Offers.searched.1.1
      Offers.searched.2 := by
    unfold Offers.searched
    exact Search.searches_lookupAll ..
  have again : Searches Offers.input Offers.offer 0 Offers.amounts.2
      (List.replicate (Offers.amounts.1.1.length + 1) (.ofKind ItemKind.int)) Offers.again.1.1
      Offers.again.2 := by
    unfold Offers.again
    exact Search.searches_lookupAll ..
  have asked : Offers.offer.converse Offers.input
      (Lookup.valuesOfKind ItemKind.int ⟨Offers.input.source, Offers.offer⟩ 5) {} =
        ((Offers.amounts.1.1, Offers.amounts.1.2), Offers.amounts.2) := by
    rw [← Offers.amounts]
  obtain ⟨ordered, ofKind⟩ := numbered.searches_walk
  obtain ⟨-, all, -⟩ := ofKind _ _ _ _ _ _ Offers.again.2 asked (again.steps numbered)
  exact ⟨by decide +kernel, ordered _ _ _ _ _ _ made .refl, by decide +kernel,
    all _ _ _ again .refl⟩

end Packrat
