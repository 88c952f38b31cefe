import Packrat.Proofs.Regex.Backtrack
import Packrat.Proofs.Scan.Longest
import Packrat.Regex.Engine

/-!
Languages of the addresses of a program. An address recognizes a language if going back from there
takes the longest beginning of every text that belongs to the language (`Recognizes`). Addresses
are dealt with from the end of a program to its beginning, one lemma for each kind of step and one
for runs of characters; where a fork leads to two languages, their texts begin with different
characters, so the preferred way is also the longer one.
-/

set_option autoImplicit false

namespace Packrat

open Lang

/-- From an address on, so many bytes of a text are taken, wherever the text stands. -/
def Takes (steps : Array Step) (address : Nat) (text : List Char) (length : Option Nat) : Prop :=
  ∀ offset before, ∃ depth found,
    Backtracks steps address ⟨offset, before, text⟩ depth found ∧
      found.map Spot.offset = length.map (offset + ·)

namespace Takes

variable {steps : Array Step} {address first other : Nat} {text tail : List Char} {set : CharSet}
  {c : Char} {length length' : Option Nat}

theorem accept (isAccept : steps[address]? = some .accept) : Takes steps address text (some 0) :=
  fun offset before => ⟨0, some ⟨offset, before, text⟩, .accepted isAccept, rfl⟩

theorem one (isOne : steps[address]? = some (.one set)) (member : set.mem c = true)
    (behind : Takes steps (address + 1) tail length) :
    Takes steps address (c :: tail) (length.map (c.utf8Size + ·)) := by
  intro offset before
  obtain ⟨depth, found, backtracks, ends⟩ := behind (offset + c.utf8Size) (some c)
  refine ⟨0, found, .consumed isOne member backtracks, ?_⟩
  rw [ends, Option.map_map]
  congr 1
  funext bytes
  exact Nat.add_assoc _ _ _

theorem refuse (isOne : steps[address]? = some (.one set))
    (refuses : ∀ c tail, text = c :: tail → set.mem c = false) :
    Takes steps address text none :=
  fun _ _ => ⟨0, none, .refused isOne refuses, rfl⟩

theorem jump (isJump : steps[address]? = some (.jump other))
    (behind : Takes steps other text length) : Takes steps address text length := by
  intro offset before
  obtain ⟨depth, found, backtracks, ends⟩ := behind offset before
  exact ⟨depth + 1, found, .jumped isJump backtracks, ends⟩

theorem fork (isFork : steps[address]? = some (.fork first other))
    (preferred : Takes steps first text length)
    (otherwise : length = none → Takes steps other text length') :
    Takes steps address text (length.or length') := by
  intro offset before
  obtain ⟨depth, found, backtracks, ends⟩ := preferred offset before
  cases length with
  | some bytes =>
      obtain ⟨stop, rfl, -⟩ := Option.map_eq_some_iff.1 ends
      exact ⟨depth + 1, some stop, .preferred isFork backtracks, ends⟩
  | none =>
      cases Option.map_eq_none_iff.1 ends
      obtain ⟨depth', found', backtracks', ends'⟩ := otherwise rfl offset before
      exact ⟨max depth depth' + 1, found', .otherwise isFork backtracks backtracks', ends'⟩

end Takes

/-- From an address on, the longest beginning in a language is taken. -/
def Recognizes (steps : Array Step) (address : Nat) (language : Lang) : Prop :=
  ∀ text, ∃ length, Longest language text length ∧ Takes steps address text length

namespace Recognizes

variable {steps : Array Step} {address first other : Nat} {set : CharSet}
  {language rest behind : Lang}

theorem accept (isAccept : steps[address]? = some .accept) : Recognizes steps address bare :=
  fun _ => ⟨some 0, .bare, .accept isAccept⟩

theorem one (isOne : steps[address]? = some (.one set))
    (recognizes : Recognizes steps (address + 1) rest) :
    Recognizes steps address (Lang.one set rest) := by
  intro text
  cases text with
  | nil => exact ⟨none, .one_refused nofun, .refuse isOne nofun⟩
  | cons c tail =>
      by_cases member : set.mem c = true
      · obtain ⟨length, longest, takes⟩ := recognizes tail
        exact ⟨_, longest.one member, .one isOne member takes⟩
      · have refuses : ∀ d others, c :: tail = d :: others → set.mem d = false := by
          rintro d others ⟨⟩
          exact eq_false_of_ne_true member
        exact ⟨none, .one_refused refuses, .refuse isOne refuses⟩

theorem jump (isJump : steps[address]? = some (.jump other))
    (recognizes : Recognizes steps other language) : Recognizes steps address language := by
  intro text
  obtain ⟨length, longest, takes⟩ := recognizes text
  exact ⟨length, longest, .jump isJump takes⟩

theorem fork (isFork : steps[address]? = some (.fork first other))
    (preferred : Recognizes steps first (Lang.one set rest))
    (otherwise : Recognizes steps other language) (avoids : language.Avoids set) :
    Recognizes steps address (either (Lang.one set rest) language) := by
  intro text
  obtain ⟨length, longest, takes⟩ := preferred text
  obtain ⟨length', longest', takes'⟩ := otherwise text
  exact ⟨_, longest.either_apart (fun _ => longest') avoids, .fork isFork takes fun _ => takes'⟩

/-- A fork between one more character, from which the way leads back to the fork, and what follows
the run. -/
theorem many (isFork : steps[address]? = some (.fork first other))
    (isOne : steps[first]? = some (.one set))
    (back : ∀ text length, Takes steps address text length → Takes steps (first + 1) text length)
    (otherwise : Recognizes steps other rest) (avoids : rest.Avoids set) :
    Recognizes steps address (Lang.many set rest) := by
  intro text
  induction text with
  | nil =>
      obtain ⟨length, longest, takes⟩ := otherwise []
      exact ⟨_, .many (.one_refused nofun) (fun _ => longest) avoids,
        .fork isFork (.refuse isOne nofun) fun _ => takes⟩
  | cons c tail ih =>
      obtain ⟨length', longest', takes'⟩ := otherwise (c :: tail)
      by_cases member : set.mem c = true
      · obtain ⟨length, longest, takes⟩ := ih
        exact ⟨_, .many (longest.one member) (fun _ => longest') avoids,
          .fork isFork (.one isOne member (back tail length takes)) fun _ => takes'⟩
      · have refuses : ∀ d others, c :: tail = d :: others → set.mem d = false := by
          rintro d others ⟨⟩
          exact eq_false_of_ne_true member
        exact ⟨_, .many (.one_refused refuses) (fun _ => longest') avoids,
          .fork isFork (.refuse isOne refuses) fun _ => takes'⟩

theorem some_ (isOne : steps[first]? = some (.one set))
    (isFork : steps[first + 1]? = some (.fork first other))
    (otherwise : Recognizes steps other rest) (avoids : rest.Avoids set) :
    Recognizes steps first (Lang.one set (Lang.many set rest)) :=
  .one isOne (.many isFork isOne (fun _ _ takes => takes) otherwise avoids)

theorem any (isFork : steps[address]? = some (.fork first other))
    (isOne : steps[first]? = some (.one set)) (isJump : steps[first + 1]? = some (.jump address))
    (otherwise : Recognizes steps other rest) (avoids : rest.Avoids set) :
    Recognizes steps address (Lang.many set rest) :=
  .many isFork isOne (fun _ _ takes => .jump isJump takes) otherwise avoids

theorem scanPattern (isStart : steps[0]? = some (.check .textStart))
    (recognizes : Recognizes steps 1 language) (text : List Char) :
    Longest language text (Scanner.scanPattern (Searcher.mk steps true).pattern text) := by
  obtain ⟨length, longest, takes⟩ := recognizes text
  obtain ⟨depth, found, backtracks, ends⟩ := takes 0 none
  have scans : Scanner.scanPattern (Searcher.mk steps true).pattern text = length := by
    rw [Scanner.scanPattern, Searcher.pattern_find?,
      Searcher.find?_eq (.passed isStart rfl backtracks), Option.map_map, Option.map_map]
    change found.map Spot.offset = length
    rw [ends]
    simp
  rw [scans]
  exact longest

end Recognizes

end Packrat
