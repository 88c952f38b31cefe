import Packrat.Proofs.Regex.Firm
import Packrat.Regex.Program
import Packrat.Scanner

/-!
Patterns inside a group. A step of the reader does not depend on what stands behind it, unless that
is a question mark, nor on the groups around those that are open (`Reader.step?_nests`). So a
pattern that is well formed by itself is read inside a group as it is read alone, and ties to the
start of the text as a whole (`read?_enclosed`).
-/

set_option autoImplicit false

namespace Packrat.Regex

namespace Reader

def within (reader : Reader) (around : List (Settings × Group)) : Reader :=
  { reader with outer := reader.outer ++ around }

/-- Whether what is read depends neither on what stands behind it, unless it is a question mark, nor
on the groups around those that are open. -/
def Nests (read : Reader → List Char → Option (Reader × List Char)) : Prop :=
  ∀ {reader reader' cs rest}, read reader cs = some (reader', rest) →
    ∀ around more, more.head? ≠ some '?' →
      read (reader.within around) (cs ++ more) = some (reader'.within around, rest ++ more)

theorem readName?_nests : Nests readName? := by
  intro reader reader' cs rest done around more _
  unfold readName? at done ⊢
  dsimp only at done ⊢
  cases stops : cs.dropWhile (· != '>') with
  | nil =>
      rw [stops] at done
      cases done
  | cons c behind =>
      obtain ⟨taken, dropped⟩ := stops_append stops more
      rw [stops] at done
      rw [taken, dropped]
      dsimp only at done ⊢
      split at done
      · next accepted =>
          cases done
          exact if_pos accepted
      · cases done

theorem readSettings?_nests : Nests readSettings? := by
  intro reader reader' cs rest done around more _
  obtain ⟨settings, applied, further⟩ := Option.bind_eq_some_iff.1 done
  unfold readSettings?
  dsimp only at further ⊢
  cases stops : cs.dropWhile (fun c => !(c == ':' || c == ')')) with
  | nil =>
      rw [stops] at further
      cases further
  | cons c behind =>
      obtain ⟨taken, dropped⟩ := stops_append stops more
      rw [stops] at further
      rw [taken, dropped]
      have applied' : applySettings? (reader.within around).settings []
          (cs.takeWhile fun c => !(c == ':' || c == ')')) = some settings := applied
      rw [applied']
      split at further
      · next same =>
          cases same
          cases further
          rfl
      · next same =>
          cases same
          split at further
          · cases further
          · next present =>
              cases further
              exact if_neg present
      · cases further

theorem readOpening?_nests : Nests readOpening? := by
  intro reader reader' cs rest done around more noMark
  unfold readOpening? at done
  split at done
  · cases done
  · cases done
  · cases done
  · cases done
  · exact readName?_nests done around more noMark
  · next others noEqual noMark' =>
      have further := readName?_nests done around more noMark
      cases others with
      | nil => cases done
      | cons c others =>
          rw [List.cons_append, List.cons_append, readOpening?]
          · exact further
          all_goals
            rintro _ ⟨⟩
            first
            | exact noEqual _ rfl
            | exact noMark' _ rfl
  · next others noEqual noMark' noBehind noBehind' noName noAngle =>
      have further := readSettings?_nests done around more noMark
      rcases others with _ | ⟨c, _ | ⟨d, others⟩⟩
      · cases done
      · rw [List.cons_append, readOpening?]
        · exact further
        · rintro _ ⟨⟩; exact noEqual _ rfl
        · rintro _ ⟨⟩; exact noMark' _ rfl
        · rintro _ ⟨⟩; exact noAngle _ rfl
        · rintro _ ⟨⟩; exact noAngle _ rfl
        · rintro _ ⟨⟩; cases done
        · rintro _ ⟨⟩; exact noAngle _ rfl
      · rw [List.cons_append, readOpening?]
        · exact further
        all_goals
          rintro _ ⟨⟩
          first
          | exact noEqual _ rfl
          | exact noMark' _ rfl
          | exact noAngle _ rfl
          | exact noName _ rfl
  · next plain =>
      cases done
      have unmarked : ∀ others, cs ++ more ≠ '?' :: others := by
        intro others same
        cases cs with
        | nil => exact noMark (congrArg List.head? same)
        | cons c cs =>
            cases same
            exact plain _ rfl
      rw [readOpening?]
      · rfl
      all_goals exact fun _ same => unmarked _ same

def repeatAs? (reader : Reader) (min : Nat) (max : Option Nat) (isLazy : Bool) : Option Reader :=
  match reader.group.items, reader.group.repeatable with
  | item :: items, true =>
    some { reader with
      group := { reader.group with
        items := ⟨item.regex.repeated min max (isLazy == reader.settings.lazyFirst),
          item.height + 1⟩ :: items } }
  | _, _ => none

theorem repeatLast?_marked (reader : Reader) (min : Nat) (max : Option Nat) (cs : List Char) :
    repeatLast? reader min max ('?' :: cs) =
      (repeatAs? reader min max true).map fun reader => (reader, cs) := by
  rcases reader with ⟨settings, ⟨index, branches, items, repeatable⟩, outer, names, captures⟩
  cases items <;> cases repeatable <;> rfl

theorem repeatLast?_unmarked {cs : List Char} (unmarked : cs.head? ≠ some '?') (reader : Reader)
    (min : Nat) (max : Option Nat) :
    repeatLast? reader min max cs =
      (repeatAs? reader min max false).map fun reader => (reader, cs) := by
  rcases reader with ⟨settings, ⟨index, branches, items, repeatable⟩, outer, names, captures⟩
  unfold repeatLast?
  split
  next same =>
    split at same
    · exact absurd rfl unmarked
    · cases same
      cases items <;> cases repeatable <;> rfl

theorem repeatLast?_nests (min : Nat) (max : Option Nat) :
    Nests fun reader cs => repeatLast? reader min max cs := by
  intro reader reader' cs rest done around more noMark
  have repeats {isLazy : Bool} {reader' : Reader}
      (done : repeatAs? reader min max isLazy = some reader') :
      repeatAs? (reader.within around) min max isLazy = some (reader'.within around) := by
    unfold repeatAs? at done ⊢
    split at done
    · next isItems isRepeatable =>
        cases done
        simp only [within, isItems, isRepeatable]
    · cases done
  by_cases marked : ∃ others, cs = '?' :: others
  · obtain ⟨others, rfl⟩ := marked
    dsimp only at done ⊢
    rw [repeatLast?_marked] at done
    obtain ⟨next, isNext, same⟩ := Option.map_eq_some_iff.1 done
    cases same
    rw [List.cons_append, repeatLast?_marked, repeats isNext]
    rfl
  · have unmarked : cs.head? ≠ some '?' := by
      cases cs with
      | nil => exact nofun
      | cons c cs =>
          rintro ⟨⟩
          exact marked ⟨_, rfl⟩
    have unmarked' : (cs ++ more).head? ≠ some '?' := by
      cases cs with
      | nil => exact noMark
      | cons c cs => exact unmarked
    dsimp only at done ⊢
    rw [repeatLast?_unmarked unmarked] at done
    obtain ⟨next, isNext, same⟩ := Option.map_eq_some_iff.1 done
    cases same
    rw [repeatLast?_unmarked unmarked', repeats isNext]
    rfl

theorem closeGroup?_within {reader closed : Reader} (done : reader.closeGroup? = some closed)
    (around : List (Settings × Group)) :
    (reader.within around).closeGroup? = some (closed.within around) := by
  unfold closeGroup? at done
  split at done
  · cases done
  · next isOuter =>
      cases done
      simp only [closeGroup?, within, isOuter, List.cons_append]

theorem step?_nests : Nests step? := by
  intro reader reader' cs rest done around more noMark
  unfold step? at done
  split at done
  · cases done
  · exact readOpening?_nests done around more noMark
  · obtain ⟨closed, isClosed, same⟩ := Option.map_eq_some_iff.1 done
    cases same
    rw [List.cons_append, step?, closeGroup?_within isClosed]
    rfl
  · cases done; rfl
  · obtain ⟨⟨listed, behind⟩, isListed, same⟩ := Option.bind_eq_some_iff.1 done
    cases same
    have isListed' : Bracket.read? (reader.within around).settings.ignoreCase (_ ++ more) = _ :=
      Bracket.read?_firm _ isListed more
    rw [List.cons_append, step?, isListed']
    rfl
  · exact repeatLast?_nests _ _ done around more noMark
  · exact repeatLast?_nests _ _ done around more noMark
  · exact repeatLast?_nests _ _ done around more noMark
  · obtain ⟨⟨bounds, behind⟩, isBounds, repeats⟩ := Option.bind_eq_some_iff.1 done
    rw [List.cons_append, step?, readBounds?_firm isBounds more]
    exact repeatLast?_nests _ _ repeats around more noMark
  · cases done; rfl
  · cases done; rfl
  · cases done; rfl
  · obtain ⟨⟨atom, behind⟩, isAtom, same⟩ := Option.bind_eq_some_iff.1 done
    cases same
    rw [List.cons_append, step?, readEscape?_firm isAtom more]
    rfl
  · cases done
    rw [List.cons_append, step?]
    · rfl
    all_goals assumption

theorem readAll?_nil (budget : Nat) (reader : Reader) :
    readAll? budget reader [] = some reader := by
  cases budget <;> rfl

theorem readAll?_closing (budget : Nat) (reader : Reader) :
    readAll? (budget + 1) reader [')'] = reader.closeGroup? := by
  rw [readAll?, step?]
  · cases reader.closeGroup? with
    | none => rfl
    | some closed => exact readAll?_nil budget closed
  · exact nofun

/-- A parenthesis behind a pattern closes the group around it. -/
theorem readAll?_within {budget budget' : Nat} {reader reader' : Reader} {cs : List Char}
    (done : readAll? budget reader cs = some reader') (enough : budget < budget')
    (around : List (Settings × Group)) :
    readAll? budget' (reader.within around) (cs ++ [')']) =
      (reader'.within around).closeGroup? := by
  induction budget generalizing budget' reader cs with
  | zero =>
      cases cs with
      | nil =>
          cases done
          obtain ⟨smaller, rfl⟩ : ∃ smaller, budget' = smaller + 1 := ⟨budget' - 1, by omega⟩
          exact readAll?_closing smaller _
      | cons c cs => cases done
  | succ budget ih =>
      obtain ⟨smaller, rfl⟩ : ∃ smaller, budget' = smaller + 1 := ⟨budget' - 1, by omega⟩
      cases cs with
      | nil =>
          cases done
          exact readAll?_closing smaller _
      | cons c cs =>
          obtain ⟨⟨next, rest⟩, stepped, behind⟩ := Option.bind_eq_some_iff.1 done
          have noMark : [')'].head? ≠ some '?' := by decide
          rw [List.cons_append, readAll?, ← List.cons_append, step?_nests stepped around _ noMark]
          · exact ih behind (by omega)
          · exact nofun

def initial : Reader :=
  ⟨{}, .fresh none, [], [], 0⟩

/-- The number of a group has no steps. -/
theorem emit_finish (group : Group) (steps : Array Step) :
    group.finish.regex.emit steps = group.content.regex.emit steps := by
  rcases group with ⟨_ | index, branches, items, repeatable⟩ <;> rfl

def Opens (front : List Char) (parent : Group) : Prop :=
  ∃ spent, spent ≤ front.length ∧ ∀ budget cs,
    readAll? (budget + spent) initial (front ++ cs) =
      readAll? budget (initial.within [({}, parent)]) cs

theorem opens_group : Opens ['(', '?', ':'] (.fresh none) :=
  ⟨1, by decide, fun _ _ => rfl⟩

theorem opens_anchored :
    Opens ['^', '(', '?', ':'] ((Group.fresh none).push ⟨.assertion .textStart, 0⟩) :=
  ⟨2, by decide, fun _ _ => rfl⟩

end Reader

open Reader

/-- In a group, a pattern that is well formed by itself is one piece behind what comes before. -/
theorem read?_enclosed {pattern : List Char} {regex : Regex} (own : read? pattern = some regex) :
    ∃ piece : Item, (∀ steps, piece.regex.emit steps = regex.emit steps) ∧
      ∀ {front parent}, Opens front parent →
        read? (front ++ pattern ++ [')']) =
          if (parent.push piece).content.height ≤ maxHeight then
            some (parent.push piece).content.regex
          else none := by
  obtain ⟨reader, isReader, checked⟩ := Option.bind_eq_some_iff.1 own
  have isReader : readAll? pattern.length initial pattern = some reader := isReader
  dsimp only at checked
  split at checked
  · next closed =>
      cases checked
      refine ⟨reader.group.finish, emit_finish reader.group, ?_⟩
      rintro front parent ⟨spent, few, opens⟩
      have length : (front ++ pattern ++ [')']).length =
          (pattern.length + 1 + (front.length - spent)) + spent := by
        simp only [List.length_append, List.length_singleton]
        omega
      have whole : readAll? (front ++ pattern ++ [')']).length initial
          (front ++ pattern ++ [')']) = (reader.within [({}, parent)]).closeGroup? := by
        rw [length, List.append_assoc, opens, readAll?_within isReader (by omega)]
      change (readAll? _ initial _ >>= _) = _
      rw [whole]
      rcases reader with ⟨settings, group, _ | ⟨next, outer⟩, names, captures⟩
      · change (if (true && decide _) = true then _ else _) = _
        simp only [Bool.true_and, decide_eq_true_eq]
        rfl
      · cases (Bool.and_eq_true_iff.1 closed).1
  · cases checked

/-- In a group a pattern that is well formed by itself has the steps that it has by itself. -/
theorem emit_grouped {pattern : List Char} {regex body : Regex}
    (own : read? pattern = some regex) (read : read? (grouped pattern) = some body)
    (steps : Array Step) : body.emit steps = regex.emit steps := by
  obtain ⟨piece, emits, isRead⟩ := read?_enclosed own
  have isGroup := isRead opens_group
  rw [grouped] at read
  rw [isGroup] at read
  split at read
  · cases read
    exact emits steps
  · cases read

/-- Behind the start of the text, the group of a pattern that is well formed by itself is one
piece. -/
theorem read?_anchored {pattern : List Char} {regex enclosed : Regex}
    (own : read? pattern = some regex) (read : read? (anchored pattern) = some enclosed) :
    ∃ body, read? (grouped pattern) = some body ∧
      enclosed = sequence [.assertion .textStart, body] := by
  obtain ⟨piece, -, isRead⟩ := read?_enclosed own
  have isTied := isRead opens_anchored
  change read? (anchored pattern) = _ at isTied
  rw [isTied] at read
  split at read
  · next low =>
      cases read
      refine ⟨piece.regex, ?_, rfl⟩
      rw [grouped, isRead opens_group]
      refine if_pos ?_
      change max (max 0 0) piece.height + 1 ≤ maxHeight at low
      change piece.height ≤ maxHeight
      omega
  · cases read

end Packrat.Regex
