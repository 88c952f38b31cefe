import Packrat.Proofs.Regex.Backtrack
import Packrat.Proofs.Regex.Relocated
import Packrat.Text.Bytes

/-!
What a program matches, told without the order in which ways are tried: `Accepts steps address spot
stop` says that some way leads from a step and a place to a place where the program accepts. The
search only moves its threads along such ways, so whatever it finds starts at a place of the text
and is matched from there (`Searcher.find?_accepts`).
-/

set_option autoImplicit false

namespace Packrat

inductive Accepts (steps : Array Step) : Nat → Spot → Spot → Prop where
  | accepted {address spot} : steps[address]? = some .accept → Accepts steps address spot spot
  | consumed {address offset before c rest set stop} :
      steps[address]? = some (.one set) →
      set.mem c = true →
      Accepts steps (address + 1) ⟨offset + c.utf8Size, some c, rest⟩ stop →
      Accepts steps address ⟨offset, before, c :: rest⟩ stop
  | passed {address spot condition stop} :
      steps[address]? = some (.check condition) →
      spot.meets condition = true →
      Accepts steps (address + 1) spot stop →
      Accepts steps address spot stop
  | forked {address spot first other target stop} :
      steps[address]? = some (.fork first other) →
      target = first ∨ target = other →
      Accepts steps target spot stop →
      Accepts steps address spot stop
  | jumped {address spot target stop} :
      steps[address]? = some (.jump target) →
      Accepts steps target spot stop →
      Accepts steps address spot stop

theorem Step.exists_of_behind {front steps : Array Step} {address : Nat} {step : Step}
    (isStep : (Step.behind front steps)[front.size + address]? = some step) :
    ∃ own, steps[address]? = some own ∧ own.shift front.size = step := by
  rw [getElem?_behind] at isStep
  exact Option.map_eq_some_iff.1 isStep

/-- Behind other steps a program accepts what it accepts alone. -/
theorem Accepts.of_behind {front steps : Array Step} {address : Nat} {spot stop : Spot}
    (accepts : Accepts (Step.behind front steps) (front.size + address) spot stop) :
    Accepts steps address spot stop := by
  generalize isAddress : front.size + address = address' at accepts
  induction accepts generalizing address with subst isAddress
  | accepted isStep =>
      obtain ⟨own, isOwn, same⟩ := Step.exists_of_behind isStep
      cases own with
      | accept => exact .accepted isOwn
      | _ => cases same
  | consumed isStep member _ ih =>
      obtain ⟨own, isOwn, same⟩ := Step.exists_of_behind isStep
      cases own with
      | one set =>
          cases same
          exact .consumed isOwn member (ih (Nat.add_assoc _ _ _).symm)
      | _ => cases same
  | passed isStep meets _ ih =>
      obtain ⟨own, isOwn, same⟩ := Step.exists_of_behind isStep
      cases own with
      | check condition =>
          cases same
          exact .passed isOwn meets (ih (Nat.add_assoc _ _ _).symm)
      | _ => cases same
  | forked isStep either _ ih =>
      obtain ⟨own, isOwn, same⟩ := Step.exists_of_behind isStep
      cases own with
      | fork first other =>
          cases same
          rcases either with rfl | rfl
          · exact .forked isOwn (.inl rfl) (ih rfl)
          · exact .forked isOwn (.inr rfl) (ih rfl)
      | _ => cases same
  | jumped isStep _ ih =>
      obtain ⟨own, isOwn, same⟩ := Step.exists_of_behind isStep
      cases own with
      | jump target =>
          cases same
          exact .jumped isOwn (ih rfl)
      | _ => cases same

/-! ### Places of a text -/

def Spot.Within (text : List Char) (spot : Spot) : Prop :=
  ∃ piece, text = piece ++ spot.after ∧ spot.offset = Text.byteLength piece ∧
    spot.before = piece.getLast?

theorem Spot.Within.first (text : List Char) : (Spot.first text).Within text :=
  ⟨[], rfl, rfl, rfl⟩

theorem Spot.Within.onward {text rest : List Char} {offset : Nat} {before : Option Char} {c : Char}
    (within : Spot.Within text ⟨offset, before, c :: rest⟩) :
    Spot.Within text ⟨offset + c.utf8Size, some c, rest⟩ := by
  obtain ⟨piece, isText, isOffset, -⟩ := within
  refine ⟨piece ++ [c], ?_, ?_, ?_⟩
  · rw [isText, List.append_assoc]
    rfl
  · dsimp only at isOffset ⊢
    rw [isOffset, Text.byteLength_append]
    rfl
  · rw [List.getLast?_concat]

theorem Spot.Within.eq_first {text : List Char} {spot : Spot} (within : spot.Within text)
    (noneBefore : spot.before = none) : spot = .first text := by
  obtain ⟨offset, before, after⟩ := spot
  obtain ⟨piece, rfl, rfl, isBefore⟩ := within
  cases (noneBefore : before = none)
  cases List.getLast?_eq_none_iff.1 isBefore.symm
  rfl

/-! ### Threads -/

structure Thread.Comes (steps : Array Step) (text : List Char) (spot : Spot) (thread : Thread) :
    Prop where
  start : thread.start.Within text
  onward : ∀ {stop}, Accepts steps thread.address spot stop → Accepts steps 0 thread.start stop

section Coming

variable {steps : Array Step} {text : List Char} {spot : Spot} {thread : Thread}

theorem Thread.Comes.fresh (within : spot.Within text) :
    Thread.Comes steps text spot ⟨0, spot⟩ :=
  ⟨within, id⟩

theorem Thread.Comes.next {step : Step} {onward : List Thread}
    (comes : thread.Comes steps text spot) (isStep : steps[thread.address]? = some step)
    (leads : thread.onward? spot step = some onward) :
    ∀ next ∈ onward, next.Comes steps text spot := by
  cases step with
  | one set => cases leads
  | accept => cases leads
  | check condition =>
      cases leads
      intro next member
      split at member
      · next meets =>
          cases List.mem_singleton.1 member
          exact ⟨comes.start, fun accepts => comes.onward (.passed isStep meets accepts)⟩
      · cases member
  | fork first other =>
      cases leads
      intro next member
      rw [List.mem_cons, List.mem_singleton] at member
      rcases member with rfl | rfl
      · exact ⟨comes.start, fun accepts => comes.onward (.forked isStep (.inl rfl) accepts)⟩
      · exact ⟨comes.start, fun accepts => comes.onward (.forked isStep (.inr rfl) accepts)⟩
  | jump target =>
      cases leads
      intro next member
      cases List.mem_singleton.1 member
      exact ⟨comes.start, fun accepts => comes.onward (.jumped isStep accepts)⟩

theorem followAll_comes {budget : Nat} {visited : Array Bool} {pending waiting : List Thread}
    (comes : ∀ thread ∈ pending, thread.Comes steps text spot)
    (waits : ∀ thread ∈ waiting, thread.Comes steps text spot) :
    ∀ thread ∈ followAll steps spot budget visited pending waiting,
      thread.Comes steps text spot := by
  induction budget generalizing visited pending waiting with
  | zero =>
      intro thread member
      exact waits thread (List.mem_reverse.1 member)
  | succ budget ih =>
      cases pending with
      | nil =>
          intro thread member
          exact waits thread (List.mem_reverse.1 member)
      | cons thread pending =>
          obtain ⟨first, others⟩ := List.forall_mem_cons.1 comes
          rw [followAll]
          split
          · dsimp only
            split
            · exact ih others waits
            · next step isStep =>
                split
                · exact ih others (List.forall_mem_cons.2 ⟨first, waits⟩)
                · next onward leads =>
                    exact ih (List.forall_mem_append.2 ⟨first.next isStep leads, others⟩) waits
          · exact ih others waits

theorem reach_comes {threads : List Thread}
    (comes : ∀ thread ∈ threads, thread.Comes steps text spot) :
    ∀ thread ∈ reach steps spot threads, thread.Comes steps text spot :=
  followAll_comes comes nofun

theorem startsIn_comes {anchored : Bool} {best : Option Found} {threads : List Thread}
    (within : spot.Within text) (comes : ∀ thread ∈ threads, thread.Comes steps text spot) :
    ∀ thread ∈ startsIn anchored best spot threads, thread.Comes steps text spot := by
  unfold startsIn
  split
  · exact comes
  · exact List.forall_mem_append.2 ⟨comes, List.forall_mem_singleton.2 (.fresh within)⟩

theorem Thread.Comes.consume {offset : Nat} {before : Option Char} {c : Char} {rest : List Char}
    {next : Thread} (comes : thread.Comes steps text ⟨offset, before, c :: rest⟩)
    (consumes : thread.consume? steps c = some next) :
    next.Comes steps text ⟨offset + c.utf8Size, some c, rest⟩ := by
  unfold Thread.consume? at consumes
  split at consumes
  · next set isStep =>
      split at consumes
      · next member =>
          cases consumes
          exact ⟨comes.start, fun accepts => comes.onward (.consumed isStep member accepts)⟩
      · cases consumes
  · cases consumes

structure Found.Accepted (steps : Array Step) (text : List Char) (found : Found) : Prop where
  start : found.1.Within text
  accepts : Accepts steps 0 found.1 found.2

theorem better_accepted {waiting : List Thread} {best : Option Found} {found : Found}
    (comes : ∀ thread ∈ waiting, thread.Comes steps text spot)
    (before : ∀ found, best = some found → Found.Accepted steps text found)
    (chosen : better steps spot waiting best = some found) : Found.Accepted steps text found := by
  unfold better at chosen
  split at chosen
  · next thread isThread =>
      cases chosen
      have came := comes thread (List.mem_of_find?_eq_some isThread)
      have accepted := List.find?_some isThread
      exact ⟨came.start, came.onward (.accepted (Thread.hasAccepted_iff.1 accepted))⟩
  · exact before found chosen

/-- Whatever a search finds in the rest of a text is matched. -/
theorem searchFrom_accepted {anchored : Bool} {best : Option Found} {threads : List Thread}
    {offset : Nat} {before : Option Char} {rest : List Char} {found : Found}
    (within : Spot.Within text ⟨offset, before, rest⟩)
    (comes : ∀ thread ∈ threads, thread.Comes steps text ⟨offset, before, rest⟩)
    (earlier : ∀ found, best = some found → Found.Accepted steps text found)
    (searched : searchFrom steps anchored best threads offset before rest = some found) :
    Found.Accepted steps text found := by
  induction rest generalizing best threads offset before with
  | nil => exact better_accepted (reach_comes (startsIn_comes within comes)) earlier searched
  | cons c rest ih =>
      let spot : Spot := ⟨offset, before, c :: rest⟩
      have reached : ∀ thread ∈ reach steps spot (startsIn anchored best spot threads),
          thread.Comes steps text spot := reach_comes (startsIn_comes within comes)
      have here : ∀ found, better steps spot _ best = some found →
          Found.Accepted steps text found := fun _ => better_accepted reached earlier
      rw [searchFrom] at searched
      split at searched
      · exact here found searched
      · refine ih within.onward ?_ here searched
        intro next member
        obtain ⟨thread, listed, consumes⟩ := List.mem_filterMap.1 member
        exact (reached thread (List.takeWhile_subset _ listed)).consume consumes

end Coming

/-- A match that is found starts at a place of the text and is matched from there. -/
theorem Searcher.find?_accepts {searcher : Searcher} {text : List Char} {start stop : Spot}
    (found : searcher.find? text = some (start, stop)) :
    start.Within text ∧ Accepts searcher.steps 0 start stop := by
  have accepted : Found.Accepted searcher.steps text (start, stop) :=
    searchFrom_accepted (.first text) (fun _ member => absurd member List.not_mem_nil)
      (fun _ => by rintro ⟨⟩) found
  exact ⟨accepted.start, accepted.accepts⟩

end Packrat
