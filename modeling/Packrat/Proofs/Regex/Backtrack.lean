import Packrat.Regex.Search

/-!
What a program matches, told by going back: at a fork the preferred way is tried first, and the
other one only if the first fails. `Backtracks steps address spot depth result` says that this comes
to a result from a step and a place on; the depth bounds the steps that are taken before the next
character. There is no result where the ways go round without consuming anything.

The search keeps many ways at once and drops a way that comes to a step where another one has been
at the same place. It finds what going back finds (`Searcher.find?_eq`): a list of threads in order
of preference decides by its first thread that does not fail (`Decides`), and a dropped thread comes
after one that has decided already, or fails as the other one did.
-/

set_option autoImplicit false

namespace Packrat

inductive Backtracks (steps : Array Step) : Nat → Spot → Nat → Option Spot → Prop where
  | outside {address spot} : steps[address]? = none → Backtracks steps address spot 0 none
  | accepted {address spot} :
      steps[address]? = some .accept → Backtracks steps address spot 0 (some spot)
  | consumed {address offset before c rest set depth result} :
      steps[address]? = some (.one set) →
      set.mem c = true →
      Backtracks steps (address + 1) ⟨offset + c.utf8Size, some c, rest⟩ depth result →
      Backtracks steps address ⟨offset, before, c :: rest⟩ 0 result
  | refused {address spot set} :
      steps[address]? = some (.one set) →
      (∀ c rest, spot.after = c :: rest → set.mem c = false) →
      Backtracks steps address spot 0 none
  | passed {address spot condition depth result} :
      steps[address]? = some (.check condition) →
      spot.meets condition = true →
      Backtracks steps (address + 1) spot depth result →
      Backtracks steps address spot (depth + 1) result
  | blocked {address spot condition} :
      steps[address]? = some (.check condition) →
      spot.meets condition = false →
      Backtracks steps address spot 0 none
  | preferred {address spot first other depth stop} :
      steps[address]? = some (.fork first other) →
      Backtracks steps first spot depth (some stop) →
      Backtracks steps address spot (depth + 1) (some stop)
  | otherwise {address spot first other depth depth' result} :
      steps[address]? = some (.fork first other) →
      Backtracks steps first spot depth none →
      Backtracks steps other spot depth' result →
      Backtracks steps address spot (max depth depth' + 1) result
  | jumped {address spot target depth result} :
      steps[address]? = some (.jump target) →
      Backtracks steps target spot depth result →
      Backtracks steps address spot (depth + 1) result

section Going

variable {steps : Array Step} {spot : Spot}

theorem Backtracks.unique {address depth depth' : Nat} {result result' : Option Spot}
    (first : Backtracks steps address spot depth result)
    (second : Backtracks steps address spot depth' result') :
    depth = depth' ∧ result = result' := by
  induction first generalizing depth' result' with
  | outside missing => cases second <;> simp_all
  | accepted isAccept => cases second <;> simp_all
  | consumed isOne member _ ih =>
      cases second with
      | consumed isOne' _ behind =>
          obtain ⟨-, same⟩ := ih behind
          exact ⟨rfl, same⟩
      | refused isOne' refuses =>
          cases isOne.symm.trans isOne'
          cases member.symm.trans (refuses _ _ rfl)
      | _ => simp_all
  | refused isOne refuses =>
      cases second with
      | consumed isOne' member _ =>
          cases isOne.symm.trans isOne'
          cases member.symm.trans (refuses _ _ rfl)
      | _ => simp_all
  | passed isCheck meets _ ih =>
      cases second with
      | passed _ _ behind =>
          obtain ⟨rfl, same⟩ := ih behind
          exact ⟨rfl, same⟩
      | _ => simp_all
  | blocked isCheck fails => cases second <;> simp_all
  | preferred isFork _ ih =>
      cases second with
      | preferred isFork' behind =>
          cases isFork.symm.trans isFork'
          obtain ⟨rfl, same⟩ := ih behind
          exact ⟨rfl, same⟩
      | otherwise isFork' fails _ =>
          cases isFork.symm.trans isFork'
          cases (ih fails).2
      | _ => simp_all
  | otherwise isFork _ _ ihFirst ihOther =>
      cases second with
      | preferred isFork' behind =>
          cases isFork.symm.trans isFork'
          cases (ihFirst behind).2
      | otherwise isFork' fails behind =>
          cases isFork.symm.trans isFork'
          obtain ⟨rfl, -⟩ := ihFirst fails
          obtain ⟨rfl, same⟩ := ihOther behind
          exact ⟨rfl, same⟩
      | _ => simp_all
  | jumped isJump _ ih =>
      cases second with
      | jumped isJump' behind =>
          cases isJump.symm.trans isJump'
          obtain ⟨rfl, same⟩ := ih behind
          exact ⟨rfl, same⟩
      | _ => simp_all

end Going

/-! ### Lists of threads -/

inductive Decides (steps : Array Step) (spot : Spot) (allowed : Nat → Prop) :
    List Thread → Option Spot → Prop where
  | none_ : Decides steps spot allowed [] none
  | fails {thread rest depth result} :
      allowed depth →
      Backtracks steps thread.address spot depth none →
      Decides steps spot allowed rest result →
      Decides steps spot allowed (thread :: rest) result
  | wins {thread rest depth stop} :
      allowed depth →
      Backtracks steps thread.address spot depth (some stop) →
      Decides steps spot allowed (thread :: rest) (some stop)

namespace Decides

variable {steps : Array Step} {spot : Spot} {allowed allowed' : Nat → Prop}
  {threads more : List Thread} {thread : Thread} {result : Option Spot} {stop : Spot}

theorem mono (decides : Decides steps spot allowed threads result)
    (weaker : ∀ depth, allowed depth → allowed' depth) :
    Decides steps spot allowed' threads result := by
  induction decides with
  | none_ => exact .none_
  | fails within fails _ ih => exact .fails (weaker _ within) fails ih
  | wins within wins => exact .wins (weaker _ within) wins

theorem append_some (decides : Decides steps spot allowed threads (some stop)) :
    Decides steps spot allowed (threads ++ more) (some stop) := by
  generalize same : some stop = result at decides
  induction decides with
  | none_ => cases same
  | fails within fails _ ih => exact .fails within fails (ih same)
  | wins within wins => exact .wins within wins

theorem append_none (decides : Decides steps spot allowed threads none)
    (decidesMore : Decides steps spot allowed more result) :
    Decides steps spot allowed (threads ++ more) result := by
  generalize same : (none : Option Spot) = nothing at decides
  induction decides with
  | none_ => exact decidesMore
  | fails within fails _ ih => exact .fails within fails (ih same)
  | wins _ _ => cases same

theorem append_cases (decides : Decides steps spot allowed (threads ++ more) result) :
    (∃ stop, result = some stop ∧ Decides steps spot allowed threads (some stop)) ∨
      Decides steps spot allowed threads none ∧ Decides steps spot allowed more result := by
  induction threads generalizing result with
  | nil => exact .inr ⟨.none_, decides⟩
  | cons head rest ih =>
      cases decides with
      | fails within fails others =>
          rcases ih others with ⟨stop, same, decided⟩ | ⟨failed, decided⟩
          · exact .inl ⟨stop, same, .fails within fails decided⟩
          · exact .inr ⟨.fails within fails failed, decided⟩
      | wins within wins => exact .inl ⟨_, rfl, .wins within wins⟩

theorem unique {result' : Option Spot} (first : Decides steps spot allowed threads result)
    (second : Decides steps spot allowed' threads result') : result = result' := by
  induction first with
  | none_ =>
      cases second
      rfl
  | fails _ fails _ ih =>
      cases second with
      | fails _ _ others => exact ih others
      | wins _ wins => cases (fails.unique wins).2
  | wins _ wins =>
      cases second with
      | fails _ fails _ => cases (wins.unique fails).2
      | wins _ wins' => exact (wins.unique wins').2

end Decides

/-! ### Following threads -/

theorem Backtracks.onward {steps : Array Step} {spot : Spot} {thread : Thread} {step : Step}
    {onward : List Thread} {depth : Nat} {result : Option Spot}
    (isStep : steps[thread.address]? = some step) (leads : thread.onward? spot step = some onward)
    (backtracks : Backtracks steps thread.address spot depth result) :
    Decides steps spot (· < depth) onward result := by
  cases step with
  | one set => cases leads
  | accept => cases leads
  | check condition =>
      cases leads
      cases backtracks with
      | passed isCheck meets behind =>
          cases isStep.symm.trans isCheck
          rw [if_pos meets]
          cases result with
          | none => exact .fails (Nat.lt_succ_self _) behind .none_
          | some stop => exact .wins (Nat.lt_succ_self _) behind
      | blocked isCheck fails =>
          cases isStep.symm.trans isCheck
          rw [if_neg (by rw [fails]; exact Bool.false_ne_true)]
          exact .none_
      | _ => simp_all
  | fork first other =>
      cases leads
      cases backtracks with
      | preferred isFork behind =>
          cases isStep.symm.trans isFork
          exact .wins (Nat.lt_succ_self _) behind
      | otherwise isFork fails behind =>
          cases isStep.symm.trans isFork
          refine .fails (Nat.lt_succ_of_le (Nat.le_max_left _ _)) fails ?_
          cases result with
          | none => exact .fails (Nat.lt_succ_of_le (Nat.le_max_right _ _)) behind .none_
          | some stop => exact .wins (Nat.lt_succ_of_le (Nat.le_max_right _ _)) behind
      | _ => simp_all
  | jump target =>
      cases leads
      cases backtracks with
      | jumped isJump behind =>
          cases isStep.symm.trans isJump
          cases result with
          | none => exact .fails (Nat.lt_succ_self _) behind .none_
          | some stop => exact .wins (Nat.lt_succ_self _) behind
      | _ => simp_all

/-- A list of threads that has a thread which does not fail. -/
def Won (steps : Array Step) (spot : Spot) (allowed : Nat → Prop) (threads : List Thread) : Prop :=
  ∃ stop, Decides steps spot allowed threads (some stop)

/-- What stays true while threads are followed. The threads decide as they did at the beginning; and
if a step that has been come to would not fail, then a waiting thread has decided already, or one of
the next threads does, for which less remains to be done. -/
structure Follows (steps : Array Step) (spot : Spot) (visited : Array Bool)
    (pending waiting : List Thread) (result : Option Spot) : Prop where
  size : visited.size = steps.size
  decides : Decides steps spot (fun _ => True) (waiting.reverse ++ pending) result
  seen : ∀ {address depth stop}, visited[address]? = some true →
    Backtracks steps address spot depth (some stop) →
      Won steps spot (fun _ => True) waiting.reverse ∨ Won steps spot (· < depth) pending

namespace Follows

variable {steps : Array Step} {spot : Spot} {visited : Array Bool}
  {pending waiting onward : List Thread} {thread : Thread} {step : Step} {result : Option Spot}

theorem next (follows : Follows steps spot visited (thread :: pending) waiting result) :
    Won steps spot (fun _ => True) waiting.reverse ∨
      Decides steps spot (fun _ => True) waiting.reverse none ∧
        Decides steps spot (fun _ => True) (thread :: pending) result := by
  rcases follows.decides.append_cases with ⟨stop, -, decided⟩ | ⟨failed, decided⟩
  · exact .inl ⟨stop, decided⟩
  · exact .inr ⟨failed, decided⟩

theorem fails_of_seen (follows : Follows steps spot visited (thread :: pending) waiting result)
    (seen : visited[thread.address]? ≠ some false)
    (open_ : Decides steps spot (fun _ => True) waiting.reverse none) {depth : Nat} {stop : Spot} :
    ¬ Backtracks steps thread.address spot depth (some stop) := by
  intro wins
  cases mark : visited[thread.address]? with
  | none =>
      have outside : steps[thread.address]? = none := by
        rw [Array.getElem?_eq_none_iff, follows.size] at mark
        exact Array.getElem?_eq_none_iff.2 mark
      cases wins <;> simp_all
  | some flag =>
      have isSeen : visited[thread.address]? = some true := by
        cases flag with
        | false => exact absurd mark seen
        | true => exact mark
      rcases follows.seen isSeen wins with ⟨won, decided⟩ | ⟨won, decided⟩
      · cases open_.unique decided
      · cases decided with
        | fails _ fails _ => cases (fails.unique wins).2
        | wins less wins' =>
            obtain ⟨rfl, -⟩ := wins'.unique wins
            exact Nat.lt_irrefl _ less

theorem skip (follows : Follows steps spot visited (thread :: pending) waiting result)
    (seen : visited[thread.address]? ≠ some false) :
    Follows steps spot visited pending waiting result := by
  rcases follows.next with ⟨won, decided⟩ | ⟨open_, decided⟩
  · have again : Decides steps spot (fun _ => True) (waiting.reverse ++ thread :: pending)
        (some won) := decided.append_some
    cases again.unique follows.decides
    exact ⟨follows.size, decided.append_some, fun _ _ => .inl ⟨won, decided⟩⟩
  · have fails : ∀ depth stop, ¬ Backtracks steps thread.address spot depth (some stop) :=
      fun _ _ => follows.fails_of_seen seen open_
    refine ⟨follows.size, ?_, ?_⟩
    · cases decided with
      | fails _ _ others => exact open_.append_none others
      | wins _ wins => exact absurd wins (fails _ _)
    · intro address depth stop isSeen backtracks
      rcases follows.seen isSeen backtracks with won | ⟨won, decided'⟩
      · exact .inl won
      · cases decided' with
        | fails _ _ others => exact .inr ⟨won, others⟩
        | wins _ wins => exact absurd wins (fails _ _)

theorem marked_size (follows : Follows steps spot visited (thread :: pending) waiting result) :
    (visited.setIfInBounds thread.address true).size = steps.size := by
  rw [Array.size_setIfInBounds, follows.size]

theorem marked {address target : Nat}
    (isSeen : (visited.setIfInBounds target true)[address]? = some true) :
    address = target ∨ visited[address]? = some true := by
  rw [Array.getElem?_setIfInBounds] at isSeen
  by_cases same : target = address
  · exact .inl same.symm
  · rw [if_neg same] at isSeen
    exact .inr isSeen

theorem wait (follows : Follows steps spot visited (thread :: pending) waiting result) :
    Follows steps spot (visited.setIfInBounds thread.address true) pending (thread :: waiting)
      result := by
  have wins : ∀ depth stop, Backtracks steps thread.address spot depth (some stop) →
      Won steps spot (fun _ => True) (thread :: waiting).reverse := by
    intro depth stop backtracks
    rw [List.reverse_cons]
    rcases follows.next with ⟨won, decided⟩ | ⟨open_, -⟩
    · exact ⟨won, decided.append_some⟩
    · exact ⟨stop, open_.append_none (.wins trivial backtracks)⟩
  refine ⟨follows.marked_size, ?_, ?_⟩
  · rw [List.reverse_cons, List.append_assoc]
    exact follows.decides
  · intro address depth stop isSeen backtracks
    rcases marked isSeen with rfl | before
    · exact .inl (wins depth stop backtracks)
    · rcases follows.seen before backtracks with ⟨won, decided⟩ | ⟨won, decided⟩
      · rw [List.reverse_cons]
        exact .inl ⟨won, decided.append_some⟩
      · cases decided with
        | fails _ _ others => exact .inr ⟨won, others⟩
        | wins _ wins' => exact .inl (wins _ _ wins')

theorem lead {allowed : Nat → Prop} (isStep : steps[thread.address]? = some step)
    (leads : thread.onward? spot step = some onward)
    (below : ∀ depth depth', depth < depth' → allowed depth' → allowed depth)
    (decides : Decides steps spot allowed (thread :: pending) result) :
    Decides steps spot allowed (onward ++ pending) result := by
  cases decides with
  | fails within fails others =>
      exact ((fails.onward isStep leads).mono fun depth less => below _ _ less within).append_none
        others
  | wins within wins =>
      exact ((wins.onward isStep leads).mono fun depth less => below _ _ less within).append_some

theorem go (follows : Follows steps spot visited (thread :: pending) waiting result)
    (isStep : steps[thread.address]? = some step)
    (leads : thread.onward? spot step = some onward) :
    Follows steps spot (visited.setIfInBounds thread.address true) (onward ++ pending) waiting
      result := by
  refine ⟨follows.marked_size, ?_, ?_⟩
  · rcases follows.decides.append_cases with ⟨stop, rfl, decided⟩ | ⟨open_, decided⟩
    · exact decided.append_some
    · exact open_.append_none (lead isStep leads (fun _ _ _ _ => trivial) decided)
  · intro address depth stop isSeen backtracks
    rcases marked isSeen with rfl | before
    · exact .inr ⟨stop, (backtracks.onward isStep leads).append_some⟩
    · rcases follows.seen before backtracks with won | ⟨won, decided⟩
      · exact .inl won
      · have onward := lead isStep leads (fun _ _ less within => Nat.lt_trans less within) decided
        exact .inr ⟨won, onward⟩

end Follows

/-! ### The budget -/

theorem count_setIfInBounds {visited : Array Bool} {address : Nat}
    (fresh : visited[address]? = some false) :
    (visited.setIfInBounds address true).count false + 1 = visited.count false := by
  obtain ⟨inside, isFresh⟩ := Array.getElem?_eq_some_iff.1 fresh
  have positive : 0 < visited.count false :=
    Array.count_pos_iff.2 (isFresh ▸ Array.getElem_mem inside)
  rw [Array.setIfInBounds, dif_pos inside, Array.count_set, isFresh]
  simp
  omega

theorem onward_length {spot : Spot} {thread : Thread} {step : Step} {onward : List Thread}
    (leads : thread.onward? spot step = some onward) : onward.length ≤ 2 := by
  cases step with
  | one set => cases leads
  | accept => cases leads
  | check condition =>
      cases leads
      split <;> simp
  | fork first other => cases leads; simp
  | jump target => cases leads; simp

theorem followAll_decides {steps : Array Step} {spot : Spot} {result : Option Spot} {budget : Nat}
    {visited : Array Bool} {pending waiting : List Thread}
    (follows : Follows steps spot visited pending waiting result)
    (enough : pending.length + 2 * visited.count false < budget) :
    Decides steps spot (fun _ => True) (followAll steps spot budget visited pending waiting)
      result := by
  induction budget generalizing visited pending waiting with
  | zero => omega
  | succ budget ih =>
      cases pending with
      | nil =>
          have decides := follows.decides
          rw [List.append_nil] at decides
          exact decides
      | cons thread pending =>
          rw [List.length_cons] at enough
          rw [followAll]
          split
          · next fresh =>
              have fewer := count_setIfInBounds fresh
              dsimp only
              split
              · next outside =>
                  obtain ⟨inside, -⟩ := Array.getElem?_eq_some_iff.1 fresh
                  rw [follows.size] at inside
                  rw [Array.getElem?_eq_none_iff] at outside
                  omega
              · next step isStep =>
                  split
                  · exact ih follows.wait (by omega)
                  · next onward leads =>
                      have few := onward_length leads
                      refine ih (follows.go isStep leads) ?_
                      rw [List.length_append]
                      omega
          · next seen => exact ih (follows.skip seen) (by omega)

section Reaching

variable {steps : Array Step} {spot : Spot} {threads : List Thread} {result : Option Spot}

theorem reach_decides (decides : Decides steps spot (fun _ => True) threads result) :
    Decides steps spot (fun _ => True) (reach steps spot threads) result := by
  refine followAll_decides ⟨Array.size_replicate, decides, ?_⟩ ?_
  · intro address depth stop isSeen
    rw [Array.getElem?_replicate] at isSeen
    split at isSeen <;> cases isSeen
  · rw [Array.count_replicate_self]
    omega

def Thread.WaitsFrom (steps : Array Step) (start : Spot) (thread : Thread) : Prop :=
  thread.start = start ∧
    ((∃ set, steps[thread.address]? = some (.one set)) ∨
      steps[thread.address]? = some .accept)

/-- Threads are only followed to where they wait, and keep their starts. -/
theorem followAll_waits {start : Spot} {budget : Nat} {visited : Array Bool}
    {pending waiting : List Thread} (starts : ∀ thread ∈ pending, thread.start = start)
    (waits : ∀ thread ∈ waiting, thread.WaitsFrom steps start) :
    ∀ thread ∈ followAll steps spot budget visited pending waiting,
      thread.WaitsFrom steps start := by
  induction budget generalizing visited pending waiting with
  | zero =>
      intro thread member
      rw [followAll, List.mem_reverse] at member
      exact waits thread member
  | succ budget ih =>
      cases pending with
      | nil =>
          intro thread member
          rw [followAll, List.mem_reverse] at member
          exact waits thread member
      | cons thread pending =>
          obtain ⟨isStart, others⟩ := List.forall_mem_cons.1 starts
          rw [followAll]
          split
          · dsimp only
            split
            · exact ih others waits
            · next step isStep =>
                cases step with
                | one set =>
                    exact ih others
                      (List.forall_mem_cons.2 ⟨⟨isStart, .inl ⟨set, isStep⟩⟩, waits⟩)
                | accept =>
                    exact ih others
                      (List.forall_mem_cons.2 ⟨⟨isStart, .inr isStep⟩, waits⟩)
                | check condition =>
                    refine ih (List.forall_mem_append.2 ⟨?_, others⟩) waits
                    split
                    · simp [Thread.goTo, isStart]
                    · exact nofun
                | fork first other =>
                    refine ih (List.forall_mem_append.2 ⟨?_, others⟩) waits
                    simp [Thread.goTo, isStart]
                | jump target =>
                    refine ih (List.forall_mem_append.2 ⟨?_, others⟩) waits
                    simp [Thread.goTo, isStart]
          · exact ih others waits

end Reaching

/-! ### Searching -/

section Searching

variable {steps : Array Step} {spot : Spot} {start : Spot} {threads : List Thread}
  {result : Option Spot}

theorem Thread.hasAccepted_iff {thread : Thread} :
    thread.hasAccepted steps = true ↔ steps[thread.address]? = some .accept := by
  rw [Thread.hasAccepted, beq_iff_eq]

theorem Decides.at_end (waits : ∀ thread ∈ threads, thread.WaitsFrom steps start)
    (ended : spot.after = [])
    (decides : Decides steps spot (fun _ => True) threads result) (best : Option Found) :
    better steps spot threads best = (result.map fun stop => (start, stop)).or best := by
  induction decides with
  | none_ => rfl
  | @fails thread rest depth result _ fails _ ih =>
      obtain ⟨⟨isStart, isWaiting⟩, others⟩ := List.forall_mem_cons.1 waits
      have open_ : thread.hasAccepted steps = false := by
        rw [Bool.eq_false_iff, Ne, Thread.hasAccepted_iff]
        intro isAccept
        cases fails <;> simp_all
      rw [← ih others, better, better, List.find?_cons_of_neg (by rw [open_]; simp)]
  | @wins thread rest depth stop _ wins =>
      obtain ⟨⟨isStart, isWaiting⟩, -⟩ := List.forall_mem_cons.1 waits
      rcases isWaiting with ⟨set, isOne⟩ | isAccept
      · cases wins <;> simp_all
      · have accepts : thread.hasAccepted steps = true := Thread.hasAccepted_iff.2 isAccept
        have same : stop = spot := by cases wins <;> simp_all
        rw [better, List.find?_cons_of_pos accepts, same, ← isStart]
        rfl

/-- Before a character, waiting threads decide by what those before the first that has accepted
come to behind the character, and otherwise by the one that has accepted. -/
theorem Decides.over {offset : Nat} {before : Option Char} {c : Char} {rest : List Char}
    (waits : ∀ thread ∈ threads, thread.WaitsFrom steps start)
    (decides : Decides steps ⟨offset, before, c :: rest⟩ (fun _ => True) threads result)
    (best : Option Found) :
    ∃ further, Decides steps ⟨offset + c.utf8Size, some c, rest⟩ (fun _ => True)
        ((threads.takeWhile (!Thread.hasAccepted steps ·)).filterMap (Thread.consume? steps c))
        further ∧
      (result.map fun stop => (start, stop)).or best =
        (further.map fun stop => (start, stop)).or
          (better steps ⟨offset, before, c :: rest⟩ threads best) := by
  induction threads generalizing result with
  | nil =>
      cases decides
      exact ⟨none, .none_, rfl⟩
  | cons thread others ih =>
      obtain ⟨⟨isStart, isWaiting⟩, waitsOthers⟩ := List.forall_mem_cons.1 waits
      rcases isWaiting with ⟨set, isOne⟩ | isAccept
      · have open_ : thread.hasAccepted steps = false := by
          rw [Bool.eq_false_iff, Ne, Thread.hasAccepted_iff, isOne]
          exact nofun
        have same : better steps ⟨offset, before, c :: rest⟩ (thread :: others) best =
            better steps ⟨offset, before, c :: rest⟩ others best := by
          rw [better, better, List.find?_cons_of_neg (by rw [open_]; simp)]
        have taken : (thread :: others).takeWhile (!Thread.hasAccepted steps ·) =
            thread :: others.takeWhile (!Thread.hasAccepted steps ·) :=
          List.takeWhile_cons_of_pos (by simp [open_])
        rw [same, taken]
        have consumes : Thread.consume? steps c thread =
            if set.mem c then some (thread.goTo (thread.address + 1)) else none := by
          simp [Thread.consume?, isOne]
        by_cases member : set.mem c = true
        · rw [List.filterMap_cons_some (by rw [consumes, if_pos member])]
          cases decides with
          | fails _ fails decidesOthers =>
              obtain ⟨further, decided, result⟩ := ih waitsOthers decidesOthers
              cases fails with
              | consumed isOne' _ behind => exact ⟨further, .fails trivial behind decided, result⟩
              | refused isOne' refuses =>
                  cases isOne.symm.trans isOne'
                  cases member.symm.trans (refuses _ _ rfl)
              | _ => simp_all
          | @wins _ _ _ stop _ wins =>
              cases wins with
              | consumed _ _ behind => exact ⟨some stop, .wins trivial behind, rfl⟩
              | _ => simp_all
        · rw [List.filterMap_cons_none (by rw [consumes, if_neg member])]
          cases decides with
          | fails _ _ decidesOthers => exact ih waitsOthers decidesOthers
          | wins _ wins =>
              cases wins with
              | consumed isOne' member' _ =>
                  cases isOne.symm.trans isOne'
                  exact absurd member' member
              | _ => simp_all
      · have accepts : thread.hasAccepted steps = true := Thread.hasAccepted_iff.2 isAccept
        rw [List.takeWhile_cons_of_neg (by simp [accepts]), better,
          List.find?_cons_of_pos accepts, ← isStart]
        refine ⟨none, .none_, ?_⟩
        cases decides with
        | fails _ fails _ => cases fails <;> simp_all
        | wins _ wins => cases wins <;> simp_all

theorem reach_waits (starts : ∀ thread ∈ threads, thread.start = start) :
    ∀ thread ∈ reach steps spot threads, thread.WaitsFrom steps start :=
  followAll_waits starts (fun _ impossible => absurd impossible List.not_mem_nil)

theorem consume?_start {c : Char} {thread next : Thread}
    (consumes : Thread.consume? steps c thread = some next) : next.start = thread.start := by
  unfold Thread.consume? at consumes
  split at consumes
  · split at consumes
    · cases consumes
      rfl
    · cases consumes
  · cases consumes

/-- Where a match can only start at the start of the text, a search finds what the threads at its
beginning decide. -/
theorem searchFrom_decides {best : Option Found} {offset : Nat} {before : Option Char}
    {text : List Char}
    (starts : ∀ thread ∈ startsIn true best ⟨offset, before, text⟩ threads, thread.start = start)
    (decides : Decides steps ⟨offset, before, text⟩ (fun _ => True)
      (startsIn true best ⟨offset, before, text⟩ threads) result) :
    searchFrom steps true best threads offset before text =
      (result.map fun stop => (start, stop)).or best := by
  induction text generalizing best threads offset before result with
  | nil =>
      rw [searchFrom]
      exact (reach_decides decides).at_end (reach_waits starts) rfl best
  | cons c rest ih =>
      obtain ⟨further, decided, same⟩ := (reach_decides decides).over (reach_waits starts) best
      rw [searchFrom, same]
      generalize isNext : ((reach steps ⟨offset, before, c :: rest⟩
        (startsIn true best ⟨offset, before, c :: rest⟩ threads)).takeWhile
          (!Thread.hasAccepted steps ·)).filterMap (Thread.consume? steps c) = next at decided ⊢
      have nextStarts : ∀ thread ∈ next, thread.start = start := by
        rw [← isNext]
        intro thread member
        obtain ⟨earlier, listed, consumes⟩ := List.mem_filterMap.1 member
        rw [consume?_start consumes]
        exact (reach_waits starts earlier (List.takeWhile_subset _ listed)).1
      rw [Bool.true_or, Bool.and_true]
      split
      · next empty =>
          rw [List.isEmpty_iff.1 empty] at decided
          cases decided
          rfl
      · have noMore : ∀ newBest, startsIn true newBest ⟨offset + c.utf8Size, some c, rest⟩ next =
            next := fun newBest => by simp [startsIn]
        exact ih (by rw [noMore]; exact nextStarts) (by rw [noMore]; exact decided)

/-- A pattern that can only match at the start of a text finds there what going back finds. -/
theorem Searcher.find?_eq {text : List Char} {depth : Nat}
    (backtracks : Backtracks steps 0 (.first text) depth result) :
    (Searcher.mk steps true).find? text = result.map fun stop => (.first text, stop) := by
  have decides : Decides steps (.first text) (fun _ => True) [⟨0, .first text⟩] result := by
    cases result with
    | none => exact .fails trivial backtracks .none_
    | some stop => exact .wins trivial backtracks
  have starts : ∀ thread ∈ [Thread.mk 0 (.first text)], thread.start = .first text := by
    intro thread member
    rw [List.mem_singleton.1 member]
  have found : searchFrom steps true none [] 0 none text =
      (result.map fun stop => (Spot.first text, stop)).or none := searchFrom_decides starts decides
  rw [Option.or_none] at found
  exact found

end Searching

end Packrat
