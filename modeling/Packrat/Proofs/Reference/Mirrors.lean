import Packrat.Proofs.Reference.Placed

/-!
Only ends decide. Two outcomes are alike if the same is present in both and its parts end at the
same places; two goals, if they differ only in best nodes that end alike, and in alternatives that
are never tried. If a grammar mirrors another in its rules, then what is parsed under the one is
parsed alike under the other, whatever the trees are (`Parses.mirrored`).
-/

set_option autoImplicit false
set_option linter.unusedSectionVars false

namespace Packrat

variable {V : Type} [Kinded V]

/-! ### Ends -/

def Run.ends (run : Option (List (Branch V) × Position)) : Option (List Position × Position) :=
  run.map fun (parts, stop) => (parts.map (·.item.stop), stop)

inductive Outcome.Alike : Outcome V → Outcome V → Prop where
  | tree {found found' : Option (Tree V)} :
      found.map Tree.stop = found'.map Tree.stop → Alike (.tree found) (.tree found')
  | run {found found' : Option (List (Branch V) × Position)} :
      Run.ends found = Run.ends found' → Alike (.run found) (.run found')

def Alternative.leading (entries : List (Alternative V × Nat)) : List (Alternative V) :=
  (entries.map Prod.fst).filter fun alternative => alternative.recursive

inductive Goal.Alike : Goal V → Goal V → Prop where
  | resolve {place symbol} : Alike (.resolve place symbol) (.resolve place symbol)
  | seeds {place symbol entries best best'} :
      best.map Tree.stop = best'.map Tree.stop →
      Alike (.seeds place symbol entries best) (.seeds place symbol entries best')
  | pass {symbol entries entries' best best'} :
      Alternative.leading entries = Alternative.leading entries' →
      best.stop = best'.stop → Alike (.pass symbol entries best) (.pass symbol entries' best')
  | extend {symbol entries entries' best best'} :
      Alternative.leading entries = Alternative.leading entries' →
      best.stop = best'.stop → Alike (.extend symbol entries best) (.extend symbol entries' best')
  | sequence {elements cursor} : Alike (.sequence elements cursor) (.sequence elements cursor)
  | element {element cursor} : Alike (.element element cursor) (.element element cursor)
  | rounds {elements min max count cursor} :
      Alike (.rounds elements min max count cursor) (.rounds elements min max count cursor)

namespace Tree

variable {symbol : Symbol} {index index' : Nat}

theorem map_stop_over? (parts : List (Branch V)) :
    (over? symbol index parts).map stop = (parts.map (·.item.stop)).getLast? := by
  cases parts with
  | nil => rfl
  | cons first rest =>
      rw [over?, List.head?_cons, List.getLast?_map]
      cases last : (first :: rest).getLast? with
      | none => rfl
      | some last => rfl

theorem map_stop_ofRun? (leading : List (Branch V))
    (run : Option (List (Branch V) × Position)) :
    (ofRun? symbol index leading run).map stop =
      (Run.ends run).bind fun (ends, _) => (leading.map (·.item.stop) ++ ends).getLast? := by
  cases run with
  | none => rfl
  | some result =>
      rcases result with ⟨parts, stop⟩
      change (over? symbol index (leading ++ parts)).map Tree.stop = _
      rw [map_stop_over?, List.map_append]
      rfl

theorem ofRun?_alike {leading leading' : List (Branch V)}
    {run run' : Option (List (Branch V) × Position)}
    (sameLeading : leading.map (·.item.stop) = leading'.map (·.item.stop))
    (sameRun : Run.ends run = Run.ends run') :
    (ofRun? symbol index leading run).map stop = (ofRun? symbol index' leading' run').map stop := by
  rw [map_stop_ofRun?, map_stop_ofRun?, sameLeading, sameRun]

theorem longer_alike {best best' : Tree V} {next next' : Option (Tree V)}
    (same : best.stop = best'.stop) (sameNext : next.map stop = next'.map stop) :
    (best.longer next).stop = (best'.longer next').stop := by
  cases next with
  | none =>
      cases next' with
      | none => exact same
      | some node' => cases sameNext
  | some node =>
      cases next' with
      | none => cases sameNext
      | some node' =>
          have sameNode : node.stop = node'.stop := Option.some.inj sameNext
          rw [longer, longer, ← same, ← sameNode]
          split
          · exact sameNode
          · exact same

theorem better_alike {best best' next next' : Option (Tree V)}
    (same : best.map stop = best'.map stop) (sameNext : next.map stop = next'.map stop) :
    (better best next).map stop = (better best' next').map stop := by
  cases best with
  | none =>
      cases best' with
      | none => exact sameNext
      | some node' => cases same
  | some node =>
      cases best' with
      | none => cases same
      | some node' => exact congrArg some (longer_alike (Option.some.inj same) sameNext)

end Tree

namespace Run

theorem ends_behind (parts : List (Branch V)) (found : Option (List (Branch V) × Position)) :
    ends (behind parts found) =
      (ends found).map fun (ends, stop) => (parts.map (·.item.stop) ++ ends, stop) := by
  cases found with
  | none => rfl
  | some run =>
      rcases run with ⟨more, stop⟩
      change some ((parts ++ more).map _, stop) = _
      rw [List.map_append]
      rfl

theorem ends_single (label : Option String) (found : Option (Tree V)) :
    ends (found.map fun tree => ([⟨label, tree⟩], tree.stop)) =
      (found.map Tree.stop).map fun stop => ([stop], stop) := by
  cases found with
  | none => rfl
  | some tree => rfl

end Run

def ParsesAlike (input : Input V) (goal : Goal V) (outcome : Outcome V) : Prop :=
  ∃ outcome', Parses input goal outcome' ∧ outcome.Alike outcome'

namespace ParsesAlike

variable {input : Input V} {goal : Goal V}

theorem tree {found : Option (Tree V)} (alike : ParsesAlike input goal (.tree found)) :
    ∃ found', Parses input goal (.tree found') ∧ found.map Tree.stop = found'.map Tree.stop := by
  obtain ⟨_, parses, same⟩ := alike
  cases same with
  | tree same => exact ⟨_, parses, same⟩

theorem node {node : Tree V} (alike : ParsesAlike input goal (.tree (some node))) :
    ∃ node', Parses input goal (.tree (some node')) ∧ node.stop = node'.stop := by
  obtain ⟨found', parses, same⟩ := alike.tree
  obtain ⟨node', rfl, sameStop⟩ := Option.map_eq_some_iff.1 same.symm
  exact ⟨node', parses, sameStop.symm⟩

theorem none_ (alike : ParsesAlike input goal (.tree none)) : Parses input goal (.tree none) := by
  obtain ⟨found', parses, same⟩ := alike.tree
  cases Option.map_eq_none_iff.1 same.symm
  exact parses

theorem run {found : Option (List (Branch V) × Position)}
    (alike : ParsesAlike input goal (.run found)) :
    ∃ found', Parses input goal (.run found') ∧ Run.ends found = Run.ends found' := by
  obtain ⟨_, parses, same⟩ := alike
  cases same with
  | run same => exact ⟨_, parses, same⟩

theorem parts {parts : List (Branch V)} {stop : Position}
    (alike : ParsesAlike input goal (.run (some (parts, stop)))) :
    ∃ parts', Parses input goal (.run (some (parts', stop))) ∧
      parts.map (·.item.stop) = parts'.map (·.item.stop) := by
  obtain ⟨found', parses, same⟩ := alike.run
  obtain ⟨⟨parts', stop'⟩, rfl, made⟩ := Option.map_eq_some_iff.1 same.symm
  obtain ⟨sameParts, rfl⟩ := Prod.mk.inj made
  exact ⟨parts', parses, sameParts.symm⟩

theorem stuck (alike : ParsesAlike input goal (.run none)) : Parses input goal (.run none) := by
  obtain ⟨found', parses, same⟩ := alike.run
  cases Option.map_eq_none_iff.1 same.symm
  exact parses

end ParsesAlike

/-! ### Mirrors -/

inductive Input.Grows (input : Input V) (place : Position) (symbol : Symbol)
    (entries : List (Alternative V × Nat)) : Option (Tree V) → Prop where
  | barren :
      Parses input (.seeds place symbol entries none) (.tree none) →
      Grows input place symbol entries none
  | grown {first : Tree V} {found : Option (Tree V)} :
      Parses input (.seeds place symbol entries none) (.tree (some first)) →
      Parses input (.extend symbol entries first) (.tree found) →
      Grows input place symbol entries found

/-- Under the second grammar the text has the same cells and the same symbols are rules; and with
the alternatives of the first, each rule comes to the same end as with its own. -/
structure Input.Mirrors (input other : Input V) : Prop where
  land : ∀ origin, input.land origin = other.land origin
  scanAt? : ∀ place, input.scanAt? place = other.scanAt? place
  noRule : ∀ {symbol}, input.grammar.rule? symbol = none → other.grammar.rule? symbol = none
  regrows : ∀ {place symbol rule found}, input.Lands place →
    input.grammar.rule? symbol = some rule →
    other.Grows place symbol rule.alternatives.zipIdx found →
    ∃ found', Parses other (.resolve place symbol) (.tree found') ∧
      found.map Tree.stop = found'.map Tree.stop

namespace Input

variable {input other : Input V}

theorem Grows.resolve {place : Position} {symbol : Symbol} {rule : Rule V}
    {found : Option (Tree V)} (isRule : input.grammar.rule? symbol = some rule)
    (grows : input.Grows place symbol rule.alternatives.zipIdx found) :
    Parses input (.resolve place symbol) (.tree found) := by
  cases grows with
  | barren seeds => exact .barren isRule seeds
  | grown seeds extend => exact .grown isRule seeds extend

theorem Mirrors.refl (input : Input V) : input.Mirrors input where
  land _ := rfl
  scanAt? _ := rfl
  noRule := id
  regrows _ isRule grows := ⟨_, grows.resolve isRule, rfl⟩

theorem Mirrors.leafAt? (mirrors : input.Mirrors other) (place : Position) (symbol : Symbol) :
    input.leafAt? place symbol = other.leafAt? place symbol := by
  rw [Input.leafAt?, Input.leafAt?, mirrors.scanAt?]

theorem Mirrors.literalAt? (mirrors : input.Mirrors other) (place : Position) (text : String) :
    input.literalAt? place text = other.literalAt? place text := by
  rw [Input.literalAt?, Input.literalAt?, mirrors.scanAt?]

end Input

theorem Alternative.leading_cons {entry : Alternative V × Nat} {rest : List (Alternative V × Nat)} :
    leading (entry :: rest) =
      if entry.1.recursive then entry.1 :: leading rest else leading rest := by
  rw [leading, List.map_cons, List.filter_cons]
  rfl

theorem Alternative.leading_eq_nil {entries : List (Alternative V × Nat)}
    (none_ : [] = leading entries) : ∀ entry ∈ entries, entry.1.recursive = false := by
  intro entry member
  have fail := List.filter_eq_nil_iff.1 none_.symm entry.1 (List.mem_map_of_mem member)
  exact Bool.eq_false_iff.2 fail

theorem Alternative.leading_eq_cons {alternative : Alternative V} {rest : List (Alternative V)}
    {entries : List (Alternative V × Nat)} (same : alternative :: rest = leading entries) :
    ∃ skipped index behind, entries = skipped ++ (alternative, index) :: behind ∧
      (∀ entry ∈ skipped, entry.1.recursive = false) ∧ rest = leading behind := by
  induction entries with
  | nil => cases same
  | cons entry entries ih =>
      rw [leading_cons] at same
      split at same
      · cases same
        exact ⟨[], entry.2, entries, rfl, nofun, rfl⟩
      · next plain =>
          obtain ⟨skipped, index, behind, rfl, plain', isRest⟩ := ih same
          refine ⟨entry :: skipped, index, behind, rfl, ?_, isRest⟩
          exact List.forall_mem_cons.2 ⟨Bool.eq_false_iff.2 plain, plain'⟩

theorem Parses.pass_behind {input : Input V} {symbol : Symbol} {best : Tree V}
    {found : Option (Tree V)} {skipped entries : List (Alternative V × Nat)}
    (plain : ∀ entry ∈ skipped, entry.1.recursive = false)
    (parses : Parses input (.pass symbol entries best) (.tree found)) :
    Parses input (.pass symbol (skipped ++ entries) best) (.tree found) := by
  induction skipped with
  | nil => exact parses
  | cons entry skipped ih =>
      obtain ⟨plainEntry, plainRest⟩ := List.forall_mem_cons.1 plain
      exact .passSkipped plainEntry (ih plainRest)

/-- Whatever is parsed under a grammar, a grammar that mirrors it comes to an alike outcome. -/
theorem Parses.mirrored {input other : Input V} (mirrors : input.Mirrors other) {goal : Goal V}
    {outcome : Outcome V} (parses : Parses input goal outcome) (placed : goal.Placed input)
    {goal' : Goal V} (alike : goal.Alike goal') : ParsesAlike other goal' outcome := by
  -- By induction on the run under the first grammar; each case names the matching step of the
  -- second. Rules alone are not matched step by step: for them the grammars are required to agree.
  induction parses generalizing goal' with
  | lexical noRule =>
      cases alike
      refine ⟨_, .lexical (mirrors.noRule noRule), .tree ?_⟩
      rw [mirrors.leafAt?]
  | barren isRule _ ihSeeds =>
      cases alike
      have seeds' := (ihSeeds ⟨placed, nofun⟩ (.seeds rfl)).none_
      obtain ⟨found', resolved, same⟩ := mirrors.regrows placed isRule (.barren seeds')
      exact ⟨_, resolved, .tree same⟩
  | grown isRule seeds _ ihSeeds ihExtend =>
      cases alike
      obtain ⟨first', seeds', sameFirst⟩ := (ihSeeds ⟨placed, nofun⟩ (.seeds rfl)).node
      have countsFirst := seeds.placed ⟨placed, nofun⟩ _ rfl
      obtain ⟨found', extend', same⟩ := (ihExtend countsFirst (.extend rfl sameFirst)).tree
      obtain ⟨found'', resolved, same'⟩ := mirrors.regrows placed isRule (.grown seeds' extend')
      exact ⟨_, resolved, .tree (same.trans same')⟩
  | seedsDone =>
      cases alike with
      | seeds same => exact ⟨_, .seedsDone, .tree same⟩
  | seedsSkipped recursive _ ihSeeds =>
      cases alike with
      | seeds same =>
          obtain ⟨found', seeds', sameFound⟩ := (ihSeeds placed (.seeds same)).tree
          exact ⟨_, .seedsSkipped recursive seeds', .tree sameFound⟩
  | seedsTried plain sequence _ ihSequence ihSeeds =>
      cases alike with
      | seeds same =>
          obtain ⟨run', sequence', sameRun⟩ := (ihSequence placed.1.counts .sequence).run
          have placedRun := sequence.placed placed.1.counts
          obtain ⟨found', seeds', sameFound⟩ := (ihSeeds (Input.placed_seeds placed placedRun)
            (.seeds (Tree.better_alike same (Tree.ofRun?_alike rfl sameRun)))).tree
          exact ⟨_, .seedsTried plain sequence' seeds', .tree sameFound⟩
  | @passDone symbol best =>
      cases alike with
      | @pass _ _ _ _ best' sameLeading same =>
          have done : Parses other (.pass symbol [] best') (.tree (some best')) := .passDone
          have skips := done.pass_behind (Alternative.leading_eq_nil sameLeading)
          rw [List.append_nil] at skips
          exact ⟨.tree (some best'), skips, .tree (congrArg some same)⟩
  | passSkipped plain _ ihPass =>
      cases alike with
      | pass sameLeading same =>
          rw [Alternative.leading_cons, plain] at sameLeading
          exact ihPass placed (.pass sameLeading same)
  | @passTried symbol alternative index head tail _ best run _ recursive starts sequence _
      ihSequence ihPass =>
      cases alike with
      | @pass _ _ _ _ best' sameLeading same =>
          rw [Alternative.leading_cons, if_pos recursive] at sameLeading
          obtain ⟨skipped, index', behind, rfl, plain, sameRest⟩ :=
            Alternative.leading_eq_cons sameLeading
          obtain ⟨run', sequence', sameRun⟩ := (ihSequence placed .sequence).run
          rw [same] at sequence'
          have sameNext : (Tree.ofRun? symbol index [⟨head.label?, best⟩] run).map Tree.stop =
              (Tree.ofRun? symbol index' [⟨head.label?, best'⟩] run').map Tree.stop :=
            Tree.ofRun?_alike (congrArg (fun stop => [stop]) same) sameRun
          have placedRun := sequence.placed placed
          obtain ⟨found', pass', sameFound⟩ := (ihPass (Input.placed_pass placed placedRun)
            (.pass sameRest (Tree.longer_alike same sameNext))).tree
          exact ⟨_, .pass_behind plain (.passTried recursive starts sequence' pass'),
            .tree sameFound⟩
  | extendDone _ short ihPass =>
      cases alike with
      | extend sameLeading same =>
          obtain ⟨node', pass', sameNode⟩ := (ihPass placed (.pass sameLeading same)).node
          rw [same, sameNode] at short
          exact ⟨_, .extendDone pass' short, .tree (congrArg some sameNode)⟩
  | extendMore pass long _ ihPass ihExtend =>
      cases alike with
      | extend sameLeading same =>
          obtain ⟨node', pass', sameNode⟩ := (ihPass placed (.pass sameLeading same)).node
          rw [same, sameNode] at long
          have countsNode := pass.placed placed _ rfl
          obtain ⟨found', extend', sameFound⟩ :=
            (ihExtend countsNode (.extend sameLeading sameNode)).tree
          exact ⟨_, .extendMore pass' long extend', .tree sameFound⟩
  | sequenceDone =>
      cases alike
      exact ⟨_, .sequenceDone, .run rfl⟩
  | sequenceStuck _ ihElement =>
      cases alike
      exact ⟨_, .sequenceStuck (ihElement placed .element).stuck, .run rfl⟩
  | sequenceStep element _ ihElement ihSequence =>
      cases alike
      obtain ⟨parts', element', sameParts⟩ := (ihElement placed .element).parts
      have countsNext := (element.placed placed _ _ rfl).1
      obtain ⟨found', sequence', same⟩ := (ihSequence countsNext .sequence).run
      refine ⟨_, .sequenceStep element' sequence', .run ?_⟩
      rw [Run.ends_behind, Run.ends_behind, sameParts, same]
  | literal lands =>
      cases alike
      rw [mirrors.land] at lands
      refine ⟨_, .literal lands, .run ?_⟩
      rw [mirrors.literalAt?]
  | reference names lands _ ihResolve =>
      cases alike
      obtain ⟨found', resolved, same⟩ := (ihResolve ⟨_, _, placed, lands, rfl⟩ .resolve).tree
      rw [mirrors.land] at lands
      refine ⟨_, .reference names lands resolved, .run ?_⟩
      rw [Run.ends_single, Run.ends_single, same]
  | repeated _ ihRounds =>
      cases alike
      obtain ⟨found', rounds', same⟩ := (ihRounds placed .rounds).run
      exact ⟨_, .repeated rounds', .run same⟩
  | roundsFull full =>
      cases alike
      exact ⟨_, .roundsFull full, .run rfl⟩
  | roundsStopped room _ ihSequence =>
      cases alike
      exact ⟨_, .roundsStopped room (ihSequence placed .sequence).stuck, .run rfl⟩
  | roundsIdle room _ idle ihSequence =>
      cases alike
      obtain ⟨parts', sequence', sameParts⟩ := (ihSequence placed .sequence).parts
      refine ⟨_, .roundsIdle room sequence' idle, .run ?_⟩
      exact congrArg (fun ends => some (ends, _)) sameParts
  | roundsOnward room sequence onward _ ihSequence ihRounds =>
      cases alike
      obtain ⟨parts', sequence', sameParts⟩ := (ihSequence placed .sequence).parts
      have countsNext := (sequence.placed placed _ _ rfl).1
      obtain ⟨found', rounds', same⟩ := (ihRounds countsNext .rounds).run
      refine ⟨_, .roundsOnward room sequence' onward rounds', .run ?_⟩
      rw [Run.ends_behind, Run.ends_behind, sameParts, same]

end Packrat
