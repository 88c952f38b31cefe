import Mathlib.Data.List.Perm.Subperm
import Mathlib.Logic.Relation
import Packrat.Grammar.Aliases

/-!
The order of aliases. It exists exactly if no alias refers to itself, directly or through others
(`Alias.order_settles`, `Alias.Ordered.acyclic`); otherwise the symbol that is reported lies on a
cycle.
-/

set_option autoImplicit false

namespace Packrat.Alias

def find? (aliases : List Alias) (symbol : Symbol) : Option Alias :=
  aliases.find? fun entry => entry.symbol == symbol

def order (aliases : List Alias) : Except Symbol (List Alias) :=
  aliases.foldlM (visit (find? aliases) aliases.length []) []

variable {aliases : List Alias}

def Refers (aliases : List Alias) (symbol target : Symbol) : Prop :=
  ∃ entry, find? aliases symbol = some entry ∧ target ∈ entry.targets

theorem find?_symbol {symbol : Symbol} {entry : Alias} (found : find? aliases symbol = some entry) :
    entry.symbol = symbol := by
  have tagged := List.find?_some found
  simpa using tagged

theorem find?_of_mem {entry : Alias} (distinct : (aliases.map Alias.symbol).Nodup)
    (member : entry ∈ aliases) : find? aliases entry.symbol = some entry := by
  unfold find?
  induction aliases with
  | nil => cases member
  | cons head rest ih =>
      rw [List.map_cons, List.nodup_cons] at distinct
      cases List.mem_cons.1 member with
      | inl same =>
          rw [same]
          exact List.find?_cons_of_pos (beq_self_eq_true head.symbol)
      | inr listed =>
          rw [List.find?_cons_of_neg]
          · exact ih distinct.2 listed
          · intro same
            apply distinct.1
            rw [eq_of_beq same]
            exact List.mem_map_of_mem listed

theorem not_transGen_of_acc {α : Type} {r : α → α → Prop} {a : α}
    (ends : Acc (fun b a => r a b) a) : ¬Relation.TransGen r a a := by
  induction ends with
  | intro a _ ih =>
      intro cycle
      obtain ⟨b, edge, back⟩ := Relation.TransGen.head'_iff.1 cycle
      exact ih b edge (.tail' back edge)

/-! ### Ordered aliases -/

/-- Aliases in an order in which each comes after those that it refers to. -/
inductive Ordered (aliases : List Alias) : List Alias → Prop where
  | nil : Ordered aliases []
  | append {placed : List Alias} {entry : Alias} :
      Ordered aliases placed →
      find? aliases entry.symbol = some entry →
      (∀ target ∈ entry.targets, ∀ other, find? aliases target = some other → other ∈ placed) →
      Ordered aliases (placed ++ [entry])

namespace Ordered

variable {placed : List Alias} {entry : Alias}

theorem find?_eq (ordered : Ordered aliases placed) (member : entry ∈ placed) :
    find? aliases entry.symbol = some entry := by
  induction ordered with
  | nil => cases member
  | append _ isAlias _ ih =>
      cases List.mem_append.1 member with
      | inl earlier => exact ih earlier
      | inr last =>
          cases List.mem_singleton.1 last
          exact isAlias

theorem acc (ordered : Ordered aliases placed) (member : entry ∈ placed) :
    Acc (fun target symbol => Refers aliases symbol target) entry.symbol := by
  induction ordered generalizing entry with
  | nil => cases member
  | append _ isAlias earlier ih =>
      cases List.mem_append.1 member with
      | inl before => exact ih before
      | inr last =>
          cases List.mem_singleton.1 last
          constructor
          intro target refers
          obtain ⟨found, isFound, listed⟩ := refers
          cases isAlias.symm.trans isFound
          cases isTarget : find? aliases target with
          | some other =>
              rw [← find?_symbol isTarget]
              exact ih (earlier target listed other isTarget)
          | none =>
              constructor
              intro next refers
              obtain ⟨other, isOther, -⟩ := refers
              cases isTarget.symm.trans isOther

/-- The targets of an alias that are aliases themselves have been placed with it. -/
theorem closed (ordered : Ordered aliases placed) (member : entry ∈ placed) {target : Symbol}
    (listed : target ∈ entry.targets) {other : Alias}
    (isAlias : find? aliases target = some other) : other ∈ placed := by
  induction ordered generalizing entry with
  | nil => cases member
  | append _ _ earlier ih =>
      apply List.mem_append_left
      cases List.mem_append.1 member with
      | inl before => exact ih before listed
      | inr last =>
          cases List.mem_singleton.1 last
          exact earlier target listed other isAlias

theorem acyclic (ordered : Ordered aliases placed)
    (all : ∀ symbol entry, find? aliases symbol = some entry → entry ∈ placed) (symbol : Symbol) :
    ¬Relation.TransGen (Refers aliases) symbol symbol := by
  intro cycle
  obtain ⟨next, ⟨entry, isAlias, -⟩, -⟩ := Relation.TransGen.head'_iff.1 cycle
  have ends := ordered.acc (all symbol entry isAlias)
  rw [find?_symbol isAlias] at ends
  exact not_transGen_of_acc ends cycle

end Ordered

/-! ### Visiting -/

/-- What it means to place some aliases behind others: all of them come in order, or one lies on a
cycle. -/
def Settles (aliases before entries : List Alias) : Except Symbol (List Alias) → Prop
  | .ok after => Ordered aliases after ∧ before ⊆ after ∧ entries ⊆ after
  | .error symbol => Relation.TransGen (Refers aliases) symbol symbol

theorem foldlM_settles {step : List Alias → Alias → Except Symbol (List Alias)}
    {before entries : List Alias}
    (settles : ∀ entry ∈ entries, ∀ placed, Ordered aliases placed →
      Settles aliases placed [entry] (step placed entry))
    (ordered : Ordered aliases before) :
    Settles aliases before entries (entries.foldlM step before) := by
  induction entries generalizing before with
  | nil => exact ⟨ordered, List.Subset.refl _, List.nil_subset _⟩
  | cons entry rest ih =>
      rw [List.forall_mem_cons] at settles
      rw [List.foldlM_cons]
      have first := settles.1 before ordered
      cases stepped : step before entry with
      | error symbol =>
          rw [stepped] at first
          exact first
      | ok between =>
          rw [stepped] at first
          obtain ⟨orderedBetween, kept, placed⟩ := first
          have others := ih settles.2 orderedBetween
          change Settles aliases before (entry :: rest) (rest.foldlM step between)
          cases folded : rest.foldlM step between with
          | error symbol =>
              rw [folded] at others
              exact others
          | ok after =>
              rw [folded] at others
              obtain ⟨orderedAfter, keptAfter, placedAfter⟩ := others
              refine ⟨orderedAfter, List.Subset.trans kept keptAfter, ?_⟩
              exact List.cons_subset.2
                ⟨keptAfter (placed (List.mem_singleton_self entry)), placedAfter⟩

structure Trail (aliases : List Alias) (path : List Symbol) (symbol : Symbol) : Prop where
  distinct : path.Nodup
  known : path ⊆ aliases.map Alias.symbol
  leads : ∀ earlier ∈ path, Relation.TransGen (Refers aliases) earlier symbol

namespace Trail

variable {path : List Symbol} {symbol : Symbol} {entry : Alias}

theorem nil : Trail aliases [] symbol :=
  ⟨List.nodup_nil, List.nil_subset _, nofun⟩

theorem cons (trail : Trail aliases path entry.symbol)
    (isAlias : find? aliases entry.symbol = some entry) (fresh : entry.symbol ∉ path)
    {target : Symbol} (listed : target ∈ entry.targets) :
    Trail aliases (entry.symbol :: path) target := by
  have edge : Refers aliases entry.symbol target := ⟨entry, isAlias, listed⟩
  constructor
  · exact List.nodup_cons.2 ⟨fresh, trail.distinct⟩
  · exact List.cons_subset.2
      ⟨List.mem_map_of_mem (List.mem_of_find?_eq_some isAlias), trail.known⟩
  · intro earlier member
    cases List.mem_cons.1 member with
    | inl same =>
        rw [same]
        exact .single edge
    | inr before => exact (trail.leads earlier before).tail edge

theorem length_lt (trail : Trail aliases path entry.symbol)
    (isAlias : find? aliases entry.symbol = some entry) (fresh : entry.symbol ∉ path) :
    path.length < aliases.length := by
  have listed : entry.symbol :: path ⊆ aliases.map Alias.symbol :=
    List.cons_subset.2 ⟨List.mem_map_of_mem (List.mem_of_find?_eq_some isAlias), trail.known⟩
  have fits := (List.subperm_of_subset (List.nodup_cons.2 ⟨fresh, trail.distinct⟩) listed).length_le
  rw [List.length_map] at fits
  exact fits

end Trail

theorem settles_placed {placed : List Alias} {entry : Alias} (ordered : Ordered aliases placed)
    (isAlias : find? aliases entry.symbol = some entry)
    (isPlaced : (placed.any fun other => other.symbol == entry.symbol) = true) :
    Settles aliases placed [entry] (.ok placed) := by
  obtain ⟨other, member, same⟩ := List.any_eq_true.1 isPlaced
  have isOther := ordered.find?_eq member
  rw [eq_of_beq same, isAlias] at isOther
  cases isOther
  exact ⟨ordered, List.Subset.refl _, List.cons_subset.2 ⟨member, List.nil_subset _⟩⟩

theorem visit_settles {budget : Nat} {path : List Symbol} {placed : List Alias} {entry : Alias}
    (isAlias : find? aliases entry.symbol = some entry)
    (trail : Trail aliases path entry.symbol) (bounded : path.length + budget = aliases.length)
    (ordered : Ordered aliases placed) :
    Settles aliases placed [entry] (visit (find? aliases) budget path placed entry) := by
  induction budget generalizing path placed entry with
  | zero =>
      rw [visit]
      split
      · next isPlaced => exact settles_placed ordered isAlias isPlaced
      · split
        · next visited => exact trail.leads entry.symbol (List.contains_iff_mem.1 visited)
        · next fresh =>
            have notVisited : entry.symbol ∉ path :=
              fun visited => fresh (List.contains_iff_mem.2 visited)
            have room := trail.length_lt isAlias notVisited
            omega
  | succ budget ih =>
      rw [visit]
      split
      · next isPlaced => exact settles_placed ordered isAlias isPlaced
      · split
        · next visited => exact trail.leads entry.symbol (List.contains_iff_mem.1 visited)
        · next fresh =>
            have notVisited : entry.symbol ∉ path :=
              fun visited => fresh (List.contains_iff_mem.2 visited)
            have targets : Settles aliases placed (entry.targets.filterMap (find? aliases))
                ((entry.targets.filterMap (find? aliases)).foldlM
                  (visit (find? aliases) budget (entry.symbol :: path)) placed) := by
              apply foldlM_settles ?_ ordered
              intro other member placed ordered
              obtain ⟨target, listed, isOther⟩ := List.mem_filterMap.1 member
              have same := find?_symbol isOther
              subst same
              apply ih isOther (trail.cons isAlias notVisited listed) ?_ ordered
              rw [List.length_cons]
              omega
            simp only
            cases folded : (entry.targets.filterMap (find? aliases)).foldlM
                (visit (find? aliases) budget (entry.symbol :: path)) placed with
            | error symbol =>
                rw [folded] at targets
                exact targets
            | ok between =>
                rw [folded] at targets
                obtain ⟨orderedBetween, kept, before⟩ := targets
                refine ⟨orderedBetween.append isAlias ?_, ?_, ?_⟩
                · intro target listed other isOther
                  exact before (List.mem_filterMap.2 ⟨target, listed, isOther⟩)
                · exact List.subset_append_of_subset_left _ kept
                · exact List.subset_append_right _ _

/-- Aliases with different symbols are ordered, or one lies on a cycle. -/
theorem order_settles (distinct : (aliases.map Alias.symbol).Nodup) :
    Settles aliases [] aliases (order aliases) := by
  apply foldlM_settles ?_ .nil
  intro entry member placed ordered
  apply visit_settles (find?_of_mem distinct member) .nil ?_ ordered
  exact Nat.zero_add _

theorem order_eq_ok_iff (distinct : (aliases.map Alias.symbol).Nodup) :
    (∃ ordered, order aliases = .ok ordered) ↔
      ∀ symbol, ¬Relation.TransGen (Refers aliases) symbol symbol := by
  have settles := order_settles distinct
  constructor
  · rintro ⟨after, done⟩
    rw [done] at settles
    obtain ⟨ordered, -, all⟩ := settles
    exact ordered.acyclic fun symbol entry found => all (List.mem_of_find?_eq_some found)
  · intro acyclic
    cases done : order aliases with
    | ok after => exact ⟨after, rfl⟩
    | error symbol =>
        rw [done] at settles
        exact (acyclic symbol settles).elim

end Packrat.Alias
