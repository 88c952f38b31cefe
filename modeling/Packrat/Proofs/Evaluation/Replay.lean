import Packrat.Proofs.Evaluation.Once
import Packrat.Proofs.Evaluation.Worth

/-!
Dialogues in hindsight. A value that has been given stays, whatever value functions do. So a plain
dialogue about the tokens inside a node comes to the same result, with the same notes, as if it were
answered with the values that are known afterwards (`Token.Numbered.replay`).
-/

set_option autoImplicit false

namespace Packrat

variable {V α β : Type}

namespace Query

variable {answers : Nat → List Nat → Option V}

def notes (answers : Nat → List Nat → Option V) : Query V α → List Note
  | .done _ => []
  | .value index path next => (next (answers index path)).notes answers
  | .evaluated _ _ next => (next none).notes answers
  | .lookBack next => (next {}).notes answers
  | .note what next => what :: next.notes answers

theorem notes_bind (query : Query V α) (next : α → Query V β) :
    (query.bind next).notes answers =
      query.notes answers ++ (next (query.settle answers)).notes answers := by
  induction query with
  | done result => rfl
  | value index path _ ih => exact ih (answers index path)
  | evaluated index path _ ih => exact ih none
  | lookBack _ ih => exact ih {}
  | note what _ ih => exact congrArg (what :: ·) ih

/-- Two dialogues one after the other. -/
theorem run_bind {ask : Nat → List Nat → Valuation V → Option V × Valuation V}
    {evaluated : Nat → List Nat → Valuation V → Option Bool} (query : Query V α)
    (next : α → Query V β) (valuation : Valuation V) :
    (query.bind next).run ask evaluated valuation =
      (next (query.run ask evaluated valuation).1).run ask evaluated
        (query.run ask evaluated valuation).2 := by
  induction query generalizing valuation with
  | done result => rfl
  | value index path _ ih => exact ih _ _
  | evaluated index path _ ih => exact ih _ _
  | lookBack _ ih => exact ih _ _
  | note what _ ih => exact ih _

end Query

namespace Lookup

variable {answers : Nat → List Nat → Option V} {scope : Scope V} {cursor : Nat}

theorem notes_bind (lookup : Lookup V α) (next : α → Lookup V β) :
    ((lookup >>= next) scope cursor).notes answers =
      (lookup scope cursor).notes answers ++
        (next ((lookup scope cursor).settle answers).1 scope
          ((lookup scope cursor).settle answers).2).notes answers :=
  Query.notes_bind _ _

variable [Kinded V]

theorem notes_findKind (kind : Kinded.Kind V) (index count : Nat) :
    (findKind kind index count).notes answers = [] := by
  induction count generalizing index with
  | zero => rfl
  | succ count ih =>
      rw [findKind, Query.notes]
      cases answers index [] with
      | none => exact ih (index + 1)
      | some value =>
          dsimp only
          split
          · rfl
          · exact ih (index + 1)

theorem notes_nextOfKind (kind : Kinded.Kind V) :
    (nextOfKind kind scope cursor).notes answers = [] := by
  rw [nextOfKind, Query.notes_bind, notes_findKind, List.nil_append]
  split
  · rfl
  · rfl

end Lookup

variable [Kinded V]

namespace Token

def converse (input : Input V) (token : Token V) (query : Query V α) (valuation : Valuation V) :
    α × Valuation V :=
  query.run (Answers.ask (partAnswers input token.children).toArray)
    (insideEvaluated token.children) valuation

theorem converse_bind (input : Input V) (token : Token V) (lookup : Lookup V α)
    (next : α → Lookup V β) (scope : Scope V) (cursor : Nat) (valuation : Valuation V) :
    token.converse input ((lookup >>= next) scope cursor) valuation =
      token.converse input
        (next (token.converse input (lookup scope cursor) valuation).1.1 scope
          (token.converse input (lookup scope cursor) valuation).1.2)
        (token.converse input (lookup scope cursor) valuation).2 :=
  Query.run_bind _ _ _

abbrev known (token : Token V) (valuation : Valuation V) (index : Nat) (path : List Nat) :
    Option V :=
  (inside? token.children index path).bind valuation.read

/-- What happens while a dialogue about the tokens inside a token is carried out: some of them are
evaluated, and some notes are taken, in this order. Nothing else is reported. -/
inductive Happens (input : Input V) (token : Token V) :
    List Note → Valuation V → Valuation V → Prop where
  | nothing (valuation : Valuation V) : Happens input token [] valuation valuation
  | evaluation {inner : Token V} {notes : List Note} {before after : Valuation V} :
      token.Contains inner → Happens input token notes (inner.evaluate input before) after →
      Happens input token notes before after
  | note {what : Note} {notes : List Note} {before after : Valuation V} :
      Happens input token notes (before.report what.event) after →
      Happens input token (what :: notes) before after

namespace Numbered

variable {input : Input V} {numbering : Numbering V} {token : Token V}

theorem converse_steps (numbered : token.Numbered numbering) (query : Query V α)
    (valuation : Valuation V) :
    Relation.ReflTransGen Valuation.Step valuation (token.converse input query valuation).2 :=
  (Valuation.Advances.run (insideEvaluated token.children) (numbered.ask_advances input) query
    valuation).steps

/-- A plain dialogue in hindsight, from any valuation that its own has become since. -/
theorem replay {query : Query V α} (numbered : token.Numbered numbering) (plain : query.Plain)
    {valuation later : Valuation V}
    (steps : Relation.ReflTransGen Valuation.Step (token.converse input query valuation).2 later) :
    (token.converse input query valuation).1 =
        query.settle (fun index path => (inside? token.children index path).bind later.read) ∧
      Happens input token
        (query.notes fun index path => (inside? token.children index path).bind later.read)
        valuation (token.converse input query valuation).2 := by
  induction plain generalizing valuation with
  | done result => exact ⟨rfl, .nothing valuation⟩
  | @value index path next _ ih =>
      have asked := ask_eq input token.children index path valuation
      cases found : inside? token.children index path with
      | none =>
          rw [found] at asked
          have onward : token.converse input (.value index path next) valuation =
              token.converse input (next none) valuation := by
            rw [converse, Query.run, asked]
            rfl
          rw [onward] at steps ⊢
          rw [Query.settle, Query.notes, found]
          exact ih none steps
      | some inner =>
          rw [found] at asked
          have onward : token.converse input (.value index path next) valuation =
              token.converse input (next ((inner.evaluate input valuation).read inner))
                (inner.evaluate input valuation) := by
            rw [converse, Query.run, asked]
            rfl
          rw [onward] at steps ⊢
          have same : later.read inner = (inner.evaluate input valuation).read inner :=
            Valuation.steps_read
              ((numbered.converse_steps (next _) (inner.evaluate input valuation)).trans steps)
              (inner.evaluated?_evaluate input valuation)
          rw [Query.settle, Query.notes, found, Option.bind_some, same]
          obtain ⟨result, happens⟩ := ih _ steps
          exact ⟨result, .evaluation (contains_of_inside? found) happens⟩
  | @note what next _ ih =>
      obtain ⟨result, happens⟩ := @ih (valuation.report what.event) steps
      exact ⟨result, .note happens⟩

/-- The result alone, of a dialogue that has been carried out. -/
theorem settle_converse {query : Query V α} {result : α} {before after later : Valuation V}
    (numbered : token.Numbered numbering) (plain : query.Plain)
    (called : token.converse input query before = (result, after))
    (steps : Relation.ReflTransGen Valuation.Step after later) :
    result = query.settle (token.known later) := by
  have since :
      Relation.ReflTransGen Valuation.Step (token.converse input query before).2 later := by
    rw [called]
    exact steps
  have settled := (numbered.replay plain since).1
  rw [called] at settled
  exact settled

end Numbered

end Token

end Packrat
