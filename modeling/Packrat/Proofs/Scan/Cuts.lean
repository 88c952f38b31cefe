import Packrat.Scanner

/-!
Scanners cut between characters: the number of bytes that a scanner reports is the size of a
beginning of the text (`Scanner.scan_cuts`).
-/

set_option autoImplicit false

namespace Packrat

open Text (HasCut)

namespace Scanner

theorem scanPattern_cuts {pattern : Pattern} {text : List Char} {length : Nat}
    (scanned : scanPattern pattern text = some length) : HasCut text length := by
  obtain ⟨⟨start, stop⟩, isFound, rfl⟩ := Option.map_eq_some_iff.1 scanned
  exact pattern.ends isFound

theorem scanWord_cuts {word text : List Char} {length : Nat}
    (scanned : scanWord word text = some length) : HasCut text length := by
  unfold scanWord at scanned
  split at scanned
  · next begins =>
      cases scanned
      exact .of_beginning (List.isPrefixOf_iff_prefix.1 begins)
  · cases scanned

theorem scanFixed_cuts {count : Nat} {text : List Char} {length : Nat}
    (scanned : scanFixed count text = some length) : HasCut text length := by
  simp only [scanFixed] at scanned
  split at scanned
  · cases scanned
    exact .of_beginning (List.take_prefix count text)
  · cases scanned

/-! ### Choices -/

theorem foldl_longer_mem {lengths : List (Option Nat)} {best : Option Nat} {length : Nat}
    (folded : lengths.foldl longer best = some length) :
    best = some length ∨ some length ∈ lengths := by
  induction lengths generalizing best with
  | nil => exact .inl folded
  | cons head rest ih =>
      rcases ih folded with chosen | later
      · cases best with
        | none =>
            refine .inr ?_
            rw [longer] at chosen
            rw [chosen]
            exact List.mem_cons_self
        | some first =>
            cases head with
            | none => exact .inl chosen
            | some second =>
                rw [longer, Option.some.injEq] at chosen
                rcases Nat.le_total first second with small | small
                · rw [Nat.max_eq_right small] at chosen
                  subst chosen
                  exact .inr List.mem_cons_self
                · rw [Nat.max_eq_left small] at chosen
                  subst chosen
                  exact .inl rfl
      · exact .inr (List.mem_cons_of_mem _ later)

theorem longest_mem {lengths : List (Option Nat)} {length : Nat}
    (chosen : longest lengths = some length) : some length ∈ lengths := by
  rcases foldl_longer_mem chosen with none_ | member
  · cases none_
  · exact member

theorem longest_map_cuts {α : Type} {scan : α → Option Nat} {list : List α} {text : List Char}
    {length : Nat} (cuts : ∀ entry length, scan entry = some length → HasCut text length)
    (chosen : longest (list.map scan) = some length) : HasCut text length := by
  obtain ⟨entry, -, scanned⟩ := List.mem_map.1 (longest_mem chosen)
  exact cuts entry length scanned

/-! ### Repetitions -/

theorem stop_cuts {min reached before length : Nat} {text : List Char}
    (stop : (if min ≤ reached then some before else none) = some length) :
    ∃ more, length = before + more ∧ HasCut text more := by
  split at stop
  · cases stop
    exact ⟨0, rfl, .zero text⟩
  · cases stop

theorem scanPasses_cuts {scan : List Char → Option Nat} {min : Nat} {max : Option Nat}
    {budget count before : Nat} {text : List Char} {length : Nat}
    (scanned : scanPasses scan min max budget count before text = some length) :
    ∃ more, length = before + more ∧ HasCut text more := by
  induction budget generalizing count before text with
  | zero =>
      unfold scanPasses at scanned
      dsimp only at scanned
      split at scanned
      · exact stop_cuts scanned
      · split at scanned
        · exact stop_cuts scanned
        · exact stop_cuts scanned
        · cases scanned
  | succ budget ih =>
      unfold scanPasses at scanned
      dsimp only at scanned
      split at scanned
      · exact stop_cuts scanned
      · split at scanned
        · exact stop_cuts scanned
        · exact stop_cuts scanned
        · next bytes _ =>
            split at scanned
            · next rest same dropped =>
                cases same
                obtain ⟨more, rfl, cut⟩ := ih scanned
                exact ⟨bytes + 1 + more, by omega, cut.behind dropped⟩
            · cases scanned

mutual

/-- What a scanner reports is the size of a beginning of the text. -/
theorem scan_cuts (scanner : Scanner) (text : List Char) (length : Nat)
    (scanned : scanner.scan text = some length) : HasCut text length := by
  cases scanner with
  | words list =>
      rw [scan] at scanned
      exact longest_map_cuts (fun _ _ => scanWord_cuts) scanned
  | patterns list =>
      rw [scan] at scanned
      exact longest_map_cuts (fun _ _ => scanPattern_cuts) scanned
  | fixed count =>
      rw [scan] at scanned
      exact scanFixed_cuts scanned
  | join parts =>
      rw [scan] at scanned
      exact scanJoin_cuts parts text length scanned
  | any choices =>
      rw [scan] at scanned
      exact scanEach_cuts choices text length (longest_mem scanned)
  | repeated inner min max =>
      rw [scan] at scanned
      obtain ⟨more, same, cut⟩ := scanPasses_cuts scanned
      rw [same, Nat.zero_add]
      exact cut

theorem scanJoin_cuts (parts : List Scanner) (text : List Char) (length : Nat)
    (scanned : scanJoin parts text = some length) : HasCut text length := by
  cases parts with
  | nil =>
      cases scanned
      exact .zero text
  | cons scanner rest =>
      simp only [scanJoin, Option.bind_eq_bind, Option.bind_eq_some_iff] at scanned
      obtain ⟨first, isFirst, remaining, dropped, more, isMore, same⟩ := scanned
      cases same
      exact (scanJoin_cuts rest remaining more isMore).behind dropped

theorem scanEach_cuts (choices : List Scanner) (text : List Char) (length : Nat)
    (member : some length ∈ scanEach choices text) : HasCut text length := by
  cases choices with
  | nil => cases member
  | cons scanner rest =>
      rw [scanEach] at member
      rcases List.mem_cons.1 member with here | later
      · exact scan_cuts scanner text length here.symm
      · exact scanEach_cuts rest text length later

end

end Scanner

end Packrat
