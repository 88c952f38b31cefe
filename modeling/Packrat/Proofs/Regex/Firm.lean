import Mathlib.Data.List.TakeWhile
import Packrat.Regex.Reader

/-!
Reading the pieces of patterns. What is read at the beginning of a text, once it has been read, does
not depend on what stands behind it (`Firm`): an escape (`readEscape?_firm`), a class in brackets
(`Bracket.read?_firm`), and bounds in braces (`Reader.readBounds?_firm`).
-/

set_option autoImplicit false

namespace Packrat.Regex

def Firm {α : Type} (read : List Char → Option (α × List Char)) : Prop :=
  ∀ {cs result rest}, read cs = some (result, rest) → ∀ more,
    read (cs ++ more) = some (result, rest ++ more)

/-- Where characters of a kind end, they end before everything that stands behind. -/
theorem stops_append {p : Char → Bool} {cs rest : List Char} {c : Char}
    (stops : cs.dropWhile p = c :: rest) (more : List Char) :
    (cs ++ more).takeWhile p = cs.takeWhile p ∧ (cs ++ more).dropWhile p = c :: (rest ++ more) := by
  have shorter : (cs.takeWhile p).length ≠ cs.length := by
    have whole := congrArg List.length (List.takeWhile_append_dropWhile (p := p) (l := cs))
    rw [stops, List.length_append, List.length_cons] at whole
    omega
  constructor
  · rw [List.takeWhile_append, if_neg shorter]
  · rw [List.dropWhile_append, stops]
    rfl

/-! ### Escapes -/

section Codes

variable {width : Nat} {c : Char} {cs : List Char}

theorem readCode?_braced (width : Nat) (cs : List Char) :
    readCode? width ('\x7b' :: cs) =
      match cs.dropWhile (· != '\x7d') with
      | _ :: after =>
        if (cs.takeWhile (· != '\x7d')).isEmpty then none
        else ((hexNumber? (cs.takeWhile (· != '\x7d'))).bind charOfCode?).map fun c =>
          (.literal c, after)
      | [] => none :=
  rfl

theorem readCode?_plain (differs : c ≠ '\x7b') :
    readCode? width (c :: cs) =
      if ((c :: cs).take width).length = width then
        ((hexNumber? ((c :: cs).take width)).bind charOfCode?).map fun code =>
          (.literal code, (c :: cs).drop width)
      else none := by
  rw [readCode?]
  exact fun _ same => differs (List.cons.inj same).1

theorem readCode?_nil (positive : 0 < width) : readCode? width [] = none := by
  rw [readCode?]
  · rw [List.take_nil, List.length_nil, if_neg (Nat.ne_of_lt positive)]
  · exact nofun

theorem readCode?_firm (positive : 0 < width) : Firm (readCode? width) := by
  intro cs atom rest done more
  cases cs with
  | nil => cases (readCode?_nil positive).symm.trans done
  | cons c cs =>
      by_cases braced : c = '\x7b'
      · subst braced
        rw [List.cons_append, readCode?_braced]
        rw [readCode?_braced] at done
        split at done
        · next d after stops =>
            obtain ⟨taken, dropped⟩ := stops_append stops more
            rw [taken, dropped]
            dsimp only
            split at done
            · cases done
            · next present =>
                obtain ⟨code, isCode, same⟩ := Option.map_eq_some_iff.1 done
                cases same
                rw [if_neg present, isCode]
                rfl
        · cases done
      · rw [List.cons_append, readCode?_plain braced]
        rw [readCode?_plain braced] at done
        split at done
        · next enough =>
            have fits : width ≤ (c :: cs).length := by
              rw [List.length_take] at enough
              omega
            obtain ⟨code, isCode, same⟩ := Option.map_eq_some_iff.1 done
            cases same
            rw [← List.cons_append, List.take_append_of_le_length fits, if_pos enough, isCode,
              List.drop_append_of_le_length fits]
            rfl
        · cases done

end Codes

theorem readEscape?_firm : Firm readEscape? := by
  intro cs atom rest done more
  unfold readEscape? at done
  split at done
  · cases done
  · exact readCode?_firm (by decide) done more
  · exact readCode?_firm (by decide) done more
  · exact readCode?_firm (by decide) done more
  all_goals try (cases done; rfl)
  next c others _ _ _ _ _ _ _ _ _ _ _ _ _ _ _ _ _ _ _ _ _ =>
      split at done
      · next punctuation =>
          cases done
          rw [List.cons_append, readEscape?]
          · rw [if_pos punctuation]
          all_goals assumption
      · cases done

/-! ### Classes -/

namespace Bracket

theorem readMember?_firm : Firm readMember? := by
  intro cs atom rest done more
  unfold readMember? at done
  split at done
  · cases done
  · exact readEscape?_firm done more
  · next c others notEscape =>
      cases done
      rw [List.cons_append, readMember?]
      exact notEscape

section Ranges

variable {cs after : List Char} {low : Atom} {c : Char}

theorem readRange?_ended (isLow : readMember? cs = some (low, [])) : readRange? cs = none := by
  rw [readRange?, isLow]
  rfl

theorem readRange?_single (isLow : readMember? cs = some (low, c :: after)) (differs : c ≠ '-') :
    readRange? cs = (memberSet? low).map fun set => (set, c :: after) := by
  rw [readRange?, isLow, Option.map_eq_bind]
  simp only [Option.bind_eq_bind, Option.bind_some]
  split
  · next same => cases same
  · next same =>
      cases same
      exact absurd rfl differs
  · rfl

def rangeOf? : Atom → Atom → Option CharSet
  | .literal first, .literal last => if first ≤ last then some (.range first last) else none
  | _, _ => none

/-- A hyphen stands for itself before a closing bracket and before another hyphen. -/
theorem readRange?_hyphen (isLow : readMember? cs = some (low, '-' :: after)) :
    readRange? cs =
      if after.head? = some ']' ∨ after.head? = some '-' then
        (memberSet? low).map fun set => (set, '-' :: after)
      else
        (readMember? after).bind fun high =>
          (rangeOf? low high.1).map fun set => (set, high.2) := by
  rw [readRange?, isLow, Option.map_eq_bind]
  simp only [Option.bind_eq_bind, Option.bind_some]
  congr 1
  cases readMember? after with
  | none => rfl
  | some high =>
      rcases high with ⟨high, behind⟩
      rw [Option.bind_some, Option.bind_some]
      cases low <;> cases high <;> try rfl
      rw [rangeOf?]
      dsimp only
      split <;> rfl

theorem readRange?_one (c : Char) : readRange? [c] = none := by
  by_cases isEscape : c = '\\'
  · subst isEscape
    rfl
  · have isMember : readMember? [c] = some (.literal c, []) := by
      rw [readMember?]
      exact isEscape
    exact readRange?_ended isMember

theorem readRange?_firm : Firm readRange? := by
  intro cs set rest done more
  cases isLow : readMember? cs with
  | none =>
      rw [readRange?, isLow] at done
      cases done
  | some found =>
      rcases found with ⟨low, _ | ⟨c, behind⟩⟩
      · cases (readRange?_ended isLow).symm.trans done
      · have isLow' := readMember?_firm isLow more
        by_cases hyphen : c = '-'
        · subst hyphen
          rw [readRange?_hyphen isLow] at done
          rw [readRange?_hyphen isLow']
          cases behind with
          | nil => cases done
          | cons d after =>
              have sameHead : ((d :: after).append more).head? = (d :: after).head? := rfl
              rw [sameHead]
              split at done
              · next isSingle =>
                  obtain ⟨single, isSet, same⟩ := Option.map_eq_some_iff.1 done
                  cases same
                  rw [if_pos isSingle, isSet]
                  rfl
              · next isRange =>
                  obtain ⟨⟨high, left⟩, isHigh, bounds⟩ := Option.bind_eq_some_iff.1 done
                  obtain ⟨range, ordered, same⟩ := Option.map_eq_some_iff.1 bounds
                  cases same
                  have isHigh' := readMember?_firm isHigh more
                  rw [if_neg isRange]
                  change (readMember? (d :: after ++ more)).bind _ = _
                  rw [isHigh', Option.bind_some, ordered]
                  rfl
        · rw [readRange?_single isLow hyphen] at done
          obtain ⟨single, isSet, same⟩ := Option.map_eq_some_iff.1 done
          cases same
          rw [readRange?_single isLow' hyphen, isSet]
          rfl

end Ranges

def openBehind? (negated : Bool) (cs : List Char) : Option (Bracket × List Char) :=
  let bracket : Bracket := (cs.takeWhile (· == '-')).foldl
    (fun bracket c => bracket.add ⟨.one c, 0⟩) ⟨negated, none, .none, 0, 0⟩
  match cs.takeWhile (· == '-'), cs.dropWhile (· == '-') with
  | _, [] => none
  | [], ']' :: rest => if rest.isEmpty then none else some (bracket.add ⟨.one ']', 0⟩, rest)
  | _, rest => some (bracket, rest)

theorem openBehind?_firm (negated : Bool) : Firm (openBehind? negated) := by
  intro cs bracket rest done more
  unfold openBehind? at done ⊢
  cases stops : cs.dropWhile (· == '-') with
  | nil =>
      rw [stops] at done
      cases done
  | cons c behind =>
      obtain ⟨taken, dropped⟩ := stops_append stops more
      rw [stops] at done
      rw [taken, dropped]
      dsimp only at done ⊢
      split at done
      · next same => cases same
      · next others isEmpty same =>
          cases same
          rw [isEmpty] at done ⊢
          split at done
          · cases done
          · next present =>
              cases done
              have present' : ¬ (rest ++ more).isEmpty = true := by
                rw [List.isEmpty_iff, List.append_eq_nil_iff, ← List.isEmpty_iff]
                exact fun both => present both.1
              exact if_neg present'
      · next notEnd notClose =>
          cases done
          split
          · next same => cases same
          · next same =>
              cases same
              exact absurd rfl (notClose _ ‹_›)
          · rfl

theorem open?_eq (c : Char) (cs : List Char) :
    open? (c :: cs) = if c = '^' then openBehind? true cs else openBehind? false (c :: cs) := by
  split
  · next same =>
      subst same
      rfl
  · next differs =>
      unfold open?
      split
      next same =>
        split at same
        · next caret => exact absurd (List.cons.inj caret).1 differs
        · cases same
          rfl

theorem open?_firm : Firm open? := by
  intro cs bracket rest done more
  cases cs with
  | nil => cases done
  | cons c cs =>
      rw [open?_eq] at done
      rw [List.cons_append, open?_eq]
      split at done
      · next caret =>
          rw [if_pos caret]
          exact openBehind?_firm true done more
      · next other =>
          rw [if_neg other]
          exact openBehind?_firm false done more

theorem readOn?_firm {ignoreCase : Bool} {budget budget' : Nat} {bracket : Bracket}
    {outer : List Bracket} {cs rest : List Char} {listed : Listed}
    (done : readOn? ignoreCase budget bracket outer cs = some (listed, rest))
    (enough : budget ≤ budget') (more : List Char) :
    readOn? ignoreCase budget' bracket outer (cs ++ more) = some (listed, rest ++ more) := by
  induction budget generalizing budget' bracket outer cs with
  | zero => cases done
  | succ budget ih =>
      obtain ⟨budget', rfl⟩ : ∃ smaller, budget' = smaller + 1 := ⟨budget' - 1, by omega⟩
      have smaller : budget ≤ budget' := by omega
      unfold readOn? at done
      split at done
      · cases done
      · next others =>
          obtain ⟨⟨inner, behind⟩, isOpen, isRead⟩ := Option.bind_eq_some_iff.1 done
          rw [List.cons_append, readOn?, open?_firm isOpen more]
          exact ih isRead smaller
      · next others =>
          cases outer with
          | nil =>
              cases done
              rfl
          | cons parent outer =>
              have closed : readOn? ignoreCase budget' (parent.add (bracket.close ignoreCase)) outer
                  (others ++ more) = some (listed, rest ++ more) := ih done smaller
              exact closed
      · have behind := ih done smaller
        exact behind
      · have behind := ih done smaller
        exact behind
      · have behind := ih done smaller
        exact behind
      · next noOpen noClose noInter noDiff noSymm =>
          obtain ⟨⟨set, behind⟩, isRange, isRead⟩ := Option.bind_eq_some_iff.1 done
          rcases cs with _ | ⟨c, _ | ⟨d, others⟩⟩
          · cases isRange
          · cases (readRange?_one c).symm.trans isRange
          · rw [readOn?, readRange?_firm isRange more]
            · exact ih isRead smaller
            · exact nofun
            all_goals
              rintro _ ⟨⟩
              first
              | exact noOpen _ rfl
              | exact noClose _ rfl
              | exact noInter _ rfl
              | exact noDiff _ rfl
              | exact noSymm _ rfl

theorem read?_firm (ignoreCase : Bool) : Firm (read? ignoreCase) := by
  intro cs listed rest done more
  obtain ⟨⟨bracket, behind⟩, isOpen, isRead⟩ := Option.bind_eq_some_iff.1 done
  rw [read?, open?_firm isOpen more]
  refine readOn?_firm isRead ?_ more
  rw [List.length_append]
  omega

end Bracket

/-! ### Bounds -/

namespace Reader

theorem exists_cons_of_dropWhile {p : Char → Bool} {cs rest : List Char} {c : Char}
    (stops : cs.dropWhile p = c :: rest) : ∃ d others, cs = d :: others := by
  cases cs with
  | nil => cases stops
  | cons d others => exact ⟨d, others, rfl⟩

theorem readCount?_append {cs rest : List Char} {value : Option Nat} {c : Char}
    (done : readCount? cs = (value, c :: rest)) (more : List Char) :
    readCount? (cs ++ more) = (value, c :: (rest ++ more)) := by
  obtain ⟨isValue, isRest⟩ := Prod.mk.inj done
  obtain ⟨d, afterDigits, stopsDigits⟩ := exists_cons_of_dropWhile isRest
  obtain ⟨e, number, stopsBlank⟩ := exists_cons_of_dropWhile stopsDigits
  have blank := (stops_append stopsBlank more).2
  have digits := stops_append stopsDigits more
  rw [stopsBlank, List.cons_append] at digits
  have behind := (stops_append isRest more).2
  rw [stopsDigits, List.cons_append] at behind
  rw [stopsBlank] at isValue
  simp only [readCount?, blank, digits.1, digits.2, behind, isValue]

theorem readBounds?_firm : Firm readBounds? := by
  intro cs bounds rest done more
  unfold readBounds? at done
  split at done
  · next min others count =>
      cases done
      rw [readBounds?, readCount?_append count more]
      rfl
  · next min others count =>
      cases done
      rw [readBounds?, readCount?_append count more]
      rfl
  · next min others notEnd count =>
      split at done
      · next max others' count' =>
          split at done
          · next ordered =>
            cases done
            have present : others ≠ [] := by
              rintro rfl
              cases count'
            obtain ⟨c, behind, rfl⟩ := List.exists_cons_of_ne_nil present
            rw [readBounds?, readCount?_append count more]
            split
            · next same => cases same
            · next same =>
                cases same
                exact (notEnd _ rfl).elim
            · next same =>
                cases same
                rw [readCount?_append count' more]
                exact if_pos ordered
            · next impossible => exact (impossible _ _ rfl).elim
          · cases done
      · cases done
  · cases done

end Reader

end Packrat.Regex
