import Packrat.Proofs.Json.Values
import Packrat.Proofs.Reading.Steps

/-!
Every document that stands at a place of a text is read there. Documents are followed by a comma, a
closing bracket or the end of the text, and atoms do not reach over these (`Closes`). An array or an
object cannot be confused with anything else, since its first character is a bracket.
-/

set_option autoImplicit false

namespace Packrat.Json

theorem blank_closes (c : Char) (blank : ready.isBlank c = true) : closers.mem c = true :=
  Grammar.blank_mem (by decide) c blank

def Closes (more : List (List Char)) : Prop :=
  Led ready.isBlank closers more

section Places

variable {source : List Char} {cursor : Position} {landing : Landing}
  {lexemes more : List (List Char)}

theorem Atom.led (atom : Atom) (more : List (List Char)) :
    Led ready.isBlank atomStarts (atom.text :: more) := by
  obtain ⟨c, tail, isText, isStart⟩ := atom.begins
  rw [isText]
  refine .cons (eq_false_of_ne_true fun blank => ?_) isStart
  have apart : atomStarts.Apart closers := by decide
  cases (blank_closes c blank).symm.trans (apart.not_mem isStart)

def lone (tree : Tree Json) : List (Branch Json) × Position :=
  ([⟨none, tree⟩], tree.stop)

theorem parses_value {scalar array object : Option (Tree Json)}
    (landed : (sourced source).land cursor = .ok landing)
    (isScalar : Parses (sourced source) (.resolve landing.position scalarSymbol) (.tree scalar))
    (isArray : Parses (sourced source) (.resolve landing.position arraySymbol) (.tree array))
    (isObject : Parses (sourced source) (.resolve landing.position objectSymbol) (.tree object)) :
    Parses (sourced source) (.resolve landing.position valueSymbol)
      (.tree (Parses.bestFrom valueSymbol 0
        [scalar.map lone, array.map lone, object.map lone] none)) := by
  have tried {symbol : Symbol} {found : Option (Tree Json)}
      (resolves : Parses (sourced source) (.resolve landing.position symbol) (.tree found)) :
      Parses (sourced source) (.sequence (passing symbol).elements landing.position)
        (.run (found.map lone)) := by
    have referred : Parses (sourced source) (.element (.symbol symbol) landing.position)
        (.run (found.map lone)) := .reference rfl (Input.land_again landed) resolves
    cases found with
    | none => exact .sequenceStuck referred
    | some tree => exact .step referred .sequenceDone
  refine Parses.plain (show ready.rule? valueSymbol = some valueRule from rfl) (by decide) ?_
  exact .cons (tried isScalar) (.cons (tried isArray) (.cons (tried isObject) .nil))

/-! ### Brackets -/

theorem parses_enclosed (symbol : Symbol) (opening closing : String) {body : List Element}
    {value : Lookup Json (Option Json)} {stop : Position} {parts : List (Branch Json)}
    {last : Landing}
    (isRule : (sourced source).grammar.rule? symbol =
      some (enclosed symbol opening closing body value))
    (faces : (sourced source).Faces cursor (opening.toList :: lexemes) landing)
    (inside : Parses (sourced source)
      (.element (.optional body) (landing.position.through opening.toList))
      (.run (some (parts, stop))))
    (facesLast : (sourced source).Faces stop (closing.toList :: more) last) :
    Parses (sourced source) (.resolve landing.position symbol)
      (.tree (some (.node symbol 0 landing.position (last.position.through closing.toList)
        (⟨none, .word opening.toList landing.position⟩ ::
          (parts ++ [⟨none, .word closing.toList last.position⟩]))))) := by
  have sequence := Parses.step (Parses.literal_found opening faces.settled)
    (.step inside (.step (Parses.literal_found closing facesLast) .sequenceDone))
  have whole := Parses.plain isRule (by simp [enclosed]) (.cons sequence .nil)
  simpa [Parses.bestFrom, Tree.better, Tree.ofRun?, Tree.over?, Tree.word, Tree.start, Tree.stop,
    Landing.settled, List.getLast?_cons, List.getLast?_append] using whole

theorem parses_unopened (symbol : Symbol) (opening closing : String) {body : List Element}
    {value : Lookup Json (Option Json)} {c : Char} {tail : List Char}
    (isRule : (sourced source).grammar.rule? symbol =
      some (enclosed symbol opening closing body value))
    (begins : opening.toList = c :: tail)
    (faces : (sourced source).Faces cursor lexemes landing)
    (differs : firstOf lexemes ≠ some c) :
    Parses (sourced source) (.resolve landing.position symbol) (.tree none) :=
  Parses.plain isRule (by simp [enclosed])
    (.cons (.sequenceStuck (Parses.literal_missing opening begins faces.settled differs)) .nil)

/-! ### What does not stand at a place -/

theorem no_array (faces : (sourced source).Faces cursor lexemes landing)
    (differs : firstOf lexemes ≠ some '[') :
    Parses (sourced source) (.resolve landing.position arraySymbol) (.tree none) :=
  parses_unopened arraySymbol "[" "]" rfl rfl faces differs

theorem no_object (faces : (sourced source).Faces cursor lexemes landing)
    (differs : firstOf lexemes ≠ some '\x7b') :
    Parses (sourced source) (.resolve landing.position objectSymbol) (.tree none) :=
  parses_unopened objectSymbol "\x7b" "\x7d" rfl rfl faces differs

theorem no_scalar (faces : (sourced source).Faces cursor lexemes landing)
    (differs : ∀ c, firstOf lexemes = some c → atomStarts.mem c = false) :
    Parses (sourced source) (.resolve landing.position scalarSymbol) (.tree none) := by
  rw [← faces.head?] at differs
  exact .leaf faces.landed rfl (no_atom differs)

theorem no_item {rest : List Element} (ahead : (sourced source).Awaits cursor ([']'] :: more)) :
    Parses (sourced source) (.sequence (.labelled valueSymbol itemLabel :: rest) cursor)
      (.run none) := by
  obtain ⟨landing, faces⟩ := ahead.faces (.cons rfl)
  have missing := parses_value faces.landed
    (no_scalar faces (by rintro c ⟨⟩; decide)) (no_array faces (by simp [firstOf]))
    (no_object faces (by simp [firstOf]))
  exact .sequenceStuck (.reference rfl faces.landed missing)

theorem no_name {rest : List Element} (ahead : (sourced source).Awaits cursor (['\x7d'] :: more)) :
    Parses (sourced source) (.sequence (.labelled stringSymbol keyLabel :: rest) cursor)
      (.run none) := by
  obtain ⟨landing, faces⟩ := ahead.faces (.cons rfl)
  have starts : ∀ c, landing.settled.rest.head? = some c → quotes.mem c = false := by
    intro c isHead
    cases faces.head?.symm.trans isHead
    decide
  exact .sequenceStuck (.reference rfl faces.landed (.leaf faces.landed rfl (no_string starts)))

end Places

/-! ### Documents -/

section Documents

variable {source : List Char} {cursor : Position} {lexemes more : List (List Char)}

theorem Atom.reads (atom : Atom) (closes : Closes more)
    (ahead : (sourced source).Awaits cursor (atom.text :: more)) :
    ∃ landing tree, (Document.atom atom).Shows tree ∧
      (sourced source).Reads valueSymbol cursor more landing tree := by
  have led := atom.led more
  obtain ⟨landing, faces⟩ := ahead.faces led.solid
  obtain ⟨after, split, spaced, -⟩ := faces.onward rfl
  have scalar := Parses.leaf_reads faces led.solid.covers rfl
    (atom.found split (closes.ends blank_closes spaced))
  have noBracket {c : Char} (apart : atomStarts.mem c = false) :
      firstOf (atom.text :: more) ≠ some c := by
    intro isFirst
    cases apart.symm.trans (led.first isFirst)
  exact ⟨landing, _, .atom, faces.landed,
    parses_value faces.landed scalar.resolves (no_array faces (noBracket (by decide)))
      (no_object faces (noBracket (by decide))), scalar.forward, scalar.onward⟩

theorem enclosed_reads (symbol : Symbol) (opening closing : String) {body : List Element}
    {value : Lookup Json (Option Json)} {shown : List (Branch Json) → Prop}
    (isRule : ready.rule? symbol = some (enclosed symbol opening closing body value))
    (opens : Solid ready.isBlank (opening.toList :: lexemes))
    (closes : Solid ready.isBlank (closing.toList :: more))
    (ahead : (sourced source).Awaits cursor (opening.toList :: lexemes))
    (inside : ∀ next, (sourced source).Awaits next lexemes → ∃ parts stop,
      Parses (sourced source) (.element (.optional body) next) (.run (some (parts, stop))) ∧
        shown parts ∧ next.offset ≤ stop.offset ∧
          (sourced source).Awaits stop (closing.toList :: more)) :
    ∃ landing parts first last stop,
      (sourced source).Faces cursor (opening.toList :: lexemes) landing ∧
        Parses (sourced source) (.resolve landing.position symbol)
          (.tree (some (.node symbol 0 landing.position stop
            (⟨none, first⟩ :: (parts ++ [⟨none, last⟩]))))) ∧
          shown parts ∧ cursor.offset < stop.offset ∧ (sourced source).Awaits stop more := by
  obtain ⟨landing, faces⟩ := ahead.faces opens
  obtain ⟨-, -, -, behind⟩ := faces.onward rfl
  obtain ⟨parts, stop, isBody, isShown, forward, atEnd⟩ := inside _ behind
  obtain ⟨last, facesLast⟩ := atEnd.faces closes
  obtain ⟨-, -, -, onward⟩ := facesLast.onward rfl
  have beforeBody := Input.through_forward opening.toList faces.landed opens.covers
  have behindBody := Input.through_forward closing.toList facesLast.landed closes.covers
  exact ⟨landing, parts, _, _, _, faces,
    parses_enclosed symbol opening closing isRule faces isBody facesLast, isShown,
    Nat.lt_of_lt_of_le beforeBody (Nat.le_trans forward (Nat.le_of_lt behindBody)), onward⟩

theorem closes_rows {c : Char} (rows : List (List (List Char)))
    (apart : ready.isBlank c = false) (closes : closers.mem c = true) :
    Closes (rows.flatMap ([','] :: ·) ++ [c] :: more) := by
  cases rows with
  | nil => exact .cons apart closes
  | cons row others => exact .cons rfl rfl

theorem no_further {rest : List Element} {count : Nat} {c : Char} (differs : c ≠ ',')
    (solid : Solid ready.isBlank ([c] :: more))
    (ahead : (sourced source).Awaits cursor ([c] :: more)) :
    Parses (sourced source) (.rounds (.literal "," :: rest) 0 none count cursor)
      (.run (some ([], cursor))) := by
  obtain ⟨landing, faces⟩ := ahead.faces solid
  have isOther : firstOf ([c] :: more) ≠ some ',' :=
    fun same => differs (Option.some.inj same)
  exact .no_round (.sequenceStuck (.literal_missing "," rfl faces isOther))

theorem Key.reads (key : Key) (ahead : (sourced source).Awaits cursor (key.text :: more)) :
    ∃ landing start stop, (sourced source).Reads stringSymbol cursor more landing
      (.leaf stringSymbol key.text start stop (some (stringValue key.text))) := by
  have led := (Atom.string key.text key.isString).led more
  obtain ⟨landing, faces⟩ := ahead.faces led.solid
  obtain ⟨after, split, -, -⟩ := faces.onward rfl
  exact ⟨landing, _, _, Parses.leaf_reads faces led.solid.covers rfl
    ((string_leaf landing.settled).trans (string_found split key.isString))⟩

theorem member_reads {key : Key} {value : Document}
    (ahead : (sourced source).Awaits cursor (key.text :: [':'] :: (value.lexemes ++ more)))
    (reads : ∀ next, (sourced source).Awaits next (value.lexemes ++ more) →
      ∃ landing tree, value.Shows tree ∧
        (sourced source).Reads valueSymbol next more landing tree) :
    ∃ start finish colon tree, value.Shows tree ∧ cursor.offset < tree.stop.offset ∧
      (sourced source).Awaits tree.stop more ∧
      ∀ rest parts stop, Parses (sourced source) (.sequence rest tree.stop)
          (.run (some (parts, stop))) →
        Parses (sourced source) (.sequence (member ++ rest) cursor)
          (.run (some (
            ⟨some keyLabel,
              .leaf stringSymbol key.text start finish (some (stringValue key.text))⟩ ::
            ⟨none, colon⟩ :: ⟨some valueLabel, tree⟩ :: parts, stop))) := by
  obtain ⟨landing, start, finish, name⟩ := key.reads ahead
  obtain ⟨colon, faces⟩ := name.onward.faces (.cons rfl)
  obtain ⟨-, -, -, behind⟩ := faces.onward rfl
  have passed := Input.through_forward [':'] faces.landed (by decide)
  obtain ⟨_, tree, shown, read⟩ := reads _ behind
  refine ⟨start, finish, .word [':'] colon.position, tree, shown,
    Nat.lt_trans name.forward (Nat.lt_trans passed read.forward), read.onward, ?_⟩
  intro rest parts stop others
  exact .step (.labelled keyLabel name) (.step (.literal_found ":" faces)
    (.step (.labelled valueLabel read) others))

end Documents

section Runs

variable {source : List Char}

mutual

theorem Document.reads (document : Document) {cursor : Position} {more : List (List Char)}
    (closes : Closes more) (ahead : (sourced source).Awaits cursor (document.lexemes ++ more)) :
    ∃ landing tree, document.Shows tree ∧
      (sourced source).Reads valueSymbol cursor more landing tree := by
  cases document with
  | atom content => exact content.reads closes ahead
  | array items =>
      have ahead' : (sourced source).Awaits cursor
          (['['] :: (separated (Document.itemRows items) ++ [']'] :: more)) := by
        simpa [Document.lexemes] using ahead
      obtain ⟨landing, parts, first, last, stop, faces, isArray, shown, forward, onward⟩ :=
        enclosed_reads arraySymbol "[" "]" rfl (.cons rfl) (.cons rfl) ahead'
          fun next inside => Items.reads items inside
      refine ⟨landing, _, .array ?_, faces.landed,
        parses_value faces.landed (no_scalar faces ?_) isArray (no_object faces ?_), forward,
        onward⟩
      · simpa using shown
      · rintro c ⟨⟩
        decide
      · simp [firstOf]
  | object members =>
      have ahead' : (sourced source).Awaits cursor
          (['\x7b'] :: (separated (Document.memberRows members) ++ ['\x7d'] :: more)) := by
        simpa [Document.lexemes] using ahead
      obtain ⟨landing, parts, first, last, stop, faces, isObject, shown, forward, onward⟩ :=
        enclosed_reads objectSymbol "\x7b" "\x7d" rfl (.cons rfl) (.cons rfl) ahead'
          fun next inside => Members.reads members inside
      refine ⟨landing, _, .object ?_, faces.landed,
        parses_value faces.landed (no_scalar faces ?_) (no_array faces ?_) isObject, forward,
        onward⟩
      · simpa using shown
      · rintro c ⟨⟩
        decide
      · simp [firstOf]

theorem Items.reads (items : List Document) {cursor : Position} {more : List (List Char)}
    (ahead : (sourced source).Awaits cursor
      (separated (Document.itemRows items) ++ [']'] :: more)) :
    ∃ parts stop, Parses (sourced source)
        (.element (.optional [.labelled valueSymbol itemLabel, .many furtherItems]) cursor)
        (.run (some (parts, stop))) ∧
      Items.Show items (labelled itemLabel parts) ∧ cursor.offset ≤ stop.offset ∧
        (sourced source).Awaits stop ([']'] :: more) := by
  cases items with
  | nil => exact ⟨[], cursor, .optional_none (no_item ahead), .nil, Nat.le_refl _, ahead⟩
  | cons item others =>
      have ahead' : (sourced source).Awaits cursor (item.lexemes ++
          ((Document.itemRows others).flatMap ([','] :: ·) ++ [']'] :: more)) := by
        simpa [Document.itemRows, separated] using ahead
      obtain ⟨landing, tree, shownItem, read⟩ := Document.reads item (closes_rows _ rfl rfl) ahead'
      obtain ⟨parts, stop, rounds, shown, forward, onward⟩ :=
        Items.reads_further others 0 read.onward
      have run := Parses.step (.labelled itemLabel read)
        (.step (.repeated rounds) .sequenceDone)
      refine ⟨_, stop, .optional_some run (Nat.lt_of_lt_of_le read.forward forward), ?_,
        Nat.le_of_lt (Nat.lt_of_lt_of_le read.forward forward), onward⟩
      simpa using Items.Show.cons shownItem shown

theorem Items.reads_further (items : List Document) (count : Nat) {cursor : Position}
    {more : List (List Char)}
    (ahead : (sourced source).Awaits cursor
      ((Document.itemRows items).flatMap ([','] :: ·) ++ [']'] :: more)) :
    ∃ parts stop, Parses (sourced source) (.rounds furtherItems 0 none count cursor)
        (.run (some (parts, stop))) ∧
      Items.Show items (labelled itemLabel parts) ∧ cursor.offset ≤ stop.offset ∧
        (sourced source).Awaits stop ([']'] :: more) := by
  cases items with
  | nil =>
      exact ⟨[], cursor, no_further (by decide) (.cons rfl) ahead, .nil, Nat.le_refl _, ahead⟩
  | cons item others =>
      have ahead' : (sourced source).Awaits cursor ([','] :: (item.lexemes ++
          ((Document.itemRows others).flatMap ([','] :: ·) ++ [']'] :: more))) := by
        simpa [Document.itemRows] using ahead
      obtain ⟨comma, faces⟩ := ahead'.faces (.cons rfl)
      obtain ⟨-, -, -, behind⟩ := faces.onward rfl
      obtain ⟨landing, tree, shownItem, read⟩ := Document.reads item (closes_rows _ rfl rfl) behind
      obtain ⟨parts, stop, rounds, shown, forward, onward⟩ :=
        Items.reads_further others (count + 1) read.onward
      have passed := Input.through_forward [','] faces.landed (by decide)
      have further := Nat.lt_trans passed read.forward
      have run := Parses.step (.literal_found "," faces)
        (.step (.labelled itemLabel read) .sequenceDone)
      refine ⟨_, stop, .round run further rounds, ?_,
        Nat.le_of_lt (Nat.lt_of_lt_of_le further forward), onward⟩
      simpa using Items.Show.cons shownItem shown

theorem Members.reads (members : List (Key × Document)) {cursor : Position}
    {more : List (List Char)}
    (ahead : (sourced source).Awaits cursor
      (separated (Document.memberRows members) ++ ['\x7d'] :: more)) :
    ∃ parts stop, Parses (sourced source)
        (.element (.optional (member ++ [.many (.literal "," :: member)])) cursor)
        (.run (some (parts, stop))) ∧
      Members.Show members (labelled keyLabel parts) (labelled valueLabel parts) ∧
        cursor.offset ≤ stop.offset ∧ (sourced source).Awaits stop (['\x7d'] :: more) := by
  cases members with
  | nil => exact ⟨[], cursor, .optional_none (no_name ahead), .nil, Nat.le_refl _, ahead⟩
  | cons first others =>
      rcases first with ⟨key, value⟩
      have ahead' : (sourced source).Awaits cursor (key.text :: [':'] :: (value.lexemes ++
          ((Document.memberRows others).flatMap ([','] :: ·) ++ ['\x7d'] :: more))) := by
        simpa [Document.memberRows, separated] using ahead
      obtain ⟨_, _, _, tree, shownValue, further, behind, run⟩ := member_reads ahead'
        fun next inside => Document.reads value (closes_rows _ rfl rfl) inside
      obtain ⟨parts, stop, rounds, shown, forward, onward⟩ :=
        Members.reads_further others 0 behind
      have whole := run _ _ _ (.step (.repeated rounds) .sequenceDone)
      refine ⟨_, stop, .optional_some whole (Nat.lt_of_lt_of_le further forward), ?_,
        Nat.le_of_lt (Nat.lt_of_lt_of_le further forward), onward⟩
      rw [List.append_nil, labelled_key, labelled_value]
      exact .cons shownValue shown

theorem Members.reads_further (members : List (Key × Document)) (count : Nat)
    {cursor : Position} {more : List (List Char)}
    (ahead : (sourced source).Awaits cursor
      ((Document.memberRows members).flatMap ([','] :: ·) ++ ['\x7d'] :: more)) :
    ∃ parts stop, Parses (sourced source) (.rounds (.literal "," :: member) 0 none count cursor)
        (.run (some (parts, stop))) ∧
      Members.Show members (labelled keyLabel parts) (labelled valueLabel parts) ∧
        cursor.offset ≤ stop.offset ∧ (sourced source).Awaits stop (['\x7d'] :: more) := by
  cases members with
  | nil =>
      exact ⟨[], cursor, no_further (by decide) (.cons rfl) ahead, .nil, Nat.le_refl _, ahead⟩
  | cons first others =>
      rcases first with ⟨key, value⟩
      have ahead' : (sourced source).Awaits cursor ([','] :: key.text :: [':'] :: (value.lexemes ++
          ((Document.memberRows others).flatMap ([','] :: ·) ++ ['\x7d'] :: more))) := by
        simpa [Document.memberRows] using ahead
      obtain ⟨comma, faces⟩ := ahead'.faces (.cons rfl)
      obtain ⟨-, -, -, behindComma⟩ := faces.onward rfl
      have passed := Input.through_forward [','] faces.landed (by decide)
      obtain ⟨_, _, _, tree, shownValue, further, behind, run⟩ := member_reads behindComma
        fun next inside => Document.reads value (closes_rows _ rfl rfl) inside
      obtain ⟨parts, stop, rounds, shown, forward, onward⟩ :=
        Members.reads_further others (count + 1) behind
      have whole := Parses.step (.literal_found "," faces) (run [] [] _ .sequenceDone)
      have reached := Nat.lt_trans passed further
      refine ⟨_, stop, .round whole reached rounds, ?_,
        Nat.le_of_lt (Nat.lt_of_lt_of_le reached forward), onward⟩
      simp only [List.cons_append, List.nil_append, labelled_none, labelled_key, labelled_value]
      exact .cons shownValue shown

end

end Runs

end Packrat.Json
