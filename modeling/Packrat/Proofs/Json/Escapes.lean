import Mathlib.Data.List.Forall2
import Mathlib.Data.List.Induction
import Packrat.Proofs.Decimal.Digits
import Packrat.Proofs.Json.Tokens

/-!
What string literals denote. A character is written as it is, as an escape of one letter, or by four
hexadecimal digits (`Spelled`); two codes of four digits can denote one character beyond the first
plane (`Denotes`).

`unescape?` undoes every spelling, and replaces each half of a pair (`unescape?_flatten`). Where
four characters that begin with no plus stand behind every u, it accepts nothing else
(`unescape?_eq_some_iff`); so it is exact for literals in which no code is half of a pair
(`decode_exact`), but not for others (`decode_not_exact`).
-/

set_option autoImplicit false

namespace Packrat.Json

open Regex (hexDigit? hexNumber?)

/-! ### Ways to write characters -/

def shortEscapes : List (Char × Char) :=
  [('"', '"'), ('\\', '\\'), ('/', '/'), ('b', '\x08'), ('f', '\x0c'), ('n', '\n'), ('r', '\r'),
    ('t', '\t')]

/-- Four hexadecimal digits, in any letter case, and the number that they denote. -/
structure Code (digits : List Char) (code : Nat) : Prop where
  length : digits.length = 4
  number : hexNumber? digits = some code

/-- How a character can be written between quotes. -/
inductive Spelled : Char → List Char → Prop where
  | plain {c} : c ≠ '"' → c ≠ '\\' → 0x20 ≤ c.toNat → Spelled c [c]
  | short {letter c} : (letter, c) ∈ shortEscapes → Spelled c ['\\', letter]
  | code {digits c} : Code digits c.toNat → Spelled c ('\\' :: 'u' :: digits)

def quoted (inner : List Char) : List Char :=
  '"' :: (inner ++ ['"'])

def IsSurrogate (code : Nat) : Prop :=
  0xd800 ≤ code ∧ code ≤ 0xdfff

instance (code : Nat) : Decidable (IsSurrogate code) :=
  inferInstanceAs (Decidable (_ ∧ _))

structure Paired (high low : Nat) (c : Char) : Prop where
  isHigh : 0xd800 ≤ high ∧ high ≤ 0xdbff
  isLow : 0xdc00 ≤ low ∧ low ≤ 0xdfff
  isCode : c.toNat = 0x10000 + (high - 0xd800) * 0x400 + (low - 0xdc00)

/-- How a character is written that is decoded: it is spelled, or it takes the place of half of a
pair. -/
inductive Decoded : Char → List Char → Prop where
  | spelled {c piece} : Spelled c piece → Decoded c piece
  | half {digits code} :
      Code digits code → IsSurrogate code → Decoded '\ufffd' ('\\' :: 'u' :: digits)

/-- What the inside of a literal denotes, if all its escapes are legal. -/
inductive Denotes : List Char → List Char → Prop where
  | nil : Denotes [] []
  | single {c piece rest text} :
      Spelled c piece → Denotes rest text → Denotes (piece ++ rest) (c :: text)
  | pair {first second high low c rest text} :
      Code first high → Code second low → Paired high low c → Denotes rest text →
      Denotes ('\\' :: 'u' :: (first ++ '\\' :: 'u' :: (second ++ rest))) (c :: text)

/-! ### Hexadecimal digits -/

section Digits

variable {c : Char} {digits rest : List Char} {value code : Nat}

/-- A hexadecimal digit by the ranges that it lies in. -/
theorem hexDigit?_eq (c : Char) :
    hexDigit? c =
      if 48 ≤ c.toNat ∧ c.toNat ≤ 57 then some (c.toNat - 48)
      else if 97 ≤ c.toNat ∧ c.toNat ≤ 102 then some (c.toNat - 97 + 10)
      else if 65 ≤ c.toNat ∧ c.toNat ≤ 70 then some (c.toNat - 65 + 10)
      else none :=
  rfl

theorem digitIn?_hex (c : Char) : Decimal.digitIn? 16 c = hexDigit? c := by
  rw [Decimal.digitIn?_eq, hexDigit?_eq]
  grind

theorem hexDigit?_lt (isDigit : hexDigit? c = some value) : value < 16 := by
  rw [hexDigit?_eq] at isDigit
  grind

theorem hexDigit?_plain (isDigit : hexDigit? c = some value) : plainCharacters.mem c = true := by
  have within : 48 ≤ c.toNat ∧ c.toNat ≤ 57 ∨ 65 ≤ c.toNat ∧ c.toNat ≤ 70 ∨
      97 ≤ c.toNat ∧ c.toNat ≤ 102 := by
    rw [hexDigit?_eq] at isDigit
    grind
  simp only [plainCharacters, CharSet.mem, CharSet.holds, Bool.and_eq_true, Bool.or_eq_true,
    decide_eq_true_eq]
  omega

theorem plainCharacters_mem_iff :
    plainCharacters.mem c = true ↔ c ≠ '"' ∧ c ≠ '\\' ∧ 0x20 ≤ c.toNat := by
  have bound : c.toNat < 0x110000 := by
    rcases c.valid with below | above
    · exact Nat.lt_trans below (by decide)
    · exact above.2
  have quote : c = '"' ↔ c.toNat = 0x22 := Char.toNat_inj.symm
  have backslash : c = '\\' ↔ c.toNat = 0x5c := Char.toNat_inj.symm
  rw [ne_eq, ne_eq, quote, backslash]
  simp only [plainCharacters, CharSet.mem, CharSet.holds, Bool.and_eq_true, Bool.or_eq_true,
    decide_eq_true_eq, Bool.false_eq_true, or_false]
  omega

theorem hexNumber?_append (digits : List Char) (c : Char) :
    hexNumber? (digits ++ [c]) =
      (hexNumber? digits).bind fun value => (hexDigit? c).map (value * 16 + ·) := by
  rw [hexNumber?, List.foldlM_append]
  simp [hexNumber?]

theorem hexNumber?_digits (isNumber : hexNumber? digits = some code) :
    ∀ c ∈ digits, ∃ value, hexDigit? c = some value := by
  induction digits using List.reverseRecOn generalizing code with
  | nil => exact nofun
  | append_singleton digits c ih =>
      rw [hexNumber?_append] at isNumber
      obtain ⟨before, isBefore, isLast⟩ := Option.bind_eq_some_iff.1 isNumber
      obtain ⟨value, isDigit, -⟩ := Option.map_eq_some_iff.1 isLast
      exact List.forall_mem_append.2 ⟨ih isBefore, List.forall_mem_singleton.2 ⟨value, isDigit⟩⟩

theorem hexNumber?_lt (isNumber : hexNumber? digits = some code) :
    code < Nat.pow 16 digits.length := by
  induction digits using List.reverseRecOn generalizing code with
  | nil =>
      cases isNumber
      decide
  | append_singleton digits c ih =>
      rw [hexNumber?_append] at isNumber
      obtain ⟨before, isBefore, isLast⟩ := Option.bind_eq_some_iff.1 isNumber
      obtain ⟨value, isDigit, rfl⟩ := Option.map_eq_some_iff.1 isLast
      have below := ih isBefore
      have small := hexDigit?_lt isDigit
      have isPower : Nat.pow 16 (digits ++ [c]).length = Nat.pow 16 digits.length * 16 := by
        rw [List.length_append, List.length_singleton]
        rfl
      rw [isPower]
      omega

theorem hexNumber?_plain (isNumber : hexNumber? digits = some code) :
    ∀ c ∈ digits, plainCharacters.mem c = true := by
  intro c member
  obtain ⟨value, isDigit⟩ := hexNumber?_digits isNumber c member
  exact hexDigit?_plain isDigit

theorem Code.lt (isCode : Code digits code) : code < 0x10000 := by
  have below := hexNumber?_lt isCode.number
  rw [isCode.length] at below
  exact below

theorem Code.unsigned (isCode : Code digits code) : digits.head? ≠ some '+' := by
  intro signed
  obtain ⟨value, isDigit⟩ :=
    hexNumber?_digits isCode.number '+' (List.mem_of_mem_head? (Option.mem_def.2 signed))
  cases isDigit

theorem readDigits?_hex (present : digits ≠ []) :
    Decimal.readDigits? 16 digits = hexNumber? digits := by
  have isEmpty : digits.isEmpty = false := List.isEmpty_eq_false_iff.2 present
  simp only [Decimal.readDigits?, isEmpty, Bool.false_eq_true, if_false, digitIn?_hex, hexNumber?]

/-- Four characters that begin with no sign are read exactly if they are hexadecimal digits. -/
theorem codeEscape?_eq (length : digits.length = 4) (unsigned : digits.head? ≠ some '+') :
    codeEscape? digits = (hexNumber? digits).map charOfCode := by
  have present : digits ≠ [] := by
    rintro rfl
    cases length
  have read : Decimal.readNatural? 16 (Nat.pow 2 32) digits =
      (hexNumber? digits).filter (· < Nat.pow 2 32) := by
    rw [← readDigits?_hex present]
    unfold Decimal.readNatural?
    split
    · exact absurd rfl unsigned
    · rfl
  rw [codeEscape?, read]
  cases isNumber : hexNumber? digits with
  | none => rfl
  | some code =>
      have below := hexNumber?_lt isNumber
      rw [length] at below
      rw [Option.filter_some_pos]
      exact decide_eq_true (Nat.lt_trans below (by decide))

theorem charOfCode_toNat (c : Char) : charOfCode c.toNat = c := by
  rw [charOfCode, if_pos (show c.toNat.isValidChar from c.valid), Char.ofNat_toNat]

theorem charOfCode_surrogate (half : IsSurrogate code) : charOfCode code = '\ufffd' := by
  refine if_neg ?_
  unfold Nat.isValidChar
  unfold IsSurrogate at half
  omega

theorem toNat_charOfCode (below : code < 0x10000) (single : ¬ IsSurrogate code) :
    (charOfCode code).toNat = code := by
  have valid : code.isValidChar := by
    unfold Nat.isValidChar
    unfold IsSurrogate at single
    omega
  rw [charOfCode, if_pos valid, Char.ofNat, dif_pos valid]
  rfl

end Digits

/-! ### Equations of decoding -/

section Equations

variable {c letter : Char} {inner rest : List Char} {budget budget' : Nat}

/-- Any budget that is not less than the length of the text leads to the same answer. -/
theorem unescapeWithin_eq (enough : inner.length ≤ budget) (enough' : inner.length ≤ budget') :
    unescapeWithin budget inner = unescapeWithin budget' inner := by
  induction budget generalizing inner budget' with
  | zero =>
      cases inner with
      | nil => rw [unescapeWithin, unescapeWithin]
      | cons c rest => cases enough
  | succ budget ih =>
      cases inner with
      | nil => rw [unescapeWithin, unescapeWithin]
      | cons c rest =>
          rw [List.length_cons] at enough enough'
          obtain ⟨smaller, rfl⟩ : ∃ smaller, budget' = smaller + 1 := ⟨budget' - 1, by omega⟩
          have same (others : List Char) (fewer : others.length ≤ rest.length) :
              unescapeWithin budget others = unescapeWithin smaller others :=
            ih (by omega) (by omega)
          rw [unescapeWithin.eq_def, unescapeWithin.eq_def (smaller + 1)]
          dsimp only
          split
          · rw [same rest (Nat.le_refl _)]
          · split
            · rfl
            · next others =>
                rw [same (others.drop 4) (by rw [List.length_drop, List.length_cons]; omega)]
            · next letter others _ => rw [same others (by rw [List.length_cons]; omega)]

theorem unescape?_nil : unescape? [] = some [] :=
  rfl

theorem unescape?_plain (differs : c ≠ '\\') :
    unescape? (c :: rest) = (unescape? rest).map (c :: ·) := by
  rw [unescape?, List.length_cons, unescapeWithin.eq_def]
  dsimp only
  rw [if_pos (bne_iff_ne.2 differs), unescape?]

theorem unescape?_code (rest : List Char) :
    unescape? ('\\' :: 'u' :: rest) =
      (codeEscape? (rest.take 4)).bind fun c => (unescape? (rest.drop 4)).map (c :: ·) := by
  have same : unescapeWithin ('u' :: rest).length (rest.drop 4) = unescape? (rest.drop 4) :=
    unescapeWithin_eq (by rw [List.length_cons, List.length_drop]; omega) (Nat.le_refl _)
  rw [unescape?, List.length_cons, unescapeWithin]
  simp only [bne_self_eq_false, Bool.false_eq_true, if_false, same, Option.map_eq_bind]
  rfl

theorem unescape?_short (differs : letter ≠ 'u') (rest : List Char) :
    unescape? ('\\' :: letter :: rest) =
      (shortEscape? letter).bind fun c => (unescape? rest).map (c :: ·) := by
  have same : unescapeWithin (letter :: rest).length rest = unescape? rest :=
    unescapeWithin_eq (by rw [List.length_cons]; omega) (Nat.le_refl _)
  rw [unescape?, List.length_cons, unescapeWithin]
  · simp only [bne_self_eq_false, Bool.false_eq_true, if_false, same, Option.map_eq_bind]
    rfl
  · exact differs

theorem quoted_injective {other : List Char} (same : quoted inner = quoted other) :
    inner = other :=
  List.append_cancel_right (List.cons.inj same).2

theorem decode?_quoted (inner : List Char) : decode? (quoted inner) = unescape? inner := by
  simp [quoted, decode?, unquote?]

end Equations

/-! ### Spellings are undone -/

section Spellings

variable {c letter : Char} {digits piece rest text inner : List Char} {code : Nat}
  {pieces : List (List Char)}

theorem shortEscape?_eq_some_iff : shortEscape? letter = some c ↔ (letter, c) ∈ shortEscapes := by
  constructor
  · intro isShort
    unfold shortEscape? at isShort
    split at isShort <;> cases isShort <;> decide
  · intro listed
    simp only [shortEscapes, List.mem_cons, Prod.mk.injEq, List.not_mem_nil, or_false] at listed
    rcases listed with ⟨rfl, rfl⟩ | ⟨rfl, rfl⟩ | ⟨rfl, rfl⟩ | ⟨rfl, rfl⟩ | ⟨rfl, rfl⟩ | ⟨rfl, rfl⟩ |
      ⟨rfl, rfl⟩ | ⟨rfl, rfl⟩ <;> rfl

theorem Code.unescape? (isCode : Code digits code) (rest : List Char) :
    unescape? ('\\' :: 'u' :: (digits ++ rest)) = (unescape? rest).map (charOfCode code :: ·) := by
  have taken : (digits ++ rest).take 4 = digits := by
    rw [← isCode.length, List.take_left]
  have left : (digits ++ rest).drop 4 = rest := by
    rw [← isCode.length, List.drop_left]
  rw [unescape?_code, taken, left, codeEscape?_eq isCode.length isCode.unsigned, isCode.number]
  rfl

theorem Spelled.unescape? (spelled : Spelled c piece) (rest : List Char) :
    unescape? (piece ++ rest) = (unescape? rest).map (c :: ·) := by
  cases spelled with
  | plain _ notEscape _ => exact unescape?_plain notEscape
  | @short letter _ listed =>
      have isShort := shortEscape?_eq_some_iff.2 listed
      have differs : letter ≠ 'u' := by
        rintro rfl
        cases isShort
      rw [List.cons_append, List.cons_append, List.nil_append, unescape?_short differs, isShort]
      rfl
  | code isCode =>
      rw [List.cons_append, List.cons_append, isCode.unescape?, charOfCode_toNat]

theorem Decoded.unescape? (decoded : Decoded c piece) (rest : List Char) :
    unescape? (piece ++ rest) = (unescape? rest).map (c :: ·) := by
  cases decoded with
  | spelled spelled => exact spelled.unescape? rest
  | half isCode half =>
      rw [List.cons_append, List.cons_append, isCode.unescape?, charOfCode_surrogate half]

/-- Decoding undoes every spelling of a string, and replaces each half of a pair. -/
theorem unescape?_flatten (decoded : List.Forall₂ Decoded text pieces) :
    unescape? pieces.flatten = some text := by
  induction decoded with
  | nil => exact unescape?_nil
  | cons first _ ih => rw [List.flatten_cons, first.unescape?, ih, Option.map_some]

theorem StringTail.plain_append_iff (plain : ∀ c ∈ piece, plainCharacters.mem c = true) :
    StringTail (piece ++ rest) ↔ StringTail rest := by
  induction piece with
  | nil => rfl
  | cons c others ih =>
      obtain ⟨isPlain, areOthers⟩ := List.forall_mem_cons.1 plain
      rw [List.cons_append, plain_iff isPlain, ih areOthers]

theorem StringTail.escaped_iff (isEscapable : escapable.mem letter = true) :
    StringTail ('\\' :: letter :: rest) ↔ StringTail rest := by
  rw [escape_iff]
  constructor
  · rintro ⟨_, _, same, -, isRest⟩
    cases same
    exact isRest
  · exact fun isRest => ⟨_, _, rfl, isEscapable, isRest⟩

theorem Code.tail_iff (isCode : Code digits code) :
    StringTail ('\\' :: 'u' :: (digits ++ rest)) ↔ StringTail rest :=
  (StringTail.escaped_iff (by decide)).trans
    (StringTail.plain_append_iff (hexNumber?_plain isCode.number))

/-- A literal ends behind a spelling as it ends without it. -/
theorem Spelled.tail_iff (spelled : Spelled c piece) :
    StringTail (piece ++ rest) ↔ StringTail rest := by
  cases spelled with
  | plain notQuote notEscape notControl =>
      exact StringTail.plain_iff (plainCharacters_mem_iff.2 ⟨notQuote, notEscape, notControl⟩) rest
  | short listed =>
      have escapes : ∀ entry ∈ shortEscapes, escapable.mem entry.1 = true := by decide
      exact StringTail.escaped_iff (escapes _ listed)
  | code isCode => exact isCode.tail_iff

theorem Decoded.tail_iff (decoded : Decoded c piece) :
    StringTail (piece ++ rest) ↔ StringTail rest := by
  cases decoded with
  | spelled spelled => exact spelled.tail_iff
  | half isCode _ => exact isCode.tail_iff

theorem Spelled.ne_nil (spelled : Spelled c piece) : piece ≠ [] := by
  cases spelled with
  | plain _ _ _ => exact List.cons_ne_nil _ _
  | short _ => exact List.cons_ne_nil _ _
  | code _ => exact List.cons_ne_nil _ _

theorem Decoded.ne_nil (decoded : Decoded c piece) : piece ≠ [] := by
  cases decoded with
  | spelled spelled => exact spelled.ne_nil
  | half _ _ => exact List.cons_ne_nil _ _

theorem stringText_quoted : StringText (quoted inner) ↔ StringTail (inner ++ ['"']) := by
  constructor
  · rintro ⟨_, _, same, -, tail⟩
    cases same
    exact tail
  · exact fun tail => ⟨_, _, rfl, by decide, tail⟩

/-- A spelled string between quotes is a literal. -/
theorem stringText_flatten (spelled : List.Forall₂ Spelled text pieces) :
    StringText (quoted pieces.flatten) := by
  rw [stringText_quoted]
  induction spelled with
  | nil => exact .close
  | cons first _ ih =>
      rw [List.flatten_cons, List.append_assoc]
      exact first.tail_iff.2 ih

end Spellings

/-! ### Escapes of a literal -/

/-- What follows each escaped u, of which no escape takes more than four characters. -/
def codes : List Char → List (List Char)
  | '\\' :: 'u' :: rest => rest.take 4 :: codes rest
  | '\\' :: _ :: rest => codes rest
  | _ :: rest => codes rest
  | [] => []

def Whole (digits : List Char) : Prop :=
  digits.length = 4 ∧ digits.head? ≠ some '+'

def Alone (digits : List Char) : Prop :=
  ∀ code ∈ hexNumber? digits, ¬ IsSurrogate code

instance (digits : List Char) : Decidable (Whole digits) :=
  inferInstanceAs (Decidable (_ ∧ _))

instance (digits : List Char) : Decidable (Alone digits) :=
  inferInstanceAs (Decidable (∀ code ∈ hexNumber? digits, ¬ IsSurrogate code))

section Escapes

variable {c letter : Char} {digits piece rest text inner : List Char} {code : Nat}
  {pieces : List (List Char)}

theorem codes_plain (differs : c ≠ '\\') (rest : List Char) : codes (c :: rest) = codes rest := by
  rw [codes.eq_def]
  split
  · next same => exact absurd (List.cons.inj same).1 differs
  · next same => exact absurd (List.cons.inj same).1 differs
  · next same => rw [(List.cons.inj same).2]
  · next same => cases same

theorem codes_short (differs : letter ≠ 'u') (rest : List Char) :
    codes ('\\' :: letter :: rest) = codes rest := by
  rw [codes]
  exact differs

theorem codes_append_plain (plain : ∀ c ∈ piece, plainCharacters.mem c = true)
    (rest : List Char) : codes (piece ++ rest) = codes rest := by
  induction piece with
  | nil => rfl
  | cons c others ih =>
      obtain ⟨isPlain, areOthers⟩ := List.forall_mem_cons.1 plain
      rw [List.cons_append, codes_plain (plainCharacters_mem_iff.1 isPlain).2.1, ih areOthers]

theorem Code.codes (isCode : Code digits code) (rest : List Char) :
    Json.codes ('\\' :: 'u' :: (digits ++ rest)) = digits :: Json.codes rest := by
  rw [Json.codes, codes_append_plain (hexNumber?_plain isCode.number), ← isCode.length,
    List.take_left]

theorem Spelled.codes_sublist (spelled : Spelled c piece) (rest : List Char) :
    (codes rest).Sublist (codes (piece ++ rest)) := by
  cases spelled with
  | plain _ notEscape _ =>
      rw [List.singleton_append, codes_plain notEscape]
  | short listed =>
      have differs : ∀ entry ∈ shortEscapes, entry.1 ≠ 'u' := by decide
      rw [List.cons_append, List.singleton_append, codes_short (differs _ listed)]
  | code isCode =>
      rw [List.cons_append, List.cons_append, isCode.codes]
      exact List.sublist_cons_self _ _

theorem Decoded.codes_sublist (decoded : Decoded c piece) (rest : List Char) :
    (codes rest).Sublist (codes (piece ++ rest)) := by
  cases decoded with
  | spelled spelled => exact spelled.codes_sublist rest
  | half isCode _ =>
      rw [List.cons_append, List.cons_append, isCode.codes]
      exact List.sublist_cons_self _ _

/-- What is denoted is decoded, unless it takes a pair to denote a character. -/
theorem Denotes.unescape? (denotes : Denotes inner text)
    (alone : ∀ digits ∈ codes inner, Alone digits) : unescape? inner = some text := by
  induction denotes with
  | nil => exact unescape?_nil
  | @single _ _ rest _ spelled _ ih =>
      have fewer := (spelled.codes_sublist rest).subset
      rw [spelled.unescape?, ih fun digits member => alone digits (fewer member), Option.map_some]
  | pair isFirst _ paired _ _ =>
      have isHigh := alone _ (by rw [isFirst.codes]; exact List.mem_cons_self ..) _ isFirst.number
      unfold IsSurrogate at isHigh
      have := paired.isHigh
      omega

theorem StringTail.plain_of_ne (differs : c ≠ '\\') (tail : StringTail (c :: (rest ++ ['"']))) :
    plainCharacters.mem c = true := by
  generalize behind : rest ++ ['"'] = others at tail
  cases tail with
  | close => exact absurd behind (List.append_ne_nil_of_right_ne_nil rest (List.cons_ne_nil _ _))
  | plain isPlain _ => exact isPlain
  | escape _ _ => exact absurd rfl differs

theorem StringTail.exists_inner {tail : List Char} (isTail : StringTail tail) :
    ∃ inner, tail = inner ++ ['"'] := by
  induction isTail with
  | close => exact ⟨[], rfl⟩
  | @plain c _ _ _ ih =>
      obtain ⟨inner, rfl⟩ := ih
      exact ⟨c :: inner, rfl⟩
  | @escape c _ _ _ ih =>
      obtain ⟨inner, rfl⟩ := ih
      exact ⟨'\\' :: c :: inner, rfl⟩

theorem StringText.exists_quoted {literal : List Char} (isString : StringText literal) :
    ∃ inner, literal = quoted inner ∧ StringTail (inner ++ ['"']) := by
  obtain ⟨c, tail, rfl, isQuote, isTail⟩ := isString
  obtain ⟨inner, rfl⟩ := isTail.exists_inner
  rw [CharSet.mem_one, beq_iff_eq] at isQuote
  subst isQuote
  exact ⟨inner, rfl, isTail⟩

theorem Decoded.of_code (isCode : Code digits code) :
    Decoded (charOfCode code) ('\\' :: 'u' :: digits) := by
  by_cases half : IsSurrogate code
  · rw [charOfCode_surrogate half]
    exact .half isCode half
  · refine .spelled (.code ?_)
    rw [toNat_charOfCode isCode.lt half]
    exact isCode

/-- The first character of what is decoded, if all codes are whole. -/
theorem exists_decoded (tail : StringTail (inner ++ ['"'])) (present : inner ≠ [])
    (whole : ∀ digits ∈ codes inner, Whole digits) (decoded : unescape? inner = some text) :
    ∃ c piece others rest, inner = piece ++ others ∧ text = c :: rest ∧ Decoded c piece ∧
      unescape? others = some rest := by
  cases inner with
  | nil => exact absurd rfl present
  | cons c others =>
      by_cases isEscape : c = '\\'
      · subst isEscape
        cases others with
        | nil => cases decoded
        | cons letter others =>
            by_cases isCode : letter = 'u'
            · subst isCode
              obtain ⟨length, unsigned⟩ := whole _ (List.mem_cons_self ..)
              rw [unescape?_code, codeEscape?_eq length unsigned] at decoded
              obtain ⟨c, isChar, further⟩ := Option.bind_eq_some_iff.1 decoded
              obtain ⟨rest, isRest, rfl⟩ := Option.map_eq_some_iff.1 further
              obtain ⟨code, isNumber, rfl⟩ := Option.map_eq_some_iff.1 isChar
              refine ⟨_, '\\' :: 'u' :: others.take 4, others.drop 4, rest, ?_, rfl,
                .of_code ⟨length, isNumber⟩, isRest⟩
              rw [List.cons_append, List.cons_append, List.take_append_drop]
            · rw [unescape?_short isCode] at decoded
              obtain ⟨c, isShort, further⟩ := Option.bind_eq_some_iff.1 decoded
              obtain ⟨rest, isRest, rfl⟩ := Option.map_eq_some_iff.1 further
              exact ⟨c, ['\\', letter], others, rest, rfl, rfl,
                .spelled (.short (shortEscape?_eq_some_iff.1 isShort)), isRest⟩
      · rw [unescape?_plain isEscape] at decoded
        obtain ⟨rest, isRest, rfl⟩ := Option.map_eq_some_iff.1 decoded
        obtain ⟨notQuote, notEscape, notControl⟩ :=
          plainCharacters_mem_iff.1 (StringTail.plain_of_ne isEscape tail)
        exact ⟨c, [c], others, rest, rfl, rfl, .spelled (.plain notQuote notEscape notControl),
          isRest⟩

/-- If all codes are whole, then nothing is decoded but characters one after the other, however they
are spelled, and halves of pairs. -/
theorem unescape?_eq_some_iff (tail : StringTail (inner ++ ['"']))
    (whole : ∀ digits ∈ codes inner, Whole digits) :
    unescape? inner = some text ↔
      ∃ pieces, List.Forall₂ Decoded text pieces ∧ inner = pieces.flatten := by
  constructor
  · intro decoded
    induction size : inner.length using Nat.strongRecOn generalizing inner text with
    | ind bound ih =>
        subst size
        by_cases present : inner = []
        · subst present
          cases decoded
          exact ⟨[], .nil, rfl⟩
        · obtain ⟨c, piece, others, rest, rfl, rfl, first, isRest⟩ :=
            exists_decoded tail present whole decoded
          have shorter : others.length < (piece ++ others).length := by
            have := List.length_pos_iff.2 first.ne_nil
            rw [List.length_append]
            omega
          have fewer := (first.codes_sublist others).subset
          rw [List.append_assoc] at tail
          obtain ⟨pieces, areRest, rfl⟩ := ih _ shorter (first.tail_iff.1 tail)
            (fun digits member => whole digits (fewer member)) isRest rfl
          exact ⟨piece :: pieces, .cons first areRest, rfl⟩
  · rintro ⟨pieces, decoded, rfl⟩
    exact unescape?_flatten decoded

/-- What is decoded is denoted, if no code is half of a pair. -/
theorem denotes_flatten (decoded : List.Forall₂ Decoded text pieces)
    (alone : ∀ digits ∈ codes pieces.flatten, Alone digits) : Denotes pieces.flatten text := by
  induction decoded with
  | nil => exact .nil
  | @cons c piece text pieces first _ ih =>
      have fewer := (first.codes_sublist pieces.flatten).subset
      have behind := ih fun digits member => alone digits (fewer member)
      cases first with
      | spelled spelled => exact .single spelled behind
      | half isCode half =>
          refine absurd half (alone _ ?_ _ isCode.number)
          rw [List.flatten_cons, List.cons_append, List.cons_append, isCode.codes]
          exact List.mem_cons_self ..

end Escapes

/-! ### Exactness -/

/-- Where each escaped u has four characters behind it that begin with no plus, a literal is decoded
exactly if all its escapes are legal. Where no code is half of a pair, it is decoded to what it
denotes. -/
theorem decode_exact {landing : Landing} {leaf : Leaf Json}
    (matched : (LexicalCell.scan ready landing).1.leaf? stringSymbol = some leaf) :
    ∃ inner, leaf.text = quoted inner ∧
      ((∀ digits ∈ codes inner, Whole digits) → ∀ text,
        decode? leaf.text = some text ↔
          ∃ pieces, List.Forall₂ Decoded text pieces ∧ inner = pieces.flatten) ∧
      ((∀ digits ∈ codes inner, Alone digits) → ∀ text,
        (Denotes inner text → decode? leaf.text = some text) ∧
        ((∀ digits ∈ codes inner, Whole digits) →
          decode? leaf.text = some text → Denotes inner text)) := by
  obtain ⟨literal, isString, rfl⟩ := string_of_leaf matched
  obtain ⟨inner, rfl, tail⟩ := isString.exists_quoted
  rw [Landing.leaf_text, decode?_quoted]
  refine ⟨inner, rfl, fun whole text => unescape?_eq_some_iff tail whole, fun alone text =>
    ⟨fun denotes => denotes.unescape? alone, fun whole decoded => ?_⟩⟩
  obtain ⟨pieces, areDecoded, rfl⟩ := (unescape?_eq_some_iff tail whole).1 decoded
  exact denotes_flatten areDecoded alone

def quotedAhead (inner : List Char) : Landing :=
  ⟨.start, [], .start, quoted inner⟩

theorem quotedAhead_found (inner : List Char) (tail : StringTail (inner ++ ['"'])) :
    (LexicalCell.scan ready (quotedAhead inner)).1.leaf? stringSymbol =
      some ((quotedAhead inner).leaf stringSymbol (quoted inner)
        (some (stringValue (quoted inner)))) := by
  have split : (quotedAhead inner).rest = quoted inner ++ [] := (List.append_nil _).symm
  rw [string_leaf]
  exact string_found split (stringText_quoted.2 tail)

/-- A literal can end with an escape and any plain characters. -/
theorem StringTail.escaped {letter : Char} {piece : List Char}
    (isEscapable : escapable.mem letter = true)
    (plain : piece.all plainCharacters.mem = true) :
    StringTail ('\\' :: letter :: (piece ++ ['"'])) :=
  (escaped_iff isEscapable).2 ((plain_append_iff (List.all_eq_true.1 plain)).2 .close)

def mixed : List Char :=
  ['\\', '\\', 'u', '0', '\\', 'u', '0', '0', 'E', '9']

theorem mixed_exact :
    ∃ leaf, (LexicalCell.scan ready (quotedAhead mixed)).1.leaf? stringSymbol = some leaf ∧
      leaf.text = quoted mixed ∧ (∀ digits ∈ codes mixed, Alone digits) ∧
      (∀ digits ∈ codes mixed, Whole digits) ∧
      ∀ text, decode? leaf.text = some text ↔ Denotes mixed text := by
  have found := quotedAhead_found mixed
    (.escape (by decide) (.plain (by decide) (.plain (by decide)
      (.escaped (by decide) (by decide)))))
  have alone : ∀ digits ∈ codes mixed, Alone digits := by decide
  have whole : ∀ digits ∈ codes mixed, Whole digits := by decide
  obtain ⟨inner, isText, -, exactly⟩ := decode_exact found
  obtain rfl := quoted_injective isText
  exact ⟨_, found, rfl, alone, whole, fun text =>
    ⟨(exactly alone text).2 whole, (exactly alone text).1⟩⟩

def signed : List Char :=
  ['\\', 'u', '+', '0', '4', '1']

def cut : List Char :=
  ['\\', 'u', '1', '2']

def surrogates : List Char :=
  ['\\', 'u', 'd', '8', '3', 'd', '\\', 'u', 'd', 'e', '0', '0']

/-- An escaped u that no code follows is not denoted by anything. -/
theorem not_denotes {rest text : List Char} (noCode : ∀ digits others code,
    rest = digits ++ others → ¬ Code digits code) : ¬ Denotes ('\\' :: 'u' :: rest) text := by
  generalize isInner : '\\' :: 'u' :: rest = inner
  intro denotes
  cases denotes with
  | nil => cases isInner
  | single spelled _ =>
      cases spelled with
      | plain _ notEscape _ => exact notEscape (List.cons.inj isInner).1.symm
      | short listed =>
          have differs : ∀ entry ∈ shortEscapes, entry.1 ≠ 'u' := by decide
          exact differs _ listed (List.cons.inj (List.cons.inj isInner).2).1.symm
      | code isCode => exact noCode _ _ _ (List.cons.inj (List.cons.inj isInner).2).2 isCode
  | pair isFirst _ _ _ =>
      exact noCode _ _ _ (List.cons.inj (List.cons.inj isInner).2).2 isFirst

/-- Literals that denote nothing are decoded, if a sign stands for a digit or digits are missing at
the end, and a pair is not decoded to the character that it denotes. -/
theorem decode_not_exact :
    (StringText (quoted signed) ∧ (∀ text, ¬ Denotes signed text) ∧
      decode? (quoted signed) = some ['A']) ∧
    (StringText (quoted cut) ∧ (∀ text, ¬ Denotes cut text) ∧
      decode? (quoted cut) = some ['\x12']) ∧
    StringText (quoted surrogates) ∧ Denotes surrogates ['😀'] ∧
      decode? (quoted surrogates) = some ['\ufffd', '\ufffd'] := by
  refine ⟨⟨?_, fun text => not_denotes ?_, by decide⟩, ⟨?_, fun text => not_denotes ?_, by decide⟩,
    ?_, ?_, by decide⟩
  · exact stringText_quoted.2 (.escaped (by decide) (by decide))
  · rintro (_ | ⟨c, digits⟩) others code same isCode
    · cases isCode.length
    · obtain ⟨rfl, -⟩ := List.cons.inj same
      exact isCode.unsigned rfl
  · exact stringText_quoted.2 (.escaped (by decide) (by decide))
  · intro digits others code same isCode
    have short : digits.length ≤ 2 := by
      rw [← show ['1', '2'].length = 2 from rfl, same, List.length_append]
      exact Nat.le_add_right _ _
    rw [isCode.length] at short
    exact absurd short (by decide)
  · have digits : ['d', '8', '3', 'd'].all plainCharacters.mem = true := by decide
    exact stringText_quoted.2 (.escape (by decide)
      ((StringTail.plain_append_iff (List.all_eq_true.1 digits)).2
        (.escaped (by decide) (by decide))))
  · have high : Code ['d', '8', '3', 'd'] 0xd83d := ⟨rfl, rfl⟩
    have low : Code ['d', 'e', '0', '0'] 0xde00 := ⟨rfl, rfl⟩
    exact .pair high low ⟨by decide, by decide, rfl⟩ .nil

end Packrat.Json
