import Mathlib.Data.List.Find
import Reckoner.Proofs.Datum.Texts

/-!
Numerals in documents. A number is written in letters, digits, points and signs, and the reader stops
at the first character that goes on with none of its parts. So a number that fills a text is read in
the same way wherever a comma or a line end follows it.
-/
namespace Reckoner.Datum

/-- A character that numbers are written with. -/
def isNumeric (c : Char) : Bool := c.isAlphanum || c == '.' || c == '+' || c == '-'

theorem isNumeric_of_isDigit {c : Char} (digit : c.isDigit = true) : isNumeric c = true := by
  simp [isNumeric, Char.isAlphanum, digit]

theorem isNumeric_toDigits {n : Nat} {c : Char} (inside : c ∈ Nat.toDigits 10 n) : isNumeric c = true :=
  isNumeric_of_isDigit (Nat.isDigit_of_mem_toDigits (by omega) (by omega) inside)

theorem isNumeric_significant {n : Nat} {c : Char} (inside : c ∈ Number.significant n) :
    isNumeric c = true := by
  rw [Number.significant, List.mem_reverse] at inside
  exact isNumeric_toDigits (List.mem_reverse.1 ((List.dropWhile_sublist _).subset inside))

theorem isNumeric_exponentText {width : Nat} {exponent : Int} {c : Char}
    (inside : c ∈ Number.exponentText width exponent) : isNumeric c = true := by
  simp only [Number.exponentText, List.mem_cons, List.mem_append, List.mem_replicate] at inside
  rcases inside with rfl | ⟨_, rfl⟩ | digit
  · split <;> rfl
  · rfl
  · exact isNumeric_toDigits digit

theorem isNumeric_digitsText {style : Number.Style} {digits : List Char} {exponent : Int}
    (numeric : ∀ c ∈ digits, isNumeric c = true) {c : Char}
    (inside : c ∈ style.digitsText digits exponent) : isNumeric c = true := by
  unfold Number.Style.digitsText at inside
  split at inside
  · split at inside
    · simp only [List.mem_cons, List.mem_append, List.mem_replicate] at inside
      rcases inside with rfl | rfl | ⟨_, rfl⟩ | digit
      · rfl
      · rfl
      · rfl
      · exact numeric c digit
    · simp only [List.mem_cons, List.mem_append, List.mem_replicate] at inside
      rcases inside with (digit | ⟨_, rfl⟩) | rfl | fraction
      · exact numeric c (List.mem_of_mem_take digit)
      · rfl
      · rfl
      · split at fraction
        · obtain rfl := List.mem_singleton.1 fraction
          rfl
        · exact numeric c (List.mem_of_mem_drop fraction)
  · simp only [List.mem_cons, List.mem_append] at inside
    rcases inside with point | rfl | exponent
    · split at point
      · exact numeric c point
      · simp only [List.mem_cons, List.mem_append] at point
        rcases point with first | rfl | others
        · exact numeric c (List.mem_of_mem_take first)
        · rfl
        · exact numeric c (List.mem_of_mem_drop others)
    · rfl
    · exact isNumeric_exponentText exponent

theorem isNumeric_write {style : Number.Style} (infinity : ∀ c ∈ style.infinity.toList, isNumeric c = true)
    (nan : ∀ c ∈ style.nan.toList, isNumeric c = true) (x : Float) :
    ∀ c ∈ (style.write x).toList, isNumeric c = true := by
  have signed {negative : Bool} {text : String} (numeric : ∀ c ∈ text.toList, isNumeric c = true) :
      ∀ c ∈ (if negative then "-" ++ text else text).toList, isNumeric c = true := by
    intro c inside
    split at inside
    · rw [String.toList_append, List.mem_append] at inside
      rcases inside with minus | inside
      · obtain rfl := List.mem_singleton.1 minus
        rfl
      · exact numeric c inside
    · exact numeric c inside
  unfold Number.Style.write
  dsimp only
  split
  · exact nan
  · exact signed infinity
  · exact signed (List.all_eq_true.1 (by decide))
  · refine signed fun c inside => ?_
    rw [String.toList_ofList] at inside
    exact isNumeric_digitsText (fun _ => isNumeric_significant) inside

theorem isNumeric_written (x : Float) : ∀ c ∈ (Number.Style.document.write x).toList, isNumeric c = true :=
  isNumeric_write (List.all_eq_true.1 (by decide)) (List.all_eq_true.1 (by decide)) x

theorem isNumeric_text (x : Float) : ∀ c ∈ (Number.text x).toList, isNumeric c = true :=
  isNumeric_write (List.all_eq_true.1 (by decide)) (List.all_eq_true.1 (by decide)) x

/-- What may follow a value in a container: a comma or a line end, or nothing. -/
def Ended (rest : List Char) : Prop := ∀ c ∈ rest.head?, c = ',' ∨ c = '\n'

namespace Scan

section
variable {chars rest : List Char} (ended : Ended rest)
include ended

theorem digitSpan_append : digitSpan (chars ++ rest) = digitSpan chars := by
  have stop : rest.takeWhile Char.isDigit = [] := by
    cases rest with
    | nil => rfl
    | cons c rest => rcases ended c rfl with rfl | rfl <;> rfl
  unfold digitSpan
  rw [List.takeWhile_append, stop, List.append_nil]
  split
  · rename_i whole
    exact ((List.takeWhile_prefix _).eq_of_length whole).symm
  · rfl

theorem wholePart_append : wholePart (chars ++ rest) = wholePart chars := by
  cases chars with
  | nil =>
    cases rest with
    | nil => rfl
    | cons c rest => rcases ended c rfl with rfl | rfl <;> rfl
  | cons c chars =>
    by_cases zero : c = '0'
    · subst zero
      rfl
    · have plain (more : List Char) : wholePart (c :: more) = digitSpan (c :: more) := by
        unfold wholePart
        split
        · rename_i same
          exact absurd (List.cons.inj same).1 zero
        · rfl
      rw [List.cons_append, plain, plain, ← List.cons_append, digitSpan_append ended]

theorem fractionPart_append : fractionPart (chars ++ rest) = fractionPart chars := by
  cases chars with
  | nil =>
    cases rest with
    | nil => rfl
    | cons c rest => rcases ended c rfl with rfl | rfl <;> rfl
  | cons c chars =>
    by_cases point : c = '.'
    · subst point
      simp only [List.cons_append, fractionPart, digitSpan_append ended]
    · simp [fractionPart, point]

theorem exponentPart_append : exponentPart (chars ++ rest) = exponentPart chars := by
  cases chars with
  | nil =>
    cases rest with
    | nil => rfl
    | cons c rest => rcases ended c rfl with rfl | rfl <;> rfl
  | cons mark chars =>
    by_cases exponent : mark = 'e' ∨ mark = 'E'
    · cases chars with
      | nil =>
        have none : rest.takeWhile Char.isDigit = [] := @digitSpan_append [] rest ended
        have unsigned : ¬ (rest.head? = some '-' ∨ rest.head? = some '+') := by
          cases rest with
          | nil => simp
          | cons c rest => rcases ended c rfl with rfl | rfl <;> simp
        simp [exponentPart, exponent, unsigned, none, digitSpan]
      | cons first chars =>
        by_cases signed : first = '-' ∨ first = '+'
        · simp [exponentPart, exponent, signed, digitSpan_append ended]
        · have digits : digitSpan (first :: (chars ++ rest)) = digitSpan (first :: chars) :=
            @digitSpan_append (first :: chars) rest ended
          simp [exponentPart, exponent, signed, digits]
    · simp [exponentPart, exponent]

end

variable {chars : List Char}

theorem append_isPrefix {part more : List Char} (first : part <+: chars)
    (second : more <+: chars.drop part.length) : part ++ more <+: chars := by
  obtain ⟨rest, rfl⟩ := first
  rw [List.drop_left] at second
  exact (List.prefix_append_right_inj part).2 second

theorem digitSpan_isPrefix : digitSpan chars <+: chars := List.takeWhile_prefix _

theorem wholePart_isPrefix : wholePart chars <+: chars := by
  unfold wholePart
  split
  · simp
  · exact digitSpan_isPrefix

theorem fractionPart_isPrefix : fractionPart chars <+: chars := by
  unfold fractionPart
  split
  · split
    · simp
    · exact (List.prefix_cons_inj _).2 digitSpan_isPrefix
  · simp

theorem exponentPart_isPrefix : exponentPart chars <+: chars := by
  cases chars with
  | nil => simp [exponentPart]
  | cons mark chars =>
    simp only [exponentPart]
    generalize (if chars.head? = some '-' ∨ chars.head? = some '+' then 1 else 0) = size
    split
    · split
      · simp
      · exact (List.prefix_cons_inj _).2 (append_isPrefix (List.take_prefix _ _) digitSpan_isPrefix)
    · simp

end Scan

/-- The parts of a number at the beginning of a text. -/
structure Numeral where
  sign : List Char
  whole : List Char
  fraction : List Char
  exponent : List Char

namespace Numeral
open Scan

/-- The parts of the number that a text begins with. -/
def ofChars (chars : List Char) : Numeral :=
  let sign := chars.take (if chars.head? = some '-' then 1 else 0)
  let afterSign := chars.drop sign.length
  let whole := wholePart afterSign
  let afterWhole := afterSign.drop whole.length
  let fraction := fractionPart afterWhole
  ⟨sign, whole, fraction, exponentPart (afterWhole.drop fraction.length)⟩

def chars (numeral : Numeral) : List Char :=
  numeral.sign ++ numeral.whole ++ numeral.fraction ++ numeral.exponent

def value (numeral : Numeral) : Scan Datum :=
  if numeral.fraction.isEmpty && numeral.exponent.isEmpty then
    if numeral.whole.length > digitLimit then throw (.tooManyDigits numeral.whole.length)
    else
      let size := numeral.whole.foldl (fun n c => n * 10 + (c.toNat - '0'.toNat)) 0
      return .integer (if numeral.sign.isEmpty then size else -(size : Int))
  else return .number ((Number.read? (String.ofList numeral.chars)).getD 0.0)

theorem numberValue_eq (chars : List Char) (position : Nat) :
    numberValue ⟨chars, position⟩ =
      (if (ofChars chars).whole.isEmpty then fail "Expecting value" position
        else do skip (ofChars chars).chars.length; (ofChars chars).value : Scan Datum)
        ⟨chars, position⟩ := rfl

theorem chars_isPrefix (chars : List Char) : (ofChars chars).chars <+: chars := by
  unfold Numeral.chars
  rw [List.append_assoc, List.append_assoc]
  refine append_isPrefix (List.take_prefix _ _) (append_isPrefix wholePart_isPrefix ?_)
  exact append_isPrefix fractionPart_isPrefix exponentPart_isPrefix

theorem ofChars_append {chars rest : List Char} (ended : Ended rest) (some : chars ≠ []) :
    ofChars (chars ++ rest) = ofChars chars := by
  have dropped {part : List Char} {whole : List Char} (inside : part <+: whole) :
      (whole ++ rest).drop part.length = whole.drop part.length ++ rest :=
    List.drop_append_of_le_length inside.length_le
  have head : (chars ++ rest).head? = chars.head? := by
    cases chars with
    | nil => exact absurd rfl some
    | cons c chars => rfl
  have signed : (chars ++ rest).take (if chars.head? = Option.some '-' then 1 else 0) =
      chars.take (if chars.head? = Option.some '-' then 1 else 0) := by
    refine List.take_append_of_le_length ?_
    cases chars with
    | nil => exact absurd rfl some
    | cons c chars => split <;> simp
  simp only [ofChars, head, signed, dropped (List.take_prefix _ _), wholePart_append ended,
    dropped wholePart_isPrefix, fractionPart_append ended, dropped fractionPart_isPrefix,
    exponentPart_append ended]

theorem value_cases (numeral : Numeral) :
    (∃ datum, numeral.value = pure datum) ∨ ∃ fault, numeral.value = throw fault := by
  unfold value
  split
  · split
    · exact .inr ⟨_, rfl⟩
    · exact .inl ⟨_, rfl⟩
  · exact .inl ⟨_, rfl⟩

/-- A number that fills a text is read in the same way where the text goes on behind it. -/
theorem gives_numberValue {chars rest : List Char} (ended : Ended rest) {datum : Datum}
    {after : Nat} (alone : numberValue ⟨chars, 0⟩ = .ok datum ⟨[], after⟩) (position : Nat) :
    Gives numberValue ⟨chars ++ rest, position⟩ datum rest := by
  rw [numberValue_eq] at alone
  split at alone
  · cases alone
  · rename_i full
    have some : chars ≠ [] := by
      rintro rfl
      exact full rfl
    obtain ⟨_, middle, skipped, valued⟩ := bind_eq_ok alone
    rcases (ofChars chars).value_cases with ⟨result, pure⟩ | ⟨fault, throws⟩
    · rw [pure] at valued
      cases valued
      have used : chars.drop (ofChars chars).chars.length = [] :=
        congrArg Place.rest (EStateM.Result.ok.inj skipped).2
      have whole : (ofChars chars).chars = chars :=
        (chars_isPrefix chars).eq_of_length_le (List.drop_eq_nil_iff.1 used)
      rw [Gives, Ends, numberValue_eq, ofChars_append ended some, if_neg full, whole, pure]
      change Gives (do skip chars.length; return datum) ⟨chars ++ rest, position⟩ datum rest
      exact (gives_skip chars rest position).bind fun _ => ⟨rfl, rfl⟩
    · rw [throws] at valued
      cases valued

end Numeral

namespace Scan

theorem isPrefixOf_append {rest : List Char} (ended : Ended rest) {word : List Char}
    (inside : ∀ c ∈ word, c ≠ ',' ∧ c ≠ '\n') (chars : List Char) :
    word.isPrefixOf (chars ++ rest) = word.isPrefixOf chars := by
  induction word generalizing chars with
  | nil => rfl
  | cons first word ih =>
    obtain ⟨other, others⟩ := List.forall_mem_cons.1 inside
    cases chars with
    | nil =>
      cases rest with
      | nil => rfl
      | cons c rest =>
        have differ : first ≠ c := by
          rcases ended c rfl with rfl | rfl
          · exact other.1
          · exact other.2
        simp [List.isPrefixOf, differ]
    | cons c chars => simp [List.isPrefixOf, ih others]

/-- A value by a word or a number that fills a text is read in the same way where the text goes on. -/
theorem gives_wordOrNumber {chars rest : List Char} (ended : Ended rest) {datum : Datum}
    {after : Nat} (alone : wordOrNumber ⟨chars, 0⟩ = .ok datum ⟨[], after⟩) (position : Nat) :
    Gives wordOrNumber ⟨chars ++ rest, position⟩ datum rest := by
  have letters : ∀ word ∈ words, ∀ c ∈ word.1.toList, c ≠ ',' ∧ c ≠ '\n' := by
    have each : (words.all fun word => word.1.toList.all fun c => c ≠ ',' ∧ c ≠ '\n') = true := by
      decide
    intro word inside c member
    exact of_decide_eq_true (List.all_eq_true.1 (List.all_eq_true.1 each word inside) c member)
  have same : (words.find? fun word => word.1.toList.isPrefixOf (chars ++ rest)) =
      words.find? fun word => word.1.toList.isPrefixOf chars :=
    List.find?_congr fun word inside => isPrefixOf_append ended (letters word inside) chars
  rw [Gives, wordOrNumber, ends_bind, ends_get]
  dsimp only
  rw [same]
  obtain ⟨_, _, got, read⟩ := bind_eq_ok alone
  cases got
  dsimp only at read
  cases found : words.find? fun word => word.1.toList.isPrefixOf chars with
  | none =>
    rw [found] at read
    exact Numeral.gives_numberValue ended read position
  | some word =>
    rw [found] at read
    obtain ⟨_, _, skipped, returned⟩ := bind_eq_ok read
    cases returned
    have used : chars.drop word.1.length = [] := congrArg Place.rest (EStateM.Result.ok.inj skipped).2
    have start : word.1.toList <+: chars :=
      List.isPrefixOf_iff_prefix.1 (by simpa using List.find?_some found)
    have whole : word.1.toList = chars :=
      start.eq_of_length_le (by rw [String.length_toList]; exact List.drop_eq_nil_iff.1 used)
    have skips := gives_skip word.1.toList rest position
    rw [String.length_toList] at skips
    rw [← whole]
    exact skips.bind fun _ => ⟨rfl, rfl⟩

end Scan

open Scan

theorem isNumeric_ne {c d : Char} (numeric : isNumeric c = true) (other : isNumeric d = false) :
    c ≠ d := by
  rintro rfl
  rw [numeric] at other
  cases other

theorem not_isGap_of_isNumeric {c : Char} (numeric : isNumeric c = true) : ¬ isGap c = true := by
  simp [isGap, isNumeric_ne numeric (show isNumeric ' ' = false from rfl),
    isNumeric_ne numeric (show isNumeric '\t' = false from rfl),
    isNumeric_ne numeric (show isNumeric '\n' = false from rfl),
    isNumeric_ne numeric (show isNumeric '\r' = false from rfl)]

/-- What begins like a number is read as a word or a number. -/
theorem valueWith_numeric (item : Scan Datum) (fuel : Nat) {c : Char} (numeric : isNumeric c = true)
    (chars : List Char) (position : Nat) :
    valueWith item fuel ⟨c :: chars, position⟩ = wordOrNumber ⟨c :: chars, position⟩ := by
  have quote := isNumeric_ne numeric (show isNumeric '"' = false from rfl)
  have brace := isNumeric_ne numeric (show isNumeric '\x7b' = false from rfl)
  have bracket := isNumeric_ne numeric (show isNumeric '[' = false from rfl)
  rw [valueWith, bind_of_ok (rfl : (get : Scan Place) ⟨c :: chars, position⟩ = .ok _ _)]
  simp [quote, brace, bracket]

end Reckoner.Datum
