import Reckoner.Proofs.Datum.Numerals
import Reckoner.Proofs.Number.Parts

/-!
Every number is read back from its document: a finite one by the parts of its decimal, and the others
by their names.
-/
namespace Reckoner.Datum
open Number (Layout Stops)

namespace Scan

theorem digitSpan_digits {digits rest : List Char} (each : ∀ c ∈ digits, c.isDigit = true)
    (stops : Stops rest) : digitSpan (digits ++ rest) = digits := by
  have nothing : rest.takeWhile Char.isDigit = [] := by
    cases rest with
    | nil => rfl
    | cons c rest =>
      rcases stops c rfl with rfl | rfl <;> rfl
  rw [digitSpan, List.takeWhile_append_of_pos each, nothing, List.append_nil]

theorem wholePart_layout {layout : Layout} (proper : layout.Proper) {rest : List Char}
    (stops : Stops rest) : wholePart (layout.whole ++ rest) = layout.whole := by
  obtain ⟨c, digits, whole⟩ := List.exists_cons_of_ne_nil proper.filled
  have each := proper.whole
  rcases proper.lead with other | zero
  · rw [whole] at each other ⊢
    have first : c ≠ '0' := fun same => other (congrArg some same)
    rw [List.cons_append, wholePart]
    · exact digitSpan_digits each stops
    · rintro _ same
      exact first (List.cons.inj same).1
  · rw [zero]
    rfl

theorem fractionPart_layout {fraction : List Char} (each : ∀ c ∈ fraction, c.isDigit = true)
    (exponent : Option Int) :
    fractionPart (Layout.pointed fraction ++ Layout.marked exponent) = Layout.pointed fraction := by
  cases fraction with
  | nil => cases exponent <;> rfl
  | cons c fraction =>
    have span := digitSpan_digits each (Layout.stops_marked exponent)
    rw [Layout.pointed_of_ne_nil (by simp), List.cons_append, fractionPart, span]
    rfl

theorem exponentPart_layout (exponent : Option Int) :
    exponentPart (Layout.marked exponent) = Layout.marked exponent := by
  cases exponent with
  | none => rfl
  | some exponent =>
    have span : digitSpan (Number.exponentDigits 2 exponent) = Number.exponentDigits 2 exponent :=
      List.takeWhile_eq_self_iff.2 Number.isDigit_exponentDigits
    have some := Number.exponentDigits_ne_nil 2 exponent
    have text : Layout.marked (Option.some exponent) =
        'e' :: (if exponent < 0 then '-' else '+') :: Number.exponentDigits 2 exponent := rfl
    rw [text]
    split <;> simp [exponentPart, span, some]

end Scan

open Scan

/-- The text of a layout with a sign. -/
def signedChars (negative : Bool) (layout : Layout) : List Char :=
  (if negative then ['-'] else []) ++ layout.chars

section
variable {layout : Layout}

theorem stops_pointed (layout : Layout) :
    Stops (Layout.pointed layout.fraction ++ Layout.marked layout.exponent) := by
  cases fraction : layout.fraction with
  | nil => exact Layout.stops_marked layout.exponent
  | cons c digits =>
    intro d head
    cases head
    exact .inl rfl

theorem exists_digit (proper : layout.Proper) :
    ∃ c more, layout.chars = c :: more ∧ c.isDigit = true := by
  obtain ⟨c, digits, whole⟩ := List.exists_cons_of_ne_nil proper.filled
  exact ⟨c, digits ++ _, by rw [Layout.chars, whole]; rfl, proper.whole c (by simp [whole])⟩

/-- The parts of a number in a document are those of its layout. -/
theorem ofChars_signedChars (proper : layout.Proper) (negative : Bool) :
    Numeral.ofChars (signedChars negative layout) =
      ⟨if negative then ['-'] else [], layout.whole, Layout.pointed layout.fraction,
        Layout.marked layout.exponent⟩ := by
  have whole := wholePart_layout proper (stops_pointed layout)
  have fraction := fractionPart_layout proper.fraction layout.exponent
  have exponent := exponentPart_layout layout.exponent
  have unsigned : layout.chars.head? ≠ some '-' := by
    obtain ⟨c, more, chars, digit⟩ := exists_digit proper
    rw [chars]
    intro same
    cases same
    cases digit
  unfold Layout.chars at unsigned
  cases negative with
  | false =>
    simp only [Numeral.ofChars, signedChars, Layout.chars, Bool.false_eq_true, if_false, List.nil_append,
      if_neg unsigned, List.take_zero, List.length_nil, List.drop_zero, whole, List.drop_left, fraction,
      exponent]
  | true =>
    simp only [Numeral.ofChars, signedChars, Layout.chars, if_true, List.cons_append, List.nil_append,
      List.head?_cons, List.take_succ_cons, List.take_zero, List.length_singleton, List.drop_succ_cons,
      List.drop_zero, whole, List.drop_left, fraction, exponent]

theorem isMargin_of_isNumeric {c : Char} (numeric : isNumeric c = true) : Text.isMargin c = false := by
  have bounds : 43 ≤ c.toNat ∧ c.toNat ≤ 122 := by
    simp only [isNumeric, Char.isAlphanum, Char.isAlpha, Char.isUpper, Char.isLower, Char.isDigit,
      Bool.or_eq_true, Bool.and_eq_true, decide_eq_true_eq, beq_iff_eq] at numeric
    rcases numeric with (((((⟨low, high⟩ | ⟨low, high⟩) | ⟨low, high⟩) | rfl) | rfl) | rfl)
    · exact ⟨Nat.le_trans (by decide) low, Nat.le_trans high (by decide)⟩
    · exact ⟨Nat.le_trans (by decide) low, high⟩
    · exact ⟨Nat.le_trans (by decide) low, Nat.le_trans high (by decide)⟩
    all_goals exact ⟨by decide, by decide⟩
  have solid : Text.isBlank c = false := by
    simp [Text.isBlank]
    omega
  simp [Text.isMargin, solid]

theorem trimMargins_numeric {chars : List Char} (numeric : ∀ c ∈ chars, isNumeric c = true) :
    Number.trimMargins chars = chars := by
  have kept {chars : List Char} (numeric : ∀ c ∈ chars, isNumeric c = true) :
      chars.dropWhile Text.isMargin = chars := by
    cases chars with
    | nil => rfl
    | cons c rest =>
      exact List.dropWhile_cons_of_neg (by simp [isMargin_of_isNumeric (numeric c (by simp))])
  rw [Number.trimMargins, kept numeric, kept (by simpa using numeric), List.reverse_reverse]

/-- A decimal with its sign is read in the text of it alone. -/
theorem read?_signedChars (proper : layout.Proper) {negative : Bool} {x : Float}
    (read : Number.decimal? negative layout.chars = some x)
    (numeric : ∀ c ∈ signedChars negative layout, isNumeric c = true) :
    Number.read? (String.ofList (signedChars negative layout)) = some x := by
  have sign : Number.takeSign (signedChars negative layout) = (negative, layout.chars) := by
    cases negative with
    | true => rfl
    | false =>
      obtain ⟨c, more, chars, digit⟩ := exists_digit proper
      rw [signedChars, if_neg (by decide), List.nil_append, chars]
      unfold Number.takeSign
      split
      · rename_i same
        cases same
        cases digit
      · rename_i same
        cases same
        cases digit
      · rfl
  rw [Number.read?, String.toList_ofList, trimMargins_numeric numeric, sign]
  simp only [read, Option.some_or]

/-- A number is read where its text is laid out. -/
theorem wordOrNumber_signedChars (proper : layout.Proper) {negative : Bool} {x : Float}
    (read : Number.decimal? negative layout.chars = some x)
    (numeric : ∀ c ∈ signedChars negative layout, isNumeric c = true) :
    ∃ after, wordOrNumber ⟨signedChars negative layout, 0⟩ = .ok (.number x) ⟨[], after⟩ := by
  have nameless : (words.find? fun word => word.1.toList.isPrefixOf (signedChars negative layout)) =
      none := by
    obtain ⟨c, more, chars, digit⟩ := exists_digit proper
    have other {d : Char} (letter : d.isDigit = false) : (d == c) = false := by
      refine beq_eq_false_iff_ne.2 ?_
      rintro rfl
      rw [digit] at letter
      cases letter
    rw [signedChars, chars]
    cases negative <;>
      simp [words, List.isPrefixOf, @other 'n' rfl, @other 't' rfl, @other 'f' rfl, @other 'N' rfl,
        @other 'I' rfl, @other '-' rfl]
  have broken : ((Layout.pointed layout.fraction).isEmpty && (Layout.marked layout.exponent).isEmpty) =
      false := by
    rcases proper.broken with some | some
    · rw [Layout.pointed_of_ne_nil some]
      rfl
    · obtain ⟨exponent, same⟩ := Option.ne_none_iff_exists'.1 some
      rw [same]
      exact Bool.and_false _
  have parts := ofChars_signedChars proper negative
  have whole : (Numeral.ofChars (signedChars negative layout)).chars = signedChars negative layout := by
    rw [parts, Numeral.chars, signedChars, Layout.chars]
    simp only [List.append_assoc]
  have value : (Numeral.ofChars (signedChars negative layout)).value = pure (.number x) := by
    rw [Numeral.value, whole, read?_signedChars proper read numeric, parts]
    simp only [broken]
    rfl
  have filled : (Numeral.ofChars (signedChars negative layout)).whole.isEmpty = false := by
    rw [parts]
    simpa using proper.filled
  have number : numberValue ⟨signedChars negative layout, 0⟩ =
      .ok (.number x) ⟨[], 0 + (signedChars negative layout).length⟩ := by
    rw [Numeral.numberValue_eq, filled, if_neg (by decide), value, whole]
    change EStateM.Result.ok _ (Place.mk ((signedChars negative layout).drop _) _) = _
    rw [List.drop_length]
  have got : (get : Scan Place) ⟨signedChars negative layout, 0⟩ =
    .ok ⟨signedChars negative layout, 0⟩ ⟨signedChars negative layout, 0⟩ := rfl
  rw [wordOrNumber, bind_of_ok got]
  simp only [nameless]
  exact ⟨_, number⟩

/-- Every number is read in its text. -/
theorem wordOrNumber_written (x : Float) :
    ∃ after, wordOrNumber ⟨(Number.Style.document.write x).toList, 0⟩ = .ok (.number x) ⟨[], after⟩ := by
  cases parts : Number.parts x with
  | nan =>
    obtain rfl := Number.of_parts_nan parts
    have written : Number.Style.document.write Number.notNumber = "NaN" := by
      rw [Number.Style.write, parts]
      rfl
    rw [written]
    exact ⟨_, rfl⟩
  | infinite negative =>
    obtain rfl := Number.of_parts_infinite parts
    have written : Number.Style.document.write (Number.signedInfinity negative) =
        if negative then "-Infinity" else "Infinity" := by
      rw [Number.Style.write, parts]
      cases negative <;> rfl
    rw [written]
    cases negative <;> exact ⟨_, rfl⟩
  | finite negative mantissa exponent =>
    obtain ⟨layout, written, proper, read⟩ := Number.exists_layout parts
    have numeric := isNumeric_written x
    rw [written] at numeric ⊢
    exact wordOrNumber_signedChars proper read numeric

end

theorem exists_numeric (x : Float) :
    ∃ c more, (Number.Style.document.write x).toList = c :: more ∧ isNumeric c = true := by
  obtain ⟨_, alone⟩ := wordOrNumber_written x
  have numeric := isNumeric_written x
  cases written : (Number.Style.document.write x).toList with
  | nil =>
    rw [written] at alone
    cases alone
  | cons c more =>
    rw [written] at numeric
    exact ⟨c, more, rfl, numeric c (by simp)⟩

/-- Every number is read back wherever a value may end behind it. -/
theorem gives_number (x : Float) (item : Scan Datum) (fuel : Nat) {rest : List Char}
    (ended : Ended rest) (position : Nat) :
    Gives (valueWith item fuel) ⟨(Number.Style.document.write x).toList ++ rest, position⟩
      (.number x) rest := by
  obtain ⟨_, alone⟩ := wordOrNumber_written x
  obtain ⟨c, more, written, numeric⟩ := exists_numeric x
  have gives := gives_wordOrNumber ended alone position
  rw [written, List.cons_append] at gives ⊢
  rw [Gives, Ends, valueWith_numeric item fuel numeric]
  exact gives

end Reckoner.Datum
