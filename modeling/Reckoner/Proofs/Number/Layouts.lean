import Reckoner.Number.Reading
import Reckoner.Number.Writing
import Reckoner.Proofs.Number.Shortest

/-!
The text of a decimal is read as the decimal. A text has digits before a point, digits behind it and
an exponent; wherever the point is put, the digits and the places give the same value, and so the
text of the shortest decimal of a number is read as the number.
-/
namespace Reckoner.Number
open Reckoner.Text

theorem digitValue?_of_isDigit {c : Char} (digit : c.isDigit = true) :
    digitValue? c = some (c.toNat - '0'.toNat) := by
  have bounds : 48 ≤ c.toNat ∧ c.toNat ≤ 57 := by
    simp only [Char.isDigit, Bool.and_eq_true, decide_eq_true_eq] at digit
    exact digit
  have first : (48 ≤ c.toNat && c.toNat < 48 + 10) = true := by
    simp only [Bool.and_eq_true, decide_eq_true_eq]
    omega
  obtain ⟨others, table⟩ : ∃ others, zeros = 48 :: others := ⟨_, rfl⟩
  have hit : (zeros.find? fun start => start ≤ c.toNat && c.toNat < start + 10) = some 48 := by
    rw [table]
    exact List.find?_cons_of_pos first
  rw [digitValue?, hit]
  rfl

/-- What may follow the digits of a decimal. -/
def Stops (rest : List Char) : Prop := ∀ c ∈ rest.head?, c = '.' ∨ c = 'e'

theorem digitValue?_of_stops {c : Char} (stops : c = '.' ∨ c = 'e') : digitValue? c = none := by
  rcases stops with rfl | rfl <;> decide

/-- A run of digits is read to its end. -/
theorem digitRun_digits {digits : List Char} (each : ∀ c ∈ digits, c.isDigit = true)
    {rest : List Char} (stops : Stops rest) (value size : Nat) :
    digitRun value size (digits ++ rest) =
      (Nat.ofDigitChars 10 digits value, size + digits.length, rest) := by
  induction digits generalizing value size with
  | nil =>
    cases rest with
    | nil => rfl
    | cons c rest =>
      have stop := stops c rfl
      have none := digitValue?_of_stops stop
      rw [List.nil_append, digitRun, none]
      · rfl
      · rintro d more rfl
        rcases stop with other | other <;> cases other
  | cons c digits ih =>
    obtain ⟨digit, others⟩ := List.forall_mem_cons.1 each
    rw [List.cons_append, digitRun, digitValue?_of_isDigit digit]
    · simp only
      rw [ih others, Nat.ofDigitChars_cons, List.length_cons, Nat.mul_comm value]
      congr 2
      omega
    · rintro d more rfl
      cases digit

theorem digitsFrom_digits {digits : List Char} (each : ∀ c ∈ digits, c.isDigit = true)
    {rest : List Char} (stops : Stops rest) (value size : Nat) :
    digitsFrom value size (digits ++ rest) =
      (Nat.ofDigitChars 10 digits value, size + digits.length, rest) := by
  cases digits with
  | nil =>
    cases rest with
    | nil => rfl
    | cons c rest =>
      have none := digitValue?_of_stops (stops c rfl)
      rw [List.nil_append, digitsFrom, none]
      rfl
  | cons c digits =>
    obtain ⟨digit, others⟩ := List.forall_mem_cons.1 each
    rw [List.cons_append, digitsFrom, digitValue?_of_isDigit digit]
    simp only
    rw [digitRun_digits others stops, Nat.ofDigitChars_cons, List.length_cons, Nat.mul_comm value]
    congr 2
    omega

/-- The digits of an exponent. -/
def exponentDigits (width : Nat) (exponent : ℤ) : List Char :=
  List.replicate (width - (Nat.toDigits 10 exponent.natAbs).length) '0' ++
    Nat.toDigits 10 exponent.natAbs

theorem isDigit_exponentDigits {width : Nat} {exponent : ℤ} :
    ∀ c ∈ exponentDigits width exponent, c.isDigit = true := by
  intro c inside
  rcases List.mem_append.1 inside with zero | digit
  · rw [List.eq_of_mem_replicate zero]
    rfl
  · exact Nat.isDigit_of_mem_toDigits (by decide) (by decide) digit

theorem exponentDigits_ne_nil (width : Nat) (exponent : ℤ) : exponentDigits width exponent ≠ [] :=
  List.append_ne_nil_of_right_ne_nil _ Nat.toDigits_ne_nil

/-- The exponent of a decimal is read from its text. -/
theorem exponent?_text (width : Nat) (exponent : ℤ) :
    exponent? ('e' :: exponentText width exponent) = some exponent := by
  have read := @digitsFrom_digits _ (@isDigit_exponentDigits width exponent) [] (by simp [Stops]) 0 0
  have value : Nat.ofDigitChars 10 (exponentDigits width exponent) 0 = exponent.natAbs := by
    rw [exponentDigits, Nat.ofDigitChars_append, Nat.ofDigitChars_replicate_zero, Nat.mul_zero,
      Nat.ofDigitChars_ten_toDigits]
  have full : ¬ (0 + (exponentDigits width exponent).length = 0 ∨ ([] : List Char) ≠ []) := by
    have some := List.length_pos_iff.2 (exponentDigits_ne_nil width exponent)
    rintro (none | other)
    · omega
    · exact other rfl
  rw [List.append_nil, value] at read
  have text : exponentText width exponent =
      (if exponent < 0 then '-' else '+') :: exponentDigits width exponent := rfl
  by_cases negative : exponent < 0
  · simp only [exponent?, text, if_pos negative, true_or, if_true, takeSign, read, if_neg full]
    congr 1
    omega
  · simp only [exponent?, text, if_neg negative, true_or, if_true, takeSign, read, if_neg full,
      Bool.false_eq_true, if_false]
    congr 1
    omega

/-- A decimal as it is laid out in a text: digits before the point, digits behind it and an
    exponent. -/
structure Layout where
  whole : List Char
  fraction : List Char
  exponent : Option ℤ

namespace Layout

/-- The text of a fraction; without digits there is no point. -/
def pointed (fraction : List Char) : List Char := if fraction.isEmpty then [] else '.' :: fraction

theorem pointed_of_ne_nil {fraction : List Char} (some : fraction ≠ []) :
    pointed fraction = '.' :: fraction := by
  rw [pointed, if_neg (by simpa using some)]

/-- The text of an exponent. -/
def marked : Option ℤ → List Char
  | none => []
  | some exponent => 'e' :: exponentText 2 exponent

/-- The text of a layout. -/
def chars (layout : Layout) : List Char :=
  layout.whole ++ (pointed layout.fraction ++ marked layout.exponent)

theorem stops_marked (exponent : Option ℤ) : Stops (marked exponent) := by
  intro c head
  cases exponent with
  | none => cases head
  | some exponent =>
    cases head
    exact .inr rfl

theorem exponent?_marked (exponent : Option ℤ) : exponent? (marked exponent) = some (exponent.getD 0) := by
  cases exponent with
  | none => rfl
  | some exponent => exact exponent?_text 2 exponent

/-- The digits of a layout are decimal digits, and some stand before the point. -/
structure Digital (layout : Layout) : Prop where
  filled : layout.whole ≠ []
  whole : ∀ c ∈ layout.whole, c.isDigit = true
  fraction : ∀ c ∈ layout.fraction, c.isDigit = true

/-- A layout that a document has for a number: there are no zeros in front, and it does not look like
    a whole number. -/
structure Proper (layout : Layout) : Prop extends Digital layout where
  lead : layout.whole.head? ≠ some '0' ∨ layout.whole = ['0']
  broken : layout.fraction ≠ [] ∨ layout.exponent ≠ none

/-- The digits of a layout as a whole number. -/
def value (layout : Layout) : Nat := Nat.ofDigitChars 10 (layout.whole ++ layout.fraction) 0

/-- The place value of the last digit. -/
def place (layout : Layout) : ℤ := layout.exponent.getD 0 - layout.fraction.length

/-- A decimal is read as it is laid out. -/
theorem Digital.decimal?_eq {layout : Layout} (digital : layout.Digital) (negative : Bool) :
    decimal? negative layout.chars =
      some (ofDecimal negative layout.value (layout.whole.length + layout.fraction.length)
        layout.place) := by
  obtain ⟨whole, fraction, exponent⟩ := layout
  have filled : whole ≠ [] := digital.filled
  have size : whole.length ≠ 0 := mt List.length_eq_zero_iff.1 filled
  have tail := exponent?_marked exponent
  have stops := stops_marked exponent
  unfold chars value place
  generalize marked exponent = behind at tail stops
  cases fraction with
  | nil =>
    have plain : fractionFrom (Nat.ofDigitChars 10 whole 0) whole.length behind =
        (Nat.ofDigitChars 10 whole 0, whole.length, behind) := by
      cases behind with
      | nil => rfl
      | cons c behind =>
        rcases stops c rfl with rfl | rfl
        · cases tail
        · rfl
    simp [pointed, decimal?, digitsFrom_digits digital.whole stops, plain, size, tail]
  | cons first fraction =>
    have point : Stops ('.' :: (first :: fraction ++ behind)) := by
      intro c head
      cases head
      exact .inl rfl
    have run := digitsFrom_digits digital.whole point 0 0
    have more := digitsFrom_digits digital.fraction stops (Nat.ofDigitChars 10 whole 0) whole.length
    rw [Nat.zero_add] at run
    have text : whole ++ (pointed (first :: fraction) ++ behind) =
        whole ++ '.' :: (first :: fraction ++ behind) := rfl
    simp only [text, decimal?, run, fractionFrom, more, tail, ← Nat.ofDigitChars_append]
    simp [size]

end Layout

/-- The layout of digits of which the first has the place value `10 ^ leading`. -/
def layoutOf (digits : List Char) (leading : ℤ) : Layout :=
  if -4 ≤ leading ∧ leading ≤ 15 then
    if leading < 0 then ⟨['0'], List.replicate (-leading - 1).toNat '0' ++ digits, none⟩
    else
      ⟨digits.take (leading.toNat + 1) ++ List.replicate (leading.toNat + 1 - digits.length) '0',
        if (digits.drop (leading.toNat + 1)).isEmpty then ['0'] else digits.drop (leading.toNat + 1),
        none⟩
  else ⟨digits.take 1, digits.drop 1, some leading⟩

section
variable {digits : List Char}

theorem digitsText_eq (filled : digits ≠ []) (leading : ℤ) :
    Style.document.digitsText digits leading = (layoutOf digits leading).chars := by
  unfold Style.digitsText layoutOf
  simp only [Style.document]
  split
  · split
    · rw [Layout.chars, Layout.pointed_of_ne_nil (by simp [filled])]
      simp [Layout.marked]
    · simp only [Layout.chars, Layout.marked, List.append_nil]
      rw [Layout.pointed_of_ne_nil]
      split
      · simp
      · rename_i some
        simpa using some
  · simp only [Layout.chars, Layout.marked]
    by_cases short : digits.length ≤ 1
    · rw [if_pos short, List.take_of_length_le short, List.drop_of_length_le short]
      rfl
    · have some : digits.drop 1 ≠ [] := fun none => short (List.drop_eq_nil_iff.1 none)
      rw [if_neg short, Layout.pointed_of_ne_nil some, List.append_assoc]

theorem digital_layoutOf (filled : digits ≠ []) (each : ∀ c ∈ digits, c.isDigit = true) (leading : ℤ) :
    (layoutOf digits leading).Digital := by
  have zero (n : Nat) : ∀ c ∈ List.replicate n '0', c.isDigit = true := by
    intro c inside
    rw [List.eq_of_mem_replicate inside]
    rfl
  have taken (n : Nat) : ∀ c ∈ digits.take n, c.isDigit = true :=
    fun c inside => each c (List.mem_of_mem_take inside)
  have dropped (n : Nat) : ∀ c ∈ digits.drop n, c.isDigit = true :=
    fun c inside => each c (List.mem_of_mem_drop inside)
  unfold layoutOf
  split
  · split
    · exact ⟨by simp, by simp, List.forall_mem_append.2 ⟨zero _, each⟩⟩
    · refine ⟨by simp [filled], List.forall_mem_append.2 ⟨taken _, zero _⟩, ?_⟩
      simp only
      split
      · simp
      · exact dropped _
  · exact ⟨by simp [filled], taken 1, dropped 1⟩

theorem proper_layoutOf (filled : digits ≠ []) (each : ∀ c ∈ digits, c.isDigit = true)
    (lead : digits.head? ≠ some '0') (leading : ℤ) : (layoutOf digits leading).Proper := by
  have taken (n : Nat) : (digits.take (n + 1)).head? ≠ some '0' := by
    rwa [List.head?_take, if_neg (Nat.succ_ne_zero n)]
  refine ⟨digital_layoutOf filled each leading, ?_, ?_⟩
  · unfold layoutOf
    split
    · split
      · exact .inr rfl
      · left
        rw [List.head?_append_of_ne_nil _ (by simp [filled])]
        exact taken _
    · exact .inl (taken 0)
  · unfold layoutOf
    split
    · split
      · exact .inl (by simp [filled])
      · left
        simp only
        split
        · simp
        · rename_i some
          simpa using some
    · exact .inr (by simp)

/-- A layout has the value of its digits. -/
theorem value_layoutOf (filled : digits ≠ []) (leading : ℤ) :
    ((layoutOf digits leading).value : ℚ) * 10 ^ (layoutOf digits leading).place =
      Nat.ofDigitChars 10 digits 0 * 10 ^ (leading + 1 - digits.length) := by
  have size := List.length_pos_iff.2 filled
  unfold layoutOf
  split
  · split
    · rename_i negative
      have value : Nat.ofDigitChars 10 (['0'] ++ (List.replicate (-leading - 1).toNat '0' ++ digits)) 0 =
          Nat.ofDigitChars 10 digits 0 := by
        simp [Nat.ofDigitChars_append, Nat.ofDigitChars_replicate_zero, Nat.ofDigitChars_cons]
      simp only [Layout.value, Layout.place, value]
      congr 2
      simp
      omega
    · rename_i nonnegative
      simp only [Layout.value, Layout.place]
      split
      · rename_i ended
        have short : digits.length ≤ leading.toNat + 1 := List.drop_eq_nil_iff.1 (by simpa using ended)
        rw [List.take_of_length_le short, Nat.ofDigitChars_append, Nat.ofDigitChars_append,
          Nat.ofDigitChars_replicate_zero]
        have exponent : leading + 1 - digits.length = ((leading.toNat + 1 - digits.length : Nat) : ℤ) := by
          omega
        rw [exponent, zpow_natCast]
        simp [Nat.ofDigitChars_cons, zpow_neg]
        ring
      · rename_i goesOn
        have long : leading.toNat + 1 < digits.length := by
          by_contra short
          exact goesOn (by simp [List.drop_eq_nil_iff.2 (not_lt.1 short)])
        rw [Nat.sub_eq_zero_of_le long.le, List.replicate_zero, List.append_nil, List.take_append_drop]
        congr 2
        rw [List.length_drop]
        simp
        omega
  · simp only [Layout.value, Layout.place, List.take_append_drop]
    congr 2
    simp
    omega

/-- A layout of moderate size is inside the range that is computed. -/
theorem bounds_layoutOf (filled : digits ≠ []) {leading : ℤ} (low : -400 ≤ leading)
    (high : leading ≤ 400) :
    (layoutOf digits leading).place ≤ 400 ∧
      -400 ≤ (layoutOf digits leading).place +
        ((layoutOf digits leading).whole.length + (layoutOf digits leading).fraction.length : Nat) := by
  have size := List.length_pos_iff.2 filled
  unfold layoutOf
  split
  · split
    · simp only [Layout.place, Option.getD_none, List.length_append, List.length_replicate,
        List.length_singleton]
      omega
    · simp only [Layout.place, Option.getD_none, List.length_append, List.length_take,
        List.length_replicate]
      omega
  · simp only [Layout.place, Option.getD_some, List.length_take, List.length_drop]
    omega

theorem head?_toDigits {n : Nat} (positive : 0 < n) : (Nat.toDigits 10 n).head? ≠ some '0' := by
  induction n using Nat.strong_induction_on with
  | h n ih =>
    rw [Nat.toDigits_eq_if (by decide)]
    split
    · simpa using positive.ne'
    · rename_i large
      have some : Nat.toDigits 10 (n / 10) ≠ [] := Nat.toDigits_ne_nil
      rw [List.head?_append_of_ne_nil _ some]
      exact ih (n / 10) (by omega) (by omega)

/-- The digits of a number are the significant ones and zeros behind them. -/
theorem exists_significant (n : Nat) :
    ∃ zeros, Nat.toDigits 10 n = significant n ++ List.replicate zeros '0' := by
  have parts := congrArg List.reverse
    (List.takeWhile_append_dropWhile (p := (· = '0')) (l := (Nat.toDigits 10 n).reverse))
  rw [List.reverse_append, List.reverse_reverse] at parts
  have each : ∀ c ∈ ((Nat.toDigits 10 n).reverse.takeWhile (· = '0')).reverse, c = '0' := by
    intro c inside
    simpa using List.all_eq_true.1 List.all_takeWhile c (List.mem_reverse.1 inside)
  exact ⟨_, by rw [← List.eq_replicate_of_mem each]; exact parts.symm⟩

theorem significant_ne_nil {n : Nat} (positive : 0 < n) : significant n ≠ [] := by
  intro none
  obtain ⟨zeros, parts⟩ := exists_significant n
  have head := head?_toDigits positive
  rw [parts, none, List.nil_append] at head
  cases zeros with
  | zero => exact Nat.toDigits_ne_nil (parts.trans (by rw [none]; rfl))
  | succ zeros => exact head rfl

theorem head?_significant {n : Nat} (positive : 0 < n) : (significant n).head? ≠ some '0' := by
  obtain ⟨zeros, parts⟩ := exists_significant n
  have head := head?_toDigits positive
  rwa [parts, List.head?_append_of_ne_nil _ (significant_ne_nil positive)] at head

theorem isDigit_significant {n : Nat} {c : Char} (inside : c ∈ significant n) : c.isDigit = true := by
  obtain ⟨zeros, parts⟩ := exists_significant n
  refine Nat.isDigit_of_mem_toDigits (n := n) (show 0 < 10 by decide) (by decide) ?_
  rw [parts]
  exact List.mem_append_left _ inside

/-- The place value of the first digit of a decimal. -/
def leadingPlace (decimal : Decimal) : ℤ :=
  ((Nat.toDigits 10 decimal.digits).length : ℤ) - 1 + decimal.exponent

/-- The significant digits of a decimal, from its leading place on, have its value. -/
theorem value_significant (decimal : Decimal) :
    (Nat.ofDigitChars 10 (significant decimal.digits) 0 : ℚ) *
        10 ^ (leadingPlace decimal + 1 - (significant decimal.digits).length) =
      decimal.digits * 10 ^ decimal.exponent := by
  obtain ⟨zeros, parts⟩ := exists_significant decimal.digits
  have digits : decimal.digits = 10 ^ zeros * Nat.ofDigitChars 10 (significant decimal.digits) 0 := by
    have whole := Nat.ofDigitChars_ten_toDigits (n := decimal.digits)
    rw [parts, Nat.ofDigitChars_append, Nat.ofDigitChars_replicate_zero] at whole
    exact whole.symm
  have place : leadingPlace decimal + 1 - (significant decimal.digits).length =
      zeros + decimal.exponent := by
    rw [leadingPlace, parts, List.length_append, List.length_replicate]
    push_cast
    ring
  conv_rhs => rw [digits]
  rw [place, zpow_add₀ (by norm_num), zpow_natCast]
  push_cast
  ring

/-- A decimal lies between the powers of ten around its leading place. -/
theorem leadingPlace_bounds {decimal : Decimal} (positive : 0 < decimal.digits) :
    (10 : ℚ) ^ leadingPlace decimal ≤ decimal.digits * 10 ^ decimal.exponent ∧
      decimal.digits * 10 ^ decimal.exponent < (10 : ℚ) ^ (leadingPlace decimal + 1) := by
  have some := Nat.length_toDigits_pos (b := 10) (n := decimal.digits)
  have high : decimal.digits < 10 ^ (Nat.toDigits 10 decimal.digits).length :=
    (Nat.length_toDigits_le_iff (by decide) some).1 le_rfl
  have low : 10 ^ ((Nat.toDigits 10 decimal.digits).length - 1) ≤ decimal.digits := by
    by_contra less
    by_cases single : (Nat.toDigits 10 decimal.digits).length - 1 = 0
    · rw [single] at less
      omega
    · have short := (Nat.length_toDigits_le_iff (by decide) (Nat.pos_of_ne_zero single)).2 (not_le.1 less)
      omega
  have lowCast : (10 : ℚ) ^ ((Nat.toDigits 10 decimal.digits).length - 1) ≤ decimal.digits := by
    exact_mod_cast low
  have highCast : (decimal.digits : ℚ) < 10 ^ (Nat.toDigits 10 decimal.digits).length := by
    exact_mod_cast high
  have place : leadingPlace decimal =
      ((Nat.toDigits 10 decimal.digits).length - 1 : Nat) + decimal.exponent := by
    rw [leadingPlace]
    omega
  have next : leadingPlace decimal + 1 =
      (Nat.toDigits 10 decimal.digits).length + decimal.exponent := by
    rw [leadingPlace]
    ring
  constructor
  · rw [place, zpow_add₀ (by norm_num), zpow_natCast]
    gcongr
  · rw [next, zpow_add₀ (by norm_num), zpow_natCast]
    gcongr

end

theorem digits_pos {decimal : Decimal} (positive : (0 : ℚ) < decimal.digits * 10 ^ decimal.exponent) :
    0 < decimal.digits := by
  refine Nat.pos_of_ne_zero fun none => ?_
  rw [none] at positive
  simp at positive

/-- The decimals that read back as a number are of moderate size. -/
theorem leadingPlace_moderate {mantissa : Nat} {exponent : ℤ} (canonical : Canonical mantissa exponent)
    {decimal : Decimal}
    (covers : (interval mantissa exponent).Covers exponent (decimal.digits * 10 ^ decimal.exponent)) :
    -400 ≤ leadingPlace decimal ∧ leadingPlace decimal ≤ 400 := by
  have positive := digits_pos (covers.positive canonical.positive)
  obtain ⟨above, below⟩ := leadingPlace_bounds positive
  have rounds := covers.rounds canonical.positive
  have unit : (0 : ℚ) < 2 ^ exponent := by positivity
  have atLeast := (le_div_iff₀ unit).1 rounds.low
  have atMost := (div_le_iff₀ unit).1 rounds.high
  have ten : (1 : ℚ) < 10 := by norm_num
  constructor
  · have least : (2 : ℚ) ^ (-1075 : ℤ) ≤ decimal.digits * 10 ^ decimal.exponent := by
      have lowest : (2 : ℚ) ^ (-1074 : ℤ) ≤ 2 ^ exponent := zpow_le_zpow_right₀ one_le_two canonical.least
      have one : (1 : ℚ) ≤ mantissa := by exact_mod_cast canonical.positive
      have half : (2 : ℚ) ^ (-1075 : ℤ) = 2 ^ (-1074 : ℤ) / 2 := by
        rw [show (-1075 : ℤ) = -1074 - 1 by norm_num, zpow_sub_one₀ two_ne_zero, div_eq_mul_inv]
      rw [half]
      nlinarith
    have small : (10 : ℚ) ^ (-400 : ℤ) ≤ 2 ^ (-1075 : ℤ) := by
      have powers : 2 ^ 1075 ≤ 10 ^ 400 := by decide +kernel
      rw [zpow_neg, zpow_neg, inv_le_inv₀ (by positivity) (by positivity)]
      exact_mod_cast powers
    have place := (zpow_lt_zpow_iff_right₀ ten).1 ((small.trans least).trans_lt below)
    omega
  · have most : (decimal.digits * 10 ^ decimal.exponent : ℚ) < 2 ^ (1024 : ℤ) := by
      have highest : (2 : ℚ) ^ exponent ≤ 2 ^ (971 : ℤ) := zpow_le_zpow_right₀ one_le_two canonical.most
      have small : (mantissa : ℚ) + 1 ≤ 2 ^ (53 : ℤ) := by exact_mod_cast canonical.small
      calc (decimal.digits * 10 ^ decimal.exponent : ℚ) ≤ (mantissa + 1 / 2) * 2 ^ exponent := atMost
        _ < 2 ^ (53 : ℤ) * 2 ^ exponent := by
          gcongr
          linarith
        _ ≤ 2 ^ (53 : ℤ) * 2 ^ (971 : ℤ) := by gcongr
        _ = 2 ^ (1024 : ℤ) := (zpow_add₀ two_ne_zero 53 971).symm
    have large : (2 : ℚ) ^ (1024 : ℤ) ≤ 10 ^ (400 : ℤ) := by
      have powers : 2 ^ 1024 ≤ 10 ^ 400 := by decide +kernel
      exact_mod_cast powers
    have place := (zpow_lt_zpow_iff_right₀ ten).1 (above.trans_lt (most.trans_le large))
    omega

/-- The text of the shortest decimal of a number is read as the number. -/
theorem decimal?_shortest {mantissa : Nat} {exponent : ℤ} (canonical : Canonical mantissa exponent)
    (negative : Bool) :
    decimal? negative (layoutOf (significant (shortest mantissa exponent).digits)
        (leadingPlace (shortest mantissa exponent))).chars =
      some (ofMagnitude negative (magnitude mantissa exponent)) := by
  have covers := covers_shortest canonical
  generalize shortest mantissa exponent = decimal at covers ⊢
  obtain ⟨low, high⟩ := leadingPlace_moderate canonical covers
  have positive := digits_pos (covers.positive canonical.positive)
  have filled := significant_ne_nil positive
  have digital := digital_layoutOf filled (fun _ => isDigit_significant) (leadingPlace decimal)
  obtain ⟨most, least⟩ := bounds_layoutOf filled low high
  have same := (value_layoutOf filled (leadingPlace decimal)).trans (value_significant decimal)
  rw [digital.decimal?_eq, ofDecimal_eq canonical (same ▸ covers) most least]

end Reckoner.Number
