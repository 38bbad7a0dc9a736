import Reckoner.Proofs.Text.Spellings
import Reckoner.Proofs.Tree
import Reckoner.Token.Scan

/-!
What a scan finds. Every lexeme has one of six forms, and the text is cut into lexemes from its
start, so what holds of the forms holds of all tokens of a scan. In particular every numeral that is
found can be read as a number.
-/
namespace Reckoner

namespace Text

/-- What holds of the ten digits of every script holds of every digit. -/
theorem isDigit_induction {P : Char → Prop} {c : Char} (digit : isDigit c = true)
    (each : ∀ start ∈ zeros, ∀ offset < 10, P (Char.ofNat (start + offset))) : P c := by
  obtain ⟨value, found⟩ := Option.isSome_iff_exists.1 digit
  obtain ⟨start, hit, rfl⟩ := Option.map_eq_some_iff.1 found
  have near := List.find?_some hit
  simp only [Bool.and_eq_true, decide_eq_true_eq] at near
  have within := each start (List.mem_of_find?_eq_some hit) (c.toNat - start) (by omega)
  rwa [Nat.add_sub_cancel' near.1, Char.ofNat_toNat] at within

theorem isBlank_of_isDigit {c : Char} (digit : isDigit c = true) : isBlank c = false :=
  isDigit_induction (P := fun c => isBlank c = false) digit (by decide +kernel)

theorem isBlank_of_isLetter {c : Char} (letter : isLetter c = true) : isBlank c = false := by
  have bounds : 65 ≤ c.toNat ∧ c.toNat ≤ 122 := by
    simp only [isLetter, Bool.or_eq_true, Bool.and_eq_true, decide_eq_true_eq] at letter
    rcases letter with ⟨low, high⟩ | ⟨low, high⟩
    · exact ⟨Nat.le_trans (by decide) low, high⟩
    · exact ⟨low, Nat.le_trans high (by decide)⟩
  simp [isBlank]
  omega

/-- What begins a text and is all of a sort is in the run of that sort at the start. -/
theorem prefix_takeWhile {p : Char → Bool} {front text : List Char} (begins : front <+: text)
    (each : ∀ c ∈ front, p c = true) : front <+: text.takeWhile p := by
  obtain ⟨rest, rfl⟩ := begins
  rw [List.takeWhile_append_of_pos each]
  exact List.prefix_append _ _

/-- No digit is among the marks that stand in or before a numeral. -/
theorem not_mem_of_isDigit {c : Char} (digit : isDigit c = true) : c ∉ ['.', '_', '-', '+'] :=
  isDigit_induction (P := fun c => c ∉ ['.', '_', '-', '+']) digit (by decide +kernel)

end Text

namespace Number
open Reckoner.Text

/-- A run of digits goes on to a point or to the end of the text. -/
theorem digitRun_append (value size : Nat) {digits : List Char}
    (each : ∀ c ∈ digits, isDigit c = true) {rest : List Char}
    (ends : rest = [] ∨ ∃ more, rest = '.' :: more) :
    ∃ result, digitRun value size (digits ++ rest) = (result, size + digits.length, rest) := by
  induction digits generalizing value size with
  | nil =>
    rcases ends with rfl | ⟨more, rfl⟩
    · exact ⟨value, rfl⟩
    · exact ⟨value, by simp [digitRun, show digitValue? '.' = none by decide]⟩
  | cons c digits ih =>
    obtain ⟨digit, others⟩ := List.forall_mem_cons.1 each
    obtain ⟨worth, found⟩ := Option.isSome_iff_exists.1 digit
    obtain ⟨result, run⟩ := ih (value * 10 + worth) (size + 1) others
    refine ⟨result, ?_⟩
    rw [List.cons_append, digitRun, found, List.length_cons, Nat.add_comm digits.length,
      ← Nat.add_assoc]
    · exact run
    · rintro d more rfl
      exact absurd (by simp) (not_mem_of_isDigit digit)

theorem digitsFrom_append (value size : Nat) {digits : List Char}
    (each : ∀ c ∈ digits, isDigit c = true) {rest : List Char}
    (ends : rest = [] ∨ ∃ more, rest = '.' :: more) :
    ∃ result, digitsFrom value size (digits ++ rest) = (result, size + digits.length, rest) := by
  cases digits with
  | nil =>
    rcases ends with rfl | ⟨more, rfl⟩
    · exact ⟨value, rfl⟩
    · exact ⟨value, by simp [digitsFrom, show digitValue? '.' = none by decide]⟩
  | cons c digits =>
    obtain ⟨digit, others⟩ := List.forall_mem_cons.1 each
    obtain ⟨worth, found⟩ := Option.isSome_iff_exists.1 digit
    obtain ⟨result, run⟩ := digitRun_append (value * 10 + worth) (size + 1) others ends
    refine ⟨result, ?_⟩
    rw [List.cons_append, digitsFrom, found, List.length_cons, Nat.add_comm digits.length,
      ← Nat.add_assoc]
    exact run

/-- The text of a numeral: digits, or a point among or before digits. -/
inductive Numeral : List Char → Prop
  | whole {digits : List Char} (filled : digits ≠ []) (each : ∀ c ∈ digits, isDigit c = true) :
      Numeral digits
  | fraction {digits more : List Char} (each : ∀ c ∈ digits, isDigit c = true) (filled : more ≠ [])
      (others : ∀ c ∈ more, isDigit c = true) : Numeral (digits ++ '.' :: more)

theorem Numeral.mem {span : List Char} (numeral : Numeral span) {c : Char} (inside : c ∈ span) :
    isDigit c = true ∨ c = '.' := by
  cases numeral with
  | whole filled each => exact .inl (each c inside)
  | fraction each filled others =>
    simp only [List.mem_append, List.mem_cons] at inside
    rcases inside with left | rfl | right
    · exact .inl (each c left)
    · exact .inr rfl
    · exact .inl (others c right)

theorem Numeral.ne_nil {span : List Char} (numeral : Numeral span) : span ≠ [] := by
  cases numeral with
  | whole filled each => exact filled
  | fraction each filled others => simp

private theorem dropWhile_eq_self {p : Char → Bool} {chars : List Char}
    (each : ∀ c ∈ chars, p c = false) : chars.dropWhile p = chars := by
  cases chars with
  | nil => rfl
  | cons c rest => exact List.dropWhile_cons_of_neg (by simp [each c])

theorem Numeral.trimMargins_eq {span : List Char} (numeral : Numeral span) :
    trimMargins span = span := by
  have solid : ∀ c ∈ span, isMargin c = false := by
    intro c inside
    rcases numeral.mem inside with digit | rfl
    · simp [isMargin, isBlank_of_isDigit digit]
    · decide
  have reversed : ∀ c ∈ span.reverse, isMargin c = false := by simpa using solid
  rw [trimMargins, dropWhile_eq_self solid, dropWhile_eq_self reversed, List.reverse_reverse]

theorem Numeral.takeSign_eq {span : List Char} (numeral : Numeral span) :
    takeSign span = (false, span) := by
  have unsigned : ∀ c ∈ span, c ∉ ['-', '+'] := by
    intro c inside
    rcases numeral.mem inside with digit | rfl
    · exact fun sign => not_mem_of_isDigit digit (List.mem_cons_of_mem _ (List.mem_cons_of_mem _ sign))
    · decide
  unfold takeSign
  split
  · exact absurd (by simp) (unsigned '-' (by simp))
  · exact absurd (by simp) (unsigned '+' (by simp))
  · rfl

theorem Numeral.decimal_eq {span : List Char} (numeral : Numeral span) (negative : Bool) :
    ∃ value, decimal? negative span = some value := by
  cases numeral with
  | whole filled each =>
    obtain ⟨value, run⟩ := digitsFrom_append 0 0 each (.inl rfl)
    rw [List.append_nil] at run
    simp [decimal?, run, fractionFrom, filled, exponent?]
  | @fraction digits more each filled others =>
    obtain ⟨value, run⟩ := digitsFrom_append 0 0 each (.inr ⟨more, rfl⟩)
    obtain ⟨result, runMore⟩ := digitsFrom_append value digits.length others (.inl rfl)
    rw [List.append_nil] at runMore
    simp [decimal?, run, fractionFrom, runMore, filled, exponent?]

/-- The text of a numeral can be read as a number. -/
theorem Numeral.read {span : List Char} (numeral : Numeral span) :
    ∃ value, read? (String.ofList span) = some value := by
  obtain ⟨value, decimal⟩ := numeral.decimal_eq false
  refine ⟨value, ?_⟩
  simp [read?, numeral.trimMargins_eq, numeral.takeSign_eq, decimal]

end Number

namespace Token
open Reckoner.Text Reckoner.Number

/-- The text of a name: letters that do not begin with a keyword. -/
structure Identifier (span : List Char) : Prop where
  filled : span ≠ []
  letters : ∀ c ∈ span, isLetter c = true
  noLet : ¬ ['l', 'e', 't'] <+: span
  noFunc : ¬ ['f', 'u', 'n', 'c'] <+: span

/-- The form of a lexeme of a kind, or of blanks. -/
inductive Lexical (blank : Char → Bool) : Option Kind → List Char → Prop
  | numeral {span : List Char} (numeral : Numeral span) : Lexical blank (some .number) span
  | mark {c : Char} {kind : Kind} (known : punctuation? c = some kind) : Lexical blank (some kind) [c]
  | blanks {span : List Char} (each : ∀ c ∈ span, blank c = true) : Lexical blank none span
  | letWord : Lexical blank (some .letWord) ['l', 'e', 't']
  | funcWord : Lexical blank (some .funcWord) ['f', 'u', 'n', 'c']
  | name {span : List Char} (name : Identifier span) : Lexical blank (some .name) span

theorem numeralSpan_begins (chars : List Char) : numeralSpan chars <+: chars := by
  have whole : chars.takeWhile isDigit <+: chars := List.takeWhile_prefix _
  simp only [numeralSpan]
  split
  · rename_i rest point
    split
    · exact whole
    · obtain ⟨more, fraction⟩ := List.takeWhile_prefix (p := isDigit) (l := rest)
      refine ⟨more, ?_⟩
      rw [List.append_assoc, List.cons_append, fraction, ← point, List.takeWhile_append_dropWhile]
  · exact whole

theorem numeral_numeralSpan {chars : List Char} (filled : numeralSpan chars ≠ []) :
    Numeral (numeralSpan chars) := by
  have digits (list : List Char) : ∀ c ∈ list.takeWhile isDigit, isDigit c = true :=
    List.all_eq_true.1 List.all_takeWhile
  simp only [numeralSpan] at filled ⊢
  split at filled
  · rename_i rest _
    split at filled
    · rename_i pointless
      rw [if_pos pointless]
      exact .whole filled (digits chars)
    · rename_i fraction
      rw [if_neg fraction]
      exact .fraction (digits chars) (by simpa using fraction) (digits rest)
  · exact .whole filled (digits chars)

/-- What begins at the first character of a text: the first of the lexemes in the order of this list
    that there is, or none. -/
inductive Begins (blank : Char → Bool) (c : Char) (rest : List Char) :
    Option (Option Kind × List Char) → Prop
  | numeral (filled : numeralSpan (c :: rest) ≠ []) :
      Begins blank c rest (some (some .number, numeralSpan (c :: rest)))
  | mark {kind : Kind} (empty : numeralSpan (c :: rest) = []) (known : punctuation? c = some kind) :
      Begins blank c rest (some (some kind, [c]))
  | blanks (empty : numeralSpan (c :: rest) = []) (unmarked : punctuation? c = none)
      (skipped : blank c = true) : Begins blank c rest (some (none, (c :: rest).takeWhile blank))
  | word (empty : numeralSpan (c :: rest) = []) (unmarked : punctuation? c = none)
      (solid : blank c = false) (letter : isLetter c = true) :
      Begins blank c rest (some (some (wordSpan (c :: rest)).1, (wordSpan (c :: rest)).2))
  | stray (empty : numeralSpan (c :: rest) = []) (unmarked : punctuation? c = none)
      (solid : blank c = false) (other : isLetter c = false) : Begins blank c rest none

theorem lexeme?_eq_iff {blank : Char → Bool} {c : Char} {rest : List Char}
    {found : Option (Option Kind × List Char)} :
    lexeme? blank (c :: rest) = found ↔ Begins blank c rest found := by
  constructor
  · rintro rfl
    unfold lexeme?
    dsimp only
    split
    · rename_i filled
      exact .numeral (by simpa using filled)
    rename_i filled
    have empty : numeralSpan (c :: rest) = [] := by simpa using filled
    split
    · rename_i known
      exact .mark empty known
    rename_i unmarked
    split
    · rename_i skipped
      exact .blanks empty unmarked skipped
    rename_i solid
    rw [Bool.not_eq_true] at solid
    split
    · rename_i letter
      exact .word empty unmarked solid letter
    · rename_i other
      exact .stray empty unmarked solid (Bool.eq_false_iff.2 other)
  · intro begins
    cases begins <;> simp [lexeme?, *]

theorem lexical_wordSpan (blank : Char → Bool) {c : Char} (letter : isLetter c = true)
    (rest : List Char) : (wordSpan (c :: rest)).2 <+: c :: rest ∧
      Lexical blank (some (wordSpan (c :: rest)).1) (wordSpan (c :: rest)).2 := by
  unfold wordSpan
  split
  · rename_i keyword
    exact ⟨List.isPrefixOf_iff_prefix.1 keyword, .letWord⟩
  rename_i noLet
  split
  · rename_i keyword
    exact ⟨List.isPrefixOf_iff_prefix.1 keyword, .funcWord⟩
  rename_i noFunc
  -- A keyword at the start of the name would be one at the start of the text.
  have begins : (c :: rest).takeWhile isLetter <+: c :: rest := List.takeWhile_prefix _
  refine ⟨begins, .name ⟨?_, List.all_eq_true.1 List.all_takeWhile, ?_, ?_⟩⟩
  · simp [letter]
  · exact fun keyword => noLet (List.isPrefixOf_iff_prefix.2 (keyword.trans begins))
  · exact fun keyword => noFunc (List.isPrefixOf_iff_prefix.2 (keyword.trans begins))

/-- A lexeme is the beginning of the text and has one of the forms. -/
theorem lexical_of_lexeme? {blank : Char → Bool} {chars span : List Char} {kind : Option Kind}
    (found : lexeme? blank chars = some (kind, span)) : span <+: chars ∧ Lexical blank kind span := by
  cases chars with
  | nil => cases found
  | cons c rest =>
    cases lexeme?_eq_iff.1 found with
    | numeral filled => exact ⟨numeralSpan_begins _, .numeral (numeral_numeralSpan filled)⟩
    | mark _ known => exact ⟨⟨rest, rfl⟩, .mark known⟩
    | blanks => exact ⟨List.takeWhile_prefix _, .blanks (List.all_eq_true.1 List.all_takeWhile)⟩
    | word _ _ _ letter => exact lexical_wordSpan blank letter rest

/-- No lexeme ends the input. -/
theorem Lexical.ne_finish {blank : Char → Bool} {kind : Kind} {span : List Char}
    (lexical : Lexical blank (some kind) span) : kind ≠ .finish := by
  cases lexical with
  | mark known =>
    unfold punctuation? at known
    split at known <;> cases known <;> simp
  | _ => simp

/-- A lexeme is legible as a token in any line. -/
theorem Lexical.legible {blank : Char → Bool} {kind : Kind} {span : List Char}
    (lexical : Lexical blank (some kind) span) (line : Option Int) :
    Token.Legible ⟨kind, String.ofList span, line⟩ := by
  rintro number
  dsimp only at number
  subst number
  cases lexical with
  | numeral numeral =>
    obtain ⟨value, read⟩ := numeral.read
    exact ⟨value, by simp [Spelling.toFloat, Spelling.plain, read]⟩
  | mark known =>
    unfold punctuation? at known
    split at known <;> cases known

theorem isBlank_of_punctuation? {c : Char} {kind : Kind} (known : punctuation? c = some kind) :
    isBlank c = false := by
  unfold punctuation? at known
  split at known
  all_goals first | decide | cases known

/-- A blank in a lexeme is one of those that are skipped. -/
theorem Lexical.blank {blank : Char → Bool} {kind : Option Kind} {span : List Char}
    (lexical : Lexical blank kind span) {c : Char} (inside : c ∈ span) (wide : isBlank c = true) :
    blank c = true := by
  have solid (narrow : isBlank c = false) : blank c = true := by
    rw [narrow] at wide
    cases wide
  cases lexical with
  | numeral numeral =>
    rcases numeral.mem inside with digit | rfl
    · exact solid (isBlank_of_isDigit digit)
    · exact solid (by decide)
  | mark known =>
    cases List.mem_singleton.1 inside
    exact solid (isBlank_of_punctuation? known)
  | blanks each => exact each c inside
  | letWord =>
    have letters : ∀ c ∈ ['l', 'e', 't'], isLetter c = true := by simp [isLetter]
    exact solid (isBlank_of_isLetter (letters c inside))
  | funcWord =>
    have letters : ∀ c ∈ ['f', 'u', 'n', 'c'], isLetter c = true := by simp [isLetter]
    exact solid (isBlank_of_isLetter (letters c inside))
  | name name => exact solid (isBlank_of_isLetter (name.letters c inside))

/-- No blank is in a lexeme of a kind. -/
theorem Lexical.isBlank_of_mem {blank : Char → Bool} {kind : Kind} {span : List Char}
    (lexical : Lexical blank (some kind) span) {c : Char} (inside : c ∈ span) : isBlank c = false := by
  have bare : Lexical (fun _ => false) (some kind) span := by
    cases lexical with
    | numeral numeral => exact .numeral numeral
    | mark known => exact .mark known
    | letWord => exact .letWord
    | funcWord => exact .funcWord
    | name name => exact .name name
  cases wide : isBlank c with
  | false => rfl
  | true => cases bare.blank inside wide

theorem Lexical.lineFeeds_eq {blank : Char → Bool} {kind : Kind} {span : List Char}
    (lexical : Lexical blank (some kind) span) : lineFeeds span = 0 := by
  apply List.count_eq_zero_of_not_mem
  intro inside
  cases lexical.isBlank_of_mem inside

/-- What holds where a text ends or strays, and goes from the text behind a lexeme over to the text
    with it, holds of every text and its scan. -/
theorem scanFrom_induction {blank : Char → Bool} {P : Nat → List Char → Lexed → Prop}
    (ended : ∀ line, P line [] ⟨[], .finish line⟩)
    (strays : ∀ line c rest, lexeme? blank (c :: rest) = none → P line (c :: rest) ⟨[], .stray c line⟩)
    (goesOn : ∀ line kind span rest after, lexeme? blank (span ++ rest) = some (kind, span) →
      P (line + lineFeeds span) rest after → P line (span ++ rest) (after.cons kind span line))
    (line : Nat) (chars : List Char) : P line chars (scanFrom blank line chars) := by
  fun_induction scanFrom blank line chars with
  | case1 line => exact ended line
  | case2 line c rest none => exact strays line c rest none
  | case3 line c rest kind span found ih =>
    obtain ⟨more, whole⟩ := (lexical_of_lexeme? found).1
    rw [← whole, List.drop_left] at ih
    rw [← whole] at found ⊢
    rw [List.drop_left]
    exact goesOn line kind span more _ found ih

/-- Every token of a scan is a lexeme in its line. -/
theorem lexical_of_mem_scanFrom {blank : Char → Bool} (line : Nat) (chars : List Char) :
    ∀ token ∈ (scanFrom blank line chars).tokens, ∃ kind span start,
      Lexical blank (some kind) span ∧ token = ⟨kind, String.ofList span, some start⟩ := by
  refine scanFrom_induction (P := fun _ _ lexed => ∀ token ∈ lexed.tokens, ∃ kind span start,
    Lexical blank (some kind) span ∧ token = ⟨kind, String.ofList span, some start⟩) ?_ ?_ ?_ line chars
  · simp
  · simp
  · intro line kind span rest after found ih token inside
    cases kind with
    | none => exact ih token inside
    | some kind =>
      rcases List.mem_cons.1 inside with rfl | later
      · exact ⟨kind, span, line, (lexical_of_lexeme? found).2, rfl⟩
      · exact ih token later

@[simp] theorem strayError_kind (source : Spelling) (character : Char) (line : Nat) :
    (strayError source character line).kind = .lex := by
  unfold strayError strayCode
  split <;> rfl

/-- The error for a character of a text names the character. -/
theorem strayError_whole (text : String) (character : Char) (line : Nat) :
    strayError text character line = .lex character.toString (some line) := by
  have valid : character.toNat.isValidChar := character.valid
  rw [strayError, Spelling.standing_whole, strayCode, if_pos valid, Char.ofNat_toNat]

theorem strayError_ne_parse (source : Spelling) (character : Char) (line : Nat) (complaint : Complaint)
    (cited : Option Int) : strayError source character line ≠ .parse complaint cited := by
  intro same
  have kind := strayError_kind source character line
  rw [same] at kind
  cases kind

theorem strayError_line (source : Spelling) (character : Char) (line : Nat) :
    (strayError source character line).line = some (line : Int) := by
  unfold strayError strayCode
  split <;> rfl

theorem ne_finish_of_mem_scan {blank : Char → Bool} {source : Spelling} {token : Token}
    (inside : token ∈ (scan blank source).tokens) : token.kind ≠ .finish := by
  obtain ⟨kind, span, start, lexical, rfl⟩ := lexical_of_mem_scanFrom _ _ token inside
  exact lexical.ne_finish

/-- Every numeral of a scan can be read as a number. -/
theorem legible_of_mem_scan {blank : Char → Bool} {source : Spelling} {token : Token}
    (inside : token ∈ (scan blank source).tokens) : token.Legible := by
  obtain ⟨kind, span, start, lexical, rfl⟩ := lexical_of_mem_scanFrom _ _ token inside
  exact lexical.legible _

/-- A scan reaches the end of a text only if it skips every blank in it. -/
theorem blank_of_scanFrom_finish {blank : Char → Bool} {line last : Nat} {chars : List Char}
    (finished : (scanFrom blank line chars).ending = .finish last) :
    ∀ c ∈ chars, isBlank c = true → blank c = true := by
  refine scanFrom_induction (P := fun _ chars lexed => lexed.ending = .finish last →
    ∀ c ∈ chars, isBlank c = true → blank c = true) ?_ ?_ ?_ line chars finished
  · simp
  · intro line c rest _ strayed
    cases strayed
  · intro line kind span rest after found ih finished c inside wide
    rcases List.mem_append.1 inside with early | late
    · exact (lexical_of_lexeme? found).2.blank early wide
    · refine ih ?_ c late wide
      cases kind with
      | none => exact finished
      | some kind => exact finished

private theorem takeWhile_congr {p q : Char → Bool} {chars : List Char}
    (same : ∀ c ∈ chars, p c = q c) : chars.takeWhile p = chars.takeWhile q := by
  induction chars with
  | nil => rfl
  | cons c rest ih =>
    obtain ⟨first, others⟩ := List.forall_mem_cons.1 same
    rw [List.takeWhile_cons, List.takeWhile_cons, first, ih others]

theorem lexeme?_congr {blank other : Char → Bool} {chars : List Char}
    (same : ∀ c ∈ chars, blank c = other c) : lexeme? blank chars = lexeme? other chars := by
  cases chars with
  | nil => rfl
  | cons c rest => simp only [lexeme?, same c (by simp), takeWhile_congr same]

theorem scanFrom_stray {blank : Char → Bool} {line : Nat} {c : Char} {rest : List Char}
    (none : lexeme? blank (c :: rest) = none) :
    scanFrom blank line (c :: rest) = ⟨[], .stray c line⟩ := by
  rw [scanFrom]
  split
  · rfl
  · rename_i found
    rw [none] at found
    cases found

theorem scanFrom_lexeme {blank : Char → Bool} {line : Nat} {span rest : List Char}
    {kind : Option Kind} (found : lexeme? blank (span ++ rest) = some (kind, span)) :
    scanFrom blank line (span ++ rest) =
      (scanFrom blank (line + lineFeeds span) rest).cons kind span line := by
  obtain ⟨c, more, filled⟩ := List.exists_cons_of_ne_nil (lexeme?_ne_nil found)
  have whole : span ++ rest = c :: (more ++ rest) := by rw [filled, List.cons_append]
  rw [whole] at found ⊢
  rw [scanFrom]
  split
  · rename_i none
    rw [found] at none
    cases none
  · rename_i other otherSpan again
    rw [found] at again
    cases again
    rw [← whole, List.drop_left]

/-- Scans agree if they skip the same blanks of a text. -/
theorem scanFrom_congr {blank other : Char → Bool} (line : Nat) {chars : List Char}
    (same : ∀ c ∈ chars, blank c = other c) : scanFrom blank line chars = scanFrom other line chars := by
  refine scanFrom_induction (P := fun line chars lexed => (∀ c ∈ chars, blank c = other c) →
    lexed = scanFrom other line chars) ?_ ?_ ?_ line chars same
  · intro line _
    rw [scanFrom]
  · intro line c rest none same
    rw [lexeme?_congr same] at none
    rw [scanFrom_stray none]
  · intro line kind span rest after found ih same
    rw [lexeme?_congr same] at found
    rw [scanFrom_lexeme found, ih fun c inside => same c (List.mem_append_right span inside)]

/-- A numeral begins with a digit or with a point. -/
theorem numeralSpan_cons {c : Char} (digit : isDigit c = false) (point : c ≠ '.') (rest : List Char) :
    numeralSpan (c :: rest) = [] := by
  simp [numeralSpan, digit, point]

theorem numeralSpan_of_isBlank {c : Char} (blank : isBlank c = true) (rest : List Char) :
    numeralSpan (c :: rest) = [] := by
  refine numeralSpan_cons ?_ ?_ rest
  · cases digit : isDigit c with
    | false => rfl
    | true => exact absurd blank (by simp [isBlank_of_isDigit digit])
  · rintro rfl
    exact absurd blank (by decide)

/-- A text that begins with a blank begins with a run of blanks. -/
theorem lexeme?_of_isBlank {c : Char} (blank : isBlank c = true) (rest : List Char) :
    lexeme? isBlank (c :: rest) = some (none, (c :: rest).takeWhile isBlank) := by
  have mark : punctuation? c = none := by
    cases mark : punctuation? c with
    | none => rfl
    | some kind => exact absurd blank (by simp [isBlank_of_punctuation? mark])
  exact lexeme?_eq_iff.2 (.blanks (numeralSpan_of_isBlank blank rest) mark blank)

/-- A scan skips the blanks with which a text begins. -/
theorem scanFrom_dropWhile (line : Nat) (chars : List Char) :
    scanFrom isBlank line chars =
      scanFrom isBlank (line + lineFeeds (chars.takeWhile isBlank)) (chars.dropWhile isBlank) := by
  cases chars with
  | nil => rfl
  | cons c rest =>
    cases blank : isBlank c with
    | true =>
      have found := lexeme?_of_isBlank blank rest
      have whole := List.takeWhile_append_dropWhile (p := isBlank) (l := c :: rest)
      generalize (c :: rest).takeWhile isBlank = gap at found whole ⊢
      generalize (c :: rest).dropWhile isBlank = behind at whole ⊢
      rw [← whole] at found ⊢
      exact scanFrom_lexeme found
    | false => simp [blank, lineFeeds]

theorem scanFrom_blanks {gap : List Char} (blank : ∀ c ∈ gap, isBlank c = true) (line : Nat)
    (rest : List Char) :
    scanFrom isBlank line (gap ++ rest) = scanFrom isBlank (line + lineFeeds gap) rest := by
  rw [scanFrom_dropWhile, scanFrom_dropWhile (line + lineFeeds gap),
    List.takeWhile_append_of_pos blank, List.dropWhile_append_of_pos blank]
  simp only [lineFeeds, List.count_append, Nat.add_assoc]

/-- A lexeme that is no blank does not depend on which blanks are skipped. -/
theorem lexeme?_of_some {blank : Char → Bool} {chars span : List Char} {kind : Kind}
    (found : lexeme? blank chars = some (some kind, span)) :
    lexeme? isBlank chars = some (some kind, span) := by
  cases chars with
  | nil => cases found
  | cons c rest =>
    apply lexeme?_eq_iff.2
    cases lexeme?_eq_iff.1 found with
    | numeral filled => exact .numeral filled
    | mark empty known => exact .mark empty known
    | word empty unmarked _ letter => exact .word empty unmarked (isBlank_of_isLetter letter) letter

/-- A scan that skips fewer blanks finds the first tokens of one that skips them all. -/
theorem scanFrom_begins {blank : Char → Bool} (narrow : ∀ c, blank c = true → isBlank c = true)
    (line : Nat) (chars : List Char) :
    (scanFrom blank line chars).tokens <+: (scanFrom isBlank line chars).tokens := by
  refine scanFrom_induction (P := fun line chars lexed =>
    lexed.tokens <+: (scanFrom isBlank line chars).tokens) ?_ ?_ ?_ line chars
  · exact fun line => List.nil_prefix
  · exact fun line c rest _ => List.nil_prefix
  · intro line kind span rest after found begins
    cases kind with
    | none =>
      cases (lexical_of_lexeme? found).2 with
      | blanks each =>
        rw [scanFrom_blanks fun c inside => narrow c (each c inside)]
        exact begins
    | some kind =>
      rw [scanFrom_lexeme (lexeme?_of_some found)]
      exact (List.prefix_cons_inj _).2 begins

end Token

end Reckoner
