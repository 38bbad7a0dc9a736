import Reckoner.Proofs.Printing.Spacing

/-!
Where tokens stand and how far they go. `Dictated` says which word begins a text, by how the text goes on
and without a scanner: the longest numeral, a keyword as soon as it is complete, all the letters of a
name, or a mark. `Laid` cuts a text into such words with blanks around them and gives each its line. A
source is scanned to tokens exactly if they are laid out in it in this way.
-/
namespace Reckoner

namespace Text

/-- The line behind a text is counted on from the one behind its first part. -/
theorem line_append (front rest : List Char) :
    1 + lineFeeds (front ++ rest) = 1 + lineFeeds front + lineFeeds rest := by
  rw [lineFeeds_append, Nat.add_assoc]

end Text

namespace Token
open Reckoner.Text Reckoner.Number

/-- The punctuation marks with their kinds. -/
def marks : List (Char × Kind) :=
  [('+', .plus), ('-', .minus), ('*', .times), ('/', .divide), ('(', .opening), (')', .closing),
    ('=', .equals), (';', .semicolon), (',', .comma)]

theorem punctuation?_eq_some_iff {c : Char} {kind : Kind} :
    punctuation? c = some kind ↔ (c, kind) ∈ marks := by
  constructor
  · intro known
    unfold punctuation? at known
    split at known <;> cases known <;> simp [marks]
  · intro listed
    simp only [marks, List.mem_cons, Prod.mk.injEq, List.not_mem_nil, or_false] at listed
    rcases listed with h | h | h | h | h | h | h | h | h
    all_goals
      obtain ⟨rfl, rfl⟩ := h
      rfl

/-- The word with which a text begins, and its kind. A keyword ends where it is complete, even inside
    a longer word; a numeral and a name are as long as they can be. -/
inductive Dictated (text : List Char) : Kind → List Char → Prop
  | numeral {span : List Char} (begins : span <+: text) (numeral : Numeral span)
      (longest : ∀ other, other <+: text → Numeral other → other.length ≤ span.length) :
      Dictated text .number span
  | letWord (begins : ['l', 'e', 't'] <+: text) : Dictated text .letWord ['l', 'e', 't']
  | funcWord (begins : ['f', 'u', 'n', 'c'] <+: text) : Dictated text .funcWord ['f', 'u', 'n', 'c']
  | name {span : List Char} (noLet : ¬ ['l', 'e', 't'] <+: text) (noFunc : ¬ ['f', 'u', 'n', 'c'] <+: text)
      (filled : span ≠ []) (begins : span <+: text) (letters : ∀ c ∈ span, isLetter c = true)
      (longest : ∀ other, other <+: text → (∀ c ∈ other, isLetter c = true) →
        other.length ≤ span.length) : Dictated text .name span
  | mark {c : Char} {kind : Kind} (begins : [c] <+: text) (known : (c, kind) ∈ marks) :
      Dictated text kind [c]

/-- No numeral that begins a text is longer than the one that is found there. -/
theorem length_le_numeralSpan {text other : List Char} (begins : other <+: text)
    (numeral : Numeral other) : other.length ≤ (numeralSpan text).length := by
  cases numeral with
  | whole filled each =>
    have inside := (prefix_takeWhile begins each).length_le
    unfold numeralSpan
    split
    · dsimp only
      split
      · exact inside
      · simp only [List.length_append]
        omega
    · exact inside
  | @fraction digits more each filled others =>
    obtain ⟨rest, rfl⟩ := begins
    have point : isDigit '.' = false := by decide
    have whole : ((digits ++ '.' :: more) ++ rest).takeWhile isDigit = digits := by
      simp [List.takeWhile_append_of_pos each, point]
    have behind : ((digits ++ '.' :: more) ++ rest).dropWhile isDigit = '.' :: (more ++ rest) := by
      simp [List.dropWhile_append_of_pos each, point]
    have fraction : (more ++ rest).takeWhile isDigit = more ++ rest.takeWhile isDigit :=
      List.takeWhile_append_of_pos others
    simp only [numeralSpan, whole, behind, fraction]
    rw [if_neg (by simp [filled])]
    simp

/-- A letter begins the word that the text dictates. -/
theorem dictated_wordSpan {c : Char} (letter : isLetter c = true) (rest : List Char) :
    Dictated (c :: rest) (wordSpan (c :: rest)).1 (wordSpan (c :: rest)).2 := by
  unfold wordSpan
  split
  · rename_i keyword
    exact .letWord (List.isPrefixOf_iff_prefix.1 keyword)
  · rename_i noLet
    split
    · rename_i keyword
      exact .funcWord (List.isPrefixOf_iff_prefix.1 keyword)
    · rename_i noFunc
      rw [List.isPrefixOf_iff_prefix] at noLet noFunc
      refine .name noLet noFunc ?_ (List.takeWhile_prefix _) ?_ ?_
      · simp [letter]
      · exact List.all_eq_true.1 List.all_takeWhile
      · intro other begins letters
        exact (prefix_takeWhile begins letters).length_le

theorem dictated_of_lexeme? {text span : List Char} {kind : Kind}
    (found : lexeme? isBlank text = some (some kind, span)) : Dictated text kind span := by
  cases text with
  | nil => cases found
  | cons c rest =>
    cases lexeme?_eq_iff.1 found with
    | numeral filled =>
      refine .numeral (numeralSpan_begins _) (numeral_numeralSpan filled) ?_
      intro other begins numeral
      exact length_le_numeralSpan begins numeral
    | mark _ known => exact .mark (by simp) (punctuation?_eq_some_iff.1 known)
    | word _ _ _ letter => exact dictated_wordSpan letter rest

/-- A lexeme that is no blank is the word that its text dictates. -/
theorem lexeme?_eq_some_iff {text span : List Char} {kind : Kind} :
    lexeme? isBlank text = some (some kind, span) ↔ Dictated text kind span := by
  refine ⟨dictated_of_lexeme?, ?_⟩
  intro dictated
  cases dictated with
  | numeral begins numeral longest =>
    have upper := length_le_numeralSpan begins numeral
    have filled : numeralSpan text ≠ [] := by
      intro empty
      rw [empty, List.length_nil, Nat.le_zero, List.length_eq_zero_iff] at upper
      exact numeral.ne_nil upper
    have lower := longest _ (numeralSpan_begins text) (numeral_numeralSpan filled)
    have shorter := List.prefix_of_prefix_length_le (numeralSpan_begins text) begins lower
    have same : numeralSpan text = span := shorter.eq_of_length_le upper
    cases text with
    | nil => exact absurd (List.prefix_nil.1 begins) numeral.ne_nil
    | cons c rest =>
      rw [← same]
      exact lexeme?_eq_iff.2 (.numeral filled)
  | letWord begins =>
    obtain ⟨rest, rfl⟩ := begins
    exact lexeme?_of_isLetter (by decide) _
  | funcWord begins =>
    obtain ⟨rest, rfl⟩ := begins
    exact lexeme?_of_isLetter (by decide) _
  | name noLet noFunc filled begins letters longest =>
    obtain ⟨c, more, rfl⟩ := List.exists_cons_of_ne_nil filled
    have inside := prefix_takeWhile begins letters
    have upper := longest _ (List.takeWhile_prefix _) (List.all_eq_true.1 List.all_takeWhile)
    have whole : text.takeWhile isLetter = c :: more := (inside.eq_of_length_le upper).symm
    obtain ⟨rest, rfl⟩ := begins
    rw [← List.isPrefixOf_iff_prefix] at noLet noFunc
    rw [List.cons_append] at noLet noFunc whole ⊢
    rw [lexeme?_of_isLetter (letters c (by simp)), wordSpan, if_neg noLet, if_neg noFunc, whole]
  | @mark c kind begins known =>
    obtain ⟨rest, rfl⟩ := begins
    have mark := punctuation?_eq_some_iff.2 known
    obtain ⟨digit, point⟩ := isDigit_of_punctuation? mark
    exact lexeme?_eq_iff.2 (.mark (numeralSpan_cons digit point rest) mark)

/-- Tokens laid out in a text behind `before`: blanks and the word that the text behind them dictates,
    over and over, and blanks at the end. Each token is in the line that the line feeds before it
    make. -/
inductive Laid : (before : List Char) → List Token → (text : List Char) → Prop
  | finish {before gap : List Char} (blank : ∀ c ∈ gap, isBlank c = true) :
      Laid before [⟨.finish, "", some (1 + lineFeeds (before ++ gap) : Nat)⟩] gap
  | word {before gap span rest : List Char} {kind : Kind} {tokens : List Token}
      (blank : ∀ c ∈ gap, isBlank c = true) (dictated : Dictated (span ++ rest) kind span)
      (others : Laid (before ++ gap ++ span) tokens rest) :
      Laid before (⟨kind, String.ofList span, some (1 + lineFeeds (before ++ gap) : Nat)⟩ :: tokens)
        (gap ++ (span ++ rest))

/-- Blanks in front of a text belong to the first gap in it. -/
theorem Laid.behind {before gap text : List Char} {tokens : List Token}
    (laid : Laid (before ++ gap) tokens text) (blank : ∀ c ∈ gap, isBlank c = true) :
    Laid before tokens (gap ++ text) := by
  cases laid with
  | @finish _ more each =>
    rw [List.append_assoc]
    exact .finish (List.forall_mem_append.2 ⟨blank, each⟩)
  | @word _ more span rest kind tokens each dictated others =>
    rw [List.append_assoc before gap more] at others ⊢
    rw [← List.append_assoc gap more]
    exact .word (List.forall_mem_append.2 ⟨blank, each⟩) dictated others

/-- The tokens of a scan that finishes are laid out in its text. -/
theorem laid_of_scanFrom {last : Nat} (before : List Char) {chars : List Char}
    (finishes : (scanFrom isBlank (1 + lineFeeds before) chars).ending = .finish last) :
    Laid before ((scanFrom isBlank (1 + lineFeeds before) chars).tokens ++ [finish last]) chars := by
  refine scanFrom_induction (P := fun line chars lexed => ∀ before, line = 1 + lineFeeds before →
    lexed.ending = .finish last → Laid before (lexed.tokens ++ [finish last]) chars) ?_ ?_ ?_
    (1 + lineFeeds before) chars before rfl finishes
  · rintro line before rfl ⟨⟩
    have alone : Laid before [⟨.finish, "", some (1 + lineFeeds (before ++ []) : Nat)⟩] [] :=
      .finish (by simp)
    rwa [List.append_nil] at alone
  · rintro line c rest _ before _ ⟨⟩
  · rintro line kind span rest after found ih before rfl finishes
    have further := (line_append before span).symm
    cases kind with
    | none =>
      cases (lexical_of_lexeme? found).2 with
      | blanks each => exact (ih (before ++ span) further finishes).behind each
    | some kind =>
      have first : Laid before (⟨kind, String.ofList span, some (1 + lineFeeds (before ++ []) : Nat)⟩ ::
          (after.tokens ++ [finish last])) ([] ++ (span ++ rest)) := by
        refine .word (by simp) (dictated_of_lexeme? found) ?_
        rw [List.append_nil]
        exact ih (before ++ span) further finishes
      rwa [List.append_nil, List.nil_append] at first

/-- Tokens that are laid out in a text are found there by a scan. -/
theorem scanFrom_of_laid {before text : List Char} {tokens : List Token} (laid : Laid before tokens text) :
    ∃ words last, tokens = words ++ [finish last] ∧
      scanFrom isBlank (1 + lineFeeds before) text = ⟨words, .finish last⟩ := by
  induction laid with
  | @finish before gap blank =>
    refine ⟨[], _, rfl, ?_⟩
    have skipped := scanFrom_blanks blank (1 + lineFeeds before) []
    rw [List.append_nil] at skipped
    rw [skipped, scanFrom, line_append]
  | @word before gap span rest kind tokens blank dictated others ih =>
    obtain ⟨words, last, rfl, scanned⟩ := ih
    refine ⟨_ :: words, last, rfl, ?_⟩
    rw [scanFrom_blanks blank, ← line_append, scanFrom_lexeme (lexeme?_eq_some_iff.2 dictated),
      ← line_append, scanned]
    rfl

/-- A source has tokens if a scan of it finishes, and these are those of the scan and the end. -/
theorem tokenize_eq_ok_iff {source : Spelling} {tokens : List Token} :
    tokenize source = .ok tokens ↔ ∃ words last, tokens = words ++ [finish last] ∧
      scan isBlank source = ⟨words, .finish last⟩ := by
  unfold tokenize
  cases scanned : scan isBlank source with
  | mk words ending =>
    cases ending with
    | finish last =>
      constructor
      · rintro ⟨⟩
        exact ⟨words, last, rfl, rfl⟩
      · rintro ⟨_, _, rfl, ⟨⟩⟩
        rfl
    | stray character line => simp

/-- A source has exactly the tokens that are laid out in it, each of them the word that its place
    dictates. -/
theorem tokenize_munches (source : Spelling) (tokens : List Token) :
    tokenize source = .ok tokens ↔ Laid [] tokens source.plain.toList := by
  rw [tokenize_eq_ok_iff]
  constructor
  · rintro ⟨words, last, rfl, scanned⟩
    have found : scanFrom isBlank (1 + lineFeeds []) source.plain.toList = ⟨words, .finish last⟩ := scanned
    have laid := laid_of_scanFrom [] (congrArg Lexed.ending found)
    rwa [found] at laid
  · intro laid
    exact scanFrom_of_laid laid

end Token

end Reckoner
