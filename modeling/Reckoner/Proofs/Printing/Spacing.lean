import Mathlib.Data.List.Forall2
import Reckoner.Proofs.Scan

/-!
Words with gaps between them. A text that holds words one after another, with blanks around them and
some between two that would otherwise run together, is scanned to these words again.
-/
namespace Reckoner

namespace Text

theorem isDigit_of_isLetter {c : Char} (letter : isLetter c = true) : isDigit c = false := by
  cases digit : isDigit c with
  | false => rfl
  | true =>
    have other : isLetter c = false :=
      isDigit_induction (P := fun c => isLetter c = false) digit (by decide +kernel)
    rw [letter] at other
    cases other

/-- A character that can go on a name or a numeral. -/
def Solid (c : Char) : Prop := isLetter c = true ∨ isDigit c = true ∨ c = '.'

theorem isBlank_of_solid {c : Char} (solid : Solid c) : isBlank c = false := by
  rcases solid with letter | digit | rfl
  · exact isBlank_of_isLetter letter
  · exact isBlank_of_isDigit digit
  · decide

/-- A word and the text behind it do not run together: no solid character at the end of the one meets
    one at the start of the other. -/
def Apart (word text : List Char) : Prop :=
  (∀ c ∈ word.getLast?, Solid c) → ∀ c ∈ text.head?, ¬ Solid c

/-- Words in a text, with blanks before, between and behind them, that do not run together. -/
inductive Spaced : List (List Char) → List Char → Prop
  | done {gap : List Char} (blank : ∀ c ∈ gap, isBlank c = true) : Spaced [] gap
  | word {gap word text : List Char} {words : List (List Char)} (blank : ∀ c ∈ gap, isBlank c = true)
      (apart : Apart word text) (others : Spaced words text) :
      Spaced (word :: words) (gap ++ (word ++ text))

/-- Blanks may be added in front. -/
theorem Spaced.behind {words : List (List Char)} {text : List Char} (spaced : Spaced words text)
    {c : Char} (blank : isBlank c = true) : Spaced words (c :: text) := by
  cases spaced with
  | done each => exact .done (List.forall_mem_cons.2 ⟨blank, each⟩)
  | word each apart others =>
    rw [← List.cons_append]
    exact .word (List.forall_mem_cons.2 ⟨blank, each⟩) apart others

/-- Words do not run together where there is a space between any two of them. -/
theorem spaced_intercalate (words : List (List Char)) : Spaced words ([' '].intercalate words) := by
  induction words with
  | nil => exact .done (by simp)
  | cons word words ih =>
    cases words with
    | nil =>
      have apart : Apart word [] := by simp [Apart]
      have single : Spaced [word] ([] ++ (word ++ [])) := .word (by simp) apart (.done (by simp))
      simpa using single
    | cons next others =>
      have apart : Apart word (' ' :: [' '].intercalate (next :: others)) := by
        rintro - c head
        cases head
        simp [Solid, isLetter, show isDigit ' ' = false by decide]
      rw [List.intercalate_cons_cons, List.append_assoc, ← List.nil_append (word ++ _)]
      exact .word (by simp) apart (ih.behind (by decide))

private theorem takeWhile_of_head {p : Char → Bool} {text : List Char}
    (head : ∀ c ∈ text.head?, p c = false) : text.takeWhile p = [] ∧ text.dropWhile p = text := by
  cases text with
  | nil => exact ⟨rfl, rfl⟩
  | cons c rest => simp [head c rfl]

end Text

namespace Token
open Reckoner.Text Reckoner.Number

theorem isDigit_of_punctuation? {c : Char} {kind : Kind} (known : punctuation? c = some kind) :
    isDigit c = false ∧ c ≠ '.' := by
  unfold punctuation? at known
  split at known
  all_goals first | decide | cases known

theorem punctuation?_of_isLetter {c : Char} (letter : isLetter c = true) : punctuation? c = none := by
  cases known : punctuation? c with
  | none => rfl
  | some kind =>
    unfold punctuation? at known
    split at known
    all_goals first | cases known; done | simp [isLetter] at letter

/-- A numeral before a text that does not go on with it is the numeral of the whole. -/
theorem numeralSpan_append {span text : List Char} (numeral : Numeral span)
    (ends : ∀ c ∈ text.head?, ¬ Solid c) : numeralSpan (span ++ text) = span := by
  have stops := takeWhile_of_head fun c head => Bool.eq_false_iff.2 fun digit =>
    ends c head (.inr (.inl digit))
  cases numeral with
  | whole filled each =>
    simp only [numeralSpan]
    rw [List.takeWhile_append_of_pos each, List.dropWhile_append_of_pos each, stops.1, stops.2,
      List.append_nil]
    split
    · exact absurd (.inr (.inr rfl)) (ends '.' (by simp))
    · rfl
  | @fraction digits more each filled others =>
    have point : isDigit '.' = false := by decide
    simp only [numeralSpan, List.append_assoc, List.cons_append]
    rw [List.takeWhile_append_of_pos each, List.dropWhile_append_of_pos each,
      List.takeWhile_cons_of_neg (by simp [point]), List.dropWhile_cons_of_neg (by simp [point])]
    split
    · rename_i behind same
      cases same
      rw [List.takeWhile_append_of_pos others, stops.1, List.append_nil, List.append_nil,
        if_neg (by simpa using filled)]
    · rename_i other
      exact absurd rfl (other _)

/-- A name before a text that does not go on with it is the word of the whole. -/
theorem wordSpan_append {span text : List Char} (name : Identifier span)
    (ends : ∀ c ∈ text.head?, ¬ Solid c) : wordSpan (span ++ text) = (.name, span) := by
  have stops := takeWhile_of_head fun c head => Bool.eq_false_iff.2 fun letter =>
    ends c head (.inl letter)
  have whole : (span ++ text).takeWhile isLetter = span := by
    rw [List.takeWhile_append_of_pos name.letters, stops.1, List.append_nil]
  -- Letters at the start of the whole text are at the start of the name.
  have begins {letters : List Char} (each : ∀ c ∈ letters, isLetter c = true)
      (before : letters <+: span ++ text) : letters <+: span := by
    have run := prefix_takeWhile before each
    rwa [whole] at run
  have noLet : ¬ ['l', 'e', 't'] <+: span ++ text :=
    fun before => name.noLet (begins (by simp [isLetter]) before)
  have noFunc : ¬ ['f', 'u', 'n', 'c'] <+: span ++ text :=
    fun before => name.noFunc (begins (by simp [isLetter]) before)
  rw [← List.isPrefixOf_iff_prefix] at noLet noFunc
  rw [wordSpan, if_neg noLet, if_neg noFunc, whole]

theorem lexeme?_of_isLetter {c : Char} (letter : isLetter c = true) (rest : List Char) :
    lexeme? isBlank (c :: rest) =
      some (some (wordSpan (c :: rest)).1, (wordSpan (c :: rest)).2) := by
  have point : c ≠ '.' := by
    rintro rfl
    cases letter
  have empty := numeralSpan_cons (isDigit_of_isLetter letter) point rest
  exact lexeme?_eq_iff.2 (.word empty (punctuation?_of_isLetter letter) (isBlank_of_isLetter letter) letter)

/-- A lexeme is found again before any text that does not run together with it. -/
theorem Lexical.lexeme?_append {blank : Char → Bool} {kind : Kind} {word text : List Char}
    (lexical : Lexical blank (some kind) word) (apart : Apart word text) :
    lexeme? isBlank (word ++ text) = some (some kind, word) := by
  cases lexical with
  | numeral numeral =>
    have ends := apart fun c last => .inr (numeral.mem (List.mem_of_getLast? last))
    have span := numeralSpan_append numeral ends
    obtain ⟨c, rest, rfl⟩ := List.exists_cons_of_ne_nil numeral.ne_nil
    rw [List.cons_append] at span ⊢
    simp [lexeme?, span]
  | @mark c kind known =>
    obtain ⟨digit, point⟩ := isDigit_of_punctuation? known
    simp [lexeme?, numeralSpan_cons digit point, known]
  | letWord => exact lexeme?_of_isLetter (by decide) _
  | funcWord => exact lexeme?_of_isLetter (by decide) _
  | name name =>
    have ends := apart fun c last => .inl (name.letters c (List.mem_of_getLast? last))
    have span := wordSpan_append name ends
    obtain ⟨c, rest, rfl⟩ := List.exists_cons_of_ne_nil name.filled
    rw [List.cons_append] at span ⊢
    rw [lexeme?_of_isLetter (name.letters c (by simp)), span]

/-- A token with the text of a word and the kind of that word. -/
def Renders (token : Token) (word : List Char) : Prop :=
  token.lexeme = String.ofList word ∧ Lexical isBlank (some token.kind) word

/-- A word has one kind. -/
theorem Renders.kind_eq {token : Token} {word : List Char} {kind : Kind} (renders : token.Renders word)
    (lexical : Lexical isBlank (some kind) word) : token.kind = kind := by
  have apart : Apart word [] := by simp [Apart]
  have found := renders.2.lexeme?_append apart
  rw [lexical.lexeme?_append apart] at found
  simpa [eq_comm] using found

theorem Renders.mark {token : Token} {c : Char} {kind : Kind} (renders : token.Renders [c])
    (known : punctuation? c = some kind) : token.kind = kind := renders.kind_eq (.mark known)

theorem Renders.name {token : Token} {text : String} (renders : token.Renders text.toList)
    (named : Identifier text.toList) : token.kind = .name ∧ token.lexeme = text := by
  refine ⟨renders.kind_eq (.name named), ?_⟩
  rw [renders.1, String.ofList_toList]

/-- Tokens for words in two parts are in two parts themselves. -/
theorem exists_of_renders_append {tokens : List Token} {first second : List (List Char)}
    (rendered : List.Forall₂ Renders tokens (first ++ second)) :
    ∃ before behind, tokens = before ++ behind ∧ List.Forall₂ Renders before first ∧
      List.Forall₂ Renders behind second :=
  ⟨_, _, (List.take_append_drop first.length tokens).symm,
    List.forall₂_take_append _ _ _ rendered, List.forall₂_drop_append _ _ _ rendered⟩

/-- Words in a text are found again by a scan of it. -/
theorem scanFrom_spaced {words : List (List Char)} {text : List Char} (spaced : Spaced words text)
    (each : ∀ word ∈ words, ∃ kind, Lexical isBlank (some kind) word) (line : Nat) :
    ∃ tokens last, scanFrom isBlank line text = ⟨tokens, .finish last⟩ ∧
      List.Forall₂ Renders tokens words := by
  induction spaced generalizing line with
  | @done gap blank =>
    refine ⟨[], line + lineFeeds gap, ?_, .nil⟩
    have skipped := scanFrom_blanks blank line []
    rw [List.append_nil] at skipped
    rw [skipped, scanFrom]
  | @word gap word text words blank apart others ih =>
    obtain ⟨⟨kind, lexical⟩, rest⟩ := List.forall_mem_cons.1 each
    obtain ⟨tokens, last, scanned, rendered⟩ := ih rest (line + lineFeeds gap + lineFeeds word)
    refine ⟨⟨kind, String.ofList word, some (line + lineFeeds gap : Nat)⟩ :: tokens, last, ?_,
      .cons ⟨rfl, lexical⟩ rendered⟩
    rw [scanFrom_blanks blank, scanFrom_lexeme (lexical.lexeme?_append apart), scanned]
    rfl

end Token

end Reckoner
