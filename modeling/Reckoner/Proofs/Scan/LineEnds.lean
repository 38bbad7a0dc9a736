import Reckoner.Proofs.Descent.Lines
import Reckoner.Proofs.Scan
import Reckoner.Proofs.Text.Lines

/-!
Line ends and tokens. The marks that end a line are blanks, so a text with every line end as a single
line feed has the same tokens as the text itself. Only their lines are others: a carriage return that no
line feed follows is not counted, and the line feed that stands for it is.
-/
namespace Reckoner

namespace Text

theorem unifyLines_cons {c : Char} {rest : List Char} (single : c = '\r' → '\n' ∉ rest.head?) :
    unifyLines (c :: rest) = (if c = '\r' then '\n' else c) :: unifyLines rest := by
  rw [unifyLines]
  rintro more rfl rfl
  exact single rfl rfl

theorem unifyLines_cons_of_ne {c : Char} (other : c ≠ '\r') (rest : List Char) :
    unifyLines (c :: rest) = c :: unifyLines rest := by
  rw [unifyLines_cons fun same => absurd same other, if_neg other]

theorem exists_unifyLines_return (rest : List Char) :
    ∃ more, unifyLines ('\r' :: rest) = '\n' :: more := by
  by_cases feed : '\n' ∈ rest.head?
  · obtain ⟨more, rfl⟩ := List.head?_eq_some_iff.1 feed
    exact ⟨unifyLines more, rfl⟩
  · exact ⟨unifyLines rest, unifyLines_cons fun _ => feed⟩

/-- Line ends are unified part by part, unless the parts meet inside of one. -/
theorem unifyLines_append {front rest : List Char} (apart : '\r' ∈ front.getLast? → '\n' ∉ rest.head?) :
    unifyLines (front ++ rest) = unifyLines front ++ unifyLines rest := by
  fun_induction unifyLines front with
  | case1 => rfl
  | case2 more ih =>
    have behind : '\r' ∈ more.getLast? → '\n' ∉ rest.head? := by
      intro last
      apply apart
      simp_all [List.getLast?_cons]
    rw [List.cons_append, List.cons_append, unifyLines, ih behind, List.cons_append]
  | case3 c more other ih =>
    have behind : '\r' ∈ more.getLast? → '\n' ∉ rest.head? := by
      intro last
      apply apart
      simp_all [List.getLast?_cons]
    have single : c = '\r' → '\n' ∉ (more ++ rest).head? := by
      rintro rfl
      cases more with
      | nil => exact apart (by simp)
      | cons d more =>
        intro feed
        obtain rfl : d = '\n' := by simpa using feed
        exact other more rfl rfl
    rw [List.cons_append, unifyLines_cons single, ih behind, List.cons_append]

section
variable {p : Char → Bool} (same : p '\r' = p '\n')
include same

/-- What does not tell the two line ends apart does not see that one stands for the other. -/
theorem sort_unified (c : Char) : p (if c = '\r' then '\n' else c) = p c := by
  split
  · rename_i ends
    rw [ends, same]
  · rfl

theorem takeWhile_unifyLines (chars : List Char) :
    (unifyLines chars).takeWhile p = unifyLines (chars.takeWhile p) := by
  fun_induction unifyLines chars with
  | case1 => rfl
  | case2 rest ih =>
    cases holds : p '\n' with
    | true => simp [same, holds, ih, unifyLines]
    | false => simp [same, holds, unifyLines]
  | case3 c rest other ih =>
    cases holds : p c with
    | true =>
      have single : c = '\r' → '\n' ∉ (rest.takeWhile p).head? := by
        rintro rfl feed
        cases rest with
        | nil => simp at feed
        | cons d rest =>
          obtain rfl : d = '\n' := by
            simp only [List.takeWhile_cons] at feed
            split at feed <;> simp_all
          exact other rest rfl rfl
      rw [List.takeWhile_cons_of_pos ((sort_unified same c).trans holds), ih,
        List.takeWhile_cons_of_pos holds, unifyLines_cons single]
    | false =>
      rw [List.takeWhile_cons_of_neg (by simp [sort_unified same, holds]),
        List.takeWhile_cons_of_neg (by simp [holds])]
      rfl

theorem dropWhile_unifyLines (chars : List Char) :
    (unifyLines chars).dropWhile p = unifyLines (chars.dropWhile p) := by
  fun_induction unifyLines chars with
  | case1 => rfl
  | case2 rest ih =>
    cases holds : p '\n' with
    | true => simp [same, holds, ih]
    | false => simp [same, holds, unifyLines]
  | case3 c rest other ih =>
    cases holds : p c with
    | true =>
      rw [List.dropWhile_cons_of_pos ((sort_unified same c).trans holds), ih,
        List.dropWhile_cons_of_pos holds]
    | false =>
      rw [List.dropWhile_cons_of_neg (by simp [sort_unified same, holds]),
        List.dropWhile_cons_of_neg (by simp [holds]), unifyLines]
      exact other

end

/-- A word without line ends begins a text exactly if it begins the text with its line ends unified. -/
theorem isPrefixOf_unifyLines {word : List Char} (plain : ∀ c ∈ word, c ≠ '\r' ∧ c ≠ '\n')
    (chars : List Char) : word.isPrefixOf (unifyLines chars) = word.isPrefixOf chars := by
  fun_induction unifyLines chars generalizing word with
  | case1 => rfl
  | case2 rest ih =>
    cases word with
    | nil => rfl
    | cons w word =>
      obtain ⟨noReturn, noFeed⟩ := plain w (by simp)
      simp [List.isPrefixOf, beq_eq_false_iff_ne.2 noReturn, beq_eq_false_iff_ne.2 noFeed]
  | case3 c rest other ih =>
    cases word with
    | nil => rfl
    | cons w word =>
      obtain ⟨⟨noReturn, noFeed⟩, others⟩ := List.forall_mem_cons.1 plain
      by_cases ends : c = '\r'
      · simp [List.isPrefixOf, ends, beq_eq_false_iff_ne.2 noReturn, beq_eq_false_iff_ne.2 noFeed]
      · simp [List.isPrefixOf, ends, ih others]

end Text

/-- No line. -/
def noLine (_ : Option Int) : Option Int := none

namespace Token
open Reckoner.Text

/-- Ends of scans that are the same but for their lines. -/
inductive Ending.Alike : Ending → Ending → Prop
  | finish (line other : Nat) : Alike (.finish line) (.finish other)
  | stray (c : Char) (line other : Nat) : Alike (.stray c line) (.stray c other)

theorem Ending.Alike.refl (ending : Ending) : ending.Alike ending := by
  cases ending with
  | finish line => exact .finish line line
  | stray c line => exact .stray c line line

/-- Scans that are the same but for the lines. -/
structure Lexed.Alike (lexed other : Lexed) : Prop where
  tokens : lexed.tokens.map (relined noLine) = other.tokens.map (relined noLine)
  ending : lexed.ending.Alike other.ending

theorem Lexed.Alike.cons {lexed other : Lexed} (alike : lexed.Alike other) (kind : Option Kind)
    {span text : List Char} (same : kind ≠ none → span = text) (line place : Nat) :
    (lexed.cons kind span line).Alike (other.cons kind text place) := by
  cases kind with
  | none => exact alike
  | some kind =>
    obtain rfl := same (by simp)
    constructor
    · simp [Lexed.cons, relined, noLine, alike.tokens]
    · exact alike.ending

theorem numeralSpan_unifyLines (chars : List Char) :
    numeralSpan (unifyLines chars) = numeralSpan chars := by
  have same : isDigit '\r' = isDigit '\n' := by decide
  have digits (list : List Char) : unifyLines (list.takeWhile isDigit) = list.takeWhile isDigit := by
    apply unifyLines_of_not_mem
    intro inside
    cases List.all_eq_true.1 List.all_takeWhile _ inside
  simp only [numeralSpan, takeWhile_unifyLines same, dropWhile_unifyLines same, digits]
  cases chars.dropWhile isDigit with
  | nil => rfl
  | cons c rest =>
    by_cases point : c = '.'
    · subst point
      rw [unifyLines_cons_of_ne (by decide)]
      simp only [takeWhile_unifyLines same, digits]
    · obtain ⟨d, more, begins, other⟩ : ∃ d more, unifyLines (c :: rest) = d :: more ∧ d ≠ '.' := by
        by_cases ends : c = '\r'
        · subst ends
          obtain ⟨more, begins⟩ := exists_unifyLines_return rest
          exact ⟨'\n', more, begins, by decide⟩
        · exact ⟨c, unifyLines rest, unifyLines_cons_of_ne ends rest, point⟩
      rw [begins]
      simp [point, other]

theorem wordSpan_unifyLines (chars : List Char) : wordSpan (unifyLines chars) = wordSpan chars := by
  have letters : unifyLines (chars.takeWhile isLetter) = chars.takeWhile isLetter := by
    apply unifyLines_of_not_mem
    intro inside
    cases List.all_eq_true.1 List.all_takeWhile _ inside
  unfold wordSpan
  rw [isPrefixOf_unifyLines (by simp), isPrefixOf_unifyLines (by simp),
    takeWhile_unifyLines (by decide), letters]

/-- No line end is in a lexeme of a kind. -/
theorem Lexical.unifyLines_eq {blank : Char → Bool} {kind : Kind} {span : List Char}
    (lexical : Lexical blank (some kind) span) : unifyLines span = span := by
  apply unifyLines_of_not_mem
  intro inside
  cases lexical.isBlank_of_mem inside

section
variable {blank : Char → Bool} (returns : blank '\r' = true) (feeds : blank '\n' = true)

/-- A text that begins with a line end begins with blanks. -/
theorem lexeme?_of_lineEnd {c : Char} (ends : c = '\r' ∨ c = '\n') (skipped : blank c = true)
    (rest : List Char) : lexeme? blank (c :: rest) = some (none, (c :: rest).takeWhile blank) := by
  have empty : numeralSpan (c :: rest) = [] := by
    rcases ends with rfl | rfl
    · exact numeralSpan_cons (by decide) (by decide) rest
    · exact numeralSpan_cons (by decide) (by decide) rest
  have mark : punctuation? c = none := by
    rcases ends with rfl | rfl
    · rfl
    · rfl
  exact lexeme?_eq_iff.2 (.blanks empty mark skipped)

include returns feeds

/-- The first lexeme of a text is that of the text with its line ends unified. -/
theorem lexeme?_unifyLines (chars : List Char) :
    lexeme? blank (unifyLines chars) =
      (lexeme? blank chars).map fun found => (found.1, unifyLines found.2) := by
  have same : blank '\r' = blank '\n' := returns.trans feeds.symm
  have run := takeWhile_unifyLines same chars
  cases chars with
  | nil => rfl
  | cons c rest =>
    by_cases ends : c = '\r'
    · subst ends
      obtain ⟨more, begins⟩ := exists_unifyLines_return rest
      rw [begins] at run ⊢
      rw [lexeme?_of_lineEnd (.inr rfl) feeds, lexeme?_of_lineEnd (.inl rfl) returns, run]
      rfl
    · have numeral := numeralSpan_unifyLines (c :: rest)
      have word := wordSpan_unifyLines (c :: rest)
      have plain {kind : Kind} {span : List Char}
          (found : lexeme? blank (c :: rest) = some (some kind, span)) : unifyLines span = span :=
        (lexical_of_lexeme? found).2.unifyLines_eq
      rw [unifyLines_cons_of_ne ends] at numeral word run ⊢
      generalize found : lexeme? blank (c :: rest) = lexeme at plain
      rw [lexeme?_eq_iff]
      cases lexeme?_eq_iff.1 found with
      | numeral filled =>
        rw [Option.map_some, plain rfl, ← numeral]
        rw [← numeral] at filled
        exact .numeral filled
      | mark empty known =>
        rw [Option.map_some, plain rfl]
        exact .mark (numeral.trans empty) known
      | blanks empty unmarked skipped =>
        rw [Option.map_some, ← run]
        exact .blanks (numeral.trans empty) unmarked skipped
      | word empty unmarked solid letter =>
        rw [Option.map_some, plain rfl, ← word]
        exact .word (numeral.trans empty) unmarked solid letter
      | stray empty unmarked solid other => exact .stray (numeral.trans empty) unmarked solid other

omit returns feeds in
/-- A run of blanks goes as far as there are blanks. -/
theorem head?_of_blanks {span rest : List Char}
    (found : lexeme? blank (span ++ rest) = some (none, span)) : ∀ c ∈ rest.head?, blank c = false := by
  have run : span = (span ++ rest).takeWhile blank := by
    obtain ⟨c, more, filled⟩ := List.exists_cons_of_ne_nil (lexeme?_ne_nil found)
    have whole : span ++ rest = c :: (more ++ rest) := by rw [filled, List.cons_append]
    rw [whole] at found ⊢
    cases lexeme?_eq_iff.1 found with
    | blanks => rfl
  have each : ∀ c ∈ span, blank c = true := by
    rw [run]
    exact List.all_eq_true.1 List.all_takeWhile
  rw [List.takeWhile_append_of_pos each, List.self_eq_append_right] at run
  intro c head
  obtain ⟨more, rfl⟩ := List.head?_eq_some_iff.1 head
  cases skipped : blank c with
  | false => rfl
  | true => simp [skipped] at run

omit returns in
/-- Behind its first lexeme, too, a text is the one with its line ends unified. -/
theorem unifyLines_lexeme {span rest : List Char} {kind : Option Kind}
    (found : lexeme? blank (span ++ rest) = some (kind, span)) :
    unifyLines (span ++ rest) = unifyLines span ++ unifyLines rest := by
  apply unifyLines_append
  intro last feed
  cases kind with
  | none =>
    have stops := head?_of_blanks found '\n' feed
    rw [feeds] at stops
    cases stops
  | some kind => cases (lexical_of_lexeme? found).2.isBlank_of_mem (List.mem_of_getLast? last)

/-- A text with its line ends unified is scanned to the same tokens in other lines, or strays at the same
    character. -/
theorem alike_scanFrom_unifyLines (line place : Nat) (chars : List Char) :
    (scanFrom blank line chars).Alike (scanFrom blank place (unifyLines chars)) := by
  refine scanFrom_induction (P := fun _ chars lexed => ∀ place,
    lexed.Alike (scanFrom blank place (unifyLines chars))) ?_ ?_ ?_ line chars place
  · intro line place
    rw [unifyLines, scanFrom]
    exact ⟨rfl, .finish line place⟩
  · intro line c rest none place
    have solid : c ≠ '\r' := by
      rintro rfl
      cases (lexeme?_of_lineEnd (.inl rfl) returns rest).symm.trans none
    have same := lexeme?_unifyLines returns feeds (c :: rest)
    rw [none, Option.map_none, unifyLines_cons_of_ne solid] at same
    rw [unifyLines_cons_of_ne solid, scanFrom_stray same]
    exact ⟨rfl, .stray c line place⟩
  · intro line kind span rest after found ih place
    have same := lexeme?_unifyLines returns feeds (span ++ rest)
    have whole := unifyLines_lexeme feeds found
    rw [found, Option.map_some, whole] at same
    rw [whole, scanFrom_lexeme same]
    refine (ih _).cons kind ?_ line place
    intro filled
    obtain ⟨kind, rfl⟩ := Option.ne_none_iff_exists'.1 filled
    exact (lexical_of_lexeme? found).2.unifyLines_eq.symm

end

end Token

end Reckoner
