import Reckoner.Proofs.Scan.Munch

/-!
Tokens written with other blanks. A token that was cut out of a longer word or number is found again
when blanks stand around it, so the text of the tokens of a source, with any blanks between them, has
the same tokens. Only their lines are others, and the new line feeds make them.
-/
namespace Reckoner.Token
open Reckoner.Text Reckoner.Number

/-- Blanks for the places before the tokens of a source, the end of the input being one of them. Those
    before the first token and those at the end may be empty. -/
structure Separates (gaps : List (List Char)) (tokens : List Token) : Prop where
  fits : gaps.length = tokens.length
  blank : ∀ gap ∈ gaps, ∀ c ∈ gap, isBlank c = true
  filled : ∀ gap ∈ gaps.tail.dropLast, gap ≠ []

/-- The text of tokens with blanks before each of them. -/
def respaced (gaps : List (List Char)) (tokens : List Token) : List Char :=
  (List.zipWith (fun gap token => gap ++ token.lexeme.plain.toList) gaps tokens).flatten

/-- Tokens in new lines, which are counted from `line` by the line feeds in the blanks before them. -/
def recounted (line : Nat) (gaps : List (List Char)) (tokens : List Token) : List Token :=
  tokens.mapIdx fun place token =>
    { token with line := some (line + lineFeeds (gaps.take (place + 1)).flatten : Nat) }

theorem respaced_cons (gap : List Char) (gaps : List (List Char)) (token : Token) (tokens : List Token) :
    respaced (gap :: gaps) (token :: tokens) =
      gap ++ (token.lexeme.plain.toList ++ respaced gaps tokens) := by
  simp [respaced]

theorem recounted_cons (line : Nat) (gap : List Char) (gaps : List (List Char)) (token : Token)
    (tokens : List Token) :
    recounted line (gap :: gaps) (token :: tokens) =
      { token with line := some (line + lineFeeds gap : Nat) } ::
        recounted (line + lineFeeds gap) gaps tokens := by
  simp [recounted, List.mapIdx_cons, lineFeeds, Nat.add_assoc]

theorem Separates.tail {gap : List Char} {gaps : List (List Char)} {token : Token} {tokens : List Token}
    (separates : Separates (gap :: gaps) (token :: tokens)) : Separates gaps tokens := by
  constructor
  · exact Nat.succ.inj separates.fits
  · intro other inside
    exact separates.blank other (List.mem_cons_of_mem _ inside)
  · intro other inside
    apply separates.filled
    cases gaps with
    | nil => cases inside
    | cons first more =>
      cases more with
      | nil => cases inside
      | cons second others => exact List.mem_cons_of_mem _ inside

/-- Behind a token there is a blank, or nothing. -/
theorem Separates.blank_head? {gap : List Char} {gaps : List (List Char)} {token : Token}
    {tokens : List Token} {last : Nat}
    (separates : Separates (gap :: gaps) (token :: (tokens ++ [finish last]))) :
    ∀ c ∈ (respaced gaps (tokens ++ [finish last])).head?, isBlank c = true := by
  intro c head
  have fits := separates.tail.fits
  obtain ⟨first, more, rfl⟩ : ∃ first more, gaps = first :: more := by
    apply List.exists_cons_of_length_pos
    simp [fits]
  have blank : ∀ c ∈ first, isBlank c = true := separates.blank first (by simp)
  cases tokens with
  | nil =>
    have only : more = [] := by simpa using fits
    have text : respaced (first :: more) ([] ++ [finish last]) = first := by
      simp [respaced, only, Token.finish, Spelling.plain]
    rw [text] at head
    exact blank c (List.mem_of_mem_head? head)
  | cons next tokens =>
    have several : more ≠ [] := by
      rintro rfl
      simp at fits
    have filled : first ≠ [] := by
      apply separates.filled
      simp [List.dropLast_cons_of_ne_nil several]
    rw [List.cons_append, respaced_cons, List.head?_append_of_ne_nil _ filled] at head
    exact blank c (List.mem_of_mem_head? head)

/-- Tokens that render words are laid out in their text with other blanks. -/
theorem laid_respaced {words : List Token} (each : ∀ token ∈ words, ∃ word, token.Renders word)
    {last : Nat} {gaps : List (List Char)} (separates : Separates gaps (words ++ [finish last]))
    (before : List Char) :
    Laid before (recounted (1 + lineFeeds before) gaps (words ++ [finish last]))
      (respaced gaps (words ++ [finish last])) := by
  induction words generalizing gaps before with
  | nil =>
    obtain ⟨gap, rfl⟩ : ∃ gap, gaps = [gap] := List.length_eq_one_iff.1 separates.fits
    have text : respaced [gap] ([] ++ [finish last]) = gap := by
      simp [respaced, Token.finish, Spelling.plain]
    rw [text, List.nil_append, recounted_cons, ← line_append]
    exact .finish (separates.blank gap (by simp))
  | cons token words ih =>
    obtain ⟨⟨word, renders⟩, others⟩ := List.forall_mem_cons.1 each
    obtain ⟨gap, more, rfl⟩ : ∃ gap more, gaps = gap :: more := by
      apply List.exists_cons_of_length_pos
      simp [separates.fits]
    rw [List.cons_append] at separates ⊢
    have apart : Apart word (respaced more (words ++ [finish last])) := by
      intro _ c head solid
      exact absurd (separates.blank_head? c head) (by simp [isBlank_of_solid solid])
    have dictated : Dictated (word ++ respaced more (words ++ [finish last])) token.kind word :=
      lexeme?_eq_some_iff.1 (renders.2.lexeme?_append apart)
    have further : 1 + lineFeeds (before ++ gap ++ word) = 1 + lineFeeds (before ++ gap) := by
      rw [line_append, renders.2.lineFeeds_eq, Nat.add_zero]
    have behind := ih others separates.tail (before ++ gap ++ word)
    rw [further] at behind
    have text : token.lexeme.plain.toList = word := by simp [renders.1, Spelling.plain]
    rw [respaced_cons, recounted_cons, text, ← line_append, renders.1]
    exact .word (separates.blank gap (by simp)) dictated behind

/-- The tokens of a source, written with other blanks, are scanned to the same tokens again, in the
    lines that the blanks make. -/
theorem tokenize_respaced {source : Spelling} {tokens : List Token} (read : tokenize source = .ok tokens)
    {gaps : List (List Char)} (separates : Separates gaps tokens) :
    tokenize (String.ofList (respaced gaps tokens)) = .ok (recounted 1 gaps tokens) := by
  obtain ⟨words, last, rfl, scanned⟩ := tokenize_eq_ok_iff.1 read
  have each : ∀ token ∈ words, ∃ word, token.Renders word := by
    intro token inside
    have among : token ∈ (scanFrom isBlank 1 source.plain.toList).tokens := by
      rw [← scan, scanned]
      exact inside
    obtain ⟨kind, span, line, lexical, rfl⟩ := lexical_of_mem_scanFrom 1 source.plain.toList token among
    exact ⟨span, rfl, lexical⟩
  have laid := laid_respaced each separates []
  obtain ⟨found, place, same, again⟩ := scanFrom_of_laid laid
  refine tokenize_eq_ok_iff.2 ⟨found, place, same, ?_⟩
  rw [scan, Spelling.plain, String.toList_ofList]
  exact again

/-- Words cut out of longer ones and numbers cut out of longer ones are found again. -/
theorem tokenize_respaced_letters :
    tokenize "letter1.2.3" = .ok [⟨.letWord, "let", some 1⟩, ⟨.name, "ter", some 1⟩,
      ⟨.number, "1.2", some 1⟩, ⟨.number, ".3", some 1⟩, finish 1] ∧
    tokenize "let\nter \t1.2\r\n.3" = .ok [⟨.letWord, "let", some 1⟩, ⟨.name, "ter", some 2⟩,
      ⟨.number, "1.2", some 2⟩, ⟨.number, ".3", some 3⟩, finish 3] := by
  have read : tokenize "letter1.2.3" = .ok [⟨.letWord, "let", some 1⟩, ⟨.name, "ter", some 1⟩,
      ⟨.number, "1.2", some 1⟩, ⟨.number, ".3", some 1⟩, finish 1] := by cbv
  have separates : Separates [[], ['\n'], [' ', '\t'], ['\r', '\n'], []]
      [⟨.letWord, "let", some 1⟩, ⟨.name, "ter", some 1⟩, ⟨.number, "1.2", some 1⟩,
        ⟨.number, ".3", some 1⟩, finish 1] := ⟨rfl, by simp [isBlank], by decide⟩
  have again := tokenize_respaced read separates
  have text : respaced [[], ['\n'], [' ', '\t'], ['\r', '\n'], []]
      [⟨.letWord, "let", some 1⟩, ⟨.name, "ter", some 1⟩, ⟨.number, "1.2", some 1⟩,
        ⟨.number, ".3", some 1⟩, finish 1] = "let\nter \t1.2\r\n.3".toList := by decide +kernel
  rw [text, String.ofList_toList] at again
  exact ⟨read, again⟩

end Reckoner.Token
