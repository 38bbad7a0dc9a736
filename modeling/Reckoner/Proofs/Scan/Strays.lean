import Reckoner.Proofs.Scan.Munch

/-!
Which sources have no tokens. Whether a character belongs to no token can be seen from it and the next
one, wherever it stands: no lexeme runs over such a character, and each is met where a lexeme would
begin. So a scan strays exactly if there is one, and at the first of them.
-/
namespace Reckoner.Token
open Reckoner.Text Reckoner.Number

/-- A character with a text behind it that belongs to no token and is no blank. A point belongs to a
    token if a digit follows it. -/
structure Offending (c : Char) (rest : List Char) : Prop where
  digit : isDigit c = false
  blank : isBlank c = false
  letter : isLetter c = false
  mark : c ∉ marks.map Prod.fst
  point : c = '.' → ∀ d ∈ rest.head?, isDigit d = false

/-- The first offending character of a text, behind `front`. -/
structure FirstOffending (text front : List Char) (c : Char) (rest : List Char) : Prop where
  place : text = front ++ c :: rest
  offends : Offending c rest
  earliest : ∀ early d later, front = early ++ d :: later → ¬ Offending d (later ++ c :: rest)

theorem punctuation?_eq_none_iff {c : Char} : punctuation? c = none ↔ c ∉ marks.map Prod.fst := by
  rw [Option.eq_none_iff_forall_ne_some]
  constructor
  · intro unknown listed
    obtain ⟨⟨_, kind⟩, inside, rfl⟩ := List.mem_map.1 listed
    exact unknown kind (punctuation?_eq_some_iff.2 inside)
  · intro other kind known
    exact other (List.mem_map_of_mem (punctuation?_eq_some_iff.1 known))

theorem numeralSpan_eq_nil_iff {c : Char} {rest : List Char} :
    numeralSpan (c :: rest) = [] ↔
      isDigit c = false ∧ (c = '.' → ∀ d ∈ rest.head?, isDigit d = false) := by
  cases digit : isDigit c with
  | true =>
    have single : Numeral [c] := .whole (by simp) (by simp [digit])
    have size := length_le_numeralSpan (List.prefix_append [c] rest) single
    rw [List.singleton_append] at size
    constructor
    · intro empty
      simp [empty] at size
    · rintro ⟨⟨⟩, _⟩
  | false =>
    by_cases point : c = '.'
    · subst point
      cases rest with
      | nil => simp [numeralSpan, digit]
      | cons d rest =>
        cases next : isDigit d with
        | true => simp [numeralSpan, digit, next]
        | false => simp [numeralSpan, digit, next]
    · simp [numeralSpan_cons digit point, point]

/-- No lexeme begins at an offending character, and at every other character one begins. -/
theorem lexeme?_eq_none_iff {c : Char} {rest : List Char} :
    lexeme? isBlank (c :: rest) = none ↔ Offending c rest := by
  rw [lexeme?_eq_iff]
  constructor
  · intro begins
    cases begins with
    | stray empty unmarked solid other =>
      obtain ⟨digit, point⟩ := numeralSpan_eq_nil_iff.1 empty
      exact ⟨digit, solid, other, punctuation?_eq_none_iff.1 unmarked, point⟩
  · intro offends
    have empty := numeralSpan_eq_nil_iff.2 ⟨offends.digit, offends.point⟩
    exact .stray empty (punctuation?_eq_none_iff.2 offends.mark) offends.blank offends.letter

/-- A character of a text in two parts is in one of them. -/
theorem append_eq_append_cons {front rest early later : List Char} {c : Char}
    (same : front ++ rest = early ++ c :: later) :
    (∃ more, front = early ++ c :: more ∧ later = more ++ rest) ∨
      ∃ more, early = front ++ more ∧ rest = more ++ c :: later := by
  rcases List.append_eq_append_iff.1 same with ⟨more, first, second⟩ | ⟨more, first, second⟩
  · exact .inr ⟨more, first, second⟩
  · cases more with
    | nil => exact .inr ⟨[], by simp [first], by simpa using second.symm⟩
    | cons d more =>
      rw [List.cons_append, List.cons.injEq] at second
      obtain ⟨rfl, rest⟩ := second
      exact .inl ⟨more, first, rest⟩

/-- No lexeme has an offending character in it. -/
theorem Lexical.not_offending {kind : Option Kind} {span : List Char} (lexical : Lexical isBlank kind span)
    {early later : List Char} {c : Char} (split : span = early ++ c :: later) (rest : List Char) :
    ¬ Offending c (later ++ rest) := by
  intro offends
  have digit := offends.digit
  have letter := offends.letter
  have inside : c ∈ span := by simp [split]
  cases lexical with
  | numeral numeral =>
    cases numeral with
    | whole filled each => simp [each c inside] at digit
    | @fraction digits more each filled others =>
      rcases append_eq_append_cons split with ⟨_, early, _⟩ | ⟨gap, _, behind⟩
      · simp [each c (by simp [early])] at digit
      · cases gap with
        | nil =>
          -- The point has a digit behind it.
          obtain ⟨rfl, rfl⟩ := List.cons.inj behind
          obtain ⟨d, further, rfl⟩ := List.exists_cons_of_ne_nil filled
          have next := offends.point rfl d (by simp)
          simp [others d (by simp)] at next
        | cons d gap =>
          have later := (List.cons.inj behind).2
          simp [others c (by simp [later])] at digit
  | mark known =>
    obtain rfl := List.mem_singleton.1 inside
    exact absurd known (by simp [punctuation?_eq_none_iff.2 offends.mark])
  | blanks each =>
    have blank := offends.blank
    simp [each c inside] at blank
  | letWord =>
    have letters : ∀ c ∈ ['l', 'e', 't'], isLetter c = true := by simp [isLetter]
    simp [letters c inside] at letter
  | funcWord =>
    have letters : ∀ c ∈ ['f', 'u', 'n', 'c'], isLetter c = true := by simp [isLetter]
    simp [letters c inside] at letter
  | name name => simp [name.letters c inside] at letter

/-- The first offending character behind a lexeme is the first one of the text with the lexeme. -/
theorem FirstOffending.behind {text front rest span : List Char} {c : Char}
    (first : FirstOffending text front c rest) {kind : Option Kind} (lexical : Lexical isBlank kind span) :
    FirstOffending (span ++ text) (span ++ front) c rest := by
  constructor
  · rw [first.place, List.append_assoc]
  · exact first.offends
  · intro early d later split
    rcases append_eq_append_cons split with ⟨more, inside, rfl⟩ | ⟨more, _, inside⟩
    · rw [List.append_assoc]
      exact lexical.not_offending inside _
    · exact first.earliest more d later inside

theorem FirstOffending.unique {text front rest front' rest' : List Char} {c c' : Char}
    (first : FirstOffending text front c rest) (other : FirstOffending text front' c' rest') :
    front = front' ∧ c = c' := by
  rcases append_eq_append_cons (first.place.symm.trans other.place) with
    ⟨more, inside, rfl⟩ | ⟨more, inside, same⟩
  · exact absurd other.offends (first.earliest front' c' more inside)
  · cases more with
    | nil => exact ⟨by simp [inside], (List.cons.inj same).1⟩
    | cons d more =>
      obtain ⟨rfl, rfl⟩ := List.cons.inj same
      exact absurd first.offends (other.earliest front c more inside)

theorem offending_replacement (rest : List Char) : Offending '\ufffd' rest :=
  ⟨by decide, by decide, by decide, by decide, by simp⟩

/-- The error about the first offending character of a source is about the code point in its place. -/
theorem FirstOffending.standing {source : Spelling} {front rest : List Char} {c : Char}
    (first : FirstOffending source.plain.toList front c rest) :
    source.codes[front.length]? = some (source.standing c) := by
  by_cases replaces : c = '\ufffd'
  · refine Spelling.standing_of_first first.place fun inside => ?_
    obtain ⟨early, later, split⟩ := List.append_of_mem inside
    exact first.earliest early c later split (replaces ▸ offending_replacement _)
  · obtain ⟨code, found, reads⟩ := Spelling.exists_code first.place
    rw [found, source.standing_of_ne replaces, Spelling.eq_toNat_of_scalar reads replaces]

/-- What the end of a scan from `line` says of the text: there is no offending character in it, or the
    scan ends at the first one, in its line. -/
inductive Settles (text : List Char) (line : Nat) : Ending → Prop
  | finish {last : Nat} (clean : ∀ front c rest, text = front ++ c :: rest → ¬ Offending c rest) :
      Settles text line (.finish last)
  | stray {front rest : List Char} {c : Char} (first : FirstOffending text front c rest) :
      Settles text line (.stray c (line + lineFeeds front))

theorem Settles.behind {text span : List Char} {line : Nat} {ending : Ending} {kind : Option Kind}
    (settles : Settles text (line + lineFeeds span) ending) (lexical : Lexical isBlank kind span) :
    Settles (span ++ text) line ending := by
  cases settles with
  | finish clean =>
    apply Settles.finish
    intro front c rest split
    rcases append_eq_append_cons split with ⟨more, inside, rfl⟩ | ⟨more, _, inside⟩
    · exact lexical.not_offending inside text
    · exact clean more c rest inside
  | stray first =>
    rw [Nat.add_assoc, ← lineFeeds_append]
    exact .stray (first.behind lexical)

/-- A scan goes over lexemes, in which nothing offends, up to the first offending character. -/
theorem settles_scanFrom (line : Nat) (text : List Char) :
    Settles text line (scanFrom isBlank line text).ending := by
  apply scanFrom_induction (P := fun line text lexed => Settles text line lexed.ending)
  · intro line
    exact .finish (by simp)
  · intro line c rest none
    have first : FirstOffending (c :: rest) [] c rest :=
      ⟨rfl, lexeme?_eq_none_iff.1 none, by simp⟩
    exact .stray first
  · intro line kind span rest after found settles
    have whole := settles.behind (lexical_of_lexeme? found).2
    cases kind with
    | none => exact whole
    | some kind => exact whole

/-- Behind a source that is scanned to its end, the error for a character is what it is by itself. -/
theorem strayError_append {first : Spelling} {tokens : List Token} {last : Nat}
    (scanned : scan isBlank first = ⟨tokens, .finish last⟩) (second : Spelling) (c : Char) (line : Nat) :
    strayError (first ++ second) c line = strayError second c line := by
  have same : (first ++ second).standing c = second.standing c := by
    by_cases replaces : c = '\ufffd'
    · refine Spelling.standing_append_of_not_mem (fun inside => ?_) second
      have settles : Settles first.plain.toList 1 (scan isBlank first).ending := settles_scanFrom 1 _
      rw [scanned] at settles
      obtain ⟨clean⟩ := settles
      obtain ⟨front, rest, place⟩ := List.append_of_mem inside
      exact clean front c rest place (replaces ▸ offending_replacement _)
    · rw [Spelling.standing_of_ne _ replaces, Spelling.standing_of_ne _ replaces]
  rw [strayError, same, strayError]

/-- A source is scanned to tokens exactly if no character in it offends, and else the first one that does
    is reported, in the line in which it stands. Half of a surrogate pair offends, as the character that
    replaces it in the plain text does. -/
theorem tokenize_strays (source : Spelling) :
    ((∃ error, tokenize source = .error error) ↔
      ∃ front c rest, source.plain.toList = front ++ c :: rest ∧ Offending c rest) ∧
    ∀ error, tokenize source = .error error ↔ ∃ front c rest code,
      FirstOffending source.plain.toList front c rest ∧ source.codes[front.length]? = some code ∧
        error = strayCode code (1 + lineFeeds front) := by
  have settles : Settles source.plain.toList 1 (scan isBlank source).ending := settles_scanFrom 1 _
  unfold tokenize
  generalize scan isBlank source = lexed at settles
  obtain ⟨tokens, ending⟩ := lexed
  cases settles with
  | finish clean =>
    constructor
    · constructor
      · rintro ⟨_, ⟨⟩⟩
      · rintro ⟨front, c, rest, place, offends⟩
        exact absurd offends (clean front c rest place)
    · intro error
      constructor
      · rintro ⟨⟩
      · rintro ⟨front, c, rest, _, first, _⟩
        exact absurd first.offends (clean front c rest first.place)
  | @stray front rest c first =>
    constructor
    · constructor
      · intro _
        exact ⟨front, c, rest, first.place, first.offends⟩
      · intro _
        exact ⟨_, rfl⟩
    · intro error
      constructor
      · rintro ⟨⟩
        exact ⟨front, c, rest, _, first, first.standing, rfl⟩
      · rintro ⟨front', c', rest', code, other, found, rfl⟩
        obtain ⟨rfl, rfl⟩ := first.unique other
        cases found.symm.trans other.standing
        rfl

example : tokenize "1\n..2" = .error (.lex "." (some 2)) := by cbv

end Reckoner.Token
