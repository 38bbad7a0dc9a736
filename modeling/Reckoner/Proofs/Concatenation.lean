import Reckoner.Proofs.Agreement
import Reckoner.Proofs.Descent.Lines
import Reckoner.Proofs.Descent.Locality
import Reckoner.Proofs.Scan.Strays

/-!
One source behind another. A source that is read as a program ends with a semicolon and blanks, or is
blank, so no lexeme runs over its end. Of its statements nothing behind their semicolons is looked at.
So a second source is read behind it as it is by itself, in lines further down: as a program that goes
on the first one, or with the same error.
-/
namespace Reckoner

/-- A line further down. -/
def lineBelow (count : Nat) (line : Option Int) : Option Int := line.map (· + (count : Int))

/-- A cursor before tokens with other lines is proper as well. -/
theorem Cursor.Proper.relined {cursor : Cursor} (proper : cursor.Proper)
    (change : Option Int → Option Int) : (cursor.relined change).Proper := by
  refine ⟨proper.ends, ?_, ?_⟩
  · intro word inside
    obtain ⟨plain, among, rfl⟩ := List.mem_map.1 inside
    exact proper.words plain among
  · intro word inside
    obtain ⟨plain, among, rfl⟩ := List.mem_map.1 inside
    exact proper.legible plain among

namespace Token
open Reckoner.Text

/-- A scan that goes on with another one in the line in which it finishes. -/
def Lexed.andThen (lexed : Lexed) (next : Nat → Lexed) : Lexed :=
  match lexed.ending with
  | .finish line => ⟨lexed.tokens ++ (next line).tokens, (next line).ending⟩
  | .stray _ _ => lexed

theorem Lexed.andThen_cons (kind : Option Kind) (span : List Char) (line : Nat) (lexed : Lexed)
    (next : Nat → Lexed) :
    (lexed.cons kind span line).andThen next = (lexed.andThen next).cons kind span line := by
  cases kind with
  | none => rfl
  | some kind =>
    obtain ⟨tokens, ending⟩ := lexed
    cases ending <;> rfl

theorem Lexed.andThen_andThen (lexed : Lexed) (next further : Nat → Lexed) :
    (lexed.andThen next).andThen further = lexed.andThen fun line => (next line).andThen further := by
  obtain ⟨tokens, ending⟩ := lexed
  cases ending with
  | stray => rfl
  | finish line =>
    simp only [andThen]
    cases ends : (next line).ending <;> simp [ends]

/-- A scan in lines further down. -/
def Lexed.later (count : Nat) (lexed : Lexed) : Lexed where
  tokens := lexed.tokens.map (relined (lineBelow count))
  ending :=
    match lexed.ending with
    | .finish line => .finish (line + count)
    | .stray character line => .stray character (line + count)

section
variable (source : Spelling) (character : Char) (line : Nat)

theorem strayError_relined_line (change : Option Int → Option Int) :
    ((strayError source character line).relined change).line = change (some line) := by
  unfold strayError strayCode
  split <;> rfl

theorem strayError_later (count : Nat) :
    (strayError source character line).relined (lineBelow count) =
      strayError source character (line + count) := by
  unfold strayError strayCode
  split <;> rfl

end

section
variable {p : Char → Bool} {mark : Char} (stops : p mark = false)
include stops

theorem takeWhile_mark (chars more : List Char) :
    (chars ++ mark :: more).takeWhile p = chars.takeWhile p := by
  induction chars with
  | nil => simp [stops]
  | cons c chars ih => simp [List.takeWhile_cons, ih]

theorem dropWhile_mark (chars more : List Char) :
    (chars ++ mark :: more).dropWhile p = chars.dropWhile p ++ mark :: more := by
  induction chars with
  | nil => simp [stops]
  | cons c chars ih =>
    cases holds : p c <;> simp [holds, ih]

end

theorem isPrefixOf_mark {word : List Char} {mark : Char} (free : mark ∉ word) (chars more : List Char) :
    word.isPrefixOf (chars ++ mark :: more) = word.isPrefixOf chars := by
  induction word generalizing chars with
  | nil => simp
  | cons w word ih =>
    obtain ⟨other, others⟩ := not_or.1 (mt List.mem_cons.2 free)
    cases chars with
    | nil => simp [List.isPrefixOf, Ne.symm other]
    | cons c chars => simp [List.isPrefixOf, ih others]

theorem numeralSpan_mark (chars more : List Char) :
    numeralSpan (chars ++ ';' :: more) = numeralSpan chars := by
  have stops : isDigit ';' = false := by decide
  simp only [numeralSpan, takeWhile_mark stops, dropWhile_mark stops]
  cases chars.dropWhile isDigit with
  | nil => rfl
  | cons c rest =>
    by_cases point : c = '.'
    · subst point
      simp only [List.cons_append, takeWhile_mark stops]
    · simp [point]

/-- No lexeme that begins before a semicolon goes over it. -/
theorem lexeme?_mark {blank : Char → Bool} (solid : blank ';' = false) {chars : List Char}
    (filled : chars ≠ []) (more : List Char) :
    lexeme? blank (chars ++ ';' :: more) = lexeme? blank chars := by
  obtain ⟨c, rest, rfl⟩ := List.exists_cons_of_ne_nil filled
  have numeral := numeralSpan_mark (c :: rest) more
  have blanks := takeWhile_mark solid (c :: rest) more
  have letters := takeWhile_mark (show isLetter ';' = false by decide) (c :: rest) more
  have isLet := isPrefixOf_mark (show ';' ∉ ['l', 'e', 't'] by decide) (c :: rest) more
  have isFunc := isPrefixOf_mark (show ';' ∉ ['f', 'u', 'n', 'c'] by decide) (c :: rest) more
  rw [List.cons_append] at numeral blanks letters isLet isFunc ⊢
  simp only [lexeme?, wordSpan, numeral, blanks, letters, isLet, isFunc]

/-- A text with a semicolon in it is scanned up to the semicolon and on from there. -/
theorem scanFrom_mark {blank : Char → Bool} (solid : blank ';' = false) (line : Nat)
    (chars more : List Char) :
    scanFrom blank line (chars ++ ';' :: more) =
      (scanFrom blank line chars).andThen fun last => scanFrom blank last (';' :: more) := by
  refine scanFrom_induction (P := fun line chars lexed => scanFrom blank line (chars ++ ';' :: more) =
    lexed.andThen fun last => scanFrom blank last (';' :: more)) ?_ ?_ ?_ line chars
  · exact fun _ => rfl
  · intro line c rest none
    rw [← lexeme?_mark solid (by simp) more] at none
    exact scanFrom_stray none
  · intro line kind span rest after found ih
    rw [← lexeme?_mark solid (by simp [lexeme?_ne_nil found]) more, List.append_assoc] at found
    rw [List.append_assoc, scanFrom_lexeme found, ih, Lexed.andThen_cons]

/-- A scan finishes as many lines further down as there are line feeds. -/
theorem line_of_scanFrom_finish {blank : Char → Bool} {line last : Nat} {chars : List Char}
    (finishes : (scanFrom blank line chars).ending = .finish last) : last = line + lineFeeds chars := by
  refine scanFrom_induction (P := fun line chars lexed => lexed.ending = .finish last →
    last = line + lineFeeds chars) ?_ ?_ ?_ line chars finishes
  · intro line ended
    cases ended
    rfl
  · intro line c rest _ ended
    cases ended
  · intro line kind span rest after _ ih ended
    have same : after.ending = .finish last := by cases kind <;> exact ended
    rw [ih same, lineFeeds, lineFeeds, lineFeeds, List.count_append, Nat.add_assoc]

/-- From a line further down, a scan finds the same in lines further down. -/
theorem scanFrom_later {blank : Char → Bool} (count line : Nat) (chars : List Char) :
    scanFrom blank (line + count) chars = (scanFrom blank line chars).later count := by
  refine scanFrom_induction (P := fun line chars lexed =>
    scanFrom blank (line + count) chars = lexed.later count) ?_ ?_ ?_ line chars
  · intro line
    rw [scanFrom]
    rfl
  · intro line c rest none
    exact scanFrom_stray none
  · intro line kind span rest after found ih
    rw [scanFrom_lexeme found, Nat.add_right_comm, ih]
    cases kind with
    | none => rfl
    | some kind => simp [Lexed.cons, Lexed.later, relined, lineBelow]

/-- A text whose last token is a semicolon, or that has no tokens, ends with blanks behind that. -/
theorem exists_gap_of_finish {blank : Char → Bool} {line last : Nat} {chars : List Char}
    (finishes : (scanFrom blank line chars).ending = .finish last)
    (closed : ∀ token ∈ (scanFrom blank line chars).tokens.getLast?, token.kind = .semicolon) :
    ∃ gap, (∀ c ∈ gap, blank c = true) ∧
      ((scanFrom blank line chars).tokens = [] ∧ chars = gap ∨ ∃ front, chars = front ++ ';' :: gap) := by
  refine scanFrom_induction (P := fun _ chars lexed => lexed.ending = .finish last →
    (∀ token ∈ lexed.tokens.getLast?, token.kind = .semicolon) → ∃ gap, (∀ c ∈ gap, blank c = true) ∧
      (lexed.tokens = [] ∧ chars = gap ∨ ∃ front, chars = front ++ ';' :: gap)) ?_ ?_ ?_ line chars
    finishes closed
  · exact fun _ _ _ => ⟨[], by simp, .inl ⟨rfl, rfl⟩⟩
  · intro line c rest _ ended
    cases ended
  · intro line kind span rest after found ih ended closed
    have lexical := (lexical_of_lexeme? found).2
    cases kind with
    | none =>
      obtain ⟨gap, each, ⟨empty, rfl⟩ | ⟨front, rfl⟩⟩ := ih ended closed
      · cases lexical with
        | blanks front => exact ⟨span ++ rest, List.forall_mem_append.2 ⟨front, each⟩, .inl ⟨empty, rfl⟩⟩
      · exact ⟨gap, each, .inr ⟨span ++ front, by simp⟩⟩
    | some kind =>
      simp only [Lexed.cons, List.getLast?_cons, Option.mem_some_iff, forall_eq'] at closed
      have later : ∀ token ∈ after.tokens.getLast?, token.kind = .semicolon := by
        intro token final
        rwa [Option.mem_def.1 final, Option.getD_some] at closed
      obtain ⟨gap, each, ⟨empty, rfl⟩ | ⟨front, rfl⟩⟩ := ih ended later
      · -- The lexeme is the last one, so it is the semicolon.
        rw [empty, List.getLast?_nil, Option.getD_none] at closed
        dsimp only at closed
        subst closed
        cases lexical with
        | mark known =>
          unfold punctuation? at known
          split at known <;> cases known
          exact ⟨rest, each, .inr ⟨[], rfl⟩⟩
      · exact ⟨gap, each, .inr ⟨span ++ front, by simp⟩⟩

theorem scanFrom_blanks_append {gap : List Char} (blank : ∀ c ∈ gap, isBlank c = true) (line : Nat)
    (more : List Char) :
    scanFrom isBlank line (gap ++ more) =
      (scanFrom isBlank line gap).andThen fun last => scanFrom isBlank last more := by
  have alone := scanFrom_blanks blank line []
  rw [List.append_nil] at alone
  rw [scanFrom_blanks blank, alone, scanFrom]
  rfl

/-- Behind a text whose last token is a semicolon, or that has no tokens, the scan goes on as it does
    from the start of a text. -/
theorem scanFrom_append {line last : Nat} {chars : List Char}
    (finishes : (scanFrom isBlank line chars).ending = .finish last)
    (closed : ∀ token ∈ (scanFrom isBlank line chars).tokens.getLast?, token.kind = .semicolon)
    (more : List Char) :
    scanFrom isBlank line (chars ++ more) =
      (scanFrom isBlank line chars).andThen fun last => scanFrom isBlank last more := by
  obtain ⟨gap, blank, ⟨_, rfl⟩ | ⟨front, rfl⟩⟩ := exists_gap_of_finish finishes closed
  · exact scanFrom_blanks_append blank line more
  · have solid : isBlank ';' = false := by decide
    have mark (rest : List Char) : lexeme? isBlank ([';'] ++ rest) = some (some .semicolon, [';']) := rfl
    rw [List.append_assoc, List.cons_append, scanFrom_mark solid, scanFrom_mark solid,
      Lexed.andThen_andThen]
    congr 1
    funext middle
    change scanFrom isBlank middle ([';'] ++ (gap ++ more)) =
      (scanFrom isBlank middle ([';'] ++ gap)).andThen _
    rw [scanFrom_lexeme (mark _), scanFrom_lexeme (mark _), scanFrom_blanks_append blank,
      Lexed.andThen_cons]

end Token

/-- The last word of a program is a semicolon. -/
theorem Grammar.Program.closed {words : List Token} {clauses : List Clause}
    (derived : Grammar.Program words clauses) :
    ∀ token ∈ words.getLast?, token.kind = .semicolon := by
  induction derived with
  | done => simp
  | @more words rest _ _ statement _ ih =>
    intro token final
    rw [Option.mem_def, List.getLast?_append] at final
    cases last : rest.getLast? with
    | some behind =>
      rw [last, Option.some_or] at final
      exact ih token (last.trans final)
    | none =>
      rw [last, Option.none_or] at final
      cases statement with
      | empty ends =>
        cases final
        exact ends
      | full body ends =>
        rw [List.getLast?_concat] at final
        cases final
        exact ends

/-- The tree of a program behind some statements. -/
def Node.behind (body : List Node) : Node → Node
  | .program more => .program (body ++ more)
  | other => other

namespace Descent
open Reckoner.Reading

/-- A statement is read where its body is and a semicolon follows it. -/
theorem statement_eq_ok_iff {depth : Nat} {cursor after : Cursor} {node : Node} :
    statement depth cursor = .ok node after ↔
      ∃ middle, statementBody depth cursor.current.kind cursor = .ok node middle ∧
        middle.current.kind = .semicolon ∧ after = middle.moved := by
  have start (cursor : Cursor) : peek cursor = .ok cursor.current cursor := rfl
  have takes (middle : Cursor) : advance middle = .ok middle.current middle.moved := rfl
  rw [statement, bind_of_ok (start cursor)]
  cases body : statementBody depth cursor.current.kind cursor with
  | error fault middle => simp [bind_of_error body]
  | ok value middle =>
    rw [bind_of_ok body, bind_of_ok (start middle)]
    by_cases semicolon : middle.current.kind = .semicolon
    · rw [if_pos semicolon, bind_of_ok (takes middle)]
      constructor
      · rintro ⟨⟩
        exact ⟨middle, rfl, semicolon, rfl⟩
      · rintro ⟨_, ⟨⟩, _, rfl⟩
        rfl
    · rw [if_neg semicolon]
      constructor
      · rintro ⟨⟩
      · rintro ⟨_, ⟨⟩, other, _⟩
        exact absurd other semicolon

/-- A statement that is read is read again wherever its words stand; nothing behind its semicolon is
    looked at. -/
theorem statement_append {depth : Nat} {words : List Token} {stop : Token} {node : Node} {after : Cursor}
    (ended : (⟨words, stop⟩ : Cursor).Ended)
    (read : statement depth (⟨words, stop⟩ : Cursor) = .ok node after) :
    ∃ front behind, words = front ++ behind ∧ front ≠ [] ∧ after = ⟨behind, stop⟩ ∧
      ∀ rest finish, (⟨front ++ rest, finish⟩ : Cursor).Ended →
        statement depth (⟨front ++ rest, finish⟩ : Cursor) = .ok node ⟨rest, finish⟩ := by
  obtain ⟨middle, body, semicolon, rfl⟩ := statement_eq_ok_iff.1 read
  -- The body depends on its words and the semicolon behind them.
  obtain ⟨taken, within, rfl, again⟩ := (settled_statementBody depth _ _ ended (stop :: words) (by simp)).of_ok
    body
  have room : taken + 1 ≤ words.length := by
    have filled := (ended.skip taken).length_pos (by simp [semicolon])
    rw [Cursor.length_skip] at filled
    dsimp only at filled
    omega
  have size : (words.take (taken + 1)).length = taken + 1 := by
    rw [List.length_take]
    omega
  refine ⟨words.take (taken + 1), words.drop (taken + 1), (List.take_append_drop _ _).symm, ?_, ?_, ?_⟩
  · exact List.ne_nil_of_length_eq_add_one size
  · rw [← Cursor.skip_one, Cursor.skip_skip]
    rfl
  · intro rest finish endedTwin
    have agrees : (⟨words, stop⟩ : Cursor).Agrees (taken + 1) ⟨words.take (taken + 1) ++ rest, finish⟩ := by
      intro place before
      dsimp only
      rw [List.getElem?_append_left (by omega), List.append_assoc,
        List.getElem?_append_left (by omega), List.getElem?_take_of_lt before]
    have bodyTwin := again _ (finish :: (words.take (taken + 1) ++ rest)) endedTwin (by simp) agrees
    have next := (@Cursor.Agrees.skip taken 1 _ _ agrees within (by simp only [List.length_append]; omega)).current
      (Nat.le_refl 1)
    refine statement_eq_ok_iff.2 ⟨_, ?_, next ▸ semicolon, ?_⟩
    · rw [agrees.current (by omega)]
      exact bodyTwin
    · rw [← Cursor.skip_one, Cursor.skip_skip, Cursor.skip, List.drop_left' size]

/-- Statements do not depend on the rounds, of which there are enough. -/
theorem statements_rounds (depth : Nat) {cursor : Cursor} (ended : cursor.Ended) {rounds others : List Token}
    (enough : cursor.ahead.length < rounds.length) (enoughOthers : cursor.ahead.length < others.length) :
    statements depth others cursor = statements depth rounds cursor := by
  have steady := steady_statements depth ended rounds enough
  cases outcome : statements depth rounds cursor with
  | ok nodes after =>
    obtain ⟨taken, _, rfl, again⟩ := steady.of_ok outcome
    exact again cursor others ended enoughOthers (.refl _ _)
  | error fault after =>
    obtain ⟨taken, _, _, rfl, again⟩ := steady.of_error outcome
    exact again cursor others ended enoughOthers (.refl _ _)

/-- A round ends at the end of the input, skips a semicolon or reads a statement. -/
theorem statements_cons (depth : Nat) (round : Token) (rounds : List Token) (cursor : Cursor) :
    statements depth (round :: rounds) cursor =
      if cursor.current.kind = .finish then .ok [] cursor
      else if cursor.current.kind = .semicolon then statements depth rounds cursor.moved
      else (statement depth >>= fun first => (first :: ·) <$> statements depth rounds) cursor := by
  rw [statements, bind_of_ok (peek_eq cursor)]
  cases cursor.current.kind with | _ => rfl

/-- Behind statements that are read to their end, reading goes on as it does from the start. -/
theorem statements_append {depth : Nat} {rounds words : List Token} {stop : Token} {nodes : List Node}
    {after : Cursor} (ended : (⟨words, stop⟩ : Cursor).Ended) (enough : words.length < rounds.length)
    (read : statements depth rounds (⟨words, stop⟩ : Cursor) = .ok nodes after)
    {rest others more : List Token} {finish : Token} (endedTwin : (⟨words ++ rest, finish⟩ : Cursor).Ended)
    (enoughOthers : (words ++ rest).length < others.length) (enoughMore : rest.length < more.length) :
    statements depth others (⟨words ++ rest, finish⟩ : Cursor) =
      ((nodes ++ ·) <$> statements depth more) ⟨rest, finish⟩ := by
  induction rounds generalizing words nodes others with
  | nil => simp at enough
  | cons round rounds ih =>
    obtain ⟨other, others, rfl⟩ := List.exists_cons_of_length_pos (by omega : 0 < others.length)
    rw [statements_cons] at read
    cases words with
    | nil =>
      have finishes : (⟨[], stop⟩ : Cursor).current.kind = .finish := ended.ends
      rw [if_pos finishes] at read
      cases read
      rw [List.nil_append] at endedTwin enoughOthers ⊢
      rw [statements_rounds depth endedTwin enoughMore enoughOthers]
      simp
    | cons word words =>
      have notFinish : word.kind ≠ .finish := ended.words word (by simp)
      simp only [List.cons_append, List.length_cons] at enough enoughOthers endedTwin
      rw [current_cons, if_neg notFinish] at read
      rw [List.cons_append, statements_cons, current_cons, if_neg notFinish]
      by_cases semicolon : word.kind = .semicolon
      · rw [if_pos semicolon] at read ⊢
        have endedWords : (⟨words, stop⟩ : Cursor).Ended := ended.skip 1
        have endedBoth : (⟨words ++ rest, finish⟩ : Cursor).Ended := endedTwin.skip 1
        exact ih endedWords (by omega) read endedBoth (by omega)
      · rw [if_neg semicolon] at read ⊢
        obtain ⟨first, middle, one, read⟩ := bind_eq_ok read
        obtain ⟨front, behind, split, filled, rfl, again⟩ := statement_append ended one
        have size := congrArg List.length split
        have some := List.length_pos_iff.2 filled
        rw [List.length_cons, List.length_append] at size
        rw [← List.cons_append, split, List.append_assoc] at endedTwin ⊢
        rw [bind_of_ok (again (behind ++ rest) finish endedTwin)]
        have endedBehind : (⟨behind, stop⟩ : Cursor).Ended :=
          ⟨ended.ends, fun token inside => ended.words token (by simp [split, inside])⟩
        have endedRest : (⟨behind ++ rest, finish⟩ : Cursor).Ended :=
          ⟨endedTwin.ends, fun token inside => endedTwin.words token (by simp_all)⟩
        cases later : statements depth rounds (⟨behind, stop⟩ : Cursor) with
        | error fault last => simp [Functor.map, EStateM.map, later] at read
        | ok nodes last =>
          simp only [Functor.map, EStateM.map, later] at read
          cases read
          have goesOn := @ih behind nodes endedBehind (by omega) later others endedRest
            (by simp only [List.length_append] at enoughOthers ⊢; omega)
          simp only [Functor.map, EStateM.map] at goesOn ⊢
          rw [goesOn]
          cases statements depth more (⟨rest, finish⟩ : Cursor) with | _ => rfl

/-- A list of tokens is read as a program by its statements. -/
theorem parseTokens_eq {words : List Token} {stop : Token}
    (proper : (⟨words, stop⟩ : Cursor).Proper) (depth : Nat) :
    parseTokens depth (words ++ [stop]) =
      match statements depth (stop :: words) (⟨words, stop⟩ : Cursor) with
      | .ok nodes _ => .ok (.program nodes)
      | .error .depth after => .error (.error (.recursionLimit .nesting after.current.line))
      | .error fault _ => .error fault := by
  have whole : program depth (⟨words, stop⟩ : Cursor) =
    (Node.program <$> statements depth (stop :: words)) ⟨words, stop⟩ := rfl
  rw [parseTokens, Cursor.ofTokens_append proper]
  simp only [bind, Except.bind, EStateM.run, whole, Functor.map, EStateM.map]
  cases statements depth (stop :: words) (⟨words, stop⟩ : Cursor) with
  | ok => rfl
  | error fault after => cases fault <;> rfl

/-- Tokens behind those of a program are read as they are by themselves. -/
theorem parseTokens_append {depth : Nat} {words rest : List Token} {stop finish : Token}
    {body : List Node} (first : (⟨words, stop⟩ : Cursor).Proper)
    (second : (⟨rest, finish⟩ : Cursor).Proper)
    (read : parseTokens depth (words ++ [stop]) = .ok (.program body)) :
    parseTokens depth (words ++ rest ++ [finish]) =
      Node.behind body <$> parseTokens depth (rest ++ [finish]) := by
  have both : (⟨words ++ rest, finish⟩ : Cursor).Proper :=
    ⟨second.ends, List.forall_mem_append.2 ⟨first.words, second.words⟩,
      List.forall_mem_append.2 ⟨first.legible, second.legible⟩⟩
  rw [parseTokens_eq first] at read
  rw [parseTokens_eq both, parseTokens_eq second]
  cases outcome : statements depth (stop :: words) (⟨words, stop⟩ : Cursor) with
  | error fault after =>
    rw [outcome] at read
    cases fault <;> cases read
  | ok nodes after =>
    rw [outcome] at read
    cases read
    have goesOn : statements depth (finish :: (words ++ rest)) (⟨words ++ rest, finish⟩ : Cursor) =
        ((body ++ ·) <$> statements depth (finish :: rest)) ⟨rest, finish⟩ :=
      statements_append ⟨first.ends, first.words⟩ (Nat.lt_succ_self _) outcome ⟨both.ends, both.words⟩
        (Nat.lt_succ_self _) (Nat.lt_succ_self _)
    rw [goesOn]
    simp only [Functor.map, EStateM.map]
    cases statements depth (finish :: rest) (⟨rest, finish⟩ : Cursor) with
    | ok more last => rfl
    | error fault last => cases fault <;> rfl

end Descent

/-- The tokens of a scan have lines. -/
theorem Token.exists_line_of_mem_scan {blank : Char → Bool} {source : Spelling} {token : Token}
    (inside : token ∈ (scan blank source).tokens) : ∃ number : Int, token.line = some number := by
  obtain ⟨_, _, start, _, rfl⟩ := lexical_of_mem_scanFrom 1 source.plain.toList token inside
  exact ⟨start, rfl⟩

namespace Descent
open Reckoner.Text

/-- A source behind a program is scanned as it is by itself, further down. -/
theorem scan_append {first : Spelling} {tokens : List Token} {last : Nat}
    (scanned : Token.scan isBlank first = ⟨tokens, .finish last⟩)
    (closed : ∀ token ∈ tokens.getLast?, token.kind = .semicolon) (second : Spelling) :
    Token.scan isBlank (first ++ second) =
      ⟨tokens ++ ((Token.scan isBlank second).later (lineFeeds first.plain.toList)).tokens,
        ((Token.scan isBlank second).later (lineFeeds first.plain.toList)).ending⟩ := by
  have finishes : (Token.scanFrom isBlank 1 first.plain.toList).ending = .finish last :=
    congrArg Token.Lexed.ending scanned
  have place := Token.line_of_scanFrom_finish finishes
  subst place
  rw [Token.scan, Token.scan, Spelling.toList_plain_append, ← Token.scanFrom_later]
  rw [Token.scanFrom_append finishes (by rwa [← Token.scan, scanned]), ← Token.scan, scanned]
  rfl

/-- A source behind a program is read as it is by itself: its statements follow those of the program,
    and its error is in a line further down. -/
theorem parse_behind {depth : Nat} {first : Spelling} {body : List Node}
    (read : parse depth first = .ok (.program body)) (second : Spelling) :
    parse depth (first ++ second) = (Node.behind body <$> parse depth second).mapError
      (Fault.relined (lineBelow (lineFeeds first.plain.toList))) := by
  obtain ⟨tokens, last, scanned, clauses, derived, _⟩ := describes_of_parse read
  have append := scan_append scanned derived.closed second
  rw [parse_of_finish scanned] at read
  generalize lineFeeds first.plain.toList = count at append ⊢
  cases behind : Token.scan isBlank second with
  | mk rest ending =>
    rw [behind] at append
    cases ending with
    | stray character line =>
      rw [parse_of_stray append, parse_of_stray behind, Token.strayError_append scanned]
      exact congrArg (fun error => Except.error (Fault.error error)) (Token.strayError_later ..).symm
    | finish line =>
      have proper := Cursor.proper_of_scan behind line
      rw [parse_of_finish append, parse_of_finish behind]
      refine (parseTokens_append (Cursor.proper_of_scan scanned last) (proper.relined _) read).trans ?_
      have later := parseTokens_relined (lineBelow count) depth (rest ++ [Token.finish line])
      rw [List.map_append] at later
      refine (congrArg (Node.behind body <$> ·) later).trans ?_
      cases parseTokens depth (rest ++ [Token.finish line]) with | _ => rfl

/-- An error of reading cites a line, and the line that is put in its place. -/
theorem exists_line_of_parse {depth : Nat} {source : Spelling} {error : Error}
    (fails : parse depth source = .error (.error error)) :
    ∃ number : Int, error.line = some number ∧
      ∀ change, (error.relined change).line = change (some number) := by
  cases scanned : Token.scan isBlank source with
  | mk tokens ending =>
    cases ending with
    | stray character line =>
      rw [parse_of_stray scanned] at fails
      cases fails
      exact ⟨line, Token.strayError_line .., Token.strayError_relined_line source character line⟩
    | finish line =>
      have words : (Token.scan isBlank source).tokens = tokens := by rw [scanned]
      subst words
      rw [parse_of_finish scanned] at fails
      -- The tokens have lines, so nothing changes where lines that are missing are filled in.
      have filled : ((Token.scan isBlank source).tokens ++ [Token.finish line]).map
          (Token.relined fun line => some (line.getD 0)) =
            (Token.scan isBlank source).tokens ++ [Token.finish line] := by
        refine (List.map_congr_left fun token inside => ?_).trans (List.map_id _)
        obtain ⟨number, known⟩ : ∃ number : Int, token.line = some number := by
          rcases List.mem_append.1 inside with word | last
          · exact Token.exists_line_of_mem_scan word
          · exact ⟨line, by rw [List.mem_singleton.1 last]; rfl⟩
        obtain ⟨kind, lexeme, _⟩ := token
        cases known
        rfl
      have same := parseTokens_relined (fun line => some (line.getD 0)) depth
        ((Token.scan isBlank source).tokens ++ [Token.finish line])
      rw [filled, fails] at same
      have again : error = error.relined fun line => some (line.getD 0) :=
        Fault.error.inj (Except.error.inj same)
      rcases parseTokens_sound (Cursor.proper_of_scan scanned line) depth with
        ⟨_, read, _⟩ | ⟨⟨_, _, limit⟩, _⟩ | ⟨_, _, complains⟩
      · cases fails.symm.trans read
      · cases fails.symm.trans limit
        have cited := congrArg Error.line again
        exact ⟨_, cited, fun _ => congrArg _ cited⟩
      · cases fails.symm.trans complains
        have cited := congrArg Error.line again
        exact ⟨_, cited, fun _ => congrArg _ cited⟩

/-- Reading goes over concatenation. Behind a source that is read as a program, another program goes on
    with its statements, and an error is found again with the same words, as many lines further down as
    the first source has line feeds. Nothing has to stand between the two. -/
theorem parse_append {depth : Nat} {first : Spelling} {tree : Node} (accepted : parse depth first = .ok tree)
    (second : Spelling) :
    ∃ body, tree = .program body ∧
      (∀ other, parse depth second = .ok other → ∃ more, other = .program more ∧
        parse depth (first ++ second) = .ok (.program (body ++ more))) ∧
      ∀ error, parse depth second = .error (.error error) → ∃ moved number,
        parse depth (first ++ second) = .error (.error moved) ∧ moved.kind = error.kind ∧
          moved.text = error.text ∧ error.line = some number ∧
          moved.line = some (number + (lineFeeds first.plain.toList : Int)) := by
  obtain ⟨_, _, _, _, _, _, rfl⟩ := describes_of_parse accepted
  have whole := parse_behind accepted second
  refine ⟨_, rfl, ?_, ?_⟩
  · intro other read
    obtain ⟨_, _, _, _, _, _, rfl⟩ := describes_of_parse read
    rw [read] at whole
    exact ⟨_, rfl, whole⟩
  · intro error fails
    obtain ⟨number, cited, follows⟩ := exists_line_of_parse fails
    rw [fails] at whole
    refine ⟨error.relined (lineBelow (lineFeeds first.plain.toList)), number, whole, ?_, ?_, cited, follows _⟩
    · cases error <;> rfl
    · cases error <;> rfl

private theorem parse_numeral_line :
    parse 1 "2;\n" = .ok (.program [.number (Spelling.worth "2")]) := by
  have numeral : Token.lexeme? isBlank (['2'] ++ [';', '\n']) = some (some .number, ['2']) := rfl
  have mark : Token.lexeme? isBlank ([';'] ++ ['\n']) = some (some .semicolon, [';']) := rfl
  have feed : Token.lexeme? isBlank (['\n'] ++ []) = some (none, ['\n']) := rfl
  have scanned : Token.scan isBlank "2;\n" =
      ⟨[⟨.number, "2", some 1⟩, ⟨.semicolon, ";", some 1⟩], .finish 2⟩ := by
    change Token.scanFrom isBlank 1 (['2'] ++ [';', '\n']) = _
    rw [Token.scanFrom_lexeme numeral]
    change (Token.scanFrom isBlank 1 ([';'] ++ ['\n'])).cons _ _ _ = _
    rw [Token.scanFrom_lexeme mark]
    change ((Token.scanFrom isBlank 1 (['\n'] ++ [])).cons _ _ _).cons _ _ _ = _
    rw [Token.scanFrom_lexeme feed, Token.scanFrom]
    rfl
  rw [parse_of_finish scanned]
  rfl

theorem parse_append_numerals :
    parse 1 ("2;\n" ++ "2;\n") =
        .ok (.program [.number (Spelling.worth "2"), .number (Spelling.worth "2")]) ∧
      ∃ error, parse 1 ("2;\n" ++ "?") = .error (.error error) ∧ error.kind = .lex ∧
        error.line = some 2 := by
  obtain ⟨_, same, goesOn, _⟩ := parse_append parse_numeral_line "2;\n"
  obtain ⟨_, again, read⟩ := goesOn _ parse_numeral_line
  cases same
  cases again
  obtain ⟨_, _, _, fails⟩ := parse_append parse_numeral_line "?"
  have stray : Token.scan isBlank "?" = ⟨[], .stray '?' 1⟩ := Token.scanFrom_stray rfl
  obtain ⟨error, _, found, kind, _, cited, line⟩ := fails _ (parse_of_stray stray 1)
  cases cited
  exact ⟨read, error, found, kind, line⟩

end Descent

end Reckoner
