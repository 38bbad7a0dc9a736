import Reckoner.Proofs.Descent.Tapes

/-!
The lines that complaints cite. What the reader passes inside a statement is balanced and holds no
semicolon; by induction on the depth this is so for every expression, however it is nested. So the token
that a reader keeps while it reads on is found again among the tokens before the cursor: the parenthesis
in front of a balanced rest, or the first token of the statement.
-/
namespace Reckoner

/-- Words as they stand inside a statement: balanced, and without a semicolon. -/
structure Token.Inside (words : List Token) : Prop where
  balanced : Token.Balanced words
  unended : ∀ word ∈ words, word.kind ≠ .semicolon

namespace Token

theorem inside_nil : Inside [] := ⟨balanced_nil, nofun⟩

theorem Inside.append {first second : List Token} (one : Inside first) (two : Inside second) :
    Inside (first ++ second) :=
  ⟨one.balanced.append two.balanced, List.forall_mem_append.2 ⟨one.unended, two.unended⟩⟩

/-- A token that is neither a parenthesis nor a semicolon. -/
theorem inside_single {token : Token} (unopened : token.kind ≠ .opening)
    (unclosed : token.kind ≠ .closing) (unended : token.kind ≠ .semicolon) : Inside [token] :=
  ⟨balanced_single unopened unclosed, List.forall_mem_singleton.2 unended⟩

theorem Inside.enclosed {words : List Token} (inside : Inside words) {opening closing : Token}
    (opens : opening.kind = .opening) (closes : closing.kind = .closing) :
    Inside (opening :: (words ++ [closing])) := by
  refine ⟨inside.balanced.enclosed opens closes, ?_⟩
  refine List.forall_mem_cons.2 ⟨by simp [opens], List.forall_mem_append.2 ⟨inside.unended, ?_⟩⟩
  exact List.forall_mem_singleton.2 (by simp [closes])

end Token

namespace Descent
open Reckoner.Reading Reckoner.Token

/-- A reader passes some words as they stand inside a statement, or stops inside it. -/
def Passer (step : Reading Node) (bound : Nat) : Prop :=
  ∀ cursor : Cursor, cursor.Ended →
    Spans step cursor (fun passed _ => Inside passed ∧ passed ≠ []) (HaltsInside bound)

/-- An operator is neither a parenthesis nor a semicolon nor the end of the input. -/
structure Signs (operator? : Token.Kind → Option Operator) : Prop where
  finish : operator? .finish = none
  opening : operator? .opening = none
  closing : operator? .closing = none
  semicolon : operator? .semicolon = none

theorem signs_sum : Signs sumOperator? := ⟨rfl, rfl, rfl, rfl⟩

theorem signs_product : Signs productOperator? := ⟨rfl, rfl, rfl, rfl⟩

theorem Signs.inside {operator? : Token.Kind → Option Operator} (signs : Signs operator?)
    {token : Token} {operator : Operator} (sign : operator? token.kind = some operator) :
    token.kind ≠ .finish ∧ Inside [token] := by
  have differ {kind : Token.Kind} (none : operator? kind = none) : token.kind ≠ kind := by
    rintro rfl
    rw [none] at sign
    cases sign
  exact ⟨differ signs.finish,
    inside_single (differ signs.opening) (differ signs.closing) (differ signs.semicolon)⟩

section
variable {bound : Nat}

theorem spans_chain {operator? : Token.Kind → Option Operator} {operand : Reading Node}
    (signs : Signs operator?) (each : Passer operand bound) (rounds : List Token) (left : Node)
    {cursor : Cursor} (ended : cursor.Ended) :
    Spans (chain operator? operand rounds left) cursor (fun passed _ => Inside passed)
      (HaltsInside bound) := by
  induction rounds generalizing left cursor with
  | nil => exact spans_pure inside_nil
  | cons _ rounds ih =>
    refine spans_peek_bind ?_
    cases sign : operator? cursor.current.kind with
    | none => exact spans_pure inside_nil
    | some operator =>
      obtain ⟨word, insideSign⟩ := signs.inside sign
      refine (spans_advance ended word).bind ended ?_
      rintro _ _ middle _ endedMiddle ⟨rfl, rfl⟩
      refine Spans.bind endedMiddle ((each middle endedMiddle).imp (fun _ _ good => good) ?_) ?_
      · exact fun _ _ _ halts => halts.front _ (Nat.le_add_right _ _)
      rintro right words after _ endedAfter ⟨insideWords, _⟩
      refine (ih (.binary operator left right) endedAfter).imp ?_ ?_
      · exact fun _ _ insideRest => insideSign.append (insideWords.append insideRest)
      · rintro passed current fault halts
        rw [← List.append_assoc]
        exact halts.front _ (Nat.le_add_right _ _)

variable {inner : Reading Node} (inside : Passer inner bound)
include inside

/-- Behind an opening parenthesis and the arguments `before`, further arguments and the closing
    parenthesis are passed; where that is missing, the opening one is not closed. -/
theorem spans_arguments (function : Spelling) {opening : Token} (opens : opening.kind = .opening)
    (rounds : List Token) {before : List Token} (insideBefore : Inside before) {cursor : Cursor}
    (ended : cursor.Ended) :
    Spans (arguments inner function opening.line rounds) cursor
      (fun passed _ => ∃ words closing, passed = words ++ [closing] ∧ closing.kind = .closing ∧
        Inside words)
      (fun passed => HaltsInside (bound + 1) (opening :: (before ++ passed))) := by
  induction rounds generalizing before cursor with
  | nil =>
    refine spans_complain (haltsInside_complaint nofun ⟨[], opening, before ++ [], rfl, ?_, rfl⟩)
    rw [List.append_nil]
    exact insideBefore.balanced.encloses opens
  | cons _ rounds ih =>
    refine Spans.bind ended ((inside cursor ended).imp (fun _ _ good => good) ?_) ?_
    · rintro passed current fault halts
      refine halts.front (opening :: before) ?_
      simp
    rintro first words middle _ endedMiddle ⟨insideWords, _⟩
    have insideMore := insideBefore.append insideWords
    have unmatched : HaltsInside (bound + 1) (opening :: (before ++ (words ++ []))) middle.current
        (.error (.parse (.unmatchedCall function) opening.line)) := by
      refine haltsInside_complaint nofun ⟨[], opening, before ++ words, by simp, ?_, rfl⟩
      exact insideMore.balanced.encloses opens
    refine spans_peek_bind ?_
    split
    · rename_i comma
      have separator : Inside [middle.current] :=
        inside_single (by simp [comma]) (by simp [comma]) (by simp [comma])
      refine (spans_advance endedMiddle (by simp [comma])).bind endedMiddle ?_
      rintro _ _ after _ endedAfter ⟨rfl, rfl⟩
      refine Spans.bind endedAfter ((ih (insideMore.append separator) endedAfter).imp
        (fun _ _ good => good) ?_) ?_
      · rintro passed current fault halts
        simpa using halts
      rintro _ _ last _ _ ⟨others, closing, rfl, closes, insideOthers⟩
      refine spans_pure ⟨words ++ middle.current :: others, closing, by simp, closes, ?_⟩
      exact insideWords.append (separator.append insideOthers)
    · rename_i closes
      refine (spans_advance endedMiddle (by simp [closes])).bind endedMiddle ?_
      rintro _ _ after _ _ ⟨rfl, rfl⟩
      exact spans_pure ⟨words, middle.current, by simp, closes, insideWords⟩
    · exact spans_complain unmatched
    · exact spans_complain unmatched
    · exact spans_complain (haltsInside_complaint nofun rfl)

theorem passer_callWith : Passer (callWith inner) (bound + 1) := by
  intro cursor ended
  refine Spans.bind ended (spans_consume ended (by simp) (haltsInside_complaint nofun rfl)) ?_
  rintro name _ first _ endedFirst ⟨rfl, named⟩
  have insideName : Inside [name] := inside_single (by simp [named]) (by simp [named]) (by simp [named])
  refine Spans.bind endedFirst (spans_consume endedFirst (by simp) (haltsInside_complaint nofun rfl)) ?_
  rintro opening _ second _ endedSecond ⟨rfl, opens⟩
  refine spans_sees_bind ?_
  by_cases closes : second.current.kind = .closing
  · simp only [closes, decide_true, if_true]
    refine (spans_advance endedSecond (by simp [closes])).bind endedSecond ?_
    rintro _ _ after _ _ ⟨rfl, rfl⟩
    exact spans_pure ⟨insideName.append (inside_nil.enclosed opens closes), by simp⟩
  · simp only [closes, decide_false, Bool.false_eq_true, if_false]
    refine spans_remaining_bind (Spans.bind endedSecond
      ((spans_arguments inside name.lexeme opens _ inside_nil endedSecond).imp
        (fun _ _ good => good) ?_) ?_)
    · rintro passed current fault halts
      exact halts.front [name] (Nat.le_add_right _ _)
    rintro _ _ after _ _ ⟨words, closing, rfl, closed, insideWords⟩
    refine spans_pure ⟨?_, by simp⟩
    rw [List.append_nil]
    exact insideName.append (insideWords.enclosed opens closed)

theorem passer_factorWith : Passer (factorWith inner) (bound + 1) := by
  intro cursor ended
  refine spans_peek_bind ?_
  split
  · rename_i opens
    refine (spans_advance ended (by simp [opens])).bind ended ?_
    rintro _ _ first _ endedFirst ⟨rfl, rfl⟩
    refine Spans.bind endedFirst ((inside first endedFirst).imp (fun _ _ good => good) ?_) ?_
    · exact fun _ _ _ halts => halts.front _ (Nat.le_refl _)
    rintro node words second _ endedSecond ⟨insideWords, _⟩
    refine spans_sees_bind ?_
    by_cases closes : second.current.kind = .closing
    · simp only [closes, decide_true, if_true]
      refine (spans_advance endedSecond (by simp [closes])).bind endedSecond ?_
      rintro _ _ after _ _ ⟨rfl, rfl⟩
      refine spans_pure ⟨?_, by simp⟩
      simpa using insideWords.enclosed opens closes
    · simp only [closes, decide_false, Bool.false_eq_true, if_false]
      refine spans_complain (haltsInside_complaint nofun ⟨[], cursor.current, words, by simp, ?_, rfl⟩)
      exact insideWords.balanced.encloses opens
  · rename_i named
    refine spans_peekNext_bind ?_
    split
    · exact passer_callWith inside cursor ended
    · refine (spans_advance ended (by simp [named])).bind ended ?_
      rintro _ _ after _ _ ⟨rfl, rfl⟩
      exact spans_pure ⟨inside_single (by simp [named]) (by simp [named]) (by simp [named]), by simp⟩
  · rename_i number
    refine (spans_advance ended (by simp [number])).bind ended ?_
    rintro _ _ after _ _ ⟨rfl, rfl⟩
    unfold numeral
    split
    · exact spans_pure ⟨inside_single (by simp [number]) (by simp [number]) (by simp [number]), by simp⟩
    · rename_i fault unread
      refine spans_throw ?_
      unfold Spelling.toFloat at unread
      split at unread <;> cases unread
      exact ⟨⟨nofun, nofun⟩, nofun⟩
  · exact spans_complain (haltsInside_complaint nofun rfl)

/-- An operand with the chain behind it. -/
theorem passer_chained {operator? : Token.Kind → Option Operator} (signs : Signs operator?) :
    Passer (do let first ← inner; chain operator? inner (← remaining) first) bound := by
  intro cursor ended
  refine Spans.bind ended (inside cursor ended) ?_
  rintro first words middle _ endedMiddle ⟨insideWords, some⟩
  refine spans_remaining_bind ((spans_chain signs inside _ first endedMiddle).imp ?_ ?_)
  · exact fun _ _ insideRest => ⟨insideWords.append insideRest, by simp [some]⟩
  · exact fun _ _ _ halts => halts.front words (Nat.le_add_right _ _)

theorem passer_termWith : Passer (termWith inner) (bound + 1) :=
  passer_chained (passer_factorWith inside) signs_product

theorem passer_expressionWith : Passer (expressionWith inner) (bound + 1) :=
  passer_chained (passer_termWith inside) signs_sum

end

/-- The circle of expressions is closed one level at a time. -/
theorem passer_expression (depth : Nat) : Passer (expression depth) depth := by
  induction depth with
  | zero => exact fun _ _ => spans_throw ⟨⟨nofun, fun _ => Nat.zero_le _⟩, nofun⟩
  | succ depth ih => exact passer_expressionWith ih

/-- A part of a statement passes at least a number of words, none of which is a semicolon, or stops
    inside the statement. -/
def Part {α : Type} (step : Reading α) (cursor : Cursor) (least bound : Nat) : Prop :=
  Spans step cursor
    (fun passed _ => (∀ word ∈ passed, word.kind ≠ .semicolon) ∧ least ≤ passed.length)
    (HaltsInside bound)

section
variable {α β : Type} {cursor : Cursor} {least bound : Nat}

theorem Part.some {step : Reading α} (part : Part step cursor least bound) :
    Part step cursor 0 bound :=
  part.imp (fun _ _ good => ⟨good.1, Nat.zero_le _⟩) fun _ _ _ halts => halts

/-- A part behind words that were passed. -/
theorem Part.behind {step : Reading α} (part : Part step cursor 0 bound) {passed : List Token}
    (unended : ∀ word ∈ passed, word.kind ≠ .semicolon) (enough : least ≤ passed.length) :
    Spans step cursor
      (fun words _ => (∀ word ∈ passed ++ words, word.kind ≠ .semicolon) ∧
        least ≤ (passed ++ words).length)
      (fun words => HaltsInside bound (passed ++ words)) := by
  refine Spans.imp part ?_ ?_
  · rintro words _ ⟨unendedRest, _⟩
    refine ⟨List.forall_mem_append.2 ⟨unended, unendedRest⟩, ?_⟩
    rw [List.length_append]
    omega
  · exact fun _ _ _ halts => halts.front passed (Nat.le_add_right _ _)

theorem Part.bind {step : Reading α} {next : α → Reading β} (ended : cursor.Ended)
    (first : Part step cursor least bound)
    (more : ∀ value after, after.Ended → Part (next value) after 0 bound) :
    Part (step >>= next) cursor least bound := by
  refine Spans.bind ended first ?_
  rintro value passed after _ endedAfter ⟨unended, enough⟩
  exact (more value after endedAfter).behind unended enough

theorem part_pure (value : α) : Part (pure value) cursor 0 bound :=
  spans_pure ⟨nofun, Nat.le_refl 0⟩

/-- A token of a kind is passed, the lack of which is a complaint about the current token. -/
theorem part_consume_bind (ended : cursor.Ended) (one : least ≤ 1) {kind : Token.Kind}
    (word : kind ≠ .finish) (unended : kind ≠ .semicolon) {complaint : Found → Complaint}
    (other : ∀ found other, complaint found ≠ .unfinished other)
    (cites : ∀ found current, (complaint found).Cites [] current current.line)
    {next : Token → Reading β} (more : ∀ token after, after.Ended → Part (next token) after 0 bound) :
    Part (consume kind complaint >>= next) cursor least bound := by
  refine Spans.bind ended
    (spans_consume ended word (haltsInside_complaint (other _) (cites _ _))) ?_
  rintro token _ after _ endedAfter ⟨rfl, same⟩
  exact (more token after endedAfter).behind (List.forall_mem_singleton.2 (same ▸ unended)) one

theorem part_advance_bind (ended : cursor.Ended) (one : least ≤ 1)
    (word : cursor.current.kind ≠ .finish) (unended : cursor.current.kind ≠ .semicolon)
    {next : Token → Reading β} (more : ∀ token after, after.Ended → Part (next token) after 0 bound) :
    Part (advance >>= next) cursor least bound := by
  refine Spans.bind ended (spans_advance ended word) ?_
  rintro token _ after _ endedAfter ⟨rfl, rfl⟩
  exact (more _ after endedAfter).behind (List.forall_mem_singleton.2 unended) one

theorem Passer.part {step : Reading Node} (passer : Passer step bound) (ended : cursor.Ended) :
    Part step cursor 1 bound := by
  refine (passer cursor ended).imp ?_ fun _ _ _ halts => halts
  rintro passed _ ⟨inside, some⟩
  exact ⟨inside.unended, List.length_pos_iff.2 some⟩

end

section
variable {cursor : Cursor} (ended : cursor.Ended)
include ended

theorem part_definition (depth : Nat) : Part (definition depth) cursor 1 depth := by
  refine part_consume_bind ended (by simp) (by simp) (by simp) (by simp) (by intros; rfl) ?_
  intro _ first ended
  refine part_consume_bind ended (by simp) (by simp) (by simp) (by simp) (by intros; rfl) ?_
  intro name second ended
  refine part_consume_bind ended (by simp) (by simp) (by simp) (by simp) (by intros; rfl) ?_
  intro _ third ended
  exact ((passer_expression depth).part ended).some.bind ended fun _ _ _ => part_pure _

/-- Parameters from the next one on, one of which every round passes; a repeated one is the last token
    before the cursor. -/
theorem part_parametersFrom (function : Spelling) (rounds : List Token) (seen : List Spelling)
    (bound : Nat) :
    Part (parametersFrom function rounds seen) cursor (min 1 rounds.length) bound := by
  induction rounds generalizing seen cursor with
  | nil => exact part_pure seen
  | cons _ rounds ih =>
    refine Spans.bind ended (spans_consume ended (by simp) (haltsInside_complaint nofun rfl)) ?_
    rintro name _ middle _ endedMiddle ⟨rfl, named⟩
    by_cases old : name.lexeme ∈ seen
    · simp only [old, if_true]
      exact spans_complain (haltsInside_complaint nofun ⟨[], name, rfl, rfl, rfl⟩)
    · simp only [old, if_false]
      refine Part.behind (spans_sees_bind ?_) (List.forall_mem_singleton.2 (by simp [named]))
        (Nat.min_le_left _ _)
      by_cases comma : middle.current.kind = .comma
      · simp only [comma, decide_true, if_true]
        refine part_advance_bind endedMiddle (by simp) (by simp [comma]) (by simp [comma]) ?_
        exact fun _ after endedAfter => (ih endedAfter (seen ++ [name.lexeme])).some
      · simp only [comma, decide_false, Bool.false_eq_true, if_false]
        refine part_consume_bind endedMiddle (by simp) (by simp) (by simp) (by simp) (by intros; rfl) ?_
        exact fun _ _ _ => part_pure _

theorem part_parameters (function : Spelling) (bound : Nat) :
    Part (parameters function) cursor 1 bound := by
  refine spans_sees_bind ?_
  by_cases closes : cursor.current.kind = .closing
  · simp only [closes, decide_true, if_true]
    refine part_advance_bind ended (by simp) (by simp [closes]) (by simp [closes]) ?_
    exact fun _ _ _ => part_pure _
  · simp only [closes, decide_false, Bool.false_eq_true, if_false]
    have part := part_parametersFrom ended function (cursor.stop :: cursor.ahead) [] bound
    rw [Nat.min_eq_left (by simp)] at part
    exact spans_remaining_bind part

theorem part_function (depth : Nat) : Part (function depth) cursor 1 depth := by
  refine part_consume_bind ended (by simp) (by simp) (by simp) (by simp) (by intros; rfl) ?_
  intro _ first ended
  refine part_consume_bind ended (by simp) (by simp) (by simp) (by simp) (by intros; rfl) ?_
  intro name second ended
  refine part_consume_bind ended (by simp) (by simp) (by simp) (by simp) (by intros; rfl) ?_
  intro _ third ended
  refine Part.bind ended (part_parameters ended name.lexeme depth).some ?_
  intro names fourth ended
  refine part_consume_bind ended (by simp) (by simp) (by simp) (by simp) (by intros; rfl) ?_
  intro _ fifth ended
  exact ((passer_expression depth).part ended).some.bind ended fun _ _ _ => part_pure _

theorem part_statementBody (depth : Nat) (kind : Token.Kind) :
    Part (statementBody depth kind) cursor 1 depth := by
  unfold statementBody
  split
  · exact part_definition ended depth
  · exact part_function ended depth
  · exact (passer_expression depth).part ended

/-- A statement passes words and its semicolon. Where that is missing, its first token is cited. -/
theorem spans_statement (depth : Nat) :
    Spans (statement depth) cursor (fun passed _ => Token.Finished passed ∧ passed ≠ [])
      (Halts depth) := by
  refine spans_peek_bind ?_
  refine Spans.bind ended (Spans.imp (part_statementBody ended depth cursor.current.kind)
    (fun _ _ good => good) fun _ _ _ halts => halts.toHalts) ?_
  rintro node passed after passes endedAfter ⟨unended, some⟩
  refine spans_peek_bind ?_
  by_cases ends : after.current.kind = .semicolon
  · simp only [ends, if_true]
    refine (spans_advance endedAfter (by simp [ends])).bind endedAfter ?_
    rintro _ _ _ _ _ ⟨rfl, rfl⟩
    exact spans_pure ⟨.inr ⟨passed, after.current, by simp, ends⟩, by simp⟩
  · simp only [ends, if_false]
    refine spans_complain ⟨?_, nofun⟩
    rintro _ ⟨⟩ _
    exact ⟨_, rfl, [], passed, cursor.current, by simp, .inl rfl, unended, passes.head?, rfl⟩

/-- Statements behind whole ones. -/
theorem spans_statements (depth : Nat) (rounds : List Token) :
    Spans (statements depth rounds) cursor (fun _ _ => True) (Halts depth) := by
  induction rounds generalizing cursor with
  | nil => exact spans_pure trivial
  | cons _ rounds ih =>
    refine spans_peek_bind ?_
    split
    · exact spans_pure trivial
    · rename_i ends
      refine (spans_advance ended (by simp [ends])).bind ended ?_
      rintro _ _ after _ endedAfter ⟨rfl, rfl⟩
      refine (ih endedAfter).imp (fun _ _ good => good) fun _ _ _ halts => ?_
      exact halts.behind (.inr ⟨[], cursor.current, rfl, ends⟩)
    · refine Spans.bind ended ((spans_statement ended depth).imp (fun _ _ good => good)
        fun _ _ _ halts => halts) ?_
      rintro first passed after _ endedAfter ⟨finished, _⟩
      refine Spans.bind endedAfter ((ih endedAfter).imp (fun _ _ good => good)
        fun _ _ _ halts => halts.behind finished) ?_
      exact fun _ _ _ _ _ _ => spans_pure trivial

theorem spans_program (depth : Nat) :
    Spans (program depth) cursor (fun _ _ => True) (Halts depth) := by
  refine spans_remaining_bind ?_
  exact Spans.bind ended (spans_statements ended depth _) fun _ _ _ _ _ _ => spans_pure trivial

end

/-- A list of tokens that is read with an error other than that of the depth has a start, from which
    reading ends with it. -/
theorem exists_read_of_parse {tokens : List Token} {depth : Nat} {error : Error}
    (fails : parseTokens depth tokens = .error (.error error)) (sort : error.kind = .parse) :
    ∃ start cursor, TokenTape.ofTokens tokens = .ok start ∧
      program depth start.cursor = .error (.error error) cursor := by
  unfold parseTokens at fails
  rcases bind_eq_error_iff.1 fails with never | ⟨cursor, started, read⟩
  · unfold Cursor.ofTokens at never
    split at never
    · split at never <;> cases never
    · cases never
  · refine ⟨⟨tokens, cursor⟩, ?_⟩
    have starts : TokenTape.ofTokens tokens = .ok ⟨tokens, cursor⟩ := by
      rw [TokenTape.ofTokens, started]
      rfl
    unfold EStateM.run at read
    split at read
    · cases read
    · cases read
      cases sort
    · rename_i outcome
      cases read
      exact ⟨_, starts, outcome⟩

/-- Where reading a list of tokens ends with an error of the parser, this is a complaint, and the line
    that it cites follows from the tokens before the cursor and the one at it. -/
theorem parseTokens_cites {tokens : List Token} {depth : Nat} {error : Error}
    (fails : parseTokens depth tokens = .error (.error error)) (sort : error.kind = .parse) :
    ∃ start after complaint current, TokenTape.ofTokens tokens = .ok start ∧
      start.read (program depth) = (.error (.error error), after) ∧
      tokens[after.position]? = some current ∧ error = .parse complaint error.line ∧
      complaint.Cites (tokens.take after.position) current error.line := by
  obtain ⟨start, cursor, starts, outcome⟩ := exists_read_of_parse fails sort
  have stands := TokenTape.stands_ofTokens starts
  obtain ⟨_, rfl⟩ := TokenTape.ofTokens_eq_ok starts
  obtain ⟨passed, passes, halts⟩ := (spans_program stands.ended depth).of_error outcome
  have reached := stands.passes passes
  rw [List.nil_append] at reached
  obtain ⟨complaint, shape, cites⟩ := halts.cites error rfl sort
  refine ⟨start, _, complaint, cursor.current, starts, TokenTape.read_of_error outcome,
    reached.getElem?, shape, ?_⟩
  rwa [← reached.take] at cites

/-- The second parenthesis is closed and the first one is not; each token is on a line of its own. -/
theorem parseTokens_cites_unmatched :
    let tokens : List Token := [⟨.semicolon, ";", some 1⟩, ⟨.name, "f", some 2⟩,
      ⟨.opening, "(", some 3⟩, ⟨.opening, "(", some 4⟩, ⟨.name, "x", some 5⟩,
      ⟨.closing, ")", some 6⟩, ⟨.semicolon, ";", some 7⟩, Token.finish 8]
    parseTokens 3 tokens = .error (.error (.parse (.unmatchedCall "f") (some 3))) ∧
      ∃ outside opening inside, tokens.take 6 = outside ++ opening :: inside ∧
        opening.Encloses inside ∧ opening.line = some 3 := by
  intro tokens
  have fails : parseTokens 3 tokens = .error (.error (.parse (.unmatchedCall "f") (some 3))) := rfl
  refine ⟨fails, ?_⟩
  obtain ⟨start, after, complaint, current, starts, read, _, shape, cites⟩ :=
    parseTokens_cites fails rfl
  cases starts
  have place : (TokenTape.read _ (program 3)).2.position = after.position :=
    congrArg (fun outcome => outcome.2.position) read
  rw [show 6 = after.position from place]
  cases shape
  obtain ⟨outside, opening, inside, split, encloses, same⟩ := cites
  exact ⟨outside, opening, inside, split, encloses, same.symm⟩

end Descent

end Reckoner
