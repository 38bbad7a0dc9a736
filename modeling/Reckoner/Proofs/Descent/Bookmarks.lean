import Reckoner.Proofs.Descent.Tapes

/-!
Reading by an index. A bookmark is a list of tokens that the end of the input closes, with an index into
it: tokens are seen at offsets from the index, the last one at most, and taking a token moves the index on
by one unless the token ends the input. The reader runs on bookmarks as it does on cursors. `Mirrors` says
that what a step does at a cursor it does at every bookmark that stands there, which it leaves as many
tokens on; it goes through the reader part by part. So an index never passes the first token that ends the
input, and what follows that token does not matter to it.
-/
namespace Reckoner

/-- A list of tokens that the end of the input closes, and an index into it. -/
structure Bookmark where
  tokens : List Token
  index : Nat
  closed : tokens.getLast?.map Token.kind = some .finish

namespace Bookmark

theorem length_pos (mark : Bookmark) : 0 < mark.tokens.length := by
  have closed := mark.closed
  cases tokens : mark.tokens with
  | nil =>
    rw [tokens] at closed
    cases closed
  | cons token rest => exact Nat.succ_pos _

/-- The token at an offset from the index; beyond the last token there is only that token. -/
def seen (mark : Bookmark) (offset : Nat) : Token :=
  have filled := mark.length_pos
  mark.tokens[min (mark.index + offset) (mark.tokens.length - 1)]

/-- The token at an offset from the index, which may lead back. -/
def tokenAt (mark : Bookmark) (offset : Int) : Except Fault Token :=
  Token.seenFrom mark.tokens mark.index offset

/-- At an offset that does not lead back there is always a token. -/
theorem tokenAt_ofNat (mark : Bookmark) (offset : Nat) : mark.tokenAt offset = .ok (mark.seen offset) :=
  Token.seenFrom_ofNat mark.length_pos mark.index offset

/-- The bookmark some tokens on. -/
def on (mark : Bookmark) (count : Nat) : Bookmark := { mark with index := mark.index + count }

instance : TokenPlace Bookmark where
  current mark := mark.seen 0
  following mark := mark.seen 1
  moved mark := if (mark.seen 0).kind = .finish then mark else mark.on 1
  left mark := mark.tokens.drop mark.index

@[simp] theorem on_on (mark : Bookmark) (first second : Nat) :
    (mark.on first).on second = mark.on (first + second) := by
  simp [on, Nat.add_assoc]

/-- A bookmark stands where a cursor does: from the index on there are the words ahead of the cursor and the
    token that ends the input, and behind that one there may be any others. -/
structure Shows (mark : Bookmark) (cursor : Cursor) : Prop where
  ended : cursor.Ended
  split : ∃ rest, mark.tokens.drop mark.index = cursor.ahead ++ cursor.stop :: rest

variable {mark : Bookmark} {cursor : Cursor}

/-- What stands ahead of the cursor, its end included, is seen from the index. -/
theorem Shows.seen (shows : mark.Shows cursor) {offset : Nat} {token : Token}
    (found : (cursor.ahead ++ [cursor.stop])[offset]? = some token) : mark.seen offset = token := by
  obtain ⟨rest, split⟩ := shows.split
  have inside := (List.getElem?_eq_some_iff.1 found).1
  have there : mark.tokens[mark.index + offset]? = some token := by
    rw [← List.getElem?_drop, split, List.append_cons, List.getElem?_append_left inside, found]
  obtain ⟨within, same⟩ := List.getElem?_eq_some_iff.1 there
  have place : min (mark.index + offset) (mark.tokens.length - 1) = mark.index + offset := by omega
  simp only [Bookmark.seen, place, same]

theorem Shows.current (shows : mark.Shows cursor) : mark.seen 0 = cursor.current :=
  shows.seen cursor.current_eq

/-- Behind a word the token that follows it is seen at the next place. -/
theorem Shows.following (shows : mark.Shows cursor) (word : cursor.current.kind ≠ .finish) :
    mark.seen 1 = cursor.following :=
  shows.seen (Cursor.following_eq (shows.ended.length_pos word))

theorem Shows.on (shows : mark.Shows cursor) {passed : List Token} {after : Cursor}
    (passes : cursor.Passes passed after) : (mark.on passed.length).Shows after := by
  obtain ⟨rest, split⟩ := shows.split
  refine ⟨passes.ended shows.ended, rest, ?_⟩
  rw [Bookmark.on, ← List.drop_drop, split, passes.1, passes.2, List.append_assoc, List.drop_left]

/-- Taking a token moves the index on by the tokens that the cursor passes. -/
theorem Shows.moved (shows : mark.Shows cursor) :
    ∃ passed, cursor.Passes passed cursor.moved ∧ TokenPlace.moved mark = mark.on passed.length := by
  have moved : TokenPlace.moved mark = if cursor.current.kind = .finish then mark else mark.on 1 := by
    rw [← shows.current]
    rfl
  by_cases ends : cursor.current.kind = .finish
  · refine ⟨[], ?_, by rw [moved, if_pos ends]; rfl⟩
    rw [shows.ended.moved_of_finish ends]
    exact .refl cursor
  · exact ⟨[cursor.current], shows.ended.passes_moved ends, by rw [moved, if_neg ends]; rfl⟩

/-- A loop that takes a token in every round has enough of them. -/
theorem Shows.left (shows : mark.Shows cursor) :
    cursor.ahead.length < (TokenPlace.left mark).length := by
  obtain ⟨rest, split⟩ := shows.split
  have left : TokenPlace.left mark = cursor.ahead ++ cursor.stop :: rest := split
  rw [left, List.length_append, List.length_cons]
  omega

end Bookmark

namespace Reading

/-- What a step does at a cursor, its twin does at every bookmark that stands there: it ends with the same
    result or fault, as many tokens on. -/
def Mirrors {α : Type} (twin : EStateM Fault Bookmark α) (step : Reading α) (cursor : Cursor) : Prop :=
  ∀ mark : Bookmark, mark.Shows cursor → Spans step cursor
    (fun passed value => twin mark = .ok value (mark.on passed.length))
    fun passed _ fault => twin mark = .error fault (mark.on passed.length)

/-- A step is mirrored at every cursor before words. -/
def Mirrored {α : Type} (twin : EStateM Fault Bookmark α) (step : Reading α) : Prop :=
  ∀ cursor : Cursor, cursor.Ended → Mirrors twin step cursor

section
variable {α β : Type} {cursor : Cursor} {twin : EStateM Fault Bookmark α} {step : Reading α}
  {nextTwin : α → EStateM Fault Bookmark β} {next : α → Reading β}

theorem Mirrors.bind (first : Mirrors twin step cursor)
    (more : ∀ value passed after, cursor.Passes passed after → after.Ended →
      Mirrors (nextTwin value) (next value) after) :
    Mirrors (twin >>= nextTwin) (step >>= next) cursor := by
  intro mark shows
  refine Spans.bind shows.ended ((first mark shows).imp (fun _ _ same => same)
    fun _ _ _ same => bind_of_error same) ?_
  intro value passed after passes ended same
  refine (more value passed after passes ended (mark.on passed.length) (shows.on passes)).imp ?_ ?_
  · intro words result goesOn
    rw [bind_of_ok same, goesOn, Bookmark.on_on, List.length_append]
  · intro words current fault stops
    rw [bind_of_ok same, stops, Bookmark.on_on, List.length_append]

theorem Mirrored.bind (first : Mirrored twin step)
    (more : ∀ value, Mirrored (nextTwin value) (next value)) :
    Mirrored (twin >>= nextTwin) (step >>= next) :=
  fun cursor ended => (first cursor ended).bind fun value _ after _ => more value after

theorem Mirrored.map (mirrored : Mirrored twin step) (change : α → β) :
    Mirrored (change <$> twin) (change <$> step) := by
  rw [map_eq_pure_bind, map_eq_pure_bind]
  exact mirrored.bind fun value _ _ mark _ => spans_pure rfl

theorem mirrors_pure (value : α) : Mirrors (pure value) (pure value) cursor :=
  fun _ _ => spans_pure rfl

theorem mirrors_throw (fault : Fault) :
    Mirrors (throw fault : EStateM Fault Bookmark α) (throw fault) cursor :=
  fun _ _ => spans_throw rfl

theorem mirrors_complain (complaint : Complaint) (line : Option Int) :
    Mirrors (complain complaint line : EStateM Fault Bookmark α) (complain complaint line) cursor :=
  mirrors_throw _

end

section
variable {α : Type} {cursor : Cursor}

theorem mirrors_peek_bind {nextTwin : Token → EStateM Fault Bookmark α} {next : Token → Reading α}
    (mirrors : Mirrors (nextTwin cursor.current) (next cursor.current) cursor) :
    Mirrors (peek >>= nextTwin) (peek >>= next) cursor := by
  intro mark shows
  have same : (peek >>= nextTwin) mark = nextTwin (mark.seen 0) mark := rfl
  rw [same, shows.current]
  exact mirrors mark shows

theorem mirrors_peekNext_bind {nextTwin : Token → EStateM Fault Bookmark α} {next : Token → Reading α}
    (word : cursor.current.kind ≠ .finish)
    (mirrors : Mirrors (nextTwin cursor.following) (next cursor.following) cursor) :
    Mirrors (peekNext >>= nextTwin) (peekNext >>= next) cursor := by
  intro mark shows
  have same : (peekNext >>= nextTwin) mark = nextTwin (mark.seen 1) mark := rfl
  rw [same, shows.following word]
  exact mirrors mark shows

theorem mirrors_sees_bind {kind : Token.Kind} {nextTwin : Bool → EStateM Fault Bookmark α}
    {next : Bool → Reading α}
    (mirrors : Mirrors (nextTwin (cursor.current.kind = kind)) (next (cursor.current.kind = kind))
      cursor) :
    Mirrors (sees kind >>= nextTwin) (sees kind >>= next) cursor := by
  intro mark shows
  have same : (sees kind >>= nextTwin) mark = nextTwin ((mark.seen 0).kind = kind) mark := rfl
  rw [same, shows.current]
  exact mirrors mark shows

theorem mirrors_remaining_bind {loopTwin : List Token → EStateM Fault Bookmark α}
    {loop : List Token → Reading α}
    (mirrors : ∀ rounds roundsTwin : List Token, cursor.ahead.length < rounds.length →
      cursor.ahead.length < roundsTwin.length → Mirrors (loopTwin roundsTwin) (loop rounds) cursor) :
    Mirrors (remaining >>= loopTwin) (remaining >>= loop) cursor :=
  fun mark shows =>
    mirrors (cursor.stop :: cursor.ahead) (TokenPlace.left mark) (Nat.lt_succ_self _) shows.left mark shows

theorem mirrored_advance : Mirrored advance advance := by
  intro cursor _ mark shows
  obtain ⟨passed, passes, moved⟩ := shows.moved
  have same : advance mark = .ok (mark.seen 0) (TokenPlace.moved mark) := rfl
  refine ⟨passed, passes, ?_⟩
  rw [same, shows.current, moved]
  rfl

/-- Behind a word there are fewer tokens ahead. -/
theorem mirrors_advance_bind (ended : cursor.Ended) (word : cursor.current.kind ≠ .finish)
    {nextTwin : Token → EStateM Fault Bookmark α} {next : Token → Reading α}
    (more : cursor.moved.Ended → cursor.moved.ahead.length + 1 = cursor.ahead.length →
      Mirrors (nextTwin cursor.current) (next cursor.current) cursor.moved) :
    Mirrors (advance >>= nextTwin) (advance >>= next) cursor := by
  have passes := ended.passes_moved word
  intro mark shows
  have there := shows.on passes
  have moved : TokenPlace.moved mark = mark.on 1 := if_neg (shows.current ▸ word)
  have same : (advance >>= nextTwin) mark = nextTwin (mark.seen 0) (TokenPlace.moved mark) := rfl
  rw [same, shows.current, moved]
  have along (passed : List Token) :
      (mark.on 1).on passed.length = mark.on ([cursor.current] ++ passed).length := by
    rw [Bookmark.on_on, List.length_append, List.length_singleton]
  have shorter := passes.length
  refine Ends.imp (more there.ended (by simp at shorter; omega) _ there) ?_ ?_
  · rintro value after ⟨passed, further, goesOn⟩
    exact ⟨_, passes.trans further, goesOn.trans (congrArg _ (along passed))⟩
  · rintro fault after ⟨passed, further, stops⟩
    exact ⟨_, passes.trans further, stops.trans (congrArg _ (along passed))⟩

theorem mirrors_advance_pure (ended : cursor.Ended) (result : α) :
    Mirrors (advance >>= fun _ => pure result) (advance >>= fun _ => pure result) cursor :=
  (mirrored_advance cursor ended).bind fun _ _ _ _ _ => mirrors_pure result

theorem mirrored_sees (kind : Token.Kind) : Mirrored (sees kind) (sees kind) :=
  fun _ _ => mirrors_peek_bind (mirrors_pure _)

theorem mirrored_consume (kind : Token.Kind) (complaint : Found → Complaint) :
    Mirrored (consume kind complaint) (consume kind complaint) := by
  intro cursor ended
  refine mirrors_peek_bind ?_
  split
  · exact mirrored_advance cursor ended
  · exact mirrors_complain _ _

theorem mirrored_consumeOr (kind : Token.Kind) (text : String) :
    Mirrored (consumeOr kind text) (consumeOr kind text) := by
  intro cursor ended
  refine mirrors_peek_bind ?_
  split
  · exact mirrored_advance cursor ended
  · exact mirrors_throw _

end

end Reading

namespace Descent
open Reckoner.Reading

section
variable {twin : EStateM Fault Bookmark Node} {inner : Reading Node} (inside : Mirrored twin inner)
include inside

/-- A chain is mirrored for any rounds that are enough: each takes an operator. -/
theorem mirrors_chain {operator? : Token.Kind → Option Operator} (finish : operator? .finish = none)
    {rounds roundsTwin : List Token} {cursor : Cursor} (ended : cursor.Ended)
    (enough : cursor.ahead.length < rounds.length)
    (enoughTwin : cursor.ahead.length < roundsTwin.length) (left : Node) :
    Mirrors (chain operator? twin roundsTwin left) (chain operator? inner rounds left) cursor := by
  induction rounds generalizing roundsTwin cursor left with
  | nil => exact absurd enough (Nat.not_lt_zero _)
  | cons round rounds ih =>
    cases roundsTwin with
    | nil => exact absurd enoughTwin (Nat.not_lt_zero _)
    | cons roundTwin roundsTwin =>
      rw [List.length_cons] at enough enoughTwin
      refine mirrors_peek_bind ?_
      cases sign : operator? cursor.current.kind with
      | none => exact mirrors_pure left
      | some operator =>
        have word : cursor.current.kind ≠ .finish := by
          intro finished
          rw [finished, finish] at sign
          cases sign
        refine mirrors_advance_bind ended word fun endedMoved shorter => ?_
        refine (inside _ endedMoved).bind fun right passed after passes endedAfter => ?_
        have fewer := passes.length
        exact ih endedAfter (by omega) (by omega) _

theorem mirrors_arguments (function : Spelling) (line : Option Int) {rounds roundsTwin : List Token}
    {cursor : Cursor} (ended : cursor.Ended) (enough : cursor.ahead.length < rounds.length)
    (enoughTwin : cursor.ahead.length < roundsTwin.length) :
    Mirrors (arguments twin function line roundsTwin) (arguments inner function line rounds) cursor := by
  induction rounds generalizing roundsTwin cursor with
  | nil => exact absurd enough (Nat.not_lt_zero _)
  | cons round rounds ih =>
    cases roundsTwin with
    | nil => exact absurd enoughTwin (Nat.not_lt_zero _)
    | cons roundTwin roundsTwin =>
      rw [List.length_cons] at enough enoughTwin
      refine (inside cursor ended).bind fun first passed middle passes endedMiddle => ?_
      have fewer := passes.length
      refine mirrors_peek_bind ?_
      cases sort : middle.current.kind with
      | comma =>
        refine mirrors_advance_bind endedMiddle (by simp [sort]) fun endedMoved shorter => ?_
        refine Mirrors.bind (ih endedMoved (by omega) (by omega)) fun others _ _ _ _ => ?_
        exact mirrors_pure _
      | closing =>
        exact mirrors_advance_pure endedMiddle _
      | _ => exact mirrors_complain _ _

theorem mirrored_callWith : Mirrored (callWith twin) (callWith inner) := by
  refine (mirrored_consume _ _).bind fun name => (mirrored_consume _ _).bind fun paren => ?_
  intro cursor ended
  refine mirrors_sees_bind ?_
  split
  · exact mirrors_advance_pure ended _
  · refine mirrors_remaining_bind fun rounds roundsTwin enough enoughTwin => ?_
    exact (mirrors_arguments inside _ _ ended enough enoughTwin).bind fun _ _ _ _ _ => mirrors_pure _

omit inside in
theorem mirrors_numeral (token : Token) (cursor : Cursor) :
    Mirrors (numeral token) (numeral token) cursor := by
  unfold numeral
  split
  · exact mirrors_pure _
  · exact mirrors_throw _

theorem mirrored_factorWith : Mirrored (factorWith twin) (factorWith inner) := by
  intro cursor ended
  refine mirrors_peek_bind ?_
  cases sort : cursor.current.kind with
  | opening =>
    refine (mirrored_advance cursor ended).bind fun _ _ middle _ endedMiddle => ?_
    refine (inside middle endedMiddle).bind fun node _ last _ endedLast => mirrors_sees_bind ?_
    split
    · exact mirrors_advance_pure endedLast _
    · exact mirrors_complain _ _
  | name =>
    refine mirrors_peekNext_bind (by simp [sort]) ?_
    split
    · exact mirrored_callWith inside cursor ended
    · exact mirrors_advance_pure ended _
  | number => exact (mirrored_advance cursor ended).bind fun _ _ after _ _ => mirrors_numeral _ after
  | _ => exact mirrors_complain _ _

theorem mirrored_chained {operator? : Token.Kind → Option Operator} (finish : operator? .finish = none) :
    Mirrored (do let first ← twin; chain operator? twin (← remaining) first)
      (do let first ← inner; chain operator? inner (← remaining) first) := by
  refine inside.bind fun first cursor ended => ?_
  exact mirrors_remaining_bind fun rounds roundsTwin enough enoughTwin =>
    mirrors_chain inside finish ended enough enoughTwin first

theorem mirrored_termWith : Mirrored (termWith twin) (termWith inner) :=
  mirrored_chained (mirrored_factorWith inside) rfl

theorem mirrored_expressionWith : Mirrored (expressionWith twin) (expressionWith inner) :=
  mirrored_chained (mirrored_termWith inside) rfl

end

/-- The circle of expressions is closed one level at a time. -/
theorem mirrored_expression (depth : Nat) : Mirrored (expression depth) (expression depth) := by
  induction depth with
  | zero => exact fun _ _ => mirrors_throw _
  | succ depth ih => exact mirrored_expressionWith ih

theorem mirrored_definition (depth : Nat) : Mirrored (definition depth) (definition depth) :=
  (mirrored_consume _ _).bind fun _ => (mirrored_consume _ _).bind fun _ =>
    (mirrored_consume _ _).bind fun _ => (mirrored_expression depth).bind fun _ _ _ => mirrors_pure _

theorem mirrors_parametersFrom (function : Spelling) {rounds roundsTwin : List Token}
    (seen : List Spelling) {cursor : Cursor} (ended : cursor.Ended)
    (enough : cursor.ahead.length < rounds.length)
    (enoughTwin : cursor.ahead.length < roundsTwin.length) :
    Mirrors (parametersFrom function roundsTwin seen) (parametersFrom function rounds seen) cursor := by
  induction rounds generalizing roundsTwin cursor seen with
  | nil => exact absurd enough (Nat.not_lt_zero _)
  | cons round rounds ih =>
    cases roundsTwin with
    | nil => exact absurd enoughTwin (Nat.not_lt_zero _)
    | cons roundTwin roundsTwin =>
      rw [List.length_cons] at enough enoughTwin
      refine (mirrored_consume _ _ cursor ended).bind fun name passed middle passes endedMiddle => ?_
      have fewer := passes.length
      split
      · exact mirrors_complain _ _
      · refine mirrors_sees_bind ?_
        by_cases comma : middle.current.kind = .comma
        · simp only [comma, decide_true, if_true]
          refine mirrors_advance_bind endedMiddle (by simp [comma]) fun endedMoved shorter => ?_
          exact ih _ endedMoved (by omega) (by omega)
        · simp only [comma, decide_false, Bool.false_eq_true, if_false]
          exact (mirrored_consume _ _ middle endedMiddle).bind fun _ _ _ _ _ => mirrors_pure _

theorem mirrored_parameters (function : Spelling) :
    Mirrored (parameters function) (parameters function) := by
  intro cursor ended
  refine mirrors_sees_bind ?_
  split
  · exact mirrors_advance_pure ended _
  · exact mirrors_remaining_bind fun rounds roundsTwin enough enoughTwin =>
      mirrors_parametersFrom function [] ended enough enoughTwin

theorem mirrored_function (depth : Nat) : Mirrored (function depth) (function depth) :=
  (mirrored_consume _ _).bind fun _ => (mirrored_consume _ _).bind fun name =>
    (mirrored_consume _ _).bind fun _ => (mirrored_parameters name.lexeme).bind fun _ =>
      (mirrored_consume _ _).bind fun _ =>
        (mirrored_expression depth).bind fun _ _ _ => mirrors_pure _

theorem mirrored_statementBody (depth : Nat) (kind : Token.Kind) :
    Mirrored (statementBody depth kind) (statementBody depth kind) := by
  cases kind with
  | letWord => exact mirrored_definition depth
  | funcWord => exact mirrored_function depth
  | _ => exact mirrored_expression depth

theorem mirrored_statement (depth : Nat) : Mirrored (statement depth) (statement depth) := by
  intro cursor ended
  refine mirrors_peek_bind ?_
  refine (mirrored_statementBody depth _ cursor ended).bind fun node _ middle _ endedMiddle => ?_
  refine mirrors_peek_bind ?_
  split
  · exact mirrors_advance_pure endedMiddle _
  · exact mirrors_complain _ _

/-- Statements are mirrored for any rounds that are enough: each takes a semicolon at least. -/
theorem mirrors_statements (depth : Nat) {rounds roundsTwin : List Token} {cursor : Cursor}
    (ended : cursor.Ended) (enough : cursor.ahead.length < rounds.length)
    (enoughTwin : cursor.ahead.length < roundsTwin.length) :
    Mirrors (statements depth roundsTwin) (statements depth rounds) cursor := by
  induction rounds generalizing roundsTwin cursor with
  | nil => exact absurd enough (Nat.not_lt_zero _)
  | cons round rounds ih =>
    cases roundsTwin with
    | nil => exact absurd enoughTwin (Nat.not_lt_zero _)
    | cons roundTwin roundsTwin =>
      rw [List.length_cons] at enough enoughTwin
      simp only [statements]
      refine mirrors_peek_bind ?_
      split
      · exact mirrors_pure _
      · rename_i empty
        refine mirrors_advance_bind ended (by simp [empty]) fun endedMoved shorter => ?_
        exact ih endedMoved (by omega) (by omega)
      · -- The semicolon of the statement makes the rest shorter, so the statement is opened up to it.
        simp only [statement, bind_assoc]
        refine mirrors_peek_bind ?_
        refine Mirrors.bind (mirrored_statementBody depth _ cursor ended) ?_
        intro node passed middle passes endedMiddle
        have fewer := passes.length
        refine mirrors_peek_bind ?_
        by_cases ends : middle.current.kind = .semicolon
        · simp only [ends, if_true, bind_assoc, pure_bind]
          refine mirrors_advance_bind endedMiddle (by simp [ends]) fun endedMoved shorter => ?_
          exact (ih endedMoved (by omega) (by omega)).bind fun _ _ _ _ _ => mirrors_pure _
        · simp only [ends, if_false]
          exact mirrors_complain _ _

theorem mirrored_program (depth : Nat) : Mirrored (program depth) (program depth) :=
  fun _ ended => mirrors_remaining_bind fun _ _ enough enoughTwin =>
    (mirrors_statements depth ended enough enoughTwin).bind fun _ _ _ _ _ => mirrors_pure _

/-- The program of a list of tokens is what reading makes of it from the index 0 on. -/
theorem parseTokens_eq_indexed (depth : Nat) {tokens : List Token}
    (closed : tokens.getLast?.map Token.kind = some .finish) :
    parseTokens depth tokens =
      match program depth (⟨tokens, 0, closed⟩ : Bookmark) with
      | .ok node _ => .ok node
      | .error .depth after => .error (.error (.recursionLimit .nesting (after.seen 0).line))
      | .error fault _ => .error fault := by
  obtain ⟨tape, starts⟩ := TokenTape.exists_ofTokens closed
  obtain ⟨made, rfl⟩ := TokenTape.ofTokens_eq_ok starts
  have stands := TokenTape.stands_ofTokens starts
  have shows : Bookmark.Shows ⟨tape.tokens, 0, closed⟩ tape.cursor := ⟨stands.ended, stands.split⟩
  have mirrors := mirrored_program depth tape.cursor stands.ended _ shows
  unfold parseTokens
  rw [made]
  simp only [bind, Except.bind, EStateM.run]
  cases outcome : program depth tape.cursor with
  | ok node after =>
    obtain ⟨passed, _, same⟩ := mirrors.of_ok outcome
    rw [same]
    rfl
  | error fault after =>
    obtain ⟨passed, passes, same⟩ := mirrors.of_error outcome
    rw [same]
    cases fault with
    | depth =>
      simp only [(shows.on passes).current]
      rfl
    | _ => rfl

end Descent

end Reckoner
