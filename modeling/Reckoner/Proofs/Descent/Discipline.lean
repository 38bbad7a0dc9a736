import Reckoner.Proofs.Descent.Bookmarks
import Reckoner.Proofs.Descent.Loops

/-!
The discipline of the cursor. A caller may ask a tape for any methods of the reader, in any order and after
any faults. Wherever they leave it, the tape stands at a place of its tokens that is not behind the first
one that ends the input; no method moves it back, and those that read something move it on. An index into
the tokens follows it from call to call.
-/
namespace Reckoner

namespace Cursor

theorem parts_of_ofTokens {tokens : List Token} {cursor : Cursor}
    (starts : ofTokens tokens = .ok cursor) :
    cursor.ahead = tokens.takeWhile isWord ∧
      (tokens.dropWhile isWord).head? = some cursor.stop := by
  unfold ofTokens at starts
  split at starts
  · split at starts
    · rename_i found
      cases starts
      exact ⟨rfl, by rw [found, List.head?_cons]⟩
    · cases starts
  · cases starts

section
variable {words : List Token} {stop : Token} (finish : stop.kind = .finish) (rest : List Token)
include finish

/-- What stands behind a token that ends the input is no word ahead. -/
theorem takeWhile_finish : (words ++ stop :: rest).takeWhile isWord = words.takeWhile isWord := by
  have none : (stop :: rest).takeWhile isWord = [] := by simp [isWord, finish]
  rw [List.takeWhile_append, none, List.append_nil]
  split
  · rename_i whole
    exact ((List.takeWhile_prefix _).eq_of_length whole).symm
  · rfl

theorem head?_dropWhile_finish :
    ((words ++ stop :: rest).dropWhile isWord).head? = (words.dropWhile isWord).head?.or (some stop) := by
  have first : (stop :: rest).dropWhile isWord = stop :: rest := by simp [isWord, finish]
  rw [List.dropWhile_append, first]
  cases words.dropWhile isWord <;> rfl

end

end Cursor

namespace TokenTape

variable {tape : TokenTape} {passed : List Token}

/-- The place is at most that of the first token that ends the input. -/
theorem Stands.position_le (stands : tape.Stands passed) :
    tape.position ≤ tape.tokens.findIdx fun token => token.kind = .finish := by
  obtain ⟨rest, split⟩ := stands.split
  have early : passed.findIdx (fun token => token.kind = .finish) = passed.length := by
    rw [List.findIdx_eq_length]
    simpa using stands.words
  rw [stands.position, split, List.findIdx_append, early, if_neg (Nat.lt_irrefl _)]
  omega

/-- From the place on every token can be seen, and behind the last one only that. -/
theorem Stands.tokenAt (stands : tape.Stands passed) (offset : Nat) :
    ∃ token, tape.tokenAt offset = .ok token ∧
      tape.tokens[min (tape.position + offset) (tape.tokens.length - 1)]? = some token := by
  obtain ⟨inside, _⟩ := List.getElem?_eq_some_iff.1 stands.getElem?
  exact ⟨_, Token.seenFrom_ofNat (by omega) _ _, List.getElem?_eq_getElem _⟩

/-- The token at the cursor is the one that is seen at the place. -/
theorem Stands.tokenAt_zero (stands : tape.Stands passed) :
    tape.tokenAt 0 = .ok tape.cursor.current := by
  obtain ⟨token, seen, here⟩ := stands.tokenAt 0
  obtain ⟨inside, _⟩ := List.getElem?_eq_some_iff.1 stands.getElem?
  rw [Nat.add_zero, Nat.min_eq_left (by omega), stands.getElem?] at here
  cases here
  exact seen

/-- Behind a word the token that follows it is the next one that is seen. -/
theorem Stands.tokenAt_one (stands : tape.Stands passed)
    (word : tape.cursor.current.kind ≠ .finish) : tape.tokenAt 1 = .ok tape.cursor.following := by
  obtain ⟨token, seen, next⟩ := stands.tokenAt 1
  have moved := stands.passes (stands.ended.passes_moved word)
  have there := moved.getElem?
  have place : TokenTape.position ⟨tape.tokens, tape.cursor.moved⟩ = tape.position + 1 := by
    rw [moved.position, stands.position, List.length_append, List.length_singleton]
  obtain ⟨inside, _⟩ := List.getElem?_eq_some_iff.1 there
  rw [place] at there inside
  rw [Nat.min_eq_left (by simp only at inside; omega), there] at next
  cases next
  exact seen

end TokenTape

namespace Descent
open Reckoner.Reading

/-- A method of the reader, other than looking at a token. -/
inductive Method where
  | sees (kind : Token.Kind)
  | advance
  | consume (kind : Token.Kind)
  | consumeOr (kind : Token.Kind) (text : String)
  | program
  | statement
  | definition
  | function
  | parameters (function : Spelling)
  | expression
  | term
  | factor
  | call

/-- What a method answers. -/
inductive Answer where
  | truth (value : Bool)
  | token (token : Token)
  | tree (node : Node)
  | names (names : List Spelling)

/-- What a caller asks for: the token at an offset, or a method with a depth for it. -/
inductive Call where
  | peek (offset : Int)
  | method (method : Method) (depth : Nat)

/-- The step of reading that a method takes. -/
def Method.step {σ : Type} [TokenPlace σ] (depth : Nat) : Method → EStateM Fault σ Answer
  | sees kind => .truth <$> Reading.sees kind
  | advance => .token <$> Reading.advance
  | consume kind => .token <$> Reading.consume kind
  | consumeOr kind text => .token <$> Reading.consumeOr kind text
  | program => .tree <$> Descent.program depth
  | statement => .tree <$> Descent.statement depth
  | definition => .tree <$> Descent.definition depth
  | function => .tree <$> Descent.function depth
  | parameters name => .names <$> Descent.parameters name
  | expression => .tree <$> Descent.expression depth
  | term => .tree <$> Descent.term depth
  | factor => .tree <$> Descent.factor depth
  | call => .tree <$> Descent.call depth

/-- How many tokens a method passes at least when it succeeds. -/
def Method.least : Method → Nat
  | sees _ | advance | consume _ | consumeOr _ _ | program => 0
  | statement | definition | function | parameters _ | expression | term | factor | call => 1

/-- The answer to a call, and the tape as the call leaves it. -/
def answer (tape : TokenTape) : Call → Except Fault Answer × TokenTape
  | .peek offset => (.token <$> tape.tokenAt offset, tape)
  | .method method depth => tape.read (method.step depth)

/-- The tape as calls leave it, whatever they answer. -/
def afterCalls (tape : TokenTape) (calls : List Call) : TokenTape :=
  calls.foldl (fun tape call => (answer tape call).2) tape

/-- A step passes at least a number of tokens when it succeeds, and at least `depth` tokens when it
    exceeds the depth. -/
def Moves {α : Type} (step : Reading α) (cursor : Cursor) (least depth : Nat) : Prop :=
  Spans step cursor (fun passed _ => least ≤ passed.length)
    fun passed _ fault => fault = .depth → depth ≤ passed.length

section
variable {α β : Type} {cursor : Cursor} {least depth : Nat}

theorem Moves.map {step : Reading α} (moves : Moves step cursor least depth) (change : α → β) :
    Moves (change <$> step) cursor least depth :=
  (ends_map change step).2 moves

theorem Part.moves {step : Reading α} {bound : Nat} (part : Part step cursor least bound)
    (within : depth ≤ bound) : Moves step cursor least depth := by
  refine Spans.imp part (fun _ _ good => good.2) ?_
  intro passed current fault halts deep
  exact Nat.le_trans within (halts.deep deep)

theorem moves_advance (ended : cursor.Ended) : Moves advance cursor 0 depth := by
  by_cases ends : cursor.current.kind = .finish
  · have stays : TokenPlace.moved cursor = cursor := ended.moved_of_finish ends
    refine ⟨[], ?_, Nat.le_refl 0⟩
    rw [stays]
    exact .refl cursor
  · exact (spans_advance ended ends).imp (fun _ _ _ => Nat.zero_le _) fun _ _ _ bad => bad

theorem moves_consume (ended : cursor.Ended) (kind : Token.Kind) (complaint : Found → Complaint) :
    Moves (consume kind complaint) cursor 0 depth := by
  refine spans_peek_bind ?_
  split
  · exact moves_advance ended
  · exact spans_complain nofun

theorem moves_consumeOr (ended : cursor.Ended) (kind : Token.Kind) (text : String) :
    Moves (consumeOr kind text) cursor 0 depth := by
  refine spans_peek_bind ?_
  split
  · exact moves_advance ended
  · exact spans_throw nofun

/-- Each method moves on by what it passes at least. -/
theorem moves_step (ended : cursor.Ended) (method : Method) :
    Moves (method.step depth) cursor method.least depth := by
  have inside := passer_expression depth
  have halts {passed : List Token} {current : Token} {fault : Fault}
    (halts : Halts depth passed current fault) : fault = .depth → depth ≤ passed.length := halts.deep
  cases method with
  | sees kind => exact Moves.map (spans_sees_bind (spans_pure (Nat.zero_le _))) _
  | advance => exact (moves_advance ended).map _
  | consume kind => exact (moves_consume ended kind _).map _
  | consumeOr kind text => exact (moves_consumeOr ended kind text).map _
  | program =>
    exact Moves.map ((spans_program ended depth).imp (fun _ _ _ => Nat.zero_le _)
      fun _ _ _ => halts) _
  | statement =>
    exact Moves.map ((spans_statement ended depth).imp
      (fun _ _ good => List.length_pos_iff.2 good.2) fun _ _ _ => halts) _
  | definition => exact ((part_definition ended depth).moves (Nat.le_refl depth)).map _
  | function => exact ((part_function ended depth).moves (Nat.le_refl depth)).map _
  | parameters name => exact ((part_parameters ended name depth).moves (Nat.le_refl depth)).map _
  | expression => exact ((inside.part ended).moves (Nat.le_refl depth)).map _
  | term => exact (((passer_termWith inside).part ended).moves (Nat.le_succ depth)).map _
  | factor => exact (((passer_factorWith inside).part ended).moves (Nat.le_succ depth)).map _
  | call => exact (((passer_callWith inside).part ended).moves (Nat.le_succ depth)).map _

end

/-- Where a method leaves the tape, and how many tokens behind the place that is. -/
theorem stands_method {tape : TokenTape} {passed : List Token} (stands : tape.Stands passed)
    (method : Method) (depth : Nat) :
    ∃ more, (answer tape (.method method depth)).2.Stands (passed ++ more) ∧
      (∀ result, (answer tape (.method method depth)).1 = .ok result → method.least ≤ more.length) ∧
      ((answer tape (.method method depth)).1 = .error .depth → depth ≤ more.length) := by
  have moves : Moves (method.step depth) tape.cursor method.least depth := moves_step stands.ended method
  have asked : answer tape (.method method depth) = tape.read (method.step depth) := rfl
  rw [asked]
  cases outcome : method.step depth tape.cursor with
  | ok result after =>
    obtain ⟨more, passes, enough⟩ := moves.of_ok outcome
    rw [TokenTape.read_of_ok outcome]
    exact ⟨more, stands.passes passes, fun _ _ => enough, nofun⟩
  | error fault after =>
    obtain ⟨more, passes, deep⟩ := moves.of_error outcome
    rw [TokenTape.read_of_error outcome]
    exact ⟨more, stands.passes passes, nofun, fun same => deep (Except.error.inj same)⟩

theorem stands_answer {tape : TokenTape} {passed : List Token} (stands : tape.Stands passed)
    (call : Call) : ∃ more, (answer tape call).2.Stands (passed ++ more) := by
  cases call with
  | peek offset => exact ⟨[], by rwa [List.append_nil]⟩
  | method method depth =>
    obtain ⟨more, after, _⟩ := stands_method stands method depth
    exact ⟨more, after⟩

theorem stands_afterCalls {tape : TokenTape} {passed : List Token} (stands : tape.Stands passed)
    (calls : List Call) : ∃ more, (afterCalls tape calls).Stands (passed ++ more) := by
  induction calls generalizing tape passed with
  | nil => exact ⟨[], by rwa [List.append_nil]⟩
  | cons call calls ih =>
    obtain ⟨first, after⟩ := stands_answer stands call
    obtain ⟨others, last⟩ := ih after
    exact ⟨first ++ others, by rwa [← List.append_assoc]⟩

theorem stands_advance {tape : TokenTape} {passed : List Token} (stands : tape.Stands passed)
    (depth : Nat) : (answer tape (.method .advance depth)).2.position =
      tape.position + if tape.cursor.current.kind = .finish then 0 else 1 := by
  have asked : (answer tape (.method .advance depth)).2 = { tape with cursor := tape.cursor.moved } := rfl
  rw [asked]
  by_cases ends : tape.cursor.current.kind = .finish
  · rw [if_pos ends, stands.ended.moved_of_finish ends]
    rfl
  · have moved := stands.passes (stands.ended.passes_moved ends)
    rw [if_neg ends, moved.position, stands.position, List.length_append, List.length_singleton]

/-- What a caller can rely on where earlier calls have left a tape. -/
structure Disciplined (tape : TokenTape) : Prop where
  /-- The place is not behind that of the first token that ends the input. -/
  within : tape.position ≤ tape.tokens.findIdx fun token => token.kind = .finish
  /-- The token at the cursor is the one at the place. -/
  current : tape.tokenAt 0 = .ok tape.cursor.current
  /-- The token behind a word is the one at the next place. -/
  following : tape.cursor.current.kind ≠ .finish → tape.tokenAt 1 = .ok tape.cursor.following
  /-- A token is seen at every offset that does not lead back. -/
  seen : ∀ offset : Int, 0 ≤ offset → ∃ token, tape.tokenAt offset = .ok token
  /-- Taking a token moves on by one place, and at the end of the input by none. -/
  advances : ∀ depth, (answer tape (.method .advance depth)).2.position =
    tape.position + if tape.cursor.current.kind = .finish then 0 else 1
  /-- No call moves back. -/
  forward : ∀ call, tape.position ≤ (answer tape call).2.position
  /-- A method that succeeds moves on by the tokens that it passes at least. -/
  onward : ∀ method depth result, (answer tape (.method method depth)).1 = .ok result →
    tape.position + method.least ≤ (answer tape (.method method depth)).2.position
  /-- An expression is nested as deep as a depth only where as many tokens are passed. -/
  deep : ∀ method depth, (answer tape (.method method depth)).1 = .error .depth →
    tape.position + depth ≤ (answer tape (.method method depth)).2.position
  /-- The loops end from here and from every place further on. -/
  loops : ∀ passed cursor depth, tape.cursor.Passes passed cursor → LoopsEnd depth cursor

theorem disciplined_of_stands {tape : TokenTape} {passed : List Token} (stands : tape.Stands passed) :
    Disciplined tape := by
  constructor
  · exact stands.position_le
  · exact stands.tokenAt_zero
  · exact stands.tokenAt_one
  · intro offset positive
    obtain ⟨count, rfl⟩ := Int.eq_ofNat_of_zero_le positive
    obtain ⟨token, seen, _⟩ := stands.tokenAt count
    exact ⟨token, seen⟩
  · exact stands_advance stands
  · intro call
    obtain ⟨more, after⟩ := stands_answer stands call
    rw [after.position, stands.position, List.length_append]
    omega
  · intro method depth result succeeds
    obtain ⟨more, after, enough, _⟩ := stands_method stands method depth
    have least := enough result succeeds
    rw [after.position, stands.position, List.length_append]
    omega
  · intro method depth exceeded
    obtain ⟨more, after, _, far⟩ := stands_method stands method depth
    have tokens := far exceeded
    rw [after.position, stands.position, List.length_append]
    omega
  · intro passed cursor depth passes
    exact loopsEnd (passes.ended stands.ended) depth

/-- Tapes that differ at most behind the first token that ends the input. -/
structure Twins (tape twin : TokenTape) : Prop where
  cursor : twin.cursor = tape.cursor
  words : twin.tokens.takeWhile Cursor.isWord = tape.tokens.takeWhile Cursor.isWord

theorem twins_ofTokens {words rest others : List Token} {stop : Token} (finish : stop.kind = .finish)
    {tape twin : TokenTape} (starts : TokenTape.ofTokens (words ++ stop :: rest) = .ok tape)
    (startsTwin : TokenTape.ofTokens (words ++ stop :: others) = .ok twin) : Twins tape twin := by
  obtain ⟨made, same⟩ := TokenTape.ofTokens_eq_ok starts
  obtain ⟨madeTwin, sameTwin⟩ := TokenTape.ofTokens_eq_ok startsTwin
  obtain ⟨ahead, stops⟩ := Cursor.parts_of_ofTokens made
  obtain ⟨aheadTwin, stopsTwin⟩ := Cursor.parts_of_ofTokens madeTwin
  rw [Cursor.takeWhile_finish finish] at ahead aheadTwin
  rw [Cursor.head?_dropWhile_finish finish] at stops stopsTwin
  constructor
  · obtain ⟨_, ⟨_, _⟩⟩ := tape
    obtain ⟨_, ⟨_, _⟩⟩ := twin
    cases ahead
    cases aheadTwin
    cases Option.some.inj (stops.symm.trans stopsTwin)
    rfl
  · rw [same, sameTwin, Cursor.takeWhile_finish finish, Cursor.takeWhile_finish finish]

theorem Twins.position {tape twin : TokenTape} (twins : Twins tape twin) :
    twin.position = tape.position := by
  rw [TokenTape.position, TokenTape.position, twins.cursor, twins.words]

theorem Twins.method {tape twin : TokenTape} (twins : Twins tape twin) (method : Method) (depth : Nat) :
    (answer twin (.method method depth)).1 = (answer tape (.method method depth)).1 ∧
      Twins (answer tape (.method method depth)).2 (answer twin (.method method depth)).2 := by
  have asked (tape : TokenTape) :
      answer tape (.method method depth) = tape.read (method.step depth) := rfl
  rw [asked, asked]
  cases outcome : method.step depth tape.cursor with
  | ok result after =>
    rw [TokenTape.read_of_ok outcome, TokenTape.read_of_ok (twins.cursor ▸ outcome)]
    exact ⟨rfl, rfl, twins.words⟩
  | error fault after =>
    rw [TokenTape.read_of_error outcome, TokenTape.read_of_error (twins.cursor ▸ outcome)]
    exact ⟨rfl, rfl, twins.words⟩

theorem Twins.afterCalls {tape twin : TokenTape} (twins : Twins tape twin) (calls : List Call) :
    Twins (afterCalls tape calls) (afterCalls twin calls) := by
  induction calls generalizing tape twin with
  | nil => exact twins
  | cons call calls ih =>
    cases call with
    | peek offset => exact ih twins
    | method method depth => exact ih (twins.method method depth).2

/-- The answer to a call by an index, and the bookmark as the call leaves it. -/
def answerAt (mark : Bookmark) : Call → Except Fault Answer × Bookmark
  | .peek offset => (.token <$> mark.tokenAt offset, mark)
  | .method method depth =>
    match method.step depth mark with
    | .ok result after => (.ok result, after)
    | .error fault after => (.error fault, after)

/-- The bookmark as calls leave it, whatever they answer. -/
def bookmarkAfter (mark : Bookmark) (calls : List Call) : Bookmark :=
  calls.foldl (fun mark call => (answerAt mark call).2) mark

/-- A bookmark of the tokens of a tape, at the place of the tape. -/
structure Marks (mark : Bookmark) (tape : TokenTape) : Prop where
  tokens : mark.tokens = tape.tokens
  index : mark.index = tape.position

theorem Marks.shows {mark : Bookmark} {tape : TokenTape} (marks : Marks mark tape)
    {passed : List Token} (stands : tape.Stands passed) : mark.Shows tape.cursor := by
  obtain ⟨rest, split⟩ := stands.split
  refine ⟨stands.ended, rest, ?_⟩
  rw [marks.tokens, marks.index, stands.position, split, List.drop_left]

theorem mirrored_step (method : Method) (depth : Nat) :
    Mirrored (method.step depth) (method.step depth) := by
  cases method with
  | sees kind => exact (mirrored_sees kind).map _
  | advance => exact mirrored_advance.map _
  | consume kind => exact (mirrored_consume kind _).map _
  | consumeOr kind text => exact (mirrored_consumeOr kind text).map _
  | program => exact (mirrored_program depth).map _
  | statement => exact (mirrored_statement depth).map _
  | definition => exact (mirrored_definition depth).map _
  | function => exact (mirrored_function depth).map _
  | parameters name => exact (mirrored_parameters name).map _
  | expression => exact (mirrored_expression depth).map _
  | term => exact (mirrored_termWith (mirrored_expression _)).map _
  | factor => exact (mirrored_factorWith (mirrored_expression _)).map _
  | call => exact (mirrored_callWith (mirrored_expression _)).map _

/-- A call by the index is answered as one at the cursor, and leaves the bookmark at the same place. -/
theorem Marks.answer {mark : Bookmark} {tape : TokenTape} (marks : Marks mark tape)
    {passed : List Token} (stands : tape.Stands passed) (call : Call) :
    (answerAt mark call).1 = (answer tape call).1 ∧ Marks (answerAt mark call).2 (answer tape call).2 := by
  cases call with
  | peek offset =>
    have seen : mark.tokenAt offset = tape.tokenAt offset := by
      rw [Bookmark.tokenAt, TokenTape.tokenAt, marks.tokens, marks.index]
    exact ⟨congrArg (Answer.token <$> ·) seen, marks⟩
  | method method depth =>
    have mirrors := mirrored_step method depth tape.cursor stands.ended mark (marks.shows stands)
    have asked : Descent.answer tape (.method method depth) = tape.read (method.step depth) := rfl
    have moved {more : List Token} {after : Cursor} (passes : tape.cursor.Passes more after) :
        Marks (mark.on more.length) { tape with cursor := after } := by
      refine ⟨marks.tokens, ?_⟩
      rw [(stands.passes passes).position, List.length_append, ← stands.position, ← marks.index]
      rfl
    rw [asked]
    cases outcome : method.step depth tape.cursor with
    | ok result after =>
      obtain ⟨more, passes, same⟩ := mirrors.of_ok outcome
      rw [TokenTape.read_of_ok outcome, answerAt, same]
      exact ⟨rfl, moved passes⟩
    | error fault after =>
      obtain ⟨more, passes, same⟩ := mirrors.of_error outcome
      rw [TokenTape.read_of_error outcome, answerAt, same]
      exact ⟨rfl, moved passes⟩

theorem Marks.afterCalls {mark : Bookmark} {tape : TokenTape} (marks : Marks mark tape)
    {passed : List Token} (stands : tape.Stands passed) (calls : List Call) :
    Marks (bookmarkAfter mark calls) (afterCalls tape calls) := by
  induction calls generalizing mark tape passed with
  | nil => exact marks
  | cons call calls ih =>
    obtain ⟨more, after⟩ := stands_answer stands call
    exact ih (marks.answer stands call).2 after

theorem tokens_answer (tape : TokenTape) (call : Call) :
    (answer tape call).2.tokens = tape.tokens := by
  cases call with
  | peek offset => rfl
  | method method depth =>
    unfold answer TokenTape.read
    simp only
    split <;> rfl

theorem tokens_afterCalls (tape : TokenTape) (calls : List Call) :
    (afterCalls tape calls).tokens = tape.tokens := by
  induction calls generalizing tape with
  | nil => rfl
  | cons call calls ih => exact (ih (answer tape call).2).trans (tokens_answer tape call)

/-- Wherever calls have left the tape of a list of tokens, it is disciplined, and the same calls by an index
    into the list leave that at the same place, where it answers every call in the same way. So does the
    tape of a list that differs only behind a token that ends the input, with every method. -/
theorem calls_disciplined {tokens : List Token} (ends : tokens.getLast?.map Token.kind = some .finish)
    (calls : List Call) :
    ∃ start, TokenTape.ofTokens tokens = .ok start ∧ (afterCalls start calls).tokens = tokens ∧
      Disciplined (afterCalls start calls) ∧
      ((bookmarkAfter ⟨tokens, 0, ends⟩ calls).index = (afterCalls start calls).position ∧
        ∀ call, (answerAt (bookmarkAfter ⟨tokens, 0, ends⟩ calls) call).1 =
          (answer (afterCalls start calls) call).1) ∧
      ∀ words stop rest others, tokens = words ++ stop :: rest → stop.kind = .finish →
        (words ++ stop :: others).getLast?.map Token.kind = some .finish →
        ∃ twin, TokenTape.ofTokens (words ++ stop :: others) = .ok twin ∧
          (afterCalls twin calls).position = (afterCalls start calls).position ∧
          ∀ method depth, (answer (afterCalls twin calls) (.method method depth)).1 =
            (answer (afterCalls start calls) (.method method depth)).1 := by
  obtain ⟨start, starts⟩ := TokenTape.exists_ofTokens ends
  obtain ⟨made, same⟩ := TokenTape.ofTokens_eq_ok starts
  have first := TokenTape.stands_ofTokens starts
  obtain ⟨passed, stands⟩ := stands_afterCalls first calls
  have marks : Marks (bookmarkAfter ⟨tokens, 0, ends⟩ calls) (afterCalls start calls) :=
    Marks.afterCalls ⟨same.symm, first.position.symm⟩ first calls
  refine ⟨start, starts, (tokens_afterCalls start calls).trans same, disciplined_of_stands stands,
    ⟨marks.index, fun call => (marks.answer stands call).1⟩, ?_⟩
  rintro words stop rest others rfl finish endsOthers
  obtain ⟨twin, startsTwin⟩ := TokenTape.exists_ofTokens endsOthers
  have twins := (twins_ofTokens finish starts startsTwin).afterCalls calls
  exact ⟨twin, startsTwin, twins.position, fun method depth => (twins.method method depth).1⟩

/-- An expression that the end of the input cuts off, with another statement behind that end. -/
theorem calls_disciplined_cut :
    let tokens : List Token := [⟨.name, "x", some 1⟩, ⟨.plus, "+", some 1⟩, Token.finish 1,
      ⟨.name, "y", some 2⟩, ⟨.semicolon, ";", some 2⟩, Token.finish 2]
    let calls : List Call := [.method .expression 3, .peek 7, .method .advance 3]
    ∃ start twin, TokenTape.ofTokens tokens = .ok start ∧ Disciplined (afterCalls start calls) ∧
      (afterCalls start calls).position = 2 ∧
      TokenTape.ofTokens (tokens.take 3) = .ok twin ∧ (afterCalls twin calls).position = 2 := by
  intro tokens calls
  have ends : tokens.getLast?.map Token.kind = some .finish := rfl
  obtain ⟨start, starts, _, disciplined, _, blind⟩ := calls_disciplined ends calls
  obtain ⟨twin, startsTwin, same, _⟩ :=
    blind (tokens.take 2) (Token.finish 1) (tokens.drop 3) [] rfl rfl rfl
  cases starts
  exact ⟨_, twin, rfl, disciplined, rfl, startsTwin, same⟩

end Descent

end Reckoner
