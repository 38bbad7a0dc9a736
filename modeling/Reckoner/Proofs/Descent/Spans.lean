import Reckoner.Proofs.Descent.Steady
import Reckoner.Proofs.Descent.Takes
import Reckoner.Proofs.Parentheses

/-!
What a step of reading has passed. `Spans` says of a step at a cursor which tokens it has passed when it
succeeds, and which ones when it stops with a fault, and goes through a reading step by step. From the
tokens that were passed follows the line that a complaint cites: `Cites` reads it off them and the token
at the cursor, without any reader.
-/
namespace Reckoner

theorem Cursor.Passes.ended {cursor after : Cursor} {passed : List Token}
    (passes : cursor.Passes passed after) (ended : cursor.Ended) : after.Ended := by
  refine ⟨passes.2 ▸ ended.ends, fun word inside => ended.words word ?_⟩
  rw [passes.1]
  exact List.mem_append_right _ inside

theorem Cursor.Ended.passes_moved {cursor : Cursor} (ended : cursor.Ended)
    (word : cursor.current.kind ≠ .finish) : cursor.Passes [cursor.current] cursor.moved := by
  obtain ⟨ahead, stop⟩ := cursor
  cases ahead with
  | nil => exact absurd ended.ends word
  | cons token rest => exact ⟨rfl, rfl⟩

/-- At the end of the input the cursor stays. -/
theorem Cursor.Ended.moved_of_finish {cursor : Cursor} (ended : cursor.Ended)
    (ends : cursor.current.kind = .finish) : cursor.moved = cursor := by
  obtain ⟨ahead, stop⟩ := cursor
  cases ahead with
  | nil => rfl
  | cons token rest => exact absurd ends (ended.words token List.mem_cons_self)

/-- The first token that was passed is the one at the cursor, or the cursor has not moved. -/
theorem Cursor.Passes.head? {cursor after : Cursor} {passed : List Token}
    (passes : cursor.Passes passed after) : (passed ++ [after.current]).head? = some cursor.current := by
  obtain ⟨split, same⟩ := passes
  obtain ⟨ahead, stop⟩ := cursor
  obtain ⟨behind, last⟩ := after
  cases split
  cases same
  cases passed with
  | nil => rfl
  | cons token rest => rfl

/-- Tokens after which a statement begins: there are none, or a semicolon is the last of them. -/
def Token.Finished (tokens : List Token) : Prop :=
  tokens = [] ∨ ∃ earlier semicolon, tokens = earlier ++ [semicolon] ∧ semicolon.kind = .semicolon

theorem Token.Finished.append {first second : List Token} (one : Token.Finished first)
    (two : Token.Finished second) : Token.Finished (first ++ second) := by
  rcases two with rfl | ⟨earlier, semicolon, rfl, ends⟩
  · rwa [List.append_nil]
  · exact .inr ⟨first ++ earlier, semicolon, by simp, ends⟩

/-- The line that a complaint cites where reading stopped at the token `current` behind the tokens
    `passed`. For a missing semicolon it is that of the token behind the last semicolon, for a parenthesis
    that is not closed that of the innermost such one, for a repeated parameter that of the token before
    the current one, and in all other cases that of the current one. -/
def Complaint.Cites (passed : List Token) (current : Token) : Complaint → Option Int → Prop
  | .unfinished _, line => ∃ earlier statement start, passed = earlier ++ statement ∧
      Token.Finished earlier ∧ (∀ word ∈ statement, word.kind ≠ .semicolon) ∧
      (statement ++ [current]).head? = some start ∧ line = start.line
  | .unmatched, line => ∃ outside opening inside, passed = outside ++ opening :: inside ∧
      opening.Encloses inside ∧ line = opening.line
  | .unmatchedCall _, line => ∃ outside opening inside, passed = outside ++ opening :: inside ∧
      opening.Encloses inside ∧ line = opening.line
  | .duplicate repeated _, line => ∃ earlier name, passed = earlier ++ [name] ∧
      name.lexeme = repeated ∧ line = name.line
  | _, line => line = current.line

/-- Behind whole statements the line is cited as before. -/
theorem Complaint.Cites.behind {passed earlier : List Token} {current : Token} {complaint : Complaint}
    {line : Option Int} (cites : complaint.Cites passed current line)
    (finished : Token.Finished earlier) : complaint.Cites (earlier ++ passed) current line := by
  cases complaint with
  | unfinished found =>
    obtain ⟨before, statement, start, rfl, ends, unended, first, same⟩ := cites
    exact ⟨earlier ++ before, statement, start, by simp, finished.append ends, unended, first, same⟩
  | unmatched =>
    obtain ⟨outside, opening, inside, rfl, encloses, same⟩ := cites
    exact ⟨earlier ++ outside, opening, inside, by simp, encloses, same⟩
  | unmatchedCall function =>
    obtain ⟨outside, opening, inside, rfl, encloses, same⟩ := cites
    exact ⟨earlier ++ outside, opening, inside, by simp, encloses, same⟩
  | duplicate repeated function =>
    obtain ⟨before, name, rfl, repeats, same⟩ := cites
    exact ⟨earlier ++ before, name, by simp, repeats, same⟩
  | _ => exact cites

/-- Behind any tokens the line is cited as before, unless it is that of a statement. -/
theorem Complaint.Cites.front {passed : List Token} {current : Token} {complaint : Complaint}
    {line : Option Int} (cites : complaint.Cites passed current line)
    (other : ∀ found, complaint ≠ .unfinished found) (earlier : List Token) :
    complaint.Cites (earlier ++ passed) current line := by
  cases complaint with
  | unfinished found => exact absurd rfl (other found)
  | unmatched =>
    obtain ⟨outside, opening, inside, rfl, encloses, same⟩ := cites
    exact ⟨earlier ++ outside, opening, inside, by simp, encloses, same⟩
  | unmatchedCall function =>
    obtain ⟨outside, opening, inside, rfl, encloses, same⟩ := cites
    exact ⟨earlier ++ outside, opening, inside, by simp, encloses, same⟩
  | duplicate repeated function =>
    obtain ⟨before, name, rfl, repeats, same⟩ := cites
    exact ⟨earlier ++ before, name, by simp, repeats, same⟩
  | _ => exact cites

namespace Reading

/-- Why reading stops at the token `current` behind the tokens `passed`: a complaint cites its line, and
    an exceeded depth has at least `bound` tokens before it. -/
structure Halts (bound : Nat) (passed : List Token) (current : Token) (fault : Fault) : Prop where
  cites : ∀ error, fault = .error error → error.kind = .parse →
    ∃ complaint, error = .parse complaint error.line ∧ complaint.Cites passed current error.line
  deep : fault = .depth → bound ≤ passed.length

/-- Why reading stops inside a statement, where no semicolon is missing yet. -/
structure HaltsInside (bound : Nat) (passed : List Token) (current : Token) (fault : Fault) : Prop
    extends Halts bound passed current fault where
  other : ∀ found line, fault ≠ .error (.parse (.unfinished found) line)

/-- From a cursor a step passes tokens that are `Good` with its result, or it stops with a fault behind
    tokens that are `Bad` with it and the token behind them. -/
def Spans {α : Type} (step : Reading α) (cursor : Cursor) (Good : List Token → α → Prop)
    (Bad : List Token → Token → Fault → Prop) : Prop :=
  Ends step cursor (fun value after => ∃ passed, cursor.Passes passed after ∧ Good passed value)
    (fun fault after => ∃ passed, cursor.Passes passed after ∧ Bad passed after.current fault)

section
variable {α β : Type} {cursor : Cursor} {Good Weaker : List Token → α → Prop}
  {Last : List Token → β → Prop} {Bad Worse : List Token → Token → Fault → Prop} {bound : Nat}
  {passed : List Token} {current : Token} {fault : Fault}

theorem HaltsInside.front {greater : Nat} (halts : HaltsInside bound passed current fault)
    (earlier : List Token) (within : greater ≤ bound + earlier.length) :
    HaltsInside greater (earlier ++ passed) current fault := by
  refine ⟨⟨fun error same sort => ?_, fun deep => ?_⟩, halts.other⟩
  · obtain ⟨complaint, shape, cites⟩ := halts.cites error same sort
    refine ⟨complaint, shape, cites.front (fun found unfinished => ?_) earlier⟩
    rw [shape, unfinished] at same
    exact halts.other found error.line same
  · have long := halts.deep deep
    rw [List.length_append]
    omega

theorem Halts.behind {earlier : List Token} (halts : Halts bound passed current fault)
    (finished : Token.Finished earlier) : Halts bound (earlier ++ passed) current fault := by
  refine ⟨fun error same sort => ?_, fun deep => ?_⟩
  · obtain ⟨complaint, shape, cites⟩ := halts.cites error same sort
    exact ⟨complaint, shape, cites.behind finished⟩
  have long := halts.deep deep
  rw [List.length_append]
  omega

/-- A complaint other than that of a missing semicolon stops inside a statement. -/
theorem haltsInside_complaint {complaint : Complaint} {line : Option Int}
    (other : ∀ found, complaint ≠ .unfinished found) (cites : complaint.Cites passed current line) :
    HaltsInside bound passed current (.error (.parse complaint line)) := by
  refine ⟨⟨fun _ same _ => ?_, nofun⟩, fun found _ same => ?_⟩
  · cases same
    exact ⟨complaint, rfl, cites⟩
  · cases same
    exact other found rfl

theorem Spans.imp {step : Reading α} (spans : Spans step cursor Good Bad)
    (weaker : ∀ passed value, Good passed value → Weaker passed value)
    (worse : ∀ passed current fault, Bad passed current fault → Worse passed current fault) :
    Spans step cursor Weaker Worse := by
  refine Ends.imp spans ?_ ?_
  · rintro value after ⟨passed, passes, good⟩
    exact ⟨passed, passes, weaker passed value good⟩
  · rintro fault after ⟨passed, passes, bad⟩
    exact ⟨passed, passes, worse passed after.current fault bad⟩

/-- What two steps pass is passed one behind the other. -/
theorem Spans.bind {step : Reading α} {next : α → Reading β} (ended : cursor.Ended)
    (first : Spans step cursor Good Bad)
    (more : ∀ value passed after, cursor.Passes passed after → after.Ended → Good passed value →
      Spans (next value) after (fun words result => Last (passed ++ words) result)
        (fun words => Bad (passed ++ words))) :
    Spans (step >>= next) cursor Last Bad := by
  refine Ends.bind first ?_ fun _ _ stops => stops
  rintro value after ⟨passed, passes, good⟩
  refine Ends.imp (more value passed after passes (passes.ended ended) good) ?_ ?_
  · rintro result last ⟨words, further, made⟩
    exact ⟨passed ++ words, passes.trans further, made⟩
  · rintro fault last ⟨words, further, bad⟩
    exact ⟨passed ++ words, passes.trans further, bad⟩

theorem spans_pure {value : α} (good : Good [] value) : Spans (pure value) cursor Good Bad :=
  ⟨[], .refl cursor, good⟩

theorem spans_throw (bad : Bad [] cursor.current fault) :
    Spans (throw fault : Reading α) cursor Good Bad :=
  ⟨[], .refl cursor, bad⟩

theorem spans_complain {complaint : Complaint} {line : Option Int}
    (bad : Bad [] cursor.current (.error (.parse complaint line))) :
    Spans (complain complaint line) cursor Good Bad := spans_throw bad

theorem spans_peek_bind {next : Token → Reading α}
    (spans : Spans (next cursor.current) cursor Good Bad) :
    Spans (peek >>= next) cursor Good Bad := spans

theorem spans_peekNext_bind {next : Token → Reading α}
    (spans : Spans (next cursor.following) cursor Good Bad) :
    Spans (peekNext >>= next) cursor Good Bad := spans

theorem spans_sees_bind {kind : Token.Kind} {next : Bool → Reading α}
    (spans : Spans (next (cursor.current.kind = kind)) cursor Good Bad) :
    Spans (sees kind >>= next) cursor Good Bad := spans

theorem spans_remaining_bind {next : List Token → Reading α}
    (spans : Spans (next (cursor.stop :: cursor.ahead)) cursor Good Bad) :
    Spans (remaining >>= next) cursor Good Bad := spans

/-- A token that does not end the input is passed. -/
theorem spans_advance (ended : cursor.Ended) (word : cursor.current.kind ≠ .finish) :
    Spans advance cursor (fun passed token => passed = [token] ∧ token = cursor.current) Bad :=
  ⟨[cursor.current], ended.passes_moved word, rfl, rfl⟩

/-- Where a token of a kind is asked for, one of that kind is passed, or none. -/
theorem spans_consume (ended : cursor.Ended) {kind : Token.Kind} (word : kind ≠ .finish)
    {complaint : Found → Complaint}
    (bad : Bad [] cursor.current
      (.error (.parse (complaint cursor.current.found) cursor.current.line))) :
    Spans (consume kind complaint) cursor (fun passed token => passed = [token] ∧ token.kind = kind)
      Bad := by
  refine spans_peek_bind ?_
  by_cases same : cursor.current.kind = kind
  · rw [if_pos same]
    refine (spans_advance ended (same ▸ word)).imp ?_ fun _ _ _ bad => bad
    rintro passed token ⟨one, rfl⟩
    exact ⟨one, same⟩
  · rw [if_neg same]
    exact spans_complain bad

end

end Reading

end Reckoner
