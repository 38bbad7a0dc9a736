import Reckoner.Proofs.Depth.Reading
import Reckoner.Proofs.Descent.Completion
import Reckoner.Proofs.Descent.Locality
import Reckoner.Proofs.Descent.Tapes

/-!
Complaints are about the earliest token that is wrong. The token at the cursor is to blame, or the one
before it where a parameter is repeated. What stands before that token begins a list of tokens that is
accepted; no list that is accepted goes on with the token; and in every list that does, whatever comes
later, reading ends with the same complaint at the same place.
-/
namespace Reckoner

/-- A list of tokens as a scan makes them: regular ones, and the end of the input behind them. -/
def Token.Listing (tokens : List Token) : Prop :=
  ∃ words stop, tokens = words ++ [stop] ∧ stop.kind = .finish ∧ ∀ word ∈ words, word.Regular

/-- How many tokens before the cursor a complaint is about. -/
def Complaint.lag : Complaint → Nat
  | .duplicate _ _ => 1
  | _ => 0

theorem Complaint.sight_add_lag (complaint : Complaint) (line : Option Int) :
    (Fault.error (.parse complaint line)).sight + complaint.lag = 1 := by
  cases complaint <;> rfl

theorem Cursor.proper_of_regular {words : List Token} {stop : Token} (ends : stop.kind = .finish)
    (regular : ∀ word ∈ words, word.Regular) : (⟨words, stop⟩ : Cursor).Proper :=
  ⟨ends, fun word inside => (regular word inside).word, fun word inside => (regular word inside).legible⟩

theorem Cursor.Proper.ended {cursor : Cursor} (proper : cursor.Proper) : cursor.Ended :=
  ⟨proper.ends, proper.words⟩

/-- Cursors agree on the tokens with which the one list begins like the other, whatever else the other
    holds behind its end. -/
theorem Cursor.Agrees.of_begins {count : Nat} {cursor twin : Cursor} {rest : List Token}
    (ended : cursor.Ended) (endedTwin : twin.Ended) (within : count ≤ cursor.ahead.length + 1)
    (starts : (cursor.ahead ++ [cursor.stop]).take count <+: twin.ahead ++ twin.stop :: rest) :
    cursor.Agrees count twin := by
  have same {place : Nat} (before : place < count) :
      (cursor.ahead ++ [cursor.stop])[place]? = (twin.ahead ++ twin.stop :: rest)[place]? := by
    obtain ⟨tail, split⟩ := starts
    have inside : place < ((cursor.ahead ++ [cursor.stop]).take count).length := by
      simp
      omega
    rw [← split, List.getElem?_append_left inside, List.getElem?_take_of_lt before]
  -- The end of the other list is not among the words of this one.
  have early : count ≤ twin.ahead.length + 1 := by
    refine Nat.le_of_not_lt fun late => ?_
    have stops := same (Nat.lt_of_succ_lt late)
    have inside : twin.ahead.length < cursor.ahead.length := by omega
    rw [List.getElem?_append_left inside, List.getElem?_append_right (Nat.le_refl _), Nat.sub_self,
      List.getElem?_cons_zero] at stops
    exact ended.words _ (List.mem_of_getElem? stops) endedTwin.ends
  intro place before
  rw [same before, List.append_cons,
    List.getElem?_append_left (by rw [List.length_append, List.length_singleton]; omega)]

/-- Before the tokens that were taken, the place of a complaint is that of the token it is about. -/
theorem Reading.Blames.place {complaint : Complaint} {cursor : Cursor} {before : List Token}
    {taken : Nat} (blames : Blames complaint cursor before (cursor.skip taken))
    (within : taken ≤ cursor.ahead.length) :
    taken = before.length + complaint.lag ∧ before <+: cursor.ahead := by
  -- Tokens that lead to the cursor behind `taken` tokens are as many.
  have counted {words : List Token} (passes : cursor.Passes words (cursor.skip taken)) :
      taken = words.length ∧ words <+: cursor.ahead := by
    have size := passes.length
    rw [Cursor.length_skip] at size
    exact ⟨by omega, ⟨_, passes.1.symm⟩⟩
  cases complaint with
  | duplicate =>
    obtain ⟨name, passes⟩ := blames
    obtain ⟨size, starts⟩ := counted passes
    exact ⟨by simpa [Complaint.lag] using size, (List.prefix_append before [name]).trans starts⟩
  | unexpected => exact blames.elim
  | _ => exact counted blames

namespace TokenTape

theorem ofTokens_append {words : List Token} {stop : Token}
    (proper : (⟨words, stop⟩ : Cursor).Proper) :
    TokenTape.ofTokens (words ++ [stop]) = .ok ⟨words ++ [stop], ⟨words, stop⟩⟩ := by
  rw [TokenTape.ofTokens, Cursor.ofTokens_append proper]
  rfl

/-- As many tokens have been read as were taken. -/
theorem Stands.position_skip {tape : TokenTape} (stands : tape.Stands []) {taken : Nat}
    (within : taken ≤ tape.cursor.ahead.length) :
    TokenTape.position { tape with cursor := tape.cursor.skip taken } = taken := by
  have passes : tape.cursor.Passes (tape.cursor.ahead.take taken) (tape.cursor.skip taken) :=
    ⟨(List.take_append_drop _ _).symm, rfl⟩
  rw [(stands.passes passes).position, List.nil_append, List.length_take, Nat.min_eq_left within]

end TokenTape

namespace Descent
open Reckoner.Reading

/-- A list of tokens is a program to the reader by descent, with the depth left aside. -/
def Accepts (tokens : List Token) : Prop := ∃ depth node, parseTokens depth tokens = .ok node

/-- What the grammar derives without repeating a parameter is accepted. -/
theorem accepts_of_programmed {words : List Token} {stop : Token} (ends : stop.kind = .finish)
    (regular : ∀ word ∈ words, word.Regular) (programmed : Programmed words) :
    Accepts (words ++ [stop]) := by
  obtain ⟨clauses, derived, distinct⟩ := programmed
  have proper := Cursor.proper_of_regular ends regular
  exact ⟨_, _, parseTokens_of_program proper derived distinct (Nat.lt_succ_self _)⟩

/-- A list of tokens that is read with a complaint at some depth is not accepted at any. -/
theorem not_accepts_of_complaint {depth : Nat} {tokens : List Token} {complaint : Complaint}
    {line : Option Int} (complains : parseTokens depth tokens = .error (.error (.parse complaint line))) :
    ¬ Accepts tokens := by
  rintro ⟨other, node, read⟩
  rcases Nat.le_total depth other with le | le
  · have unlimited : ¬ LimitReported (parseTokens depth tokens) := by simp [LimitReported, complains]
    cases read.symm.trans ((parseTokens_stable le unlimited).trans complains)
  · have unlimited : ¬ LimitReported (parseTokens other tokens) := by simp [LimitReported, read]
    cases complains.symm.trans ((parseTokens_stable le unlimited).trans read)

/-- A complaint at a cursor is one of the whole list of tokens. -/
theorem parseTokens_of_complaint {tokens : List Token} {cursor after : Cursor}
    (starts : Cursor.ofTokens tokens = .ok cursor) {depth : Nat} {complaint : Complaint}
    {line : Option Int}
    (complains : program depth cursor = .error (.error (.parse complaint line)) after) :
    parseTokens depth tokens = .error (.error (.parse complaint line)) := by
  unfold parseTokens
  rw [starts]
  simp [bind, Except.bind, EStateM.run, complains, throw, throwThe, MonadExceptOf.throw]

/-- A list of tokens that the end of the input does not close is not accepted. -/
theorem not_accepts_of_open {tokens : List Token}
    (opens : tokens.getLast?.map Token.kind ≠ some .finish) : ¬ Accepts tokens := by
  rintro ⟨depth, node, read⟩
  have fails : Cursor.ofTokens tokens = .error .noFinish := if_neg opens
  rw [parseTokens, fails] at read
  cases read

/-- A complaint is about the earliest token that is wrong: what stands before the token begins a list of
    tokens that is accepted, and no list that begins like this one up to the token is accepted; each that
    the end of the input closes is read with the same complaint at the same place. The token is the one at
    the cursor, and the one before where a parameter is repeated. -/
theorem complaint_earliest {tokens : List Token} (listing : Token.Listing tokens) (depth : Nat)
    {tape after : TokenTape} {complaint : Complaint} {line : Option Int}
    (starts : TokenTape.ofTokens tokens = .ok tape)
    (complains : tape.read (program depth) = (.error (.error (.parse complaint line)), after)) :
    ∃ place, after.position = place + complaint.lag ∧ place < tokens.length ∧
      (∃ missing, Token.Listing (tokens.take place ++ missing) ∧
        Accepts (tokens.take place ++ missing)) ∧
      ∀ others, tokens.take (place + 1) <+: others → ¬ Accepts others ∧
        (others.getLast?.map Token.kind = some .finish →
          ∃ start last, TokenTape.ofTokens others = .ok start ∧
            start.read (program depth) = (.error (.error (.parse complaint line)), last) ∧
            last.position = after.position) := by
  obtain ⟨words, stop, rfl, ends, regular⟩ := listing
  have proper := Cursor.proper_of_regular ends regular
  cases (TokenTape.ofTokens_append proper).symm.trans starts
  obtain ⟨cursor, outcome, rfl⟩ := TokenTape.read_eq_error complains
  -- The reading took `taken` tokens and depends on those that it looked at; those before the token that
  -- is to blame can be completed.
  obtain ⟨taken, _, within, rfl, again⟩ :=
    (settled_program depth _ proper.ended (stop :: words) (by simp)).of_error outcome
  obtain ⟨before, blames, missing, regularMissing, programmed⟩ :=
    (mends_program depth proper).of_error outcome complaint line rfl
  obtain ⟨rfl, more, rfl⟩ := blames.place within
  have looked := complaint.sight_add_lag line
  have position := (TokenTape.stands_ofTokens starts).position_skip within
  refine ⟨before.length, position, by simp, ?_, ?_⟩
  · have front : (before ++ more ++ [stop]).take before.length = before := by simp
    have whole : ∀ word ∈ before ++ missing, word.Regular :=
      List.forall_mem_append.2 ⟨(List.forall_mem_append.1 regular).1, regularMissing⟩
    refine ⟨missing ++ [stop], ?_, ?_⟩
    · exact ⟨before ++ missing, stop, by simp, ends, whole⟩
    · rw [front, ← List.append_assoc]
      exact accepts_of_programmed ends whole programmed
  · intro others begins
    by_cases closes : others.getLast?.map Token.kind = some .finish
    · obtain ⟨start, startsOthers⟩ := TokenTape.exists_ofTokens closes
      obtain ⟨made, rfl⟩ := TokenTape.ofTokens_eq_ok startsOthers
      have stands := TokenTape.stands_ofTokens startsOthers
      obtain ⟨rest, split⟩ := stands.split
      rw [split] at begins
      have agrees : Cursor.Agrees (before.length + 1) ⟨before ++ more, stop⟩ start.cursor :=
        .of_begins proper.ended stands.ended (by simp) begins
      have same : before.length + complaint.lag + (Fault.error (.parse complaint line)).sight =
          before.length + 1 := by omega
      have outcomeOthers := again start.cursor (start.cursor.stop :: start.cursor.ahead) stands.ended
        (by simp) (same ▸ agrees)
      have withinOthers := agrees.length_le proper.ended stands.ended (by omega) within
      refine ⟨not_accepts_of_complaint (parseTokens_of_complaint made outcomeOthers), fun _ =>
        ⟨start, _, startsOthers, TokenTape.read_of_error outcomeOthers, ?_⟩⟩
      rw [position, stands.position_skip withinOthers]
    · exact ⟨not_accepts_of_open closes, fun ends => absurd ends closes⟩

theorem complaint_earliest_repeated :
    let tokens : List Token := [⟨.funcWord, "func", some 1⟩, ⟨.name, "f", some 1⟩,
      ⟨.opening, "(", some 1⟩, ⟨.name, "a", some 1⟩, ⟨.comma, ",", some 1⟩, ⟨.name, "a", some 2⟩,
      Token.finish 2]
    (∃ missing, Accepts (tokens.take 5 ++ missing)) ∧
      ∀ others, tokens.take 6 <+: others → ¬ Accepts others := by
  intro tokens
  have listing : Token.Listing tokens := by
    refine ⟨tokens.take 6, Token.finish 2, rfl, rfl, fun word inside => ?_⟩
    have kinds : ∀ word ∈ tokens.take 6, word.kind ∈ Token.Kind.known ∧ word.kind ≠ .finish ∧
        word.kind ≠ .number := by decide
    obtain ⟨known, word, other⟩ := kinds _ inside
    exact ⟨known, word, fun number => absurd number other⟩
  obtain ⟨place, found, _, ⟨missing, _, accepted⟩, rest⟩ := complaint_earliest listing 1 rfl
    (show TokenTape.read _ (program 1) = (.error (.error (.parse (.duplicate "a" "f") (some 2))), _) from rfl)
  cases show 5 = place from Nat.succ.inj found
  exact ⟨⟨missing, accepted⟩, fun others begins => (rest others begins).1⟩

end Descent

end Reckoner
