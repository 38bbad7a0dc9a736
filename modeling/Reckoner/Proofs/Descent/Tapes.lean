import Mathlib.Data.List.TakeWhile
import Reckoner.Proofs.Descent.Spans

/-!
Where a tape stands. The cursor of a tape splits its tokens: the words that were passed, those ahead, the
first token that ends the input, and whatever follows that one. So the position counts the words that
were passed, and what a reader sees at the cursor are the tokens from that position on.
-/
namespace Reckoner

theorem Cursor.ofTokens_eq_ok {tokens : List Token} {cursor : Cursor}
    (starts : Cursor.ofTokens tokens = .ok cursor) :
    cursor.Ended ∧ ∃ rest, tokens = cursor.ahead ++ cursor.stop :: rest := by
  unfold ofTokens at starts
  split at starts
  · split at starts
    · rename_i stop rest found
      cases starts
      refine ⟨⟨?_, fun word inside => ?_⟩, rest, ?_⟩
      · have ends := List.head?_dropWhile_not isWord tokens
        rw [found] at ends
        simpa [isWord] using ends
      · simpa [isWord] using List.all_eq_true.1 List.all_takeWhile word inside
      · rw [← found, List.takeWhile_append_dropWhile]
    · cases starts
  · cases starts

/-- At an offset that does not lead back a token is seen, and behind the last one only that. -/
theorem Token.seenFrom_ofNat {tokens : List Token} (filled : 0 < tokens.length) (place offset : Nat) :
    Token.seenFrom tokens place offset = .ok tokens[min (place + offset) (tokens.length - 1)] := by
  have within : min (place + offset) (tokens.length - 1) < tokens.length := by omega
  have index : min ((place : Int) + offset) ((tokens.length : Int) - 1) =
      (min (place + offset) (tokens.length - 1) : Nat) := by omega
  have found := List.getElem?_eq_getElem within
  generalize tokens[min (place + offset) (tokens.length - 1)] = token at *
  generalize min (place + offset) (tokens.length - 1) = seen at *
  have counted : ¬ (seen : Int) < 0 := by omega
  simp [Token.seenFrom, index, counted, found]

namespace TokenTape

theorem read_of_ok {α : Type} {tape : TokenTape} {step : Reading α} {result : α} {cursor : Cursor}
    (outcome : step tape.cursor = .ok result cursor) :
    tape.read step = (.ok result, { tape with cursor }) := by
  simp [read, EStateM.run, outcome]

theorem read_of_error {α : Type} {tape : TokenTape} {step : Reading α} {fault : Fault} {cursor : Cursor}
    (outcome : step tape.cursor = .error fault cursor) :
    tape.read step = (.error fault, { tape with cursor }) := by
  simp [read, EStateM.run, outcome]

/-- A reading that fails leaves the cursor where it failed. -/
theorem read_eq_error {α : Type} {tape after : TokenTape} {step : Reading α} {fault : Fault}
    (fails : tape.read step = (.error fault, after)) :
    ∃ cursor, step tape.cursor = .error fault cursor ∧ after = { tape with cursor } := by
  unfold read EStateM.run at fails
  split at fails
  · cases fails
  · rename_i outcome
    cases fails
    exact ⟨_, outcome, rfl⟩

theorem exists_ofTokens {tokens : List Token}
    (ends : tokens.getLast?.map Token.kind = some .finish) :
    ∃ tape, TokenTape.ofTokens tokens = .ok tape := by
  obtain ⟨last, found, finish⟩ := Option.map_eq_some_iff.1 ends
  have inside : last ∈ tokens := List.mem_of_getLast? found
  unfold TokenTape.ofTokens Cursor.ofTokens
  rw [if_pos ends]
  cases rest : tokens.dropWhile Cursor.isWord with
  | nil =>
    have word := List.dropWhile_eq_nil_iff.1 rest last inside
    exact absurd finish (by simpa [Cursor.isWord] using word)
  | cons stop others => exact ⟨_, rfl⟩

/-- The cursor of a tape stands behind the words `passed`; behind those ahead of it is the first token
    that ends the input, and then there may be any others. -/
structure Stands (tape : TokenTape) (passed : List Token) : Prop where
  ended : tape.cursor.Ended
  words : ∀ word ∈ passed, word.kind ≠ .finish
  split : ∃ rest, tape.tokens = passed ++ (tape.cursor.ahead ++ tape.cursor.stop :: rest)

theorem ofTokens_eq_ok {tokens : List Token} {tape : TokenTape}
    (starts : TokenTape.ofTokens tokens = .ok tape) :
    Cursor.ofTokens tokens = .ok tape.cursor ∧ tape.tokens = tokens := by
  obtain ⟨cursor, made, rfl⟩ := map_eq_ok_iff.1 starts
  exact ⟨made, rfl⟩

theorem stands_ofTokens {tokens : List Token} {tape : TokenTape}
    (starts : TokenTape.ofTokens tokens = .ok tape) : tape.Stands [] := by
  obtain ⟨made, rfl⟩ := ofTokens_eq_ok starts
  obtain ⟨ended, split⟩ := Cursor.ofTokens_eq_ok made
  exact ⟨ended, nofun, split⟩

variable {tape : TokenTape} {passed : List Token}

/-- The words that a step passes are behind those that were passed before. -/
theorem Stands.passes (stands : tape.Stands passed) {more : List Token} {after : Cursor}
    (passes : tape.cursor.Passes more after) :
    Stands { tape with cursor := after } (passed ++ more) := by
  obtain ⟨rest, split⟩ := stands.split
  refine ⟨passes.ended stands.ended, List.forall_mem_append.2 ⟨stands.words, fun word inside => ?_⟩,
    rest, ?_⟩
  · refine stands.ended.words word ?_
    rw [passes.1]
    exact List.mem_append_left _ inside
  · rw [split, passes.1, passes.2]
    simp

theorem Stands.position (stands : tape.Stands passed) : tape.position = passed.length := by
  obtain ⟨rest, split⟩ := stands.split
  have each : ∀ word ∈ passed ++ tape.cursor.ahead, Cursor.isWord word = true := by
    intro word inside
    rcases List.mem_append.1 inside with old | ahead
    · simpa [Cursor.isWord] using stands.words word old
    · simpa [Cursor.isWord] using stands.ended.words word ahead
  have last : Cursor.isWord tape.cursor.stop = false := by
    simpa [Cursor.isWord] using stands.ended.ends
  rw [TokenTape.position, split, ← List.append_assoc, List.takeWhile_append_of_pos each]
  simp [List.takeWhile, last]

theorem Stands.take (stands : tape.Stands passed) : tape.tokens.take tape.position = passed := by
  obtain ⟨rest, split⟩ := stands.split
  rw [stands.position, split, List.take_left]

/-- The token at the cursor is the one at the position. -/
theorem Stands.getElem? (stands : tape.Stands passed) :
    tape.tokens[tape.position]? = some tape.cursor.current := by
  obtain ⟨rest, split⟩ := stands.split
  rw [stands.position, split, List.getElem?_append_right (Nat.le_refl _), Nat.sub_self]
  unfold Cursor.current
  cases tape.cursor.ahead <;> rfl

end TokenTape

end Reckoner
