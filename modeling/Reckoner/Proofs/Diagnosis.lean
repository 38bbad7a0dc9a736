import Reckoner.Proofs.Descent.Completion
import Reckoner.Proofs.Sources

/-!
Refusals and their diagnosis. The machine stops at the first token that it refuses and has scanned no
further; the reader by descent, which is asked what is wrong, scans the whole source, and skips more
blanks. The tokens up to the refused one are the same in both scans, so there is no derivation for the
descent either and it fails, and its error is the one that is reported. That a token was merely
unexpected is never said.
-/
namespace Reckoner

/-- A scan over plain blanks that finishes is the scan over all blanks. -/
theorem Token.scan_of_plain_finish {source : Spelling} {tokens : List Token} {line : Nat}
    (finished : Token.scan Text.isPlainBlank source = ⟨tokens, .finish line⟩) :
    Token.scan Text.isBlank source = ⟨tokens, .finish line⟩ := by
  have plain := Token.blank_of_scanFrom_finish (congrArg Token.Lexed.ending finished)
  rw [← finished]
  refine Token.scanFrom_congr 1 fun c inside => ?_
  rw [Bool.eq_iff_iff]
  exact ⟨plain c inside, Text.isBlank_of_isPlainBlank⟩

namespace Machine
open Reckoner.Text Reckoner.Grammar

/-- A token that is refused before a stray character is refused whatever stands behind it. -/
theorem run_refused_append {character : Char} {place : Nat} {tokens : List Token} {found : Found}
    {line : Option Int} {state : State}
    (refused : run (.stray character place) state tokens = .refused found line)
    (ending : Token.Ending) (more : List Token) :
    run ending state (tokens ++ more) = .refused found line := by
  induction tokens generalizing state with
  | nil => cases refused
  | cons token rest ih =>
    rw [List.cons_append, run]
    rw [run] at refused
    cases taken : step state token with
    | none =>
      rw [taken] at refused
      exact refused
    | some next =>
      rw [taken] at refused
      exact ih refused

/-- What the machine refuses is refused in the scan over all blanks as well, if that one finishes. -/
theorem judge_refused_of_finish {source : Spelling} {found : Found} {line : Option Int}
    (refused : judge (Token.scan isPlainBlank source) = .refused found line) {tokens : List Token}
    {last : Nat} (scanned : Token.scan isBlank source = ⟨tokens, .finish last⟩) :
    judge ⟨tokens, .finish last⟩ = .refused found line := by
  cases plain : Token.scan isPlainBlank source with
  | mk early ending =>
    rw [plain] at refused
    cases ending with
    | finish place =>
      cases (Token.scan_of_plain_finish plain).symm.trans scanned
      exact refused
    | stray character place =>
      have begins := Token.scanFrom_begins (fun _ => isBlank_of_isPlainBlank) 1 source.plain.toList
      change (Token.scan isPlainBlank source).tokens <+: (Token.scan isBlank source).tokens at begins
      rw [plain, scanned] at begins
      obtain ⟨more, rfl⟩ := begins
      exact run_refused_append refused _ more

/-- A source that the machine refuses is no program for the reader by descent. -/
theorem descent_of_refused {source : Spelling} {found : Found} {line : Option Int}
    (refused : judge (Token.scan isPlainBlank source) = .refused found line) (depth : Nat)
    (node : Node) : Descent.parse depth source ≠ .ok node := by
  intro read
  obtain ⟨tokens, last, scanned, clauses, derived, _⟩ := Descent.describes_of_parse read
  have again := judge_refused_of_finish refused scanned
  rw [judge_of_program derived] at again
  cases again

end Machine

/-- Reading by descent never says only that a token was unexpected. -/
theorem Descent.parse_ne_unexpected (depth : Nat) (source : Spelling) (found : Found)
    (line : Option Int) :
    Descent.parse depth source ≠ .error (.error (.parse (.unexpected found) line)) := by
  intro unexpected
  cases scanned : Token.scan Text.isBlank source with
  | mk tokens ending =>
    cases ending with
    | stray character place =>
      rw [Descent.parse_of_stray scanned depth] at unexpected
      exact Token.strayError_ne_parse _ _ _ _ _ (Fault.error.inj (Except.error.inj unexpected))
    | finish place =>
      rw [Descent.parse_of_finish scanned] at unexpected
      have proper := Cursor.proper_of_scan scanned place
      obtain ⟨node, after, _, result⟩ | ⟨after, _, _, _, result⟩ | ⟨fault, after, outcome, _, result⟩ :=
        Descent.parseTokens_cases proper depth
      · cases result.symm.trans unexpected
      · cases result.symm.trans unexpected
      · cases result.symm.trans unexpected
        obtain ⟨_, blamed, _⟩ := (Descent.mends_program depth proper).of_error outcome _ _ rfl
        exact blamed

/-- What the machine refuses is reported as reading by descent does. -/
theorem Machine.exists_error_of_refused {source : Spelling} {found : Found} {line : Option Int}
    (refused : judge (Token.scan Text.isPlainBlank source) = .refused found line)
    (depth levels : Nat) :
    ∃ error, error.kind ∈ [Error.Kind.lex, .parse, .recursionLimit] ∧
      Descent.parse depth source = .error (.error error) ∧
      Machine.parse depth levels source = .error (.error error) := by
  have readable := Descent.parse_readable depth source
  cases outcome : Descent.parse depth source with
  | ok node => exact absurd outcome (descent_of_refused refused depth node)
  | error fault =>
    rw [outcome] at readable
    cases readable with
    | error kind => exact ⟨_, kind, rfl, parse_refused_eq refused outcome⟩

/-- Of a source that the machine accepts, no complaint says only that a token was unexpected. -/
theorem Machine.parse_ne_unexpected_of_accepted {source : Spelling} {clauses : List Clause}
    (accepted : judge (Token.scan Text.isPlainBlank source) = .accepted clauses)
    (depth levels : Nat) (found : Found) (line : Option Int) :
    Machine.parse depth levels source ≠ .error (.error (.parse (.unexpected found) line)) := by
  intro unexpected
  cases scanned : Token.scan Text.isPlainBlank source with
  | mk tokens ending =>
    rw [scanned] at accepted
    cases ending with
    | stray character place =>
      rcases judge_stray tokens character place with ⟨_, _, refused⟩ | strays
      · cases accepted.symm.trans refused
      · cases accepted.symm.trans strays
    | finish place =>
      have proper := Cursor.proper_of_scan scanned place
      rcases parse_of_program scanned (judge_accepted_iff.1 accepted) proper.legible with
        made | ⟨_, _, limit⟩
      · obtain ⟨_, _, _, duplicate⟩ := Clause.programTree_eq_error (made.symm.trans unexpected)
        cases duplicate
      · cases limit.symm.trans unexpected

namespace Frontend
open Reckoner.Text

/-- What the machine refuses fails in reading by descent as well, with an error that both readers
    report; for no source does the machine report only that a token was unexpected. -/
theorem refusal_diagnosed (limits : Limits) (source : Spelling) :
    (∀ found line, Machine.judge (Token.scan isPlainBlank source) = .refused found line →
      ∃ error, error.kind ∈ [Error.Kind.lex, .parse, .recursionLimit] ∧
        parse limits .descent source = .error (.error error) ∧
        parse limits .machine source = .error (.error error)) ∧
      ∀ found line,
        parse limits .machine source ≠ .error (.error (.parse (.unexpected found) line)) := by
  refine ⟨fun found line refused => Machine.exists_error_of_refused refused _ _, ?_⟩
  intro found line unexpected
  cases verdict : Machine.judge (Token.scan isPlainBlank source) with
  | stray character place =>
    simp [parse, Machine.parse, verdict, Token.strayError_ne_parse] at unexpected
  | refused met place =>
    obtain ⟨error, _, descent, machine⟩ :=
      Machine.exists_error_of_refused verdict limits.nesting limits.phrases
    cases machine.symm.trans unexpected
    exact Descent.parse_ne_unexpected limits.nesting source found line descent
  | accepted clauses =>
    exact Machine.parse_ne_unexpected_of_accepted verdict _ _ found line unexpected

/-- Behind the refused token there is a blank that only the descent skips, and before it a parameter is
    repeated. -/
theorem refusal_diagnosed_repeated :
    Machine.judge (Token.scan isPlainBlank "func f(a,a))\x0b") = .refused (.lexeme ")") (some 1) ∧
      parse .standard .machine "func f(a,a))\x0b" =
        .error (.error (.parse (.duplicate "a" "f") (some 1))) := by
  have refused : Machine.judge (Token.scan isPlainBlank "func f(a,a))\x0b") =
      .refused (.lexeme ")") (some 1) := by cbv
  have tokens : Token.tokenize "func f(a,a))\x0b" = .ok [⟨.funcWord, "func", some 1⟩,
      ⟨.name, "f", some 1⟩, ⟨.opening, "(", some 1⟩, ⟨.name, "a", some 1⟩, ⟨.comma, ",", some 1⟩,
      ⟨.name, "a", some 1⟩, ⟨.closing, ")", some 1⟩, ⟨.closing, ")", some 1⟩, Token.finish 1] := by cbv
  have fails : parse .standard .descent "func f(a,a))\x0b" =
      .error (.error (.parse (.duplicate "a" "f") (some 1))) := by
    rw [parse, Descent.parse, tokens]
    rfl
  obtain ⟨error, _, descent, machine⟩ := (refusal_diagnosed .standard _).1 _ _ refused
  cases fails.symm.trans descent
  exact ⟨refused, machine⟩

end Frontend

end Reckoner
