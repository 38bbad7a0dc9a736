import Reckoner.Proofs.Diagnosis
import Reckoner.Proofs.Machine.Lines

/-!
Line ends and programs. Which marks end the lines of a source does not matter: with every line end as a
single line feed it is read as the same program by either reader, or refused for the same reason, and so
it runs to the same end. Only the line that an error cites may be another.
-/
namespace Reckoner
open Reckoner.Text

/-- A source with every line end as a single line feed. -/
def unified (source : String) : String := String.ofList (unifyLines source.toList)

theorem Token.alike_scan_unified {blank : Char → Bool} (returns : blank '\r' = true)
    (feeds : blank '\n' = true) (source : String) :
    (Token.scan blank source).Alike (Token.scan blank (unified source)) := by
  rw [Token.scan, Token.scan, Spelling.plain, Spelling.plain, unified, String.toList_ofList]
  exact Token.alike_scanFrom_unifyLines returns feeds 1 1 source.toList

section
variable {source other : String} (wide : (Token.scan isBlank source).Alike (Token.scan isBlank other))
include wide

/-- Sources with the same tokens in other lines are read alike by descent. -/
theorem Descent.parse_alike (depth : Nat) :
    (Descent.parse depth source).mapError (Fault.relined noLine) =
      (Descent.parse depth other).mapError (Fault.relined noLine) := by
  obtain ⟨words, ends⟩ := wide
  cases scanned : Token.scan isBlank source with
  | mk tokens ending =>
    cases scanned' : Token.scan isBlank other with
    | mk tokens' ending' =>
      rw [scanned, scanned'] at words ends
      dsimp only at words ends
      cases ends with
      | stray c line place =>
        rw [Descent.parse_of_stray scanned, Descent.parse_of_stray scanned', Token.strayError_whole,
          Token.strayError_whole]
        rfl
      | finish line place =>
        have same : (tokens ++ [Token.finish line]).map (Token.relined noLine) =
            (tokens' ++ [Token.finish place]).map (Token.relined noLine) := by
          rw [List.map_append, List.map_append, words]
          rfl
        rw [Descent.parse_of_finish scanned, Descent.parse_of_finish scanned',
          ← Descent.parseTokens_relined, ← Descent.parseTokens_relined, same]

omit wide in
/-- What is reported of an exceeded depth has no line. -/
theorem Machine.reported_relined (outcome : Except Fault Node) :
    (match outcome with
      | .error .depth => .error (.error (.recursionLimit .nesting none))
      | result => result : Except Fault Node).mapError (Fault.relined noLine) =
      match outcome.mapError (Fault.relined noLine) with
      | .error .depth => .error (.error (.recursionLimit .nesting none))
      | result => result := by
  cases outcome with
  | ok node => rfl
  | error fault => cases fault <;> rfl

/-- Sources with the same tokens in other lines, also for the machine, are read alike by it. -/
theorem Machine.parse_alike
    (plain : (Token.scan isPlainBlank source).Alike (Token.scan isPlainBlank other))
    (depth levels : Nat) :
    (Machine.parse depth levels source).mapError (Fault.relined noLine) =
      (Machine.parse depth levels other).mapError (Fault.relined noLine) := by
  have verdicts := judge_alike plain
  cases first : judge (Token.scan isPlainBlank source) with
  | refused found line =>
    cases second : judge (Token.scan isPlainBlank other) with
    | refused found' line' =>
      obtain ⟨_, _, descent, machine⟩ := exists_error_of_refused first depth levels
      obtain ⟨_, _, descent', machine'⟩ := exists_error_of_refused second depth levels
      rw [machine.trans descent.symm, machine'.trans descent'.symm]
      exact Descent.parse_alike wide depth
    | _ =>
      rw [first, second] at verdicts
      cases verdicts
  | stray c line =>
    cases second : judge (Token.scan isPlainBlank other) with
    | stray c' line' =>
      rw [first, second] at verdicts
      cases verdicts
      simp only [parse, first, second, Token.strayError_whole]
      rfl
    | _ =>
      rw [first, second] at verdicts
      cases verdicts
  | accepted clauses =>
    cases second : judge (Token.scan isPlainBlank other) with
    | accepted clauses' =>
      rw [first, second] at verdicts
      have same : clauses.map (Clause.relined noLine) = clauses'.map (Clause.relined noLine) :=
        Verdict.accepted.inj verdicts
      have programs := congrArg (Clause.toProgram levels) same
      rw [Clause.toProgram_relined, Clause.toProgram_relined] at programs
      rw [parse, parse, first, second]
      refine (reported_relined _).trans ?_
      rw [programs]
      exact (reported_relined _).symm
    | _ =>
      rw [first, second] at verdicts
      cases verdicts

end

/-- A source and the one with its line ends unified are read alike by either reader. -/
theorem Frontend.parse_unified (limits : Limits) (frontend : Frontend) (source : String) :
    (frontend.parse limits source).mapError (Fault.relined noLine) =
      (frontend.parse limits (unified source)).mapError (Fault.relined noLine) := by
  have wide : (Token.scan isBlank source).Alike (Token.scan isBlank (unified source)) :=
    Token.alike_scan_unified (by decide) (by decide) source
  cases frontend with
  | descent => exact Descent.parse_alike wide limits.nesting
  | machine =>
    have plain : (Token.scan isPlainBlank source).Alike (Token.scan isPlainBlank (unified source)) :=
      Token.alike_scan_unified (by decide) (by decide) source
    exact Machine.parse_alike wide plain limits.nesting limits.phrases

/-- A source and the one with its line ends unified run to the same number, with the same log, or stop
    with errors that differ at most in their lines. -/
theorem runSource_unified (limits : Limits) (level : Int) (frontend : Frontend) (source : String) :
    (runSource limits level frontend source).1.mapError (Fault.relined noLine) =
        (runSource limits level frontend (unified source)).1.mapError (Fault.relined noLine) ∧
      (runSource limits level frontend source).2 = (runSource limits level frontend (unified source)).2 := by
  have same := frontend.parse_unified limits source
  unfold runSource
  cases first : frontend.parse limits source with
  | ok program =>
    cases second : frontend.parse limits (unified source) with
    | ok other =>
      rw [first, second] at same
      cases same
      exact ⟨rfl, rfl⟩
    | error fault =>
      rw [first, second] at same
      cases same
  | error fault =>
    cases second : frontend.parse limits (unified source) with
    | ok other =>
      rw [first, second] at same
      cases same
    | error other =>
      rw [first, second] at same
      have faults : fault.relined noLine = other.relined noLine := Except.error.inj same
      exact ⟨congrArg Except.error faults, rfl⟩

end Reckoner
