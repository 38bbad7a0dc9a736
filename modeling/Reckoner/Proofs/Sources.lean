import Reckoner.Proofs.Agreement
import Reckoner.Proofs.Ordinary
import Reckoner.Proofs.Sessions

/-!
Running a source ends with a number or an error of the language. Either reader makes an ordinary
program or reports a character, a complaint or an exceeded depth, and an ordinary program in a new
session fails only with errors of the language.
-/
namespace Reckoner

theorem Token.spelled_of_scan {blank : Char → Bool} {source : Spelling} {tokens : List Token}
    {ending : Token.Ending} (scanned : Token.scan blank source = ⟨tokens, ending⟩) :
    ∀ token ∈ tokens, token.Spelled := by
  have words : (Token.scan blank source).tokens = tokens := by rw [scanned]
  intro token inside
  rw [← words] at inside
  obtain ⟨kind, span, start, _, rfl⟩ := Token.lexical_of_mem_scanFrom _ _ token inside
  exact ⟨_, rfl⟩

/-- An outcome of reading: an ordinary program, or an error of a character, a complaint or an
    exceeded depth. -/
inductive Readable : Except Fault Node → Prop
  | program {body : List Node} (ordinary : ∀ statement ∈ body, statement.Ordinary) :
      Readable (.ok (.program body))
  | error {error : Error} (kind : error.kind ∈ [.lex, .parse, .recursionLimit]) :
      Readable (.error (.error error))

theorem Readable.of_limitReported {outcome : Except Fault Node} (limit : LimitReported outcome) :
    Readable outcome := by
  obtain ⟨depth, line, rfl⟩ := limit
  exact .error (by simp [Error.kind])

/-- Of spelled words comes an ordinary program, or the first complaint about a function. -/
theorem Grammar.Program.readable {words : List Token} {clauses : List Clause}
    (derived : Grammar.Program words clauses) (spelled : ∀ word ∈ words, word.Spelled) :
    Readable (Clause.programTree clauses) := by
  cases tree : Clause.programTree clauses with
  | ok node =>
    obtain ⟨distinct, rfl⟩ := (Clause.programTree_eq_ok_iff clauses node).1 tree
    exact .program (by simpa using derived.ordinary spelled)
  | error fault =>
    obtain ⟨_, _, line, rfl⟩ := Clause.programTree_eq_error tree
    exact .error (by simp [Error.kind])

theorem Descent.parse_readable (depth : Nat) (source : Spelling) :
    Readable (Descent.parse depth source) := by
  cases scanned : Token.scan Text.isBlank source with
  | mk tokens ending =>
    cases ending with
    | stray character line =>
      rw [Descent.parse_of_stray scanned]
      exact .error (by simp)
    | finish line =>
      have proper := Cursor.proper_of_scan scanned line
      rw [Descent.parse_of_finish scanned]
      rcases Descent.parseTokens_sound proper depth with
        ⟨_, read, clauses, derived, _, rfl⟩ | ⟨limit, _⟩ | ⟨complaint, cited, complains⟩
      · rw [read]
        exact .program (by simpa using derived.ordinary (Token.spelled_of_scan scanned))
      · exact .of_limitReported limit
      · rw [complains]
        exact .error (by simp [Error.kind])

/-- The error of a refused source is that of reading by descent or that a token was unexpected. -/
theorem Machine.diagnose_readable (depth : Nat) (source : Spelling) (found : Found)
    (line : Option Int) :
    Readable (do throw (.error (← Machine.diagnose depth source found line))) := by
  unfold Machine.diagnose
  have readable := Descent.parse_readable depth source
  split
  · exact .error (by simp [Error.kind])
  · rename_i error fails
    rw [fails] at readable
    split
    · exact readable
    · exact readable
  · rename_i fault other fails
    rw [fails] at readable
    cases readable with
    | error kind => exact absurd rfl (other _)

theorem Machine.parse_readable (depth levels : Nat) (source : Spelling) :
    Readable (Machine.parse depth levels source) := by
  have refuses {found : Found} {line : Option Int}
      (refused : Machine.judge (Token.scan Text.isPlainBlank source) = .refused found line) :
      Readable (Machine.parse depth levels source) := by
    rw [Machine.parse, refused]
    exact Machine.diagnose_readable depth source found line
  cases scanned : Token.scan Text.isPlainBlank source with
  | mk tokens ending =>
    rw [scanned] at refuses
    cases ending with
    | stray character line =>
      rcases Machine.judge_stray tokens character line with ⟨_, _, refused⟩ | strays
      · exact refuses refused
      · rw [Machine.parse, scanned, strays]
        exact .error (by simp)
    | finish line =>
      rcases Machine.judge_finish tokens line with ⟨_, _, refused⟩ | ⟨clauses, accepted⟩
      · exact refuses refused
      · have derived := Machine.judge_accepted_iff.1 accepted
        have proper := Cursor.proper_of_scan scanned line
        rcases Machine.parse_of_program scanned derived proper.legible with made | limit
        · rw [made]
          exact derived.readable (Token.spelled_of_scan scanned)
        · exact .of_limitReported limit

/-- Either reader makes an ordinary program of a source or reports why it cannot. -/
theorem Frontend.parse_readable (limits : Limits) (frontend : Frontend) (source : Spelling) :
    Readable (frontend.parse limits source) := by
  cases frontend with
  | descent => exact Descent.parse_readable limits.nesting source
  | machine => exact Machine.parse_readable limits.nesting limits.phrases source

/-- An error of one of the kinds that the language reports, and not about an operator. -/
def Error.Reported (error : Error) : Prop :=
  error.kind ≠ .general ∧ ∀ symbol, error ≠ .typeMismatch (.unknownOperator symbol)

/-- What a run reports of a fault at a task of an ordinary program is an error of the language. -/
theorem Task.Fails.reported {logging : Logging} {task : Task} {fault : Fault}
    (fails : task.Fails logging fault) (typed : task.Typed Node.Ordinary) :
    ∃ error, Task.reported fault = .error error ∧ error.Reported := by
  rcases fails.ordinary typed with rfl | ⟨error, rfl⟩
  · exact ⟨_, rfl, by simp [Error.kind], by simp⟩
  · refine ⟨error, rfl, ?_⟩
    cases fails.cause with
    | mismatch misuses => cases misuses <;> simp [Error.Reported, Error.kind]
    | _ => simp [Error.Reported, Error.kind]

/-- A run of an ordinary program in a new session gives a number or an error of the language. -/
theorem Session.run_ordinary (limits : Limits) (level : Int) {body : List Node}
    (ordinary : ∀ statement ∈ body, statement.Ordinary) :
    (∃ value, ((Session.start level).run limits [] (.program body)).result = .ok value) ∨
      ∃ error, ((Session.start level).run limits [] (.program body)).result = .error (.error error) ∧
        error.Reported := by
  have each : ∀ found, (Node.program body).statements = .ok found →
      ∀ statement ∈ found, statement.Ordinary := by
    intro found same
    cases same
    exact ordinary
  have nothing : ((Session.start level).frame []).scope.Holds (Value.Within Node.Ordinary) :=
    Scope.holds_nil
  have alone : ∀ scope ∈ (Session.start level).outer [], scope.Holds (Value.Within Node.Ordinary) :=
    nofun
  obtain ⟨after, _, ⟨value, result, _⟩ | ⟨fault, result, why, _⟩⟩ :=
    perform_ends (Session.start level) []
      (fun outer => (Node.program body).run (Session.start level).logging limits.calls outer)
      (Task.ends_run Node.hereditary_ordinary each nothing alone)
  · exact .inl ⟨value, result⟩
  · rcases why with noBody | ⟨found, start, cause, same, begins, ⟨culprit, reaches, fails⟩, rfl⟩
    · cases noBody
    · have typed := begins.typed Node.hereditary_ordinary (each found same) nothing alone
      obtain ⟨error, reported, proper⟩ :=
        fails.reported (typed.reaches Node.hereditary_ordinary reaches)
      exact .inr ⟨error, reported ▸ result, proper⟩

/-- Whatever the source, the reader and the level of the log, running a source gives a number or an
    error of the language, and every numeral that is scanned can be read as a number. -/
theorem runSource_reported (limits : Limits) (level : Int) (frontend : Frontend) (source : Spelling) :
    ((∃ value, (runSource limits level frontend source).1 = .ok value) ∨
        ∃ error, (runSource limits level frontend source).1 = .error (.error error) ∧
          error.Reported) ∧
      ∀ blank, ∀ token ∈ (Token.scan blank source).tokens, token.kind = .number →
        ∃ value, token.lexeme.toFloat = .ok value := by
  refine ⟨?_, fun blank token inside => Token.legible_of_mem_scan inside⟩
  have readable := frontend.parse_readable limits source
  unfold runSource
  generalize frontend.parse limits source = outcome at readable
  cases readable with
  | program ordinary => exact Session.run_ordinary limits level ordinary
  | @error error kind =>
    refine .inr ⟨error, rfl, ?_, ?_⟩
    · intro general
      rw [general] at kind
      simp at kind
    · rintro symbol rfl
      simp [Error.kind] at kind

end Reckoner
