import Reckoner.Proofs.Command.Trees
import Reckoner.Proofs.Newlines

/-!
Running a program from a file. The command shows what the run of the source comes to: its number, or
the error that it stops with. The source is the text of the file with its line ends unified, which
makes no difference to the run but for the line that an error cites.
-/
namespace Reckoner

/-- The same number, or errors that differ at most in their lines. -/
inductive SameButLine : (result other : Except Fault Float) → Prop
  | value (x : Float) : SameButLine (.ok x) (.ok x)
  | error {error other : Error} (kind : error.kind = other.kind) (text : error.text = other.text)
      (rest : error.relined noLine = other.relined noLine) :
      SameButLine (.error (.error error)) (.error (.error other))

/-- Errors that are the same without their lines have one kind and one text. -/
theorem SameButLine.of_relined {error other : Error}
    (rest : error.relined noLine = other.relined noLine) :
    SameButLine (.error (.error error)) (.error (.error other)) := by
  refine .error ?_ ?_ rest
  · simpa using congrArg Error.kind rest
  · simpa using congrArg Error.text rest

section
variable (limits : Limits) (level : Int) (frontend : Frontend) (source : String)

/-- A run of a source gives a number or an error of the language. -/
theorem runSource_total : (∃ x, (runSource limits level frontend source).1 = .ok x) ∨
    ∃ error, (runSource limits level frontend source).1 = .error (.error error) := by
  have readable := frontend.parse_readable limits source
  unfold runSource
  generalize frontend.parse limits source = parsed at readable
  cases readable with
  | program ordinary =>
    rcases Session.run_ordinary limits level ordinary with gives | ⟨error, fails, _⟩
    · exact .inl gives
    · exact .inr ⟨error, fails⟩
  | @error error _ => exact .inr ⟨error, rfl⟩

/-- A source and the one with its line ends unified come to the same, but for the line of an error. -/
theorem sameButLine_runSource : SameButLine (runSource limits level frontend source).1
    (runSource limits level frontend (unified source)).1 := by
  have same := (runSource_unified limits level frontend source).1
  rcases runSource_total limits level frontend source with ⟨x, gives⟩ | ⟨error, fails⟩
  · rcases runSource_total limits level frontend (unified source) with ⟨y, gives'⟩ | ⟨other, fails'⟩
    · rw [gives, gives'] at same ⊢
      cases same
      exact .value x
    · rw [gives, fails'] at same
      cases same
  · rcases runSource_total limits level frontend (unified source) with ⟨y, gives'⟩ | ⟨other, fails'⟩
    · rw [fails, gives'] at same
      cases same
    · rw [fails, fails'] at same ⊢
      exact .of_relined (Fault.error.inj (Except.error.inj same))

end

namespace Command

/-- What a command shows of a result: it prints a number with nothing on the error output and succeeds,
    or it prints nothing, names an error with its message on the error output and exits with 1. -/
inductive Shows : (result : Except Fault Float) → Outcome → Prop
  | value (x : Float) (folder : Folder) :
      Shows (.ok x) { status := .ok 0, output := Number.text x ++ "\n", errors := "", folder }
  | error (error : Error) (folder : Folder) :
      Shows (.error (.error error))
        { status := .ok 1, output := "", errors := s!"{error.kind.label}: {error.message}\n", folder }

theorem shows_ended {result : Except Fault Float} (after : Folder)
    (total : (∃ x, result = .ok x) ∨ ∃ error, result = .error (.error error)) :
    Shows result (ended after result) := by
  rcases total with ⟨x, rfl⟩ | ⟨error, rfl⟩
  · exact .value x after
  · exact .error error after

section
variable {limits : Limits} {frontend : Frontend} {verbosity : Nat} {file : Spelling} {folder : Folder}
  {source : String}

/-- The command on a file ends with the result of the run of its source. -/
theorem exists_runProgram (plain : Plain file) (reads : folder.Reads (Path.ofText file) source)
    (writable : (runSource limits verbosity frontend source).2 ≠ none → folder.Writable logPath) :
    ∃ after, runProgram limits frontend verbosity file folder =
      ended after (runSource limits verbosity frontend source).1 := by
  have readable := frontend.parse_readable limits source
  unfold runSource at writable ⊢
  generalize parsed : frontend.parse limits source = outcome at readable writable
  cases readable with
  | @error error _ => exact ⟨folder, (runEmission_of_error plain reads parsed verbosity).2⟩
  | @program body _ =>
    have opens : 0 < verbosity → folder.Writable logPath := by
      intro logs
      apply writable
      simp [Session.start, Logging.start, logs]
    obtain ⟨after, executed⟩ := exists_execute limits opens (.program body)
    have performed := (perform_of_parse plain reads parsed verbosity).trans executed
    exact ⟨after, run_of_report (readWords_program verbosity frontend plain) performed⟩

/-- A word that looks like a switch is no file to run. -/
theorem runProgram_of_unknown (other : file ≠ "--") (unknown : sortWord file = .ok .unknown)
    (limits : Limits) (frontend : Frontend) (verbosity : Nat) (folder : Folder) :
    (runProgram limits frontend verbosity file folder).status = .ok 2 := by
  have last : sortWords [file] = .ok [(file, .unknown)] := sortWords_cons other unknown rfl
  have label := sortWords_cons (plain_label frontend).other (plain_label frontend).sorted last
  have words := sortWords_verbosely verbosity (sortWords_cons (by decide) sortWord_frontend label)
  have misuse : readWords (verbosely verbosity ["--frontend", frontend.label, file]) =
      .error (.unrecognized [file]) := by
    rw [readWords, words]
    change takeWords _ _ = _
    rw [takeWords_verboseSorted]
    cases frontend <;> rfl
  rw [runProgram, run, misuse]
  rfl

end

/-- Running a file shows what running its source comes to, provided that a log can be written if there is
    one. The source is the text of the file with its line ends unified; without that it comes to the
    same, but for the line that an error cites. -/
theorem runProgram_refines (limits : Limits) (frontend : Frontend) (verbosity : Nat) (text : String) :
    (∀ file folder content, Plain file → folder.find (Path.ofText file) = .ok (.file content) →
      content.read = .ok text →
      ((runSource limits verbosity frontend (unified text)).2 ≠ none → folder.Writable logPath) →
      Shows (runSource limits verbosity frontend (unified text)).1
        (runProgram limits frontend verbosity file folder)) ∧
      SameButLine (runSource limits verbosity frontend text).1
        (runSource limits verbosity frontend (unified text)).1 := by
  refine ⟨?_, sameButLine_runSource limits verbosity frontend text⟩
  intro file folder content plain found read writable
  have reads : folder.Reads (Path.ofText file) (unified text) := ⟨content, text, found, read, rfl⟩
  obtain ⟨after, ran⟩ := exists_runProgram plain reads writable
  rw [ran]
  exact shows_ended after (runSource_total limits verbosity frontend (unified text))

theorem runProgram_refines_return :
    let limits : Limits := { nesting := 9, phrases := 9, calls := 9, trees := 9, documents := 9 }
    let folder : Folder := ⟨[(⟨"", ["p"]⟩, .file (.text "\rx"))]⟩
    let outcome := runProgram limits .descent 1 "p" folder
    outcome.status = .ok 1 ∧ outcome.output = "" ∧
      outcome.errors = "ParseError: missing ';' at end of statement, got end of input (line 2)\n" ∧
      SameButLine (runSource limits 1 .descent "\rx").1 (runSource limits 1 .descent "\nx").1 := by
  intro limits folder outcome
  have plain : Plain "p" := ⟨by decide, by decide, by cbv⟩
  have same : unified "\rx" = "\nx" := by decide +kernel
  have refused : Frontend.descent.parse limits "\nx" =
      .error (.error (.parse (.unfinished .finish) (some 2))) := by cbv
  have fails : (runSource limits 1 .descent "\nx").1 =
      .error (.error (.parse (.unfinished .finish) (some 2))) := by
    rw [runSource, refused]
  have refines := runProgram_refines limits .descent 1 "\rx"
  rw [same] at refines
  have shows : Shows (runSource limits 1 .descent "\nx").1 outcome := by
    refine refines.1 "p" folder (.text "\rx") plain (by decide +kernel) rfl fun _ => ?_
    refine ⟨logPath, rfl, ?_⟩
    rintro ⟨⟩
  rw [fails] at shows
  generalize outcome = ending at shows
  refine ⟨?_, ?_, ?_, refines.2⟩
  · cases shows
    rfl
  · cases shows
    rfl
  · cases shows
    dsimp only
    decide +kernel

/-- A file with a name that looks like a switch is not run, though its source has a value. -/
theorem runProgram_astray :
    let limits : Limits := { nesting := 9, phrases := 9, calls := 9, trees := 9, documents := 9 }
    let folder : Folder := ⟨[(⟨"", ["-x"]⟩, .file (.text ""))]⟩
    folder.Reads (Path.ofText "-x") "" ∧
      (∃ x, (runSource limits 0 .descent "").1 = .ok x) ∧
      (runProgram limits .descent 0 "-x" folder).status = .ok 2 := by
  intro limits folder
  have parsed : Frontend.descent.parse limits "" = .ok (.program []) := by cbv
  have unknown : sortWord "-x" = .ok .unknown := by
    have dash : "-x".startsWith "-" = true := by cbv
    have exact : exactSwitch? "-x" = none := by cbv
    have several : candidates "-x" = [] := by cbv
    have negative : looksNegative "-x" = false := by decide +kernel
    have blank : "-x".contains ' ' = false := by cbv
    simp [sortWord, Spelling.plain, dash, exact, several, negative, blank]
  refine ⟨⟨.text "", "", by decide +kernel, rfl, by decide +kernel⟩, ?_, ?_⟩
  · rw [runSource, parsed]
    exact ⟨_, rfl⟩
  · exact runProgram_of_unknown (by decide) unknown limits .descent 0 folder

end Command

end Reckoner
