import Reckoner.Command
import Reckoner.Proofs.Command.Folders
import Reckoner.Proofs.Command.Paths
import Reckoner.Proofs.Command.Words
import Reckoner.Proofs.Documents
import Reckoner.Proofs.Sources
import Reckoner.Proofs.Text.Lines

/-!
Writing the tree of a program and running the tree is running the program. The document of the tree
reads back as the tree, the run does not ask where its program came from, and the file of the
document changes nothing else in the folder.
-/
namespace Reckoner

theorem Frontend.ofDatum_label (frontend : Frontend) :
    ofDatum (.text frontend.label) = .ok frontend := by
  cases frontend <;> rfl

/-- A path leads to a file with a text, in which every line end is a line feed. -/
def Folder.Reads (folder : Folder) (path : Path) (source : String) : Prop :=
  ∃ content text, folder.find path = .ok (.file content) ∧ content.read = .ok text ∧
    String.ofList (Text.unifyLines text.toList) = source

/-- Two folders hold the same but for what stands at a place. -/
def Folder.SameBut (place : Path) (folder other : Folder) : Prop :=
  ∀ asked, asked ≠ place → folder.at? asked = other.at? asked

namespace Command

/-- Two outcomes are the same but for what stands at a place. -/
structure Outcome.SameBut (place : Path) (outcome other : Outcome) : Prop where
  status : outcome.status = other.status
  output : outcome.output = other.output
  errors : outcome.errors = other.errors
  folder : outcome.folder.SameBut place other.folder

/-- The tree of a program can be written next to it and found there: the path of the tree leads to a
    place that no directory takes, and the text of the program's path, made longer, is a plain word
    for it. -/
structure Emits (folder : Folder) (file : Spelling) (place : Path) : Prop where
  located : folder.locate ((Path.ofText file).extended ".ast.json") = .ok place
  free : folder.at? place ≠ some .directory
  named : Path.Named file
  plain : Plain (file ++ Spelling.whole ".ast.json")

section
variable {folder other : Folder} {path place : Path} {source : String} {limits : Limits}

theorem Task.readText_of_reads (reads : folder.Reads path source) :
    Task.readText path folder = .ok source folder := by
  obtain ⟨content, text, found, read, rfl⟩ := reads
  have got : (get : Task Folder) folder = .ok folder folder := rfl
  rw [Task.readText, bind_of_ok got, found]
  simp only [read]
  rfl

theorem readProgram_eq (limits : Limits) (frontend : Frontend) (reads : folder.Reads path source) :
    readProgram limits (.text frontend.label) path folder =
      Task.lift (frontend.parse limits source) folder := by
  have reader : Task.lift (Frontend.ofDatum (.text frontend.label)) folder = .ok frontend folder := by
    rw [frontend.ofDatum_label]
    rfl
  rw [readProgram, bind_of_ok reader, bind_of_ok (Task.readText_of_reads reads)]

theorem readProgram_of_parse (reads : folder.Reads path source) {frontend : Frontend}
    {program : Node} (parsed : frontend.parse limits source = .ok program) :
    readProgram limits (.text frontend.label) path folder = .ok program folder := by
  rw [readProgram_eq limits frontend reads, parsed]
  rfl

/-- A document of a tree is read as the tree. -/
theorem readTree_eq {document : String} {program : Node} (reads : folder.Reads path document)
    (tree : Node.ofDocument limits document = .ok program) :
    readTree limits path folder = .ok program folder := by
  have inner : (do Task.lift (Node.ofDocument limits (← Task.readText path)) : Task Node) folder =
      .ok program folder := by
    rw [bind_of_ok (Task.readText_of_reads reads), tree]
    rfl
  change EStateM.tryCatch _ _ folder = _
  rw [EStateM.tryCatch, inner]

theorem Task.writeText_eq {text : String} (located : folder.locate path = .ok place)
    (free : folder.at? place ≠ some .directory) :
    Task.writeText path text folder = .ok ⟨⟩ (folder.put place (.file (.text text))) := by
  have got : (get : Task Folder) folder = .ok folder folder := rfl
  rw [Task.writeText, bind_of_ok got, located]
  simp only [if_neg free]
  rfl

/-- Two results are the same but for what stands at a place. -/
inductive Task.SameBut (place : Path) {α : Type} :
    (result other : EStateM.Result Stop Folder α) → Prop
  | ok (value : α) {after after' : Folder} (same : after.SameBut place after') :
      SameBut place (.ok value after) (.ok value after')
  | error (stop : Stop) {after after' : Folder} (same : after.SameBut place after') :
      SameBut place (.error stop after) (.error stop after')

/-- A file is written in the same way to folders with the same directories. -/
theorem Task.writeText_sameBut (alike : folder.Alike other) (same : folder.SameBut place other)
    (path : Path) (text : String) :
    Task.SameBut place (Task.writeText path text folder) (Task.writeText path text other) := by
  have got (folder : Folder) : (get : Task Folder) folder = .ok folder folder := rfl
  rw [Task.writeText, bind_of_ok (got folder), bind_of_ok (got other), alike.locate]
  cases located : other.locate path with
  | error astray => exact .error _ same
  | ok target =>
    have first : folder.Leads target := Folder.leads_locate ((alike.locate path).trans located)
    have second : other.Leads target := Folder.leads_locate located
    by_cases directory : other.at? target = some .directory
    · have also := (alike target).2 directory
      simp only [directory, also, if_true]
      exact .error _ same
    · have also := mt (alike target).1 directory
      simp only [directory, also, if_false]
      refine .ok _ fun asked elsewhere => ?_
      rw [Folder.at?_put first, Folder.at?_put second, same asked elsewhere]

theorem Task.SameBut.bind {α β : Type} {first : Task α} {next : α → Task β}
    (begun : Task.SameBut place (first folder) (first other))
    (goesOn : ∀ value after after', after.SameBut place after' →
      Task.SameBut place (next value after) (next value after')) :
    Task.SameBut place ((first >>= next) folder) ((first >>= next) other) := by
  generalize one : first folder = result at begun
  generalize two : first other = result' at begun
  cases begun with
  | ok value same =>
    rw [bind_of_ok one, bind_of_ok two]
    exact goesOn value _ _ same
  | error stop same =>
    rw [bind_of_error one, bind_of_error two]
    exact .error stop same

theorem Task.lift_sameBut {α : Type} (same : folder.SameBut place other) (result : Except Fault α) :
    Task.SameBut place (Task.lift result folder) (Task.lift result other) := by
  cases result with
  | ok value => exact .ok value same
  | error fault => exact .error _ same

/-- A run does the same in folders with the same directories. -/
theorem execute_sameBut (alike : folder.Alike other) (same : folder.SameBut place other)
    (limits : Limits) (verbosity : Nat) (program : Node) :
    Task.SameBut place (execute limits verbosity program folder)
      (execute limits verbosity program other) := by
  have prints (result : Except Fault Float) (folder other : Folder)
      (same : folder.SameBut place other) :
      Task.SameBut place ((do return Number.text (← Task.lift result) ++ "\n" : Task String) folder)
        ((do return Number.text (← Task.lift result) ++ "\n" : Task String) other) := by
    refine (Task.lift_sameBut same result).bind fun value after after' same => ?_
    exact .ok _ same
  unfold execute
  by_cases logs : 0 < verbosity
  · simp only [if_pos logs]
    refine (Task.writeText_sameBut alike same _ _).bind fun _ after after' same => ?_
    exact prints _ after after' same
  · simp only [if_neg logs]
    exact prints _ folder other same

theorem stopped_sameBut (same : folder.SameBut place other) (stop : Stop) :
    (stopped stop folder).SameBut place (stopped stop other) := by
  unfold stopped
  split <;> exact ⟨rfl, rfl, rfl, same⟩

section
variable {words : List Spelling} {arguments : Arguments}

theorem run_of_ok (read : readWords words = .ok (.proceed arguments)) {output : String}
    {after : Folder} (performed : perform limits arguments folder = .ok output after) :
    run limits words folder = { status := .ok 0, output, folder := after } := by
  simp only [run, read, EStateM.run, performed]

theorem run_of_error (read : readWords words = .ok (.proceed arguments)) {stop : Stop}
    {after : Folder} (performed : perform limits arguments folder = .error stop after) :
    run limits words folder = stopped stop after := by
  simp only [run, read, EStateM.run, performed]

theorem run_sameBut {words' : List Spelling} {arguments' : Arguments}
    (read : readWords words = .ok (.proceed arguments))
    (read' : readWords words' = .ok (.proceed arguments'))
    (same : Task.SameBut place (perform limits arguments folder) (perform limits arguments' other)) :
    (run limits words folder).SameBut place (run limits words' other) := by
  generalize one : perform limits arguments folder = result at same
  generalize two : perform limits arguments' other = result' at same
  cases same with
  | ok output same =>
    rw [run_of_ok read one, run_of_ok read' two]
    exact ⟨rfl, rfl, rfl, same⟩
  | error stop same =>
    rw [run_of_error read one, run_of_error read' two]
    exact stopped_sameBut same stop

end

theorem perform_program (limits : Limits) (verbosity : Nat) (frontend : Datum) {file : Spelling}
    (plain : Plain file) :
    perform limits { verbosity, frontend, program := file } = (do
      execute limits verbosity (← readProgram limits frontend (Path.ofText file))) := by
  simp [perform, plain.filled]

theorem perform_emit (limits : Limits) (frontend : Datum) {file : Spelling} (plain : Plain file) :
    perform limits { frontend, emit := file } = emitTree limits frontend (Path.ofText file) := by
  simp [perform, plain.filled]

theorem perform_tree (limits : Limits) (verbosity : Nat) {file : Spelling} (plain : Plain file) :
    perform limits { verbosity, tree := file } = (do
      execute limits verbosity (← readTree limits (Path.ofText file))) := by
  simp [perform, plain.filled]

theorem perform_of_parse {file : Spelling} (plain : Plain file)
    (reads : folder.Reads (Path.ofText file) source) {frontend : Frontend} {program : Node}
    (parsed : frontend.parse limits source = .ok program) (verbosity : Nat) :
    perform limits { verbosity, frontend := .text frontend.label, program := file } folder =
      execute limits verbosity program folder := by
  rw [perform_program limits verbosity _ plain, bind_of_ok (readProgram_of_parse reads parsed)]

/-- The tree of a program is never written where logs are. -/
theorem Emits.ne_logPath {file : Spelling} (emits : Emits folder file place) : logPath ≠ place := by
  have last := Folder.getLast?_follow (Spelling.append_ne _ (by decide))
    (Folder.follow_of_locate emits.located)
  rintro rfl
  exact Spelling.append_ne _ (by decide) (Option.some.inj last).symm

/-- What is left of writing a tree once the program is read. -/
theorem emitTree_of_parse (reads : folder.Reads path source) {frontend : Frontend} {program : Node}
    (parsed : frontend.parse limits source = .ok program) (fits : program.fits limits.trees = true) :
    emitTree limits (.text frontend.label) path folder =
      (do
        Task.writeText (path.extended ".ast.json") program.encode.write
        return (path.extended ".ast.json").text.plain ++ "\n" : Task String) folder := by
  have written : Task.lift (program.toDocument limits) folder = .ok program.encode.write folder := by
    rw [Node.toDocument, Node.encodeWithin, if_pos fits]
    rfl
  rw [emitTree, bind_of_ok (readProgram_of_parse reads parsed), bind_of_ok written]

end

/-- Runs the program in a file. -/
def runProgram (limits : Limits) (frontend : Frontend) (verbosity : Nat) (file : Spelling)
    (folder : Folder) : Outcome :=
  run limits (verbosely verbosity ["--frontend", frontend.label, file]) folder

/-- Writes the tree of the program in a file next to it. -/
def runEmission (limits : Limits) (frontend : Frontend) (file : Spelling) (folder : Folder) : Outcome :=
  run limits ["--frontend", frontend.label, "--emit-ast", file] folder

/-- Runs the tree that was written next to a file. -/
def runTree (limits : Limits) (verbosity : Nat) (file : Spelling) (folder : Folder) : Outcome :=
  run limits (verbosely verbosity ["--ast", file ++ Spelling.whole ".ast.json"]) folder

section
variable {folder : Folder} {path place : Path} {source : String} {limits : Limits} {frontend : Frontend}
  {file : Spelling}

theorem runEmission_of_error (plain : Plain file) (reads : folder.Reads (Path.ofText file) source)
    {error : Error} (refused : frontend.parse limits source = .error (.error error))
    (verbosity : Nat) :
    runEmission limits frontend file folder = stopped (.fault (.error error)) folder ∧
      runProgram limits frontend verbosity file folder = stopped (.fault (.error error)) folder := by
  have fails : readProgram limits (.text frontend.label) (Path.ofText file) folder =
      .error (.fault (.error error)) folder := by
    rw [readProgram_eq limits frontend reads, refused]
    rfl
  constructor
  · refine run_of_error (readWords_emit frontend plain) ?_
    rw [perform_emit limits _ plain]
    exact bind_of_error fails
  · refine run_of_error (readWords_program verbosity frontend plain) ?_
    rw [perform_program limits verbosity _ plain]
    exact bind_of_error fails

theorem runEmission_of_ok (plain : Plain file) (reads : folder.Reads (Path.ofText file) source)
    {program : Node} (parsed : frontend.parse limits source = .ok program)
    (fits : program.fits limits.trees = true)
    (located : folder.locate ((Path.ofText file).extended ".ast.json") = .ok place)
    (free : folder.at? place ≠ some .directory) :
    (runEmission limits frontend file folder).status = .ok 0 ∧
      (runEmission limits frontend file folder).folder =
        folder.put place (.file (.text program.encode.write)) := by
  have put := @Task.writeText_eq folder _ _ program.encode.write located free
  have emitted := emitTree_of_parse reads parsed fits
  rw [bind_of_ok put, ← perform_emit limits _ plain] at emitted
  rw [runEmission, run_of_ok (readWords_emit frontend plain) emitted]
  exact ⟨rfl, rfl⟩

/-- The tree of an ordinary program that was written is read again. -/
theorem readTree_emitted (emits : Emits folder file place) {body : List Node}
    (ordinary : ∀ statement ∈ body, statement.Ordinary)
    (room : (Node.program body).encode.levels ≤ limits.documents) {after : Folder}
    (put : after = folder.put place (.file (.text (Node.program body).encode.write))) :
    readTree limits (Path.ofText (file ++ Spelling.whole ".ast.json")) after =
      .ok (.program body) after := by
  have leads := Folder.leads_locate emits.located
  have portable := Node.portable_program ordinary
  rw [emits.named.ofText_append (by decide) (by decide)]
  refine readTree_eq ?_ (Node.ofDocument_write ordinary room)
  refine ⟨.text (Node.program body).encode.write, _, ?_, rfl, ?_⟩
  · rw [Folder.find, put, (Folder.alike_put leads emits.free _).locate, emits.located]
    simp [bind, Except.bind, Folder.at?_put leads]
    rfl
  · have feeds : '\r' ∉ (Node.program body).encode.write.toList := portable.return_not_mem 0
    rw [Text.unifyLines_of_not_mem feeds, String.ofList_toList]

/-- Running the tree of an ordinary program does what running the program does. -/
theorem runTree_emitted (plain : Plain file) (reads : folder.Reads (Path.ofText file) source)
    (emits : Emits folder file place) {body : List Node}
    (parsed : frontend.parse limits source = .ok (.program body))
    (ordinary : ∀ statement ∈ body, statement.Ordinary)
    (room : (Node.program body).encode.levels ≤ limits.documents) (verbosity : Nat) {after : Folder}
    (put : after = folder.put place (.file (.text (Node.program body).encode.write))) :
    (runTree limits verbosity file after).SameBut place
      (runProgram limits frontend verbosity file folder) := by
  have leads := Folder.leads_locate emits.located
  have alike : after.Alike folder := put ▸ Folder.alike_put leads emits.free _
  have same : after.SameBut place folder := by
    intro asked elsewhere
    rw [put, Folder.at?_put leads, if_neg elsewhere]
  have tree := @readTree_emitted folder place limits file emits body ordinary room after put
  refine run_sameBut (readWords_tree verbosity emits.plain)
    (readWords_program verbosity frontend plain) ?_
  rw [perform_tree limits verbosity emits.plain, bind_of_ok tree,
    perform_of_parse plain reads parsed verbosity]
  exact execute_sameBut alike same limits verbosity (.program body)

/-- Writing the tree of a program and running the tree is running the program. If the source is
    refused, the tree is not written, and the same error is shown as on a run. -/
theorem runTree_runEmission (limits : Limits) (frontend : Frontend) (verbosity : Nat)
    (plain : Plain file) (reads : folder.Reads (Path.ofText file) source) :
    (∀ fault, frontend.parse limits source = .error fault →
      runEmission limits frontend file folder = runProgram limits frontend verbosity file folder ∧
        (runEmission limits frontend file folder).status = .ok 1 ∧
        (runEmission limits frontend file folder).folder = folder) ∧
      ∀ program place, frontend.parse limits source = .ok program → Emits folder file place →
        program.fits limits.trees = true → program.encode.levels ≤ limits.documents →
        (runEmission limits frontend file folder).status = .ok 0 ∧
          (runTree limits verbosity file (runEmission limits frontend file folder).folder).SameBut
            place (runProgram limits frontend verbosity file folder) ∧
          (runTree limits verbosity file
              (runEmission limits frontend file folder).folder).folder.at? logPath =
            (runProgram limits frontend verbosity file folder).folder.at? logPath := by
  have readable := frontend.parse_readable limits source
  generalize outcome : frontend.parse limits source = parsed at readable
  cases readable with
  | @program body ordinary =>
    refine ⟨nofun, ?_⟩
    rintro _ place ⟨⟩ emits fits room
    obtain ⟨status, put⟩ := runEmission_of_ok plain reads outcome fits emits.located emits.free
    have same := runTree_emitted plain reads emits outcome ordinary room verbosity put
    exact ⟨status, same, same.folder logPath emits.ne_logPath⟩
  | @error error _ =>
    refine ⟨?_, nofun⟩
    rintro _ ⟨⟩
    obtain ⟨emitted, ran⟩ := runEmission_of_error plain reads outcome verbosity
    exact ⟨emitted.trans ran.symm, by rw [emitted]; rfl, by rw [emitted]; rfl⟩

theorem runTree_runEmission_reference :
    let limits : Limits := { nesting := 9, phrases := 9, calls := 9, trees := 9, documents := 9 }
    let folder : Folder :=
      ⟨[(⟨"", ["p"]⟩, .file (.text "x;")), (⟨"", ["q"]⟩, .file (.text "x"))]⟩
    let place : Path := ⟨"", ["p.ast.json"]⟩
    let emitted := runEmission limits .descent "p" folder
    (emitted.status = .ok 0 ∧
        (runTree limits 1 "p" emitted.folder).SameBut place (runProgram limits .descent 1 "p" folder) ∧
        (runTree limits 1 "p" emitted.folder).folder.at? logPath =
          (runProgram limits .descent 1 "p" folder).folder.at? logPath) ∧
      runEmission limits .descent "q" folder = runProgram limits .descent 1 "q" folder ∧
      (runEmission limits .descent "q" folder).status = .ok 1 ∧
      (runEmission limits .descent "q" folder).folder = folder := by
  intro limits folder place emitted
  have first : Plain "p" := ⟨by decide, by decide, by cbv⟩
  have second : Plain "q" := ⟨by decide, by decide, by cbv⟩
  have reads : folder.Reads (Path.ofText "p") "x;" :=
    ⟨.text "x;", "x;", by decide +kernel, rfl, by decide +kernel⟩
  have other : folder.Reads (Path.ofText "q") "x" :=
    ⟨.text "x", "x", by decide +kernel, rfl, by decide +kernel⟩
  have parsed : Frontend.descent.parse limits "x;" = .ok (.program [.reference (.text "x")]) := by cbv
  have refused : Frontend.descent.parse limits "x" =
      .error (.error (.parse (.unfinished .finish) (some 1))) := by cbv
  have emits : Emits folder "p" place :=
    { located := by decide +kernel
      free := by decide +kernel
      named := ⟨[], "p", by cbv, by decide, by decide⟩
      plain := ⟨by decide, by decide, by cbv⟩ }
  refine ⟨?_, ?_⟩
  · exact (runTree_runEmission limits .descent 1 first reads).2 _ place parsed emits (by cbv)
      (by decide)
  · exact (runTree_runEmission limits .descent 1 second other).1 _ refused

/-- A path that looks like a switch is no value of one. -/
theorem runTree_of_unknown (other : file ++ Spelling.whole ".ast.json" ≠ "--")
    (unknown : sortWord (file ++ Spelling.whole ".ast.json") = .ok .unknown) (verbosity : Nat) :
    (runTree limits verbosity file folder).status = .ok 2 := by
  have last : sortWords [file ++ Spelling.whole ".ast.json"] =
      .ok [(file ++ Spelling.whole ".ast.json", .unknown)] := sortWords_cons other unknown rfl
  have words := sortWords_verbosely verbosity (sortWords_cons (by decide) sortWord_tree last)
  have misuse : readWords (verbosely verbosity ["--ast", file ++ Spelling.whole ".ast.json"]) =
      .error (.missingValue .tree) := by
    rw [readWords, words]
    change takeWords _ _ = _
    rw [takeWords_verboseSorted]
    rfl
  rw [runTree, run, misuse]
  rfl

/-- A tree that is not where its path leads is not run. -/
theorem runTree_of_missing (plain : Plain (file ++ Spelling.whole ".ast.json"))
    (missing : folder.find (Path.ofText (file ++ Spelling.whole ".ast.json")) = .error .missing)
    (verbosity : Nat) : (runTree limits verbosity file folder).status = .ok 1 := by
  generalize reply : Path.ofText (file ++ Spelling.whole ".ast.json") = path at missing
  have unread : Task.readText path folder = .error (.astray path .missing) folder := by
    have got : (get : Task Folder) folder = .ok folder folder := rfl
    rw [Task.readText, bind_of_ok got, missing]
    rfl
  have fails : readTree limits path folder = .error (.astray path .missing) folder := by
    change EStateM.tryCatch _ _ folder = _
    rw [EStateM.tryCatch, bind_of_error unread]
    rfl
  have stops : perform limits { verbosity, tree := file ++ Spelling.whole ".ast.json" } folder =
      .error (.astray path .missing) folder := by
    rw [perform_tree limits verbosity plain, reply]
    exact bind_of_error fails
  rw [runTree, run_of_error (readWords_tree verbosity plain) stops]
  rfl

/-- No tree is written over a directory. -/
theorem runEmission_of_directory (plain : Plain file) (reads : folder.Reads (Path.ofText file) source)
    {program : Node} (parsed : frontend.parse limits source = .ok program)
    (fits : program.fits limits.trees = true)
    (located : folder.locate ((Path.ofText file).extended ".ast.json") = .ok place)
    (taken : folder.at? place = some .directory) :
    (runEmission limits frontend file folder).status =
      .error (.isDirectory ((Path.ofText file).extended ".ast.json").text) := by
  have fails : Task.writeText ((Path.ofText file).extended ".ast.json") program.encode.write folder =
      .error (.fault (.isDirectory ((Path.ofText file).extended ".ast.json").text)) folder := by
    have got : (get : Task Folder) folder = .ok folder folder := rfl
    rw [Task.writeText, bind_of_ok got, located]
    simp only [if_pos taken]
    rfl
  have stops : perform limits { frontend := .text frontend.label, emit := file } folder =
      .error (.fault (.isDirectory ((Path.ofText file).extended ".ast.json").text)) folder := by
    rw [perform_emit limits _ plain, emitTree_of_parse reads parsed fits]
    exact bind_of_error fails
  rw [runEmission, run_of_error (readWords_emit frontend plain) stops]
  rfl

end

theorem runTree_astray :
    let limits : Limits := { nesting := 9, phrases := 9, calls := 9, trees := 9, documents := 9 }
    let folder : Folder := ⟨[(⟨"", ["-5"]⟩, .file (.text "")), (⟨"", ["p"]⟩, .file (.text "")),
      (⟨"", ["q"]⟩, .file (.text "")), (⟨"", ["q.ast.json"]⟩, .directory)]⟩
    (∀ file ∈ [Spelling.whole "-5", "p/", "q"],
      (runProgram limits .descent 0 file folder).status = .ok 0) ∧
    (runTree limits 0 "-5" (runEmission limits .descent "-5" folder).folder).status = .ok 2 ∧
    (runTree limits 0 "p/" (runEmission limits .descent "p/" folder).folder).status = .ok 1 ∧
    (runEmission limits .descent "q" folder).status = .error (.isDirectory "q.ast.json") := by
  intro limits folder
  have parsed : Frontend.descent.parse limits "" = .ok (.program []) := by cbv
  have plain : ∀ file ∈ [Spelling.whole "-5", "p/", "q"], Plain file := by
    simp only [List.forall_mem_cons, List.not_mem_nil, false_implies, implies_true, and_true]
    exact ⟨⟨by decide, by decide, by cbv⟩, ⟨by decide, by decide, by cbv⟩, ⟨by decide, by decide, by cbv⟩⟩
  have reads : ∀ file ∈ [Spelling.whole "-5", "p/", "q"], folder.Reads (Path.ofText file) "" := by
    have found : ∀ file ∈ [Spelling.whole "-5", "p/", "q"],
      folder.find (Path.ofText file) = .ok (.file (.text "")) := by decide +kernel
    intro file inside
    exact ⟨.text "", "", found file inside, rfl, by decide +kernel⟩
  refine ⟨?_, ?_, ?_, ?_⟩
  · intro file inside
    rw [runProgram, run_of_ok (readWords_program 0 .descent (plain file inside))
      (perform_of_parse (plain file inside) (reads file inside) parsed 0)]
  · have unknown : sortWord "-5.ast.json" = .ok .unknown := by
      have dash : "-5.ast.json".startsWith "-" = true := by cbv
      have exact : exactSwitch? "-5.ast.json" = none := by cbv
      have several : candidates "-5.ast.json" = [] := by cbv
      have negative : looksNegative "-5.ast.json" = false := by decide +kernel
      have blank : "-5.ast.json".contains ' ' = false := by cbv
      simp [sortWord, Spelling.plain, dash, exact, several, negative, blank]
    exact runTree_of_unknown (by decide) unknown 0
  · have put := (@runEmission_of_ok _ ⟨"", ["p.ast.json"]⟩ _ _ _ _ (plain "p/" (by simp))
      (reads "p/" (by simp)) _ parsed (by cbv) (by decide +kernel) (by decide +kernel)).2
    refine runTree_of_missing ⟨by decide, by decide, by cbv⟩ ?_ 0
    rw [put]
    decide +kernel
  · exact runEmission_of_directory (plain "q" (by simp)) (reads "q" (by simp)) parsed (by cbv)
      (by decide +kernel : folder.locate _ = .ok ⟨"", ["q.ast.json"]⟩) (by decide +kernel)

end Command

end Reckoner
