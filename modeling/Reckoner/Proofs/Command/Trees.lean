import Reckoner.Proofs.Command.Emission
import Reckoner.Proofs.Evaluation.Defects
import Reckoner.Proofs.Logs

/-!
Running a tree from a file. A document that holds no tree, or a tree whose run fails in the language, is
answered with a message. A fault escapes only where the document has something in it that neither the
decoding nor the evaluation answers for: a whole number beyond every floating-point number, a root that
is no program, or a defect of a node.
-/
namespace Reckoner

/-- An outcome of decoding: its fault is one that is blamed on the document, or that of a whole number
    that is too large. -/
def Decoding {α : Type} (outcome : Except Fault α) : Prop :=
  ∀ fault, outcome = .error fault → fault.blamesDocument = true ∨ fault = .tooLarge

namespace Decoding
variable {α β : Type}

theorem ok (value : α) : Decoding (.ok value) := nofun

theorem blamed {fault : Fault} (blames : fault.blamesDocument = true) :
    Decoding (.error fault : Except Fault α) := by
  rintro _ ⟨⟩
  exact .inl blames

theorem bind {outcome : Except Fault α} {next : α → Except Fault β} (first : Decoding outcome)
    (more : ∀ value, Decoding (next value)) : Decoding (outcome >>= next) := by
  intro fault fails
  rcases bind_eq_error_iff.1 fails with here | ⟨value, _, later⟩
  · exact first fault here
  · exact more value fault later

theorem map {outcome : Except Fault α} (change : α → β) (first : Decoding outcome) :
    Decoding (change <$> outcome) :=
  fun fault fails => first fault (map_eq_error_iff.1 fails)

end Decoding

/-- Whether an outcome is that of a whole number that is too large. -/
def overflows {α : Type} : Except Fault α → Bool
  | .error .tooLarge => true
  | _ => false

theorem overflows_iff {α : Type} {outcome : Except Fault α} :
    overflows outcome = true ↔ outcome = .error .tooLarge := by
  refine ⟨fun holds => ?_, fun same => same ▸ rfl⟩
  unfold overflows at holds
  split at holds
  · rfl
  · cases holds

namespace Node

theorem decoding_need (fields : Datum.Fields) (key : String) : Decoding (need fields key) := by
  unfold need
  split
  · exact .ok _
  · exact .blamed rfl

theorem decoding_toFloat (datum : Datum) : Decoding datum.toFloat := by
  cases datum with
  | number x => exact .ok x
  | bool b => exact .ok _
  | integer i =>
    rw [Datum.toFloat]
    split
    · exact .ok _
    · rintro _ ⟨⟩
      exact .inr rfl
  | spelling text =>
    rw [Datum.toFloat, Spelling.toFloat]
    split
    · exact .ok _
    · exact .blamed rfl
  | _ => exact .blamed rfl

theorem decoding_operator (datum : Datum) : Decoding (decodeOperator datum) := by
  unfold decodeOperator
  split
  · split
    · exact .ok _
    · exact .blamed rfl
  · exact .blamed rfl

theorem decoding_elements (datum : Datum) : Decoding datum.elements := by
  cases datum with
  | list items => exact .ok _
  | spelling text => exact .ok _
  | record fields => exact .ok _
  | _ => exact .blamed rfl

mutual

/-- Trees are decoded, or what is no tree is blamed on the document or a number is too large. -/
theorem decoding_decode : (datum : Datum) → Decoding (decode datum)
  | .record fields => by
    have field := decoding_decodeField fields
    have listField := decoding_decodeListField fields
    unfold decode
    split
    · exact (listField _).map _
    · exact (decoding_need fields _).bind fun value => (decoding_toFloat value).bind fun _ => .ok _
    · exact (decoding_need fields _).map _
    · refine (decoding_need fields _).bind fun symbol => (decoding_operator symbol).bind fun _ => ?_
      exact (field _).bind fun _ => (field _).bind fun _ => .ok _
    · exact (decoding_need fields _).bind fun _ => (listField _).bind fun _ => .ok _
    · exact (decoding_need fields _).bind fun _ => (field _).bind fun _ => .ok _
    · refine (decoding_need fields _).bind fun _ => (decoding_need fields _).bind fun parameters => ?_
      exact (decoding_elements parameters).bind fun _ => (field _).bind fun _ => .ok _
    · exact .blamed rfl
  | .null | .bool _ | .integer _ | .number _ | .spelling _ | .list _ => .blamed rfl

theorem decoding_decodeField :
    (fields : List (Spelling × Datum)) → ∀ key, Decoding (decodeField fields key)
  | [] => fun _ => .blamed rfl
  | (k, value) :: rest => by
    intro key
    rw [decodeField]
    split
    · exact decoding_decode value
    · exact decoding_decodeField rest key

theorem decoding_decodeListField :
    (fields : List (Spelling × Datum)) → ∀ key, Decoding (decodeListField fields key)
  | [] => fun _ => .blamed rfl
  | (k, value) :: rest => by
    intro key
    rw [decodeListField]
    split
    · exact decoding_decodeElements value
    · exact decoding_decodeListField rest key

theorem decoding_decodeElements : (datum : Datum) → Decoding (decodeElements datum)
  | .list items => by
    rw [decodeElements]
    exact decoding_decodeList items
  | .spelling value => by
    rw [decodeElements]
    split
    · exact .ok _
    · exact .blamed rfl
  | .record fields => by
    rw [decodeElements]
    split
    · exact .ok _
    · exact .blamed rfl
  | .null | .bool _ | .integer _ | .number _ => .blamed rfl

theorem decoding_decodeList : (items : List Datum) → Decoding (decodeList items)
  | [] => .ok _
  | item :: rest => by
    rw [decodeList]
    exact (decoding_decode item).bind fun _ => (decoding_decodeList rest).bind fun _ => .ok _

end

/-- A document is read as a tree, unless it is nested too deeply, is blamed for holding none or has a
    number in it that is too large. -/
theorem ofDocument_eq_error {limits : Limits} {document : String} {fault : Fault}
    (fails : ofDocument limits document = .error fault) :
    fault = .depth ∨ fault.blamesDocument = true ∨ fault = .tooLarge := by
  unfold ofDocument at fails
  split at fails
  · exact .inr (decoding_decode _ fault fails)
  · cases fails
    exact .inl rfl
  · cases fails
    exact .inr (.inl rfl)

/-- A tree is decoded from the datum that characters without a byte order mark stand for. -/
theorem ofDocument_ofList {limits : Limits} {chars : List Char} {datum : Datum}
    (unmarked : chars.head? ≠ some '\ufeff')
    (found : (Datum.Scan.document limits.documents).run' ⟨chars, 0⟩ = some datum) :
    ofDocument limits (String.ofList chars) = decode datum := by
  have listed : (String.ofList chars).toList = chars := String.toList_ofList
  have bare : ¬ (String.ofList chars).startsWith "\ufeff" = true := by
    rw [String.startsWith_string_iff, listed]
    rintro ⟨rest, rfl⟩
    exact unmarked rfl
  have read : Datum.read limits.documents (String.ofList chars) = .ok datum := by
    rw [Datum.read, if_neg bare, listed]
    rw [EStateM.run', EStateM.run] at found
    cases outcome : Datum.Scan.document limits.documents ⟨chars, 0⟩ with
    | ok result after =>
      rw [outcome] at found
      exact congrArg Except.ok (Option.some.inj found)
    | error fault after =>
      rw [outcome] at found
      cases found
  rw [ofDocument, read]

end Node

/-- A file can be written at a path: no directory stands there. -/
def Folder.Writable (folder : Folder) (path : Path) : Prop :=
  ∃ place, folder.locate path = .ok place ∧ folder.at? place ≠ some .directory

namespace Command

/-- An end that running the tree in a document is promised: its value is printed, or nothing is printed
    and there is a message, of what is wrong with the document or of an error of the language. -/
inductive Promised (limits : Limits) (verbosity : Nat) (path : Path) (document : String) : Outcome → Prop
  | printed {tree : Node} {x : Float} (decoded : Node.ofDocument limits document = .ok tree)
      (value : ((Session.start verbosity).run limits [] tree).result = .ok x) (folder : Folder) :
      Promised limits verbosity path document
        { status := .ok 0, output := Number.text x ++ "\n", folder }
  | invalid {fault : Fault} (undecoded : Node.ofDocument limits document = .error fault)
      (blames : fault.blamesDocument = true) (folder : Folder) :
      Promised limits verbosity path document
        { status := .ok 1
          errors := s!"Error: invalid AST file {path.text.plain}: {fault.message}\n"
          folder }
  | reported {tree : Node} {error : Error} (decoded : Node.ofDocument limits document = .ok tree)
      (fails : ((Session.start verbosity).run limits [] tree).result = .error (.error error))
      (folder : Folder) :
      Promised limits verbosity path document
        { status := .ok 1, errors := s!"{error.kind.label}: {error.message}\n", folder }

/-- Why a fault escapes from running the tree in a document: a whole number in it is beyond every
    floating-point number, its root is no program, or a node has a defect. -/
inductive Escapes (limits : Limits) (verbosity : Nat) (document : String) : Fault → Prop
  | tooLarge (decoded : Node.ofDocument limits document = .error .tooLarge) :
      Escapes limits verbosity document .tooLarge
  | root {tree : Node} {fault : Fault} (decoded : Node.ofDocument limits document = .ok tree)
      (noProgram : tree.statements = .error fault) : Escapes limits verbosity document fault
  | defect {body : List Node} {node : Node} {fault : Fault}
      (decoded : Node.ofDocument limits document = .ok (.program body)) (inside : Node.Inside body node)
      (defect : node.Defect verbosity fault) : Escapes limits verbosity document fault

section
variable {limits : Limits} {verbosity : Nat} {folder : Folder} {path : Path} {document : String}

theorem readTree_of_error (reads : folder.Reads path document) {fault : Fault}
    (fails : Node.ofDocument limits document = .error fault) :
    readTree limits path folder =
      .error (if fault.blamesDocument then .invalidTree path fault else .fault fault) folder := by
  have inner : (do Task.lift (Node.ofDocument limits (← Task.readText path)) : Task Node) folder =
      .error (.fault fault) folder := by
    rw [bind_of_ok (Task.readText_of_reads reads), fails]
    rfl
  exact tryCatch_of_error inner

/-- Where the log can be written, a run ends with what it reports. -/
theorem exists_execute (limits : Limits) (writable : 0 < verbosity → folder.Writable logPath)
    (tree : Node) : ∃ after, execute limits verbosity tree folder =
      (do return Number.text (← Task.lift ((Session.start verbosity).run limits [] tree).result) ++ "\n" :
        Task String) after := by
  unfold execute
  by_cases logs : 0 < verbosity
  · obtain ⟨place, located, free⟩ := writable logs
    simp only [if_pos logs]
    exact ⟨_, bind_of_ok (Task.writeText_eq located free)⟩
  · simp only [if_neg logs]
    exact ⟨folder, rfl⟩

theorem stopped_of_ne_error {fault : Fault} (noError : ∀ error, fault ≠ .error error) (after : Folder) :
    stopped (.fault fault) after = { status := .error fault, folder := after } := by
  cases fault with
  | error error => exact absurd rfl (noError error)
  | _ => rfl

end

end Command

/-- A reported fault that is no error is the fault itself, from outside the language. -/
theorem Task.outside_of_reported {cause : Fault} (noError : ∀ error, reported cause ≠ .error error) :
    cause.Outside ∧ reported cause = cause := by
  have outside : cause.Outside := by
    refine ⟨?_, fun error => ?_⟩
    · rintro rfl
      exact noError _ rfl
    · rintro rfl
      exact noError error rfl
  refine ⟨outside, ?_⟩
  unfold reported
  split
  · exact absurd rfl outside.1
  · rfl

namespace Session
open Reckoner.Task
variable {session : Session} {limits : Limits} {tree : Node} {fault : Fault}

/-- A tree without statements is not run. -/
theorem run_of_noProgram (noProgram : tree.statements = .error fault) :
    (session.run limits [] tree).result = .error fault := by
  have ran : tree.run session.logging limits.calls [] ⟨session.globals, []⟩ =
      .error fault ⟨session.globals, []⟩ := by
    have none : (Evaluation.lift tree.statements : Evaluation (List Node)) ⟨session.globals, []⟩ =
        .error fault ⟨session.globals, []⟩ := by
      rw [noProgram]
      rfl
    rw [Node.run, bind_of_error none]
  unfold run perform
  dsimp only [List.nil_append, List.tail_cons, List.headD_cons]
  rw [Evaluation.outcome_of_error ran]

/-- In a new session a tree fails with an error of the language, or it is no program, or one of its nodes
    has a defect. -/
theorem run_eq_error {level : Int} (fails : ((start level).run limits [] tree).result = .error fault)
    (noError : ∀ error, fault ≠ .error error) :
    tree.statements = .error fault ∨ ∃ body node, tree = .program body ∧ Node.Inside body node ∧
      node.Defect level fault := by
  cases found : tree.statements with
  | error other =>
    rw [run_of_noProgram found] at fails
    exact .inl (by rw [Except.error.inj fails])
  | ok body =>
    obtain rfl : tree = .program body := by
      cases tree <;> cases found
      rfl
    have nothing : ((start level).frame []).scope.Holds (Value.Within (Node.Inside body)) :=
      Scope.holds_nil
    have alone : ∀ scope ∈ (start level).outer [], scope.Holds (Value.Within (Node.Inside body)) :=
      nofun
    have each : ∀ found, (Node.program body).statements = .ok found →
        ∀ statement ∈ found, Node.Inside body statement := by
      rintro _ ⟨⟩ statement among
      exact .statement among
    obtain ⟨after, _, ⟨value, result, _⟩ | ⟨other, result, why, _⟩⟩ :=
      perform_ends (start level) [] ((Node.program body).run (start level).logging limits.calls)
        (ends_run (Node.hereditary_inside body) each nothing alone)
    · cases result.symm.trans fails
    · cases result.symm.trans fails
      rcases why with noBody | ⟨_, first, cause, ⟨⟩, begins, ⟨culprit, reaches, blamed⟩, rfl⟩
      · cases noBody
      · have typed := (begins.typed (Node.hereditary_inside body) (each _ rfl) nothing alone).reaches
          (Node.hereditary_inside body) reaches
        obtain ⟨outside, same⟩ := outside_of_reported noError
        obtain ⟨node, inside, defect⟩ := blamed.defect typed outside
        rw [same]
        exact .inr ⟨body, node, rfl, inside, defect⟩

end Session

namespace Command
variable {limits : Limits} {verbosity : Nat} {file : Spelling} {document : String} {folder : Folder}

/-- Where no tree is decoded, the command ends with the fault of decoding, or with a message if the
    document is blamed. -/
theorem run_of_undecoded (verbosity : Nat) (plain : Plain file)
    (reads : folder.Reads (Path.ofText file) document) {fault : Fault}
    (fails : Node.ofDocument limits document = .error fault) :
    run limits (verbosely verbosity ["--ast", file]) folder =
      stopped (if fault.blamesDocument then .invalidTree (Path.ofText file) fault else .fault fault)
        folder := by
  refine run_of_error (readWords_tree verbosity plain) ?_
  rw [perform_tree limits verbosity plain]
  exact bind_of_error (readTree_of_error reads fails)

/-- How the command ends after a run with a result. -/
def ended (after : Folder) : Except Fault Float → Outcome
  | .ok x => { status := .ok 0, output := Number.text x ++ "\n", folder := after }
  | .error fault => stopped (.fault fault) after

/-- A command that is left to report the result of a run ends with it. -/
theorem run_of_report {words : List Spelling} {arguments : Arguments}
    (read : readWords words = .ok (.proceed arguments)) {result : Except Fault Float} {after : Folder}
    (performed : perform limits arguments folder =
      (do return Number.text (← Task.lift result) ++ "\n" : Task String) after) :
    run limits words folder = ended after result := by
  cases result with
  | ok x => exact run_of_ok read performed
  | error fault => exact run_of_error read performed

/-- Where a tree is decoded, the command ends with its value or with the fault of its run. -/
theorem run_of_decoded (plain : Plain file) (reads : folder.Reads (Path.ofText file) document)
    (writable : 0 < verbosity → folder.Writable logPath) {tree : Node}
    (decoded : Node.ofDocument limits document = .ok tree) :
    ∃ after, run limits (verbosely verbosity ["--ast", file]) folder =
      ended after ((Session.start verbosity).run limits [] tree).result := by
  obtain ⟨after, executed⟩ := exists_execute limits writable tree
  refine ⟨after, run_of_report (readWords_tree verbosity plain) ?_⟩
  rw [perform_tree limits verbosity plain, bind_of_ok (readTree_eq reads decoded), executed]

/-- A tree that is run from a file ends as promised, or a fault escapes for a reason in the document. A
    number that is too large and a root that is no program always let one escape. -/
theorem run_tree_ends (limits : Limits) (verbosity : Nat) {file : Spelling} (plain : Plain file)
    {document : String} {folder : Folder} (reads : folder.Reads (Path.ofText file) document)
    (shallow : Node.ofDocument limits document ≠ .error .depth)
    (writable : 0 < verbosity → folder.Writable logPath) :
    let outcome := run limits (verbosely verbosity ["--ast", file]) folder
    (Promised limits verbosity (Path.ofText file) document outcome ∨ ∃ fault after,
      outcome = { status := .error fault, folder := after } ∧ Escapes limits verbosity document fault) ∧
    (Node.ofDocument limits document = .error .tooLarge → outcome.status = .error .tooLarge) ∧
    ∀ tree fault, Node.ofDocument limits document = .ok tree → tree.statements = .error fault →
      outcome.status = .error fault := by
  intro outcome
  cases decoded : Node.ofDocument limits document with
  | error fault =>
    have ran : outcome = _ := run_of_undecoded verbosity plain reads decoded
    refine ⟨?_, ?_, nofun⟩
    · rcases Node.ofDocument_eq_error decoded with rfl | blames | rfl
      · exact absurd decoded shallow
      · rw [if_pos blames] at ran
        exact .inl (ran ▸ .invalid decoded blames folder)
      · exact .inr ⟨_, _, ran, .tooLarge decoded⟩
    · rintro ⟨⟩
      rw [ran]
      rfl
  | ok tree =>
    obtain ⟨after, ran⟩ : ∃ after, outcome = ended after _ :=
      run_of_decoded plain reads writable decoded
    refine ⟨?_, nofun, ?_⟩
    · cases result : ((Session.start verbosity).run limits [] tree).result with
      | ok x =>
        rw [result] at ran
        exact .inl (ran ▸ .printed decoded result after)
      | error fault =>
        rw [result] at ran
        by_cases inLanguage : ∃ error, fault = .error error
        · obtain ⟨error, rfl⟩ := inLanguage
          exact .inl (ran ▸ .reported decoded result after)
        · have noError : ∀ error, fault ≠ .error error := fun error same => inLanguage ⟨error, same⟩
          refine .inr ⟨fault, after, ran.trans (stopped_of_ne_error noError after), ?_⟩
          rcases Session.run_eq_error result noError with noProgram | ⟨body, node, rfl, inside, defect⟩
          · exact .root decoded noProgram
          · exact .defect decoded inside defect
    · rintro _ fault ⟨⟩ noProgram
      have noError : ∀ error, fault ≠ .error error := by
        cases tree <;> cases noProgram <;> rintro error ⟨⟩
      rw [Session.run_of_noProgram noProgram, ended, stopped_of_ne_error noError] at ran
      exact congrArg Outcome.status ran

theorem run_tree_ends_escapes :
    let reference := (Node.reference (.text "x")).encode.write
    let chars := "\x7b\"type\": \"NumberLiteral\", \"value\": 1".toList ++ List.replicate 309 '0' ++ ['}']
    let folder (document : String) : Folder := ⟨[(⟨"", ["t.json"]⟩, .file (.text document))]⟩
    (run Limits.standard ["-v", "--ast", "t.json"] (folder reference)).status =
        .error (.noBody "VariableRef") ∧
      (run Limits.standard ["--ast", "t.json"] (folder (String.ofList chars))).status =
        .error .tooLarge := by
  intro reference chars folder
  have plain : Plain "t.json" := ⟨by decide, by decide, by cbv⟩
  have reads {document : String} (feeds : '\r' ∉ document.toList) :
      (folder document).Reads (Path.ofText "t.json") document := by
    refine ⟨.text document, document, rfl, rfl, ?_⟩
    rw [Text.unifyLines_of_not_mem feeds, String.ofList_toList]
  have writable (document : String) : (folder document).Writable logPath := by
    refine ⟨logPath, rfl, ?_⟩
    rintro ⟨⟩
  have ends (verbosity : Nat) {document : String} (feeds : '\r' ∉ document.toList)
      (shallow : Node.ofDocument Limits.standard document ≠ .error .depth) :=
    (run_tree_ends Limits.standard verbosity plain (reads feeds) shallow fun _ => writable document).2
  refine ⟨?_, ?_⟩
  · have portable := (Node.Arithmetic.reference "x").portable
    have root : Node.ofDocument Limits.standard reference = .ok (.reference (.text "x")) := by
      rw [Node.ofDocument, portable.read_write (by decide)]
      exact Node.decode_encode _
    have shallow : Node.ofDocument Limits.standard reference ≠ .error .depth := by
      intro deep
      cases root.symm.trans deep
    exact (ends 1 (portable.return_not_mem 0) shallow).2 _ _ root rfl
  · have overflow : (((Datum.Scan.document Limits.standard.documents).run' ⟨chars, 0⟩).any
        fun datum => overflows (Node.decode datum)) = true := by decide +kernel
    obtain ⟨datum, found, decoded⟩ := (Option.any_eq_true _ _).1 overflow
    have large := (Node.ofDocument_ofList (by decide +kernel) found).trans (overflows_iff.1 decoded)
    have shallow : Node.ofDocument Limits.standard (String.ofList chars) ≠ .error .depth := by
      intro deep
      cases large.symm.trans deep
    have feeds : '\r' ∉ (String.ofList chars).toList := by
      rw [String.toList_ofList]
      decide +kernel
    exact (ends 0 feeds shallow).1 large

end Command

end Reckoner
