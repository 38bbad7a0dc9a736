import Mathlib.Data.List.Forall2
import Reckoner.Proofs.Datum.Numerals
import Reckoner.Proofs.Evaluation.Levels
import Reckoner.Proofs.Statements
import Reckoner.Proofs.Text.Lines

/-!
What a log holds. Programs in a row do the same at every level of the log, and a lower level writes
what a higher one does, less the entries above it. The first level writes the values of the statements
that were completed, numbered from one in each run.
-/
namespace Reckoner

/-- The entries for the values of statements by their numbers, of which `index` is the first. -/
def Log.numbered (index : Nat) : List Float → Log
  | [] => []
  | x :: rest => ⟨.statement, s!"statement {index}: {Number.text x}"⟩ :: numbered (index + 1) rest

namespace Evaluation
variable {α β : Type}

/-- An evaluation that writes nothing. -/
def Quiet (work : Evaluation α) : Prop :=
  ∀ frame : Frame, Ends work frame (fun _ after => after.entries = frame.entries)
    (fun _ after => after.entries = frame.entries)

theorem quiet_pure (value : α) : Quiet (pure value) := fun _ => rfl

theorem quiet_throw (fault : Fault) : Quiet (throw fault : Evaluation α) := fun _ => rfl

theorem quiet_lift (outcome : Except Fault α) : Quiet (lift outcome) := by
  cases outcome with
  | ok value => exact quiet_pure value
  | error fault => exact quiet_throw fault

theorem Quiet.bind {first : Evaluation α} {next : α → Evaluation β} (quiet : Quiet first)
    (more : ∀ value, Quiet (next value)) : Quiet (first >>= next) := by
  intro frame
  refine (quiet frame).bind (fun value after kept => ?_) (fun _ _ kept => kept)
  rw [← kept]
  exact more value after

theorem Quiet.mapM {act : α → Evaluation β} (each : ∀ item, Quiet (act item)) (list : List α) :
    Quiet (list.mapM act) := by
  induction list with
  | nil => exact quiet_pure _
  | cons item rest ih =>
    rw [List.mapM_cons]
    exact (each item).bind fun _ => ih.bind fun _ => quiet_pure _

theorem quiet_resolve (outer : List Scope) (name : Datum) : Quiet (resolve outer name) :=
  fun frame => quiet_lift (Scope.resolve (frame.scope :: outer) name) frame

theorem quiet_define (name : Datum) (value : Value) : Quiet (define name value) :=
  (quiet_lift name.asKey).bind fun _ _ => rfl

theorem quiet_inScope {work : Evaluation α} (scope : Scope) (quiet : Quiet work) :
    Quiet (inScope scope work) := by
  intro frame
  rw [ends_inScope]
  exact quiet { frame with scope }

/-- The first level says nothing about definitions and calls. -/
theorem quiet_record {detail : Detail} (finer : detail ≠ .statement)
    (pieces : Unit → Except Fault (List Datum)) : Quiet (record (.start 1) detail pieces) := by
  rw [record_of_lt (by cases detail <;> simp_all [Detail.level])]
  exact quiet_pure _

/-- The first level writes the value of a statement. -/
theorem record_statement (index : Nat) (x : Float) (frame : Frame) :
    record (.start 1) .statement (fun _ => statementEntry index (.number x)) frame =
      .ok ⟨⟩ { frame with
        entries := ⟨.statement, s!"statement {index}: {Number.text x}"⟩ :: frame.entries } := by
  have composed : (statementEntry index (.number x) >>= Datum.sentence 0) =
      .ok (s!"statement {index}: " ++ (Number.text x ++ "")) := rfl
  rw [record_of_le (Int.le_refl 1), composed, String.append_empty]
  rfl

end Evaluation

namespace Node
open Evaluation

/-- At the first level nothing is written about the parts of a statement. -/
theorem evaluate_quiet (depth : Nat) (outer : List Scope) (node : Node) :
    Quiet (node.evaluate (.start 1) depth outer) := by
  induction depth generalizing outer node with
  | zero => exact quiet_throw _
  | succ depth ih =>
    cases node with
    | program body => exact quiet_throw _
    | number x => exact quiet_pure _
    | reference name =>
      refine (quiet_resolve outer name).bind fun value => ?_
      cases value with | _ => exact fun _ => rfl
    | binary operator left right =>
      refine (ih outer left).bind fun a => (quiet_lift _).bind fun a => ?_
      refine (ih outer right).bind fun b => (quiet_lift _).bind fun b => ?_
      cases operator.apply a b with | _ => exact fun _ => rfl
    | definition name value =>
      refine (ih outer value).bind fun result => (quiet_define name result).bind fun _ => ?_
      exact (quiet_record (by decide) _).bind fun _ => quiet_pure _
    | function name parameters body =>
      refine (quiet_define name _).bind fun _ => ?_
      exact (quiet_record (by decide) _).bind fun _ => quiet_pure _
    | call name arguments =>
      refine Quiet.bind ?_ fun f => (Quiet.mapM (ih outer) arguments).bind fun values => ?_
      · refine (quiet_resolve outer name).bind fun value => ?_
        cases value with | _ => exact fun _ => rfl
      · refine (quiet_lift _).bind fun scope => (quiet_record (by decide) _).bind fun _ frame => ?_
        exact quiet_inScope scope (ih (frame.scope :: outer) f.body) frame

/-- From a frame, statements are completed with numbers for their values, up to the end or up to one
    that fails, and these are logged. -/
structure Numbers (depth index : Nat) (r : Float) (body : List Node) (frame : Frame)
    (values : List Float) : Prop where
  log : (outcome (evaluateAll (.start 1) depth [] index (.number r) body) frame).2.entries =
    (Log.numbered index values).reverse ++ frame.entries
  completed : ∀ count ≤ body.length,
    (∃ x, (outcome (evaluateAll (.start 1) depth [] index (.number r) (body.take count)) frame).1 =
      .ok (.number x)) ↔ count ≤ values.length
  value : ∀ place (within : place < values.length),
    (outcome (evaluateAll (.start 1) depth [] index (.number r) (body.take (place + 1))) frame).1 =
      .ok (.number values[place])

/-- The statements of an ordinary program are numbered from the first one on. -/
theorem exists_numbers {body : List Node} {frame : Frame} (depth index : Nat) (r : Float)
    (ordinary : ∀ statement ∈ body, statement.Ordinary)
    (within : frame.scope.Holds (Value.Within Ordinary)) :
    ∃ values, Numbers depth index r body frame values := by
  induction body generalizing frame index r with
  | nil =>
    refine ⟨[], rfl, fun count enough => ?_, nofun⟩
    rw [List.take_nil]
    exact ⟨fun _ => enough, fun _ => ⟨r, rfl⟩⟩
  | cons statement rest ih =>
    obtain ⟨first, others⟩ := List.forall_mem_cons.1 ordinary
    have typed : Task.Typed Ordinary ⟨depth, [], statement, frame⟩ := ⟨first, within, nofun⟩
    have sound := @Task.sound Ordinary (.start 1) hereditary_ordinary depth _ _ _ typed
    have quiet := statement.evaluate_quiet depth [] frame
    cases ended : statement.evaluate (.start 1) depth [] frame with
    | error fault after =>
      have fails (more : List Node) :
          evaluateAll (.start 1) depth [] index (.number r) (statement :: more) frame = .error fault after := by
        rw [evaluateAll, bind_of_error ended]
      refine ⟨[], ?_, fun count _ => ?_, nofun⟩
      · rw [outcome_of_error (fails rest)]
        exact quiet.of_error ended
      · cases count with
        | zero => exact ⟨fun _ => Nat.le_refl 0, fun _ => ⟨r, rfl⟩⟩
        | succ count =>
          rw [List.take_succ_cons, outcome_of_error (fails _)]
          simp
    | ok value after =>
      obtain ⟨⟨x, rfl⟩, kept⟩ := sound.of_ok ended
      let logged : Frame :=
        { after with entries := ⟨.statement, s!"statement {index}: {Number.text x}"⟩ :: after.entries }
      have goesOn (more : List Node) :
          outcome (evaluateAll (.start 1) depth [] index (.number r) (statement :: more)) frame =
            outcome (evaluateAll (.start 1) depth [] (index + 1) (.number x) more) logged := by
        have steps : evaluateAll (.start 1) depth [] index (.number r) (statement :: more) frame =
            evaluateAll (.start 1) depth [] (index + 1) (.number x) more logged := by
          rw [evaluateAll, bind_of_ok ended]
          exact bind_of_ok (record_statement index x after)
        rw [outcome, outcome, EStateM.run, EStateM.run, steps]
      obtain ⟨values, log, completed, value⟩ := @ih logged (index + 1) x others kept
      refine ⟨x :: values, ?_, fun count enough => ?_, fun place inside => ?_⟩
      · rw [goesOn, log, Log.numbered, List.reverse_cons, List.append_assoc]
        exact congrArg (_ ++ _ :: ·) (quiet.of_ok ended)
      · cases count with
        | zero => exact ⟨fun _ => Nat.zero_le _, fun _ => ⟨r, rfl⟩⟩
        | succ count =>
          rw [List.take_succ_cons, goesOn, completed count (Nat.le_of_succ_le_succ enough),
            List.length_cons, Nat.succ_le_succ_iff]
      · rw [List.take_succ_cons, goesOn]
        cases place with
        | zero => rfl
        | succ place => exact value place (Nat.lt_of_succ_lt_succ inside)

end Node

namespace Log
open Reckoner.Datum (isNumeric isNumeric_toDigits isNumeric_text isNumeric_ne)

/-- The entry for the value of a statement is written with numerals and a few other characters. -/
theorem not_mem_entry (index : Nat) (x : Float) {c : Char} (notNumeric : isNumeric c = false)
    (other : c ∉ "statement : ".toList) : c ∉ (s!"statement {index}: {Number.text x}").toList := by
  intro inside
  simp only [String.toList_append, List.mem_append] at inside
  rcases inside with ((word | digit) | colon) | numeral
  · exact other (List.mem_append_left [':', ' '] word)
  · rw [show (toString index).toList = Nat.toDigits 10 index from String.toList_ofList] at digit
    exact isNumeric_ne (isNumeric_toDigits digit) notNumeric rfl
  · exact other (List.mem_append_right "statement ".toList colon)
  · exact isNumeric_ne (isNumeric_text x c numeral) notNumeric rfl

/-- An entry with the value of a statement takes one line. -/
theorem plain_of_mem_numbered {index : Nat} {values : List Float} {entry : Entry}
    (inside : entry ∈ numbered index values) :
    '\n' ∉ entry.text.toList ∧ '\r' ∉ entry.text.toList := by
  induction values generalizing index with
  | nil => cases inside
  | cons x values ih =>
    rcases List.mem_cons.1 inside with rfl | later
    · exact ⟨not_mem_entry index x rfl (by decide), not_mem_entry index x rfl (by decide)⟩
    · exact ih later

theorem lines_numbered (index : Nat) (values : List Float) :
    (numbered index values).lines = (numbered index values).map Entry.text :=
  lines_of_plain fun _ => plain_of_mem_numbered

end Log

/-- A report on the same run at a lower level: all is the same, and of the log there is what is up to
    that level. -/
structure Report.Abridges (level : Int) (brief full : Report Float) : Prop where
  result : brief.result = full.result
  globals : brief.session.globals = full.session.globals
  log : brief.log = full.log.upTo level

/-- A program of ordinary statements. -/
def Node.Composed (program : Node) : Prop :=
  ∃ body, program = .program body ∧ ∀ statement ∈ body, statement.Ordinary

namespace Session
open Evaluation Node
variable {limits : Limits}

/-- The reports of programs that are run one after another, whatever their outcomes. -/
def runAll (limits : Limits) : Session → List Node → List (Report Float)
  | _, [] => []
  | session, first :: rest =>
    let report := session.run limits [] first
    report :: runAll limits report.session rest

/-- The session that programs leave that are run one after another. -/
def afterAll (limits : Limits) (session : Session) (programs : List Node) : Session :=
  programs.foldl (fun session program => (session.run limits [] program).session) session

/-- In a session the statements of a program are completed with numbers for their values, up to the end
    or up to one that fails. The program up to a statement runs if that is completed, its value is then
    the result, and the log has one line for each value. -/
structure Numbers (limits : Limits) (session : Session) (body : List Node) (values : List Float) :
    Prop where
  log : (session.run limits [] (.program body)).log = Log.numbered 1 values
  lines : (session.run limits [] (.program body)).log.lines = (Log.numbered 1 values).map Entry.text
  completed : ∀ count ≤ body.length,
    (∃ x, (session.run limits [] (.program (body.take count))).result = .ok x) ↔ count ≤ values.length
  value : ∀ place (within : place < values.length),
    (session.run limits [] (.program (body.take (place + 1)))).result = .ok values[place]

section
variable {session : Session} {body : List Node} {last : Frame}

theorem lift_statements (frame : Frame) :
    (Evaluation.lift (Node.program body).statements : Evaluation (List Node)) frame = .ok body frame := rfl

/-- The report on a run of statements that end with a number. -/
theorem run_of_ok {x : Float}
    (ended : evaluateAll session.logging limits.calls [] 1 (.number 0.0) body ⟨session.globals, []⟩ =
      .ok (.number x) last) :
    session.run limits [] (.program body) =
      ⟨.ok x, [], last.entries.reverse, { session with globals := last.scope }⟩ := by
  have ran : (Node.program body).run session.logging limits.calls [] ⟨session.globals, []⟩ =
      .ok x last := by
    rw [Node.run, bind_of_ok (lift_statements _)]
    exact bind_of_ok (tryCatch_of_ok ended)
  unfold run perform
  dsimp only [List.nil_append, List.tail_cons, List.headD_cons]
  rw [outcome_of_ok ran]
  rfl

/-- The report on a run of statements that fail. -/
theorem run_of_error {fault : Fault}
    (ended : evaluateAll session.logging limits.calls [] 1 (.number 0.0) body ⟨session.globals, []⟩ =
      .error fault last) :
    session.run limits [] (.program body) =
      ⟨.error (Task.reported fault), [], last.entries.reverse, { session with globals := last.scope }⟩ := by
  have ran : (Node.program body).run session.logging limits.calls [] ⟨session.globals, []⟩ =
      .error (Task.reported fault) last := by
    rw [Node.run, bind_of_ok (lift_statements _)]
    refine bind_of_error ((tryCatch_of_error ended).trans ?_)
    cases fault with | _ => rfl
  unfold run perform
  dsimp only [List.nil_append, List.tail_cons, List.headD_cons]
  rw [outcome_of_error ran]
  rfl

end

section
variable {globals : Scope} (within : globals.Holds (Value.Within Ordinary)) {body : List Node}
  (ordinary : ∀ statement ∈ body, statement.Ordinary)
include within ordinary

/-- The statements of an ordinary program leave numbers and ordinary functions, and they end with a
    number, or fail at their depth or with an error of the language. -/
theorem ends_ordinary (logging : Logging) (depth : Nat) :
    Ends (evaluateAll logging depth [] 1 (.number 0.0) body) ⟨globals, []⟩
      (fun value last => (∃ x, value = .number x) ∧ last.scope.Holds (Value.Within Ordinary))
      (fun fault last => ¬ fault.Outside ∧ last.scope.Holds (Value.Within Ordinary)) := by
  have alone : ∀ scope ∈ ([] : List Scope), scope.Holds (Value.Within Ordinary) := nofun
  refine (Task.ends_evaluateAll hereditary_ordinary ordinary ⟨0.0, rfl⟩ within alone).imp
    (fun _ _ ended => ended) ?_
  rintro fault last ⟨⟨task, begins, culprit, reaches, fails⟩, kept⟩
  refine ⟨fun outside => ?_, kept⟩
  have typed := begins.typed hereditary_ordinary ordinary within alone
  rcases fails.ordinary (typed.reaches hereditary_ordinary reaches) with deep | ⟨error, same⟩
  · exact outside.1 deep
  · exact outside.2 error same

theorem holds_run (logging : Logging) :
    ((⟨globals, logging⟩ : Session).run limits [] (.program body)).session.globals.Holds
      (Value.Within Ordinary) := by
  have ends := ends_ordinary within ordinary logging limits.calls
  cases ended : evaluateAll logging limits.calls [] 1 (.number 0.0) body ⟨globals, []⟩ with
  | ok value last =>
    obtain ⟨⟨x, rfl⟩, kept⟩ := ends.of_ok ended
    rwa [run_of_ok ended]
  | error fault last =>
    obtain ⟨_, kept⟩ := ends.of_error ended
    rwa [run_of_error ended]

/-- A run at a higher level does the same and writes no less. -/
theorem run_abridges {level higher : Int} (order : level ≤ higher) :
    Report.Abridges level ((⟨globals, .start level⟩ : Session).run limits [] (.program body))
      ((⟨globals, .start higher⟩ : Session).run limits [] (.program body)) := by
  have ends := ends_ordinary within ordinary (.start higher) limits.calls
  cases evaluateAll_abridged order limits.calls [] 1 (.number 0.0) body ⟨globals, []⟩ with
  | ok whole part =>
    obtain ⟨⟨x, rfl⟩, _⟩ := ends.of_ok whole
    rw [@run_of_ok limits ⟨globals, .start higher⟩ _ _ _ whole,
      @run_of_ok limits ⟨globals, .start level⟩ _ _ _ part]
    exact ⟨rfl, rfl, (Log.upTo_reverse level _).symm⟩
  | error whole part =>
    rw [@run_of_error limits ⟨globals, .start higher⟩ _ _ _ whole,
      @run_of_error limits ⟨globals, .start level⟩ _ _ _ part]
    exact ⟨rfl, rfl, (Log.upTo_reverse level _).symm⟩
  | outside whole outside => exact absurd outside (ends.of_error whole).1

/-- The log of a run and its number are those that the statements end with. -/
theorem run_outcome (logging : Logging) :
    let report := (⟨globals, logging⟩ : Session).run limits [] (.program body)
    let ended := outcome (evaluateAll logging limits.calls [] 1 (.number 0.0) body) ⟨globals, []⟩
    report.log = ended.2.entries.reverse ∧ ∀ x, report.result = .ok x ↔ ended.1 = .ok (.number x) := by
  have ends := ends_ordinary within ordinary logging limits.calls
  cases ended : evaluateAll logging limits.calls [] 1 (.number 0.0) body ⟨globals, []⟩ with
  | ok value last =>
    obtain ⟨⟨x, rfl⟩, kept⟩ := ends.of_ok ended
    rw [run_of_ok ended, outcome_of_ok ended]
    simp
  | error fault last =>
    rw [run_of_error ended, outcome_of_error ended]
    simp

/-- At the first level a run numbers its statements. -/
theorem exists_numbers_run :
    ∃ values, (⟨globals, .start 1⟩ : Session).Numbers limits body values := by
  obtain ⟨values, log, completed, value⟩ :=
    @exists_numbers body ⟨globals, []⟩ limits.calls 1 0.0 ordinary within
  have ordinaryTake (count : Nat) : ∀ statement ∈ body.take count, statement.Ordinary :=
    fun statement inside => ordinary statement (List.mem_of_mem_take inside)
  have logged : ((⟨globals, .start 1⟩ : Session).run limits [] (.program body)).log =
      Log.numbered 1 values := by
    rw [(run_outcome within ordinary (.start 1)).1, log, List.append_nil, List.reverse_reverse]
  refine ⟨values, logged, by rw [logged, Log.lines_numbered], fun count enough => ?_, fun place inside => ?_⟩
  · rw [← completed count enough]
    exact exists_congr (run_outcome within (ordinaryTake count) (.start 1)).2
  · exact ((run_outcome within (ordinaryTake (place + 1)) (.start 1)).2 _).2 (value place inside)

end

/-- Programs in a row leave numbers and ordinary functions at the same level. -/
theorem exists_afterAll {globals : Scope} (within : globals.Holds (Value.Within Ordinary))
    {programs : List Node} (ordinary : ∀ program ∈ programs, program.Composed) (limits : Limits)
    (logging : Logging) :
    ∃ names, afterAll limits ⟨globals, logging⟩ programs = ⟨names, logging⟩ ∧
      names.Holds (Value.Within Ordinary) := by
  induction programs generalizing globals with
  | nil => exact ⟨globals, rfl, within⟩
  | cons first rest ih =>
    obtain ⟨⟨body, rfl, statements⟩, others⟩ := List.forall_mem_cons.1 ordinary
    exact ih (holds_run within statements logging) others

/-- Debugging changes nothing. From global names for numbers and ordinary functions, ordinary programs
    in a row have the same results and leave the same names at every two levels, and the log of each run
    at the lower level is that at the higher one without the entries above the lower. At the first level
    each run numbers its statements. -/
theorem runAll_abridged {globals : Scope} (within : globals.Holds (Value.Within Ordinary))
    {programs : List Node} (ordinary : ∀ program ∈ programs, program.Composed) (limits : Limits) :
    (∀ level higher : Int, level ≤ higher → List.Forall₂ (Report.Abridges level)
        (runAll limits ⟨globals, .start level⟩ programs) (runAll limits ⟨globals, .start higher⟩ programs)) ∧
      ∀ before body later, programs = before ++ .program body :: later →
        ∃ values, (afterAll limits ⟨globals, .start 1⟩ before).Numbers limits body values := by
  refine ⟨fun level higher order => ?_, ?_⟩
  · induction programs generalizing globals with
    | nil => exact .nil
    | cons first rest ih =>
      obtain ⟨⟨body, rfl, statements⟩, others⟩ := List.forall_mem_cons.1 ordinary
      have abridges : Report.Abridges level
          ((⟨globals, .start level⟩ : Session).run limits [] (.program body)) _ :=
        run_abridges within statements order
      have kept := @holds_run limits globals within body statements (.start higher)
      -- Both go on from the same names.
      have goesOn : ((⟨globals, .start level⟩ : Session).run limits [] (.program body)).session =
          ⟨((⟨globals, .start higher⟩ : Session).run limits [] (.program body)).session.globals,
            .start level⟩ := by
        rw [← abridges.globals]
        rfl
      refine .cons abridges ?_
      rw [goesOn]
      exact ih kept others
  · rintro before body later rfl
    obtain ⟨names, left, kept⟩ := exists_afterAll within
      (fun program inside => ordinary program (List.mem_append_left _ inside)) limits (.start 1)
    obtain ⟨_, same, statements⟩ := ordinary (.program body) (by simp)
    cases same
    rw [left]
    exact exists_numbers_run kept statements

/-- The first of two programs fails after one statement; the second one numbers its statements anew. -/
theorem runAll_abridged_undefined :
    let globals : Scope := [(.text "x", .number 1)]
    let body : List Node := [.definition (.text "y") (.reference (.text "x")), .reference (.text "z")]
    let programs : List Node := [.program body, .program [.reference (.text "y")]]
    let full := runAll .standard ⟨globals, .start 2⟩ programs
    List.Forall₂ (Report.Abridges 1) (runAll .standard ⟨globals, .start 1⟩ programs) full ∧
      full.map (·.log.map Entry.detail) = [[.definition, .statement], [.statement]] ∧
      ∃ values, (afterAll .standard ⟨globals, .start 1⟩ [.program body]).Numbers .standard
        [.reference (.text "y")] values := by
  intro globals body programs full
  have within : globals.Holds (Value.Within Ordinary) := by simp [globals, Scope.Holds, Value.Within]
  have ordinary : ∀ program ∈ programs, program.Composed := by
    simp only [programs, body, List.forall_mem_cons]
    refine ⟨⟨_, rfl, ?_⟩, ⟨_, rfl, ?_⟩, List.forall_mem_nil _⟩
    · simpa using ⟨.definition _ (.reference _), .expression (.reference _)⟩
    · simpa using .expression (.reference _)
  obtain ⟨abridged, numbered⟩ := runAll_abridged within ordinary .standard
  exact ⟨abridged 1 2 (by decide), rfl, numbered [.program body] _ [] rfl⟩

end Session

end Reckoner
