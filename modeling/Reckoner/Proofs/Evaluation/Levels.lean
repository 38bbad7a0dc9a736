import Reckoner.Proofs.Evaluation.Causes

/-!
Levels of the log. A run at a higher level does the same as one at a lower level and writes the same
entries with others in between. Composing an entry changes nothing; it could only fail, with a fault
from outside the language. `Abridged` says this of two evaluations and goes through them step by step.
-/
namespace Reckoner

namespace Log

/-- The entries of a log that a level asks for. -/
def upTo (level : Int) (log : Log) : Log := log.filter fun entry => entry.detail.level ≤ level

theorem upTo_cons_of_le {level : Int} {entry : Entry} (asked : entry.detail.level ≤ level) (log : Log) :
    upTo level (entry :: log) = entry :: upTo level log :=
  List.filter_cons_of_pos (by simpa using asked)

theorem upTo_cons_of_lt {level : Int} {entry : Entry} (above : level < entry.detail.level) (log : Log) :
    upTo level (entry :: log) = upTo level log :=
  List.filter_cons_of_neg (by simpa using above)

theorem upTo_reverse (level : Int) (log : Log) : upTo level log.reverse = (upTo level log).reverse :=
  List.filter_reverse

end Log

/-- A frame with only those entries of its log that a level asks for. -/
def Frame.upTo (level : Int) (frame : Frame) : Frame :=
  { frame with entries := Log.upTo level frame.entries }

/-- A fault from outside the language. -/
def Fault.Outside (fault : Fault) : Prop := fault ≠ .depth ∧ ∀ error, fault ≠ .error error

theorem Value.outside_of_shown {value : Value} {fault : Fault} (fails : value.shown = .error fault) :
    fault.Outside := by
  cases value with
  | number x => cases fails
  | function f =>
    rcases bind_eq_error_iff.1 fails with noHeading | ⟨_, _, made⟩
    · obtain ⟨place, type, rfl⟩ := Function.heading_eq_error noHeading
      exact ⟨nofun, nofun⟩
    · cases made
  | foreign datum =>
    rcases bind_eq_error_iff.1 fails with noNumber | ⟨_, _, made⟩
    · cases datum with
      | number x => cases noNumber
      | bool b => cases noNumber
      | integer i =>
        simp only [Datum.toFloat] at noNumber
        split at noNumber <;> cases noNumber
        exact ⟨nofun, nofun⟩
      | spelling text =>
        simp only [Datum.toFloat, Spelling.toFloat] at noNumber
        split at noNumber <;> cases noNumber
        exact ⟨nofun, nofun⟩
      | _ =>
        cases noNumber
        exact ⟨nofun, nofun⟩
    · cases made

namespace Evaluation
variable {α β : Type} {level : Int}

/-- How an evaluation ends from a frame, and another one from the frame with the entries up to a level:
    with the same result or fault, in frames that differ likewise. Only a fault from outside the
    language may come up in the one alone. -/
inductive Abridges (level : Int) (brief full : Evaluation α) (frame : Frame) : Prop
  | ok {value : α} {after : Frame} (whole : full frame = .ok value after)
      (part : brief (frame.upTo level) = .ok value (after.upTo level))
  | error {fault : Fault} {after : Frame} (whole : full frame = .error fault after)
      (part : brief (frame.upTo level) = .error fault (after.upTo level))
  | outside {fault : Fault} {after : Frame} (whole : full frame = .error fault after)
      (outside : fault.Outside)

/-- An evaluation does what another one does, and logs of it what is up to a level. -/
def Abridged (level : Int) (brief full : Evaluation α) : Prop :=
  ∀ frame, Abridges level brief full frame

theorem abridged_pure (value : α) : Abridged level (pure value) (pure value) := fun _ => .ok rfl rfl

theorem abridged_throw (fault : Fault) : Abridged level (throw fault : Evaluation α) (throw fault) :=
  fun _ => .error rfl rfl

theorem abridged_lift (outcome : Except Fault α) : Abridged level (lift outcome) (lift outcome) := by
  cases outcome with
  | ok value => exact abridged_pure value
  | error fault => exact abridged_throw fault

theorem abridged_liftError (outcome : Except Error α) :
    Abridged level (liftError outcome) (liftError outcome) := by
  cases outcome with
  | ok value => exact abridged_pure value
  | error error => exact abridged_throw _

theorem Abridged.bind {brief full : Evaluation α} {next further : α → Evaluation β}
    (first : Abridged level brief full) (more : ∀ value, Abridged level (next value) (further value)) :
    Abridged level (brief >>= next) (full >>= further) := by
  intro frame
  cases first frame with
  | @ok value middle whole part =>
    cases more value middle with
    | ok wholeNext partNext =>
      exact .ok ((bind_of_ok whole).trans wholeNext) ((bind_of_ok part).trans partNext)
    | error wholeNext partNext =>
      exact .error ((bind_of_ok whole).trans wholeNext) ((bind_of_ok part).trans partNext)
    | outside wholeNext outside => exact .outside ((bind_of_ok whole).trans wholeNext) outside
  | error whole part => exact .error (bind_of_error whole) (bind_of_error part)
  | outside whole outside => exact .outside (bind_of_error whole) outside

/-- What goes on from the scope of its frame does so from the same scope. -/
theorem abridged_scope {next further : Scope → Evaluation α}
    (more : ∀ scope, Abridged level (next scope) (further scope)) :
    Abridged level (do next (← get).scope) (do further (← get).scope) := by
  intro frame
  cases more frame.scope frame with
  | ok whole part => exact .ok whole part
  | error whole part => exact .error whole part
  | outside whole outside => exact .outside whole outside

theorem Abridged.mapM {act full : α → Evaluation β} (each : ∀ item, Abridged level (act item) (full item))
    (list : List α) : Abridged level (list.mapM act) (list.mapM full) := by
  induction list with
  | nil => exact abridged_pure _
  | cons item rest ih =>
    simp only [List.mapM_cons]
    exact (each item).bind fun _ => ih.bind fun _ => abridged_pure _

theorem abridged_resolve (outer : List Scope) (name : Datum) :
    Abridged level (resolve outer name) (resolve outer name) :=
  abridged_scope fun scope => abridged_lift (Scope.resolve (scope :: outer) name)

theorem abridged_define (name : Datum) (value : Value) :
    Abridged level (define name value) (define name value) :=
  (abridged_lift name.asKey).bind fun _ _ => .ok rfl rfl

theorem abridged_reference (outer : List Scope) (name : Datum) :
    Abridged level (reference outer name) (reference outer name) := by
  refine (abridged_resolve outer name).bind fun value => ?_
  cases value with
  | function f => exact abridged_throw _
  | _ => exact abridged_pure _

theorem abridged_callee (outer : List Scope) (name : Datum) :
    Abridged level (callee outer name) (callee outer name) := by
  refine (abridged_resolve outer name).bind fun value => ?_
  cases value with
  | function f => exact abridged_pure _
  | _ => exact abridged_throw _

theorem abridged_inScope {brief full : Evaluation α} (scope : Scope) (abridged : Abridged level brief full) :
    Abridged level (inScope scope brief) (inScope scope full) := by
  intro frame
  have inner : ({ frame.upTo level with scope } : Frame) = ({ frame with scope } : Frame).upTo level := rfl
  cases abridged { frame with scope } with
  | @ok value after whole part =>
    have wholeOut : inScope scope full frame = .ok value { after with scope := frame.scope } := by
      rw [inScope, whole]
    refine .ok wholeOut ?_
    rw [inScope, inner, part]
    rfl
  | @error fault after whole part =>
    have wholeOut : inScope scope full frame = .error fault { after with scope := frame.scope } := by
      rw [inScope, whole]
    refine .error wholeOut ?_
    rw [inScope, inner, part]
    rfl
  | @outside fault after whole outside =>
    have wholeOut : inScope scope full frame = .error fault { after with scope := frame.scope } := by
      rw [inScope, whole]
    exact .outside wholeOut outside

/-- A level that asks for an entry writes its text or fails at composing it. -/
theorem record_of_le {detail : Detail} (asked : detail.level ≤ level)
    (pieces : Unit → Except Fault (List Datum)) (frame : Frame) :
    record (.start level) detail pieces frame =
      match pieces () >>= Datum.sentence 0 with
      | .ok text => .ok ⟨⟩ { frame with entries := ⟨detail, text⟩ :: frame.entries }
      | .error fault => .error fault frame := by
  have positive : 0 < level := by cases detail <;> simp only [Detail.level] at asked <;> omega
  have includes : (Logging.start level).includes detail = true := decide_eq_true asked
  have writing : (Logging.start level).writing = true := decide_eq_true positive
  simp only [record, includes, writing, ↓reduceIte]
  cases pieces () with
  | error fault => rfl
  | ok composed =>
    change (lift (Datum.sentence 0 composed) >>= _) frame = match Datum.sentence 0 composed with
      | .ok text => _
      | .error fault => _
    cases Datum.sentence 0 composed with | _ => rfl

/-- A level below that of an entry does nothing about it. -/
theorem record_of_lt {detail : Detail} (above : level < detail.level)
    (pieces : Unit → Except Fault (List Datum)) : record (.start level) detail pieces = pure ⟨⟩ := by
  have excludes : (Logging.start level).includes detail = false :=
    decide_eq_false (Int.not_le.2 above)
  rw [record, excludes]
  rfl

/-- An entry is written at both levels, only at the higher one or at none of them. -/
theorem abridged_record {higher : Int} (order : level ≤ higher) (detail : Detail)
    {pieces : Unit → Except Fault (List Datum)}
    (composes : ∀ fault, pieces () = .error fault → fault.Outside) :
    Abridged level (record (.start level) detail pieces) (record (.start higher) detail pieces) := by
  intro frame
  by_cases asked : detail.level ≤ higher
  · have whole := record_of_le asked pieces frame
    cases made : pieces () >>= Datum.sentence 0 with
    | error fault =>
      rw [made] at whole
      refine .outside whole ?_
      rcases bind_eq_error_iff.1 made with fails | ⟨composed, _, fails⟩
      · exact composes fault fails
      · obtain ⟨_, _, _, rfl⟩ := Datum.sentence_eq_error fails
        exact ⟨nofun, nofun⟩
    | ok text =>
      rw [made] at whole
      refine .ok whole ?_
      by_cases also : detail.level ≤ level
      · rw [record_of_le also, made, Frame.upTo, Frame.upTo, Log.upTo_cons_of_le also]
      · rw [record_of_lt (by omega), Frame.upTo, Frame.upTo, Log.upTo_cons_of_lt (by simpa using also)]
        rfl
  · rw [record_of_lt (by omega), record_of_lt (by omega)]
    exact abridged_pure _ frame

theorem abridged_definitionEntry {higher : Int} (order : level ≤ higher) (name : Datum) (value : Value) :
    Abridged level (record (.start level) .definition fun _ => definitionEntry name value)
      (record (.start higher) .definition fun _ => definitionEntry name value) := by
  refine abridged_record order _ fun fault fails => ?_
  rcases bind_eq_error_iff.1 fails with shown | ⟨_, _, made⟩
  · exact Value.outside_of_shown shown
  · cases made

theorem abridged_functionEntry {higher : Int} (order : level ≤ higher) (f : Function) :
    Abridged level (record (.start level) .definition fun _ => functionEntry f)
      (record (.start higher) .definition fun _ => functionEntry f) := by
  refine abridged_record order _ fun fault fails => ?_
  rcases bind_eq_error_iff.1 fails with heading | ⟨_, _, made⟩
  · obtain ⟨_, _, rfl⟩ := Function.heading_eq_error heading
    exact ⟨nofun, nofun⟩
  · cases made

theorem abridged_callEntry {higher : Int} (order : level ≤ higher) (f : Function) (values : List Value)
    (size : Nat) :
    Abridged level (record (.start level) .call fun _ => callEntry f values size)
      (record (.start higher) .call fun _ => callEntry f values size) := by
  refine abridged_record order _ fun fault fails => ?_
  rcases bind_eq_error_iff.1 fails with several | ⟨_, _, made⟩
  · obtain ⟨value, _, shown⟩ := exists_of_mapM_eq_error several
    exact Value.outside_of_shown shown
  · cases made

theorem abridged_statementEntry {higher : Int} (order : level ≤ higher) (index : Nat) (value : Value) :
    Abridged level (record (.start level) .statement fun _ => statementEntry index value)
      (record (.start higher) .statement fun _ => statementEntry index value) := by
  refine abridged_record order _ fun fault fails => ?_
  rcases bind_eq_error_iff.1 fails with shown | ⟨_, _, made⟩
  · exact Value.outside_of_shown shown
  · cases made

end Evaluation

namespace Node
open Evaluation
variable {level higher : Int} (order : level ≤ higher)
include order

/-- A node comes to the same at a lower level. -/
theorem evaluate_abridged (depth : Nat) (outer : List Scope) (node : Node) :
    Abridged level (node.evaluate (.start level) depth outer)
      (node.evaluate (.start higher) depth outer) := by
  induction depth generalizing outer node with
  | zero => exact abridged_throw _
  | succ depth ih =>
    cases node with
    | program body => exact abridged_throw _
    | number x => exact abridged_pure _
    | reference name => exact abridged_reference outer name
    | binary operator left right =>
      refine (ih outer left).bind fun a => (abridged_lift _).bind fun a => ?_
      refine (ih outer right).bind fun b => (abridged_lift _).bind fun b => ?_
      exact (abridged_liftError _).bind fun _ => abridged_pure _
    | definition name value =>
      refine (ih outer value).bind fun result => (abridged_define name result).bind fun _ => ?_
      exact (abridged_definitionEntry order name result).bind fun _ => abridged_pure _
    | function name parameters body =>
      refine (abridged_define name _).bind fun _ => ?_
      exact (abridged_functionEntry order _).bind fun _ => abridged_pure _
    | call name arguments =>
      refine (abridged_callee outer name).bind fun f => ?_
      refine (Abridged.mapM (ih outer) arguments).bind fun values => (abridged_lift _).bind fun scope => ?_
      refine (abridged_callEntry order f values _).bind fun _ => ?_
      exact abridged_scope fun caller => abridged_inScope scope (ih (caller :: outer) f.body)

theorem evaluateAll_abridged (depth : Nat) (outer : List Scope) (index : Nat) (result : Value)
    (statements : List Node) :
    Abridged level (evaluateAll (.start level) depth outer index result statements)
      (evaluateAll (.start higher) depth outer index result statements) := by
  induction statements generalizing index result with
  | nil => exact abridged_pure _
  | cons statement rest ih =>
    refine (evaluate_abridged order depth outer statement).bind fun value => ?_
    exact (abridged_statementEntry order index value).bind fun _ => ih _ value

end Node

end Reckoner
