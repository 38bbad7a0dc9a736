import Reckoner.Proofs.Ordinary

/-!
What evaluation reads of a frame and what it leaves of it. The log is only written: evaluations from
frames with the same scope end alike, whatever their logs hold. The scope is only changed by
definitions: an expression leaves it as it is, whatever functions are called in it and however it
ends.
-/
namespace Reckoner

namespace Evaluation
variable {α β : Type}

/-- From two frames, evaluations end with the same result or fault and in the same scope. -/
inductive Twins (work other : Evaluation α) (frame twin : Frame) : Prop
  | ok {value : α} {after afterTwin : Frame} (first : work frame = .ok value after)
      (second : other twin = .ok value afterTwin) (same : after.scope = afterTwin.scope)
  | error {fault : Fault} {after afterTwin : Frame} (first : work frame = .error fault after)
      (second : other twin = .error fault afterTwin) (same : after.scope = afterTwin.scope)

/-- Evaluations that end alike from frames with the same scope, whatever was logged before. -/
def Alike (work other : Evaluation α) : Prop :=
  ∀ frame twin : Frame, frame.scope = twin.scope → Twins work other frame twin

theorem alike_pure (value : α) : Alike (pure value) (pure value) :=
  fun _ _ same => .ok rfl rfl same

theorem alike_throw (fault : Fault) : Alike (throw fault : Evaluation α) (throw fault) :=
  fun _ _ same => .error rfl rfl same

theorem alike_lift (outcome : Except Fault α) : Alike (lift outcome) (lift outcome) := by
  cases outcome with
  | ok value => exact alike_pure value
  | error fault => exact alike_throw fault

theorem alike_liftError (outcome : Except Error α) : Alike (liftError outcome) (liftError outcome) := by
  cases outcome with
  | ok value => exact alike_pure value
  | error error => exact alike_throw _

theorem Alike.bind {first other : Evaluation α} {next further : α → Evaluation β}
    (alike : Alike first other) (more : ∀ value, Alike (next value) (further value)) :
    Alike (first >>= next) (other >>= further) := by
  intro frame twin same
  cases alike frame twin same with
  | @ok value after afterTwin one two scopes =>
    cases more value after afterTwin scopes with
    | ok first' second' same' =>
      exact .ok ((bind_of_ok one).trans first') ((bind_of_ok two).trans second') same'
    | error first' second' same' =>
      exact .error ((bind_of_ok one).trans first') ((bind_of_ok two).trans second') same'
  | error one two scopes => exact .error (bind_of_error one) (bind_of_error two) scopes

/-- What goes on from the scope of its frame goes on alike. -/
theorem alike_scope {next further : Scope → Evaluation α}
    (more : ∀ scope, Alike (next scope) (further scope)) :
    Alike (do next (← get).scope) (do further (← get).scope) := by
  intro frame twin same
  have alike := more frame.scope frame twin same
  change Twins (fun frame => next frame.scope frame) (fun twin => further twin.scope twin) frame twin
  cases alike with
  | ok first second scopes => exact .ok first (same ▸ second) scopes
  | error first second scopes => exact .error first (same ▸ second) scopes

theorem Alike.mapM {act other : α → Evaluation β} (each : ∀ item, Alike (act item) (other item))
    (list : List α) : Alike (list.mapM act) (list.mapM other) := by
  induction list with
  | nil => exact alike_pure _
  | cons item rest ih =>
    simp only [List.mapM_cons]
    exact (each item).bind fun _ => ih.bind fun _ => alike_pure _

theorem alike_resolve (outer : List Scope) (name : Datum) :
    Alike (resolve outer name) (resolve outer name) :=
  alike_scope fun scope => alike_lift (Scope.resolve (scope :: outer) name)

theorem alike_define (name : Datum) (value : Value) :
    Alike (define name value) (define name value) := by
  refine (alike_lift name.asKey).bind fun key frame twin same => ?_
  exact .ok rfl rfl (congrArg (fun scope => scope.set key value) same)

theorem alike_reference (outer : List Scope) (name : Datum) :
    Alike (reference outer name) (reference outer name) := by
  refine (alike_resolve outer name).bind fun value => ?_
  cases value with
  | function f => exact alike_throw _
  | _ => exact alike_pure _

theorem alike_callee (outer : List Scope) (name : Datum) :
    Alike (callee outer name) (callee outer name) := by
  refine (alike_resolve outer name).bind fun value => ?_
  cases value with
  | function f => exact alike_pure _
  | _ => exact alike_throw _

theorem alike_record (logging : Logging) (detail : Detail)
    (pieces : Unit → Except Fault (List Datum)) :
    Alike (record logging detail pieces) (record logging detail pieces) := by
  unfold record
  split
  · refine (alike_lift _).bind fun composed => ?_
    split
    · exact (alike_lift _).bind fun text _ _ same => .ok rfl rfl same
    · exact alike_pure _
  · exact alike_pure _

/-- An entry of texts is written and changes no scope. -/
theorem ends_record_texts (logging : Logging) (detail : Detail) (texts : List String)
    (frame : Frame) :
    Ends (record logging detail fun _ => .ok (texts.map .text)) frame
      (fun _ after => after.scope = frame.scope) (fun _ _ => False) := by
  refine ends_record.imp (fun _ _ kept => kept) ?_
  rintro fault after ⟨_, unwritten⟩
  exact Task.not_unwritten texts unwritten

/-- The entries for the value of a statement are written alike whatever its number is. -/
theorem alike_statementEntry (logging : Logging) (index other : Nat) (value : Value) :
    Alike (record logging .statement fun _ => statementEntry index value)
      (record logging .statement fun _ => statementEntry other value) := by
  unfold statementEntry
  cases value.shown with
  | error fault => exact alike_record _ _ _
  | ok shown =>
    have written (number : Nat) (frame : Frame) : ∃ after,
        record logging .statement (fun _ => .ok [.text s!"statement {number}: ", .text shown]) frame =
          .ok ⟨⟩ after ∧ after.scope = frame.scope := by
      have ends := ends_record_texts logging .statement [s!"statement {number}: ", shown] frame
      cases recorded : record logging .statement
          (fun _ => .ok [.text s!"statement {number}: ", .text shown]) frame with
      | ok value after => exact ⟨after, rfl, ends.of_ok recorded⟩
      | error fault after => exact (ends.of_error recorded).elim
    intro frame twin same
    obtain ⟨after, first, kept⟩ := written index frame
    obtain ⟨afterTwin, second, keptTwin⟩ := written other twin
    exact .ok first second (by rw [kept, keptTwin, same])

theorem alike_inScope {work other : Evaluation α} (scope : Scope) (alike : Alike work other) :
    Alike (inScope scope work) (inScope scope other) := by
  intro frame twin same
  cases alike { frame with scope } { twin with scope } rfl with
  | @ok value after afterTwin first second _ =>
    have one : inScope scope work frame = .ok value { after with scope := frame.scope } := by
      rw [inScope, first]
    have two : inScope scope other twin = .ok value { afterTwin with scope := twin.scope } := by
      rw [inScope, second]
    exact .ok one two same
  | @error fault after afterTwin first second _ =>
    have one : inScope scope work frame = .error fault { after with scope := frame.scope } := by
      rw [inScope, first]
    have two : inScope scope other twin = .error fault { afterTwin with scope := twin.scope } := by
      rw [inScope, second]
    exact .error one two same

end Evaluation

namespace Node
open Evaluation
variable {logging : Logging}

/-- What a node comes to does not depend on the log. -/
theorem evaluate_alike (depth : Nat) (outer : List Scope) (node : Node) :
    Alike (node.evaluate logging depth outer) (node.evaluate logging depth outer) := by
  induction depth generalizing outer node with
  | zero => exact alike_throw _
  | succ depth ih =>
    cases node with
    | program body => exact alike_throw _
    | number x => exact alike_pure _
    | reference name => exact alike_reference outer name
    | binary operator left right =>
      refine (ih outer left).bind fun a => (alike_lift _).bind fun a => ?_
      refine (ih outer right).bind fun b => (alike_lift _).bind fun b => ?_
      exact (alike_liftError _).bind fun _ => alike_pure _
    | definition name value =>
      refine (ih outer value).bind fun result => (alike_define name result).bind fun _ => ?_
      exact (alike_record _ _ _).bind fun _ => alike_pure _
    | function name parameters body =>
      refine (alike_define name _).bind fun _ => ?_
      exact (alike_record _ _ _).bind fun _ => alike_pure _
    | call name arguments =>
      refine (alike_callee outer name).bind fun f => (Alike.mapM (ih outer) arguments).bind fun values => ?_
      refine (alike_lift _).bind fun scope => (alike_record _ _ _).bind fun _ => ?_
      exact alike_scope fun caller => alike_inScope scope (ih (caller :: outer) f.body)

theorem evaluateAll_alike (depth : Nat) (outer : List Scope) (index other : Nat) (result : Value)
    (statements : List Node) :
    Alike (evaluateAll logging depth outer index result statements)
      (evaluateAll logging depth outer other result statements) := by
  induction statements generalizing index other result with
  | nil => exact alike_pure _
  | cons statement rest ih =>
    refine (evaluate_alike depth outer statement).bind fun value => ?_
    exact (alike_statementEntry logging index other value).bind fun _ => ih _ _ value

end Node

namespace Evaluation
variable {α β : Type}

/-- An evaluation that leaves the scope of every frame as it is, whatever its outcome. -/
def Preserves (work : Evaluation α) : Prop :=
  ∀ frame : Frame, Ends work frame (fun _ after => after.scope = frame.scope)
    (fun _ after => after.scope = frame.scope)

theorem Preserves.bind {first : Evaluation α} {next : α → Evaluation β} (one : Preserves first)
    (more : ∀ value, Preserves (next value)) : Preserves (first >>= next) := by
  intro frame
  refine (one frame).bind (fun value after kept => ?_) (fun _ _ kept => kept)
  rw [← kept]
  exact more value after

theorem preserves_lift (outcome : Except Fault α) : Preserves (lift outcome) := by
  cases outcome with
  | ok value => exact fun _ => rfl
  | error fault => exact fun _ => rfl

theorem preserves_resolve (outer : List Scope) (name : Datum) : Preserves (resolve outer name) :=
  fun frame => preserves_lift (Scope.resolve (frame.scope :: outer) name) frame

theorem preserves_record (logging : Logging) (detail : Detail)
    (pieces : Unit → Except Fault (List Datum)) : Preserves (record logging detail pieces) := by
  intro frame
  refine ends_record.imp (fun _ _ kept => kept) ?_
  rintro fault after ⟨rfl, _⟩
  rfl

/-- What is done in a scope of its own leaves the scope in front of it as it was. -/
theorem preserves_inScope (scope : Scope) (work : Evaluation α) : Preserves (inScope scope work) := by
  intro frame
  rw [ends_inScope, Ends]
  cases work { frame with scope } with
  | ok value after => rfl
  | error fault after => rfl

theorem Preserves.mapM {act : α → Evaluation β} {list : List α}
    (each : ∀ item ∈ list, Preserves (act item)) : Preserves (list.mapM act) := by
  induction list with
  | nil => exact fun _ => rfl
  | cons item rest ih =>
    obtain ⟨first, others⟩ := List.forall_mem_cons.1 each
    rw [List.mapM_cons]
    exact first.bind fun _ => (ih others).bind fun _ _ => rfl

end Evaluation

namespace Node
open Evaluation
variable {logging : Logging}

/-- An expression leaves the scope as it is, whatever functions are called in it. -/
theorem Arithmetic.preserves {node : Node} (arithmetic : node.Arithmetic) (depth : Nat)
    (outer : List Scope) : Preserves (node.evaluate logging depth outer) := by
  induction arithmetic generalizing depth with
  | number x => cases depth with | _ => exact fun _ => rfl
  | reference name =>
    cases depth with
    | zero => exact fun _ => rfl
    | succ depth =>
      refine (preserves_resolve outer _).bind fun value => ?_
      cases value with | _ => exact fun _ => rfl
  | binary operator first second ihFirst ihSecond =>
    cases depth with
    | zero => exact fun _ => rfl
    | succ depth =>
      refine (ihFirst depth).bind fun a => (preserves_lift _).bind fun a => ?_
      refine (ihSecond depth).bind fun b => (preserves_lift _).bind fun b => ?_
      cases operator.apply a b with | _ => exact fun _ => rfl
  | call name each ih =>
    cases depth with
    | zero => exact fun _ => rfl
    | succ depth =>
      refine Preserves.bind ?_ fun f => ?_
      · refine (preserves_resolve outer _).bind fun value => ?_
        cases value with | _ => exact fun _ => rfl
      · refine (Preserves.mapM fun argument inside => ih argument inside depth).bind fun values => ?_
        refine (preserves_lift _).bind fun scope => (preserves_record _ _ _).bind fun _ => ?_
        exact fun frame => preserves_inScope scope _ frame

end Node

end Reckoner
