import Reckoner.Proofs.Descent.Takes

/-!
What is missing where a step of reading complains. `Mends` says of a step at a cursor that the tokens
before the one that it complains of can be completed to something whole, and goes through a reading step
by step: what is missing in one step is filled in first, then what the steps behind it would have taken.
-/
namespace Reckoner

namespace Token

/-- A token as a scan makes them: of a kind of the language, no end of the input, and legible. -/
structure Regular (token : Token) : Prop where
  known : token.kind ∈ Kind.known
  word : token.kind ≠ .finish
  legible : token.Legible

/-- A token of a kind. -/
def sample : Kind → Token
  | .number => ⟨.number, "0", some 1⟩
  | kind => ⟨kind, kind.label, some 1⟩

@[simp] theorem kind_sample (kind : Kind) : (sample kind).kind = kind := by
  cases kind <;> rfl

theorem regular_sample {kind : Kind} (known : kind ∈ Kind.known ∧ kind ≠ .finish) :
    (sample kind).Regular := by
  refine ⟨by simpa using known.1, by simpa using known.2, fun number => ?_⟩
  rw [kind_sample] at number
  subst number
  exact ⟨_, rfl⟩

end Token

/-- There is a name that is not among given ones. -/
theorem exists_fresh_name (seen : List Spelling) :
    ∃ token : Token, token.kind = .name ∧ token.Regular ∧ token.lexeme ∉ seen := by
  have bounded : ∃ bound, ∀ name ∈ seen, name.codes.length < bound := by
    induction seen with
    | nil => exact ⟨0, by simp⟩
    | cons name rest ih =>
      obtain ⟨bound, each⟩ := ih
      refine ⟨name.codes.length + 1 + bound, List.forall_mem_cons.2 ⟨by omega, ?_⟩⟩
      intro other inside
      have less := each other inside
      omega
  obtain ⟨bound, each⟩ := bounded
  refine ⟨⟨.name, String.ofList (List.replicate bound 'a'), some 1⟩, rfl, ?_, fun inside => ?_⟩
  · exact ⟨by simp [Token.Kind.known], by simp, by simp [Token.Legible]⟩
  · have less := each _ inside
    simp [Spelling.codes] at less

namespace Reading
open Cursor

/-- The tokens before the one that a complaint is about: it stands at the cursor, and before the cursor
    where a parameter is repeated. No reader complains that a token is merely unexpected. -/
def Blames (complaint : Complaint) (cursor : Cursor) (before : List Token) (after : Cursor) : Prop :=
  match complaint with
  | .duplicate _ _ => ∃ name, cursor.Passes (before ++ [name]) after
  | .unexpected _ => False
  | _ => cursor.Passes before after

theorem Blames.after {complaint : Complaint} {cursor middle after : Cursor}
    {taken before : List Token} (passes : cursor.Passes taken middle)
    (blames : Blames complaint middle before after) :
    Blames complaint cursor (taken ++ before) after := by
  cases complaint with
  | duplicate =>
    obtain ⟨name, further⟩ := blames
    exact ⟨name, by simpa using passes.trans further⟩
  | unexpected => exact blames
  | _ => exact passes.trans blames

/-- There are regular tokens of which `Whole` holds. -/
def Fillable (Whole : List Token → Prop) : Prop :=
  ∃ missing, (∀ token ∈ missing, token.Regular) ∧ Whole missing

theorem Fillable.imp {Whole Other : List Token → Prop} (fillable : Fillable Whole)
    (each : ∀ words, Whole words → Other words) : Fillable Other := by
  obtain ⟨missing, regular, whole⟩ := fillable
  exact ⟨missing, regular, each _ whole⟩

/-- What can be filled behind a token of a kind can be filled before it. -/
theorem Fillable.cons {Whole : List Token → Prop} (kind : Token.Kind)
    (known : kind ∈ Token.Kind.known ∧ kind ≠ .finish)
    (fillable : Fillable fun words => Whole (.sample kind :: words)) : Fillable Whole := by
  obtain ⟨missing, regular, whole⟩ := fillable
  exact ⟨_, List.forall_mem_cons.2 ⟨Token.regular_sample known, regular⟩, whole⟩

theorem fillable_nil {Whole : List Token → Prop} (whole : Whole []) : Fillable Whole :=
  ⟨[], by simp, whole⟩

theorem fillable_sample {Whole : List Token → Prop} (kind : Token.Kind)
    (known : kind ∈ Token.Kind.known ∧ kind ≠ .finish) (whole : Whole [.sample kind]) :
    Fillable Whole := .cons kind known (fillable_nil whole)

/-- What is missing is filled in piece by piece. -/
theorem Fillable.append {Part Whole : List Token → Prop} (fillable : Fillable Part)
    (more : ∀ words, Part words → Fillable fun missing => Whole (words ++ missing)) :
    Fillable Whole := by
  obtain ⟨missing, regular, part⟩ := fillable
  obtain ⟨others, regularOthers, whole⟩ := more _ part
  exact ⟨missing ++ others, List.forall_mem_append.2 ⟨regular, regularOthers⟩, whole⟩

/-- Where a step complains, the tokens before those that it complains of can be completed to `Whole`. -/
def Mends {α : Type} (step : Reading α) (cursor : Cursor) (Whole : List Token → Prop) : Prop :=
  Ends step cursor (fun _ _ => True) fun fault after =>
    ∀ complaint line, fault = .error (.parse complaint line) →
      ∃ before, Blames complaint cursor before after ∧ Fillable fun missing => Whole (before ++ missing)

section
variable {α β : Type} {cursor : Cursor} {Whole Part : List Token → Prop}

theorem Mends.imp {step : Reading α} (mends : Mends step cursor Part)
    (each : ∀ words, Part words → Whole words) : Mends step cursor Whole := by
  refine Ends.imp mends (fun _ _ _ => trivial) fun fault after mended complaint line same => ?_
  obtain ⟨before, blames, fillable⟩ := mended complaint line same
  exact ⟨before, blames, fillable.imp fun _ => each _⟩

/-- What is read in two steps is completed in the step that complains, and then to the end. -/
theorem Takes.mends {step : Reading α} {next : α → Reading β} {Result : List Token → α → Prop}
    {bound : Nat} (takes : Takes step cursor Result bound) (proper : cursor.Proper)
    (mends : Mends step cursor Part)
    (fill : ∀ words, Part words → Fillable fun missing => Whole (words ++ missing))
    (more : ∀ value taken after, cursor.Passes taken after → after.Proper → Result taken value →
      Mends (next value) after fun words => Whole (taken ++ words)) :
    Mends (step >>= next) cursor Whole := by
  refine Ends.bind (takes.and mends) ?_ ?_
  · rintro value after ⟨⟨taken, passes, result⟩, _⟩
    refine Ends.imp (more value taken after passes (passes.proper proper) result)
      (fun _ _ _ => trivial) fun fault last mended complaint line same => ?_
    obtain ⟨before, blames, fillable⟩ := mended complaint line same
    exact ⟨taken ++ before, blames.after passes, by simpa using fillable⟩
  · rintro fault after ⟨_, mended⟩ complaint line same
    obtain ⟨before, blames, fillable⟩ := mended complaint line same
    refine ⟨before, blames, fillable.append fun words part => ?_⟩
    simpa using fill _ part

theorem mends_pure (value : α) : Mends (pure value) cursor Whole := trivial

theorem Mends.map {step : Reading α} (mends : Mends step cursor Whole) (change : α → β) :
    Mends (do return change (← step)) cursor Whole :=
  Ends.bind mends (fun _ _ _ => trivial) fun _ _ mended => mended

theorem mends_complain {complaint : Complaint} {line : Option Int}
    (blames : Blames complaint cursor [] cursor) (fillable : Fillable Whole) :
    Mends (complain complaint line : Reading α) cursor Whole := by
  intro other cited same
  cases same
  exact ⟨[], blames, fillable⟩

theorem mends_peek_bind {next : Token → Reading α} (mends : Mends (next cursor.current) cursor Whole) :
    Mends (peek >>= next) cursor Whole := mends

theorem mends_peekNext_bind {next : Token → Reading α}
    (mends : Mends (next cursor.following) cursor Whole) :
    Mends (peekNext >>= next) cursor Whole := mends

theorem mends_sees_bind {kind : Token.Kind} {next : Bool → Reading α}
    (mends : Mends (next (cursor.current.kind = kind)) cursor Whole) :
    Mends (sees kind >>= next) cursor Whole := mends

theorem mends_remaining_bind {next : List Token → Reading α}
    (mends : Mends (next (cursor.stop :: cursor.ahead)) cursor Whole) :
    Mends (remaining >>= next) cursor Whole := mends

theorem mends_advance_bind {next : Token → Reading α} (proper : cursor.Proper)
    (word : cursor.current.kind ≠ .finish)
    (mends : Mends (next cursor.current) cursor.moved fun words => Whole (cursor.current :: words)) :
    Mends (advance >>= next) cursor Whole := by
  refine Ends.imp (show Ends (advance >>= next) cursor _ _ from mends) (fun _ _ _ => trivial) ?_
  intro fault after mended complaint line same
  obtain ⟨before, blames, fillable⟩ := mended complaint line same
  exact ⟨cursor.current :: before, blames.after (passes_moved proper word), fillable⟩

/-- Where a token of a kind is there, it is taken. -/
theorem mends_consume_of_kind {kind : Token.Kind} {complaint : Found → Complaint}
    {next : Token → Reading α} (proper : cursor.Proper) (word : kind ≠ .finish)
    (same : cursor.current.kind = kind)
    (mends : Mends (next cursor.current) cursor.moved fun words => Whole (cursor.current :: words)) :
    Mends (consume kind complaint >>= next) cursor Whole := by
  rw [consume, bind_assoc]
  refine mends_peek_bind ?_
  rw [if_pos same]
  exact mends_advance_bind proper (same ▸ word) mends

/-- Where a token of a kind is missing, it is filled in. -/
theorem mends_consume_bind {kind : Token.Kind} {complaint : Found → Complaint}
    {next : Token → Reading α} (proper : cursor.Proper) (word : kind ≠ .finish)
    (blames : ∀ found, Blames (complaint found) cursor [] cursor) (fillable : Fillable Whole)
    (mends : cursor.current.kind = kind → cursor.moved.Proper →
      Mends (next cursor.current) cursor.moved fun words => Whole (cursor.current :: words)) :
    Mends (consume kind complaint >>= next) cursor Whole := by
  by_cases same : cursor.current.kind = kind
  · have properMoved := (passes_moved proper (same ▸ word)).proper proper
    exact mends_consume_of_kind proper word same (mends same properMoved)
  · rw [consume, bind_assoc]
    refine mends_peek_bind ?_
    rw [if_neg same]
    exact mends_complain (blames _) fillable

end

end Reading

end Reckoner
