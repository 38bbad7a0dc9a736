import Reckoner.Proofs.Tree

/-!
What a step of reading takes. From a proper cursor, a step takes some of the tokens ahead and gives
a result that they stand for, or it stops: with a complaint, or at a depth that is no more than the
number of tokens ahead. `Takes` says this of a step at a cursor and goes through a reading step by
step.
-/
namespace Reckoner

namespace Cursor

/-- A cursor before words and legible numerals, the end of which is the end of the input. -/
structure Proper (cursor : Cursor) : Prop where
  ends : cursor.stop.kind = .finish
  words : ∀ word ∈ cursor.ahead, word.kind ≠ .finish
  legible : ∀ word ∈ cursor.ahead, word.Legible

/-- From one cursor the other is reached over the tokens `taken`. -/
def Passes (cursor : Cursor) (taken : List Token) (after : Cursor) : Prop :=
  cursor.ahead = taken ++ after.ahead ∧ after.stop = cursor.stop

theorem Passes.refl (cursor : Cursor) : cursor.Passes [] cursor := ⟨rfl, rfl⟩

theorem Passes.trans {cursor middle after : Cursor} {first second : List Token}
    (one : cursor.Passes first middle) (two : middle.Passes second after) :
    cursor.Passes (first ++ second) after :=
  ⟨by rw [one.1, two.1, List.append_assoc], two.2.trans one.2⟩

theorem Passes.length {cursor after : Cursor} {taken : List Token} (passes : cursor.Passes taken after) :
    cursor.ahead.length = taken.length + after.ahead.length := by
  rw [passes.1, List.length_append]

theorem Passes.proper {cursor after : Cursor} {taken : List Token} (passes : cursor.Passes taken after)
    (proper : cursor.Proper) : after.Proper := by
  have inside : ∀ word ∈ after.ahead, word ∈ cursor.ahead := by
    intro word member
    rw [passes.1]
    exact List.mem_append_right _ member
  exact ⟨passes.2 ▸ proper.ends, fun word member => proper.words word (inside word member),
    fun word member => proper.legible word (inside word member)⟩

/-- A token that does not end the input is the first one ahead. -/
theorem ahead_eq_of_current {cursor : Cursor} (proper : cursor.Proper)
    (word : cursor.current.kind ≠ .finish) :
    cursor.ahead = cursor.current :: cursor.moved.ahead := by
  obtain ⟨ahead, stop⟩ := cursor
  cases ahead with
  | nil => exact absurd proper.ends word
  | cons token rest => rfl

theorem passes_moved {cursor : Cursor} (proper : cursor.Proper)
    (word : cursor.current.kind ≠ .finish) : cursor.Passes [cursor.current] cursor.moved :=
  ⟨ahead_eq_of_current proper word, rfl⟩

/-- At the end of the input nothing is ahead. -/
theorem ahead_eq_nil_of_current {cursor : Cursor} (proper : cursor.Proper)
    (ended : cursor.current.kind = .finish) : cursor.ahead = [] := by
  obtain ⟨ahead, stop⟩ := cursor
  cases ahead with
  | nil => rfl
  | cons token rest => exact absurd ended (proper.words token (by simp))

end Cursor

namespace Reading

/-- Why a reading stops: a complaint, or a depth of at least `bound` among the tokens ahead. -/
def Stops (bound : Nat) (cursor : Cursor) (fault : Fault) : Prop :=
  (∃ complaint line, fault = .error (.parse complaint line)) ∨
    (fault = .depth ∧ bound ≤ cursor.ahead.length)

/-- A step takes tokens at a cursor that stand for its result, or it stops. -/
def Takes {α : Type} (step : Reading α) (cursor : Cursor) (Result : List Token → α → Prop)
    (bound : Nat) : Prop :=
  Ends step cursor (fun value after => ∃ taken, cursor.Passes taken after ∧ Result taken value)
    (fun fault _ => Stops bound cursor fault)

section
variable {α β : Type} {cursor : Cursor} {Result Weaker : List Token → α → Prop}
  {Last : List Token → β → Prop} {bound : Nat}

theorem Takes.imp {step : Reading α} {less : Nat} (takes : Takes step cursor Result bound)
    (weaker : ∀ words value, Result words value → Weaker words value) (fewer : less ≤ bound) :
    Takes step cursor Weaker less := by
  refine Ends.imp takes ?_ ?_
  · rintro value after ⟨taken, passes, result⟩
    exact ⟨taken, passes, weaker taken value result⟩
  · rintro fault _ (complains | ⟨deep, long⟩)
    · exact .inl complains
    · exact .inr ⟨deep, Nat.le_trans fewer long⟩

theorem Takes.fewer {step : Reading α} {less : Nat} (takes : Takes step cursor Result bound)
    (fewer : less ≤ bound) : Takes step cursor Result less :=
  takes.imp (fun _ _ result => result) fewer

/-- What is read in two steps is taken one after the other. -/
theorem Takes.bind {step : Reading α} {next : α → Reading β} (proper : cursor.Proper)
    (first : Takes step cursor Result bound)
    (more : ∀ value taken after, cursor.Passes taken after → after.Proper → Result taken value →
      Takes (next value) after (fun words result => Last (taken ++ words) result)
        (bound - taken.length)) :
    Takes (step >>= next) cursor Last bound := by
  refine Ends.bind first ?_ fun _ _ stops => stops
  rintro value after ⟨taken, passes, result⟩
  refine Ends.imp (more value taken after passes (passes.proper proper) result) ?_ ?_
  · rintro final last ⟨words, further, made⟩
    exact ⟨taken ++ words, passes.trans further, made⟩
  · rintro fault _ (complains | ⟨deep, long⟩)
    · exact .inl complains
    · have size := passes.length
      exact .inr ⟨deep, by omega⟩

theorem takes_pure {value : α} (result : Result [] value) :
    Takes (pure value) cursor Result bound :=
  ⟨[], .refl cursor, result⟩

theorem takes_complain (complaint : Complaint) (line : Option Int) :
    Takes (complain complaint line) cursor Result bound :=
  .inl ⟨complaint, line, rfl⟩

theorem takes_peek_bind {next : Token → Reading α} (takes : Takes (next cursor.current) cursor Result bound) :
    Takes (peek >>= next) cursor Result bound := takes

theorem takes_peekNext_bind {next : Token → Reading α}
    (takes : Takes (next cursor.following) cursor Result bound) :
    Takes (peekNext >>= next) cursor Result bound := takes

theorem takes_sees_bind {kind : Token.Kind} {next : Bool → Reading α}
    (takes : Takes (next (cursor.current.kind = kind)) cursor Result bound) :
    Takes (sees kind >>= next) cursor Result bound := takes

theorem takes_remaining_bind {next : List Token → Reading α}
    (takes : Takes (next (cursor.stop :: cursor.ahead)) cursor Result bound) :
    Takes (remaining >>= next) cursor Result bound := takes

/-- A token that does not end the input is taken. -/
theorem takes_advance (proper : cursor.Proper) (word : cursor.current.kind ≠ .finish) :
    Takes advance cursor (fun words token => words = [token] ∧ token = cursor.current) bound :=
  ⟨[cursor.current], Cursor.passes_moved proper word, rfl, rfl⟩

/-- Where a token of a kind is asked for, one of that kind is taken. -/
theorem takes_consume (proper : cursor.Proper) {kind : Token.Kind} (word : kind ≠ .finish)
    (complaint : Found → Complaint) :
    Takes (consume kind complaint) cursor (fun words token => words = [token] ∧ token.kind = kind)
      bound := by
  refine takes_peek_bind ?_
  by_cases same : cursor.current.kind = kind
  · rw [if_pos same]
    refine (takes_advance proper (same ▸ word)).imp ?_ (Nat.le_refl bound)
    rintro words token ⟨taken, rfl⟩
    exact ⟨taken, same⟩
  · rw [if_neg same]
    exact takes_complain _ _

end

end Reading

end Reckoner
