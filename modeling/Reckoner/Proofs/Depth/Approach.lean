import Reckoner.Proofs.Outcome

/-!
Raising a depth. A computation approaches another one if, from every state, it ends exactly as the
other one does or gives up at its depth. The relation goes through a computation step by step, so a
function that is written for an arbitrary inner computation approaches itself with a deeper one.
-/
namespace Reckoner

/-- From every state a computation ends as another one does, with the same result or fault in the
    same state, or gives up at its depth. -/
def Approaches {σ α : Type} (shallow deep : EStateM Fault σ α) : Prop :=
  ∀ state, shallow state = deep state ∨ ∃ after, shallow state = .error .depth after

namespace Approaches
variable {σ α β : Type}

theorem refl (computation : EStateM Fault σ α) : Approaches computation computation :=
  fun _ => .inl rfl

theorem trans {shallow middle deep : EStateM Fault σ α} (first : Approaches shallow middle)
    (second : Approaches middle deep) : Approaches shallow deep := by
  intro state
  rcases first state with same | gaveUp
  · rw [same]
    exact second state
  · exact .inr gaveUp

/-- Giving up at once approaches everything. -/
theorem giveUp (deep : EStateM Fault σ α) : Approaches (throw .depth) deep :=
  fun state => .inr ⟨state, rfl⟩

theorem bind {shallow deep : EStateM Fault σ α} {next further : α → EStateM Fault σ β}
    (first : Approaches shallow deep) (more : ∀ value, Approaches (next value) (further value)) :
    Approaches (shallow >>= next) (deep >>= further) := by
  intro state
  change EStateM.bind shallow next state = EStateM.bind deep further state ∨
    ∃ after, EStateM.bind shallow next state = .error .depth after
  unfold EStateM.bind
  rcases first state with same | ⟨after, gaveUp⟩
  · rw [same]
    cases deep state with
    | ok value middle => exact more value middle
    | error fault middle => exact .inl rfl
  · rw [gaveUp]
    exact .inr ⟨after, rfl⟩

/-- Where the steps after it approach, so do two computations with the same beginning. -/
theorem after (first : EStateM Fault σ α) {next further : α → EStateM Fault σ β}
    (more : ∀ value, Approaches (next value) (further value)) :
    Approaches (first >>= next) (first >>= further) :=
  (refl first).bind more

theorem ite (condition : Prop) [Decidable condition] {yes yes' no no' : EStateM Fault σ α}
    (holds : Approaches yes yes') (fails : Approaches no no') :
    Approaches (if condition then yes else no) (if condition then yes' else no') := by
  split
  · exact holds
  · exact fails

theorem mapM {act deeper : α → EStateM Fault σ β} (each : ∀ item, Approaches (act item) (deeper item))
    (list : List α) : Approaches (list.mapM act) (list.mapM deeper) := by
  induction list with
  | nil => exact refl _
  | cons item rest ih =>
    simp only [List.mapM_cons]
    exact (each item).bind fun _ => ih.bind fun _ => refl _

/-- A family in which each member approaches the next one is ordered by depth. -/
theorem of_le {family : Nat → EStateM Fault σ α}
    (step : ∀ depth, Approaches (family depth) (family (depth + 1))) {depth greater : Nat}
    (le : depth ≤ greater) : Approaches (family depth) (family greater) := by
  induction le with
  | refl => exact refl _
  | step _ ih => exact ih.trans (step _)

end Approaches

namespace Approximates
variable {α β : Type}

theorem trans {outcome middle whole : Except Fault α} (first : Approximates outcome middle)
    (second : Approximates middle whole) : Approximates outcome whole := by
  rcases first with rfl | deep
  · exact second
  · exact .inr deep

/-- Steps that approximate one by one do so in a fold. -/
theorem foldlM {act whole : β → α → Except Fault β}
    (each : ∀ value item, Approximates (act value item) (whole value item)) (list : List α)
    (start : β) : Approximates (list.foldlM act start) (list.foldlM whole start) := by
  induction list generalizing start with
  | nil => exact refl _
  | cons item rest ih =>
    simp only [List.foldlM_cons]
    exact (each start item).bind fun value _ => ih value

theorem of_le {family : Nat → Except Fault α}
    (step : ∀ depth, Approximates (family depth) (family (depth + 1))) {depth greater : Nat}
    (le : depth ≤ greater) : Approximates (family depth) (family greater) := by
  induction le with
  | refl => exact refl _
  | step _ ih => exact ih.trans (step _)

end Approximates

end Reckoner
