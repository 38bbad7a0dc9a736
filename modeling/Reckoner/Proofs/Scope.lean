import Reckoner.Proofs.Outcome
import Reckoner.Scope

/-!
What scopes hold. A name that is given a value changes what is found for no other name. If something
holds of every value in a scope, it holds of what a name is found to stand for, and it goes on to hold
where a name is given such a value.
-/
namespace Reckoner

/-- Only a text is the same key as that text. -/
theorem Datum.eq_of_sameKey_spelling {key : Datum} {name : Spelling}
    (same : key.sameKey (.spelling name)) : key = .spelling name := by
  cases key with
  | spelling label =>
    rw [Datum.sameKey_spelling, beq_iff_eq] at same
    rw [same]
  | number x =>
    simp only [Datum.sameKey, Datum.numericKey?] at same
    split at same <;> simp_all
  | _ => simp [Datum.sameKey, Datum.numericKey?] at same

/-- Only that text is the same key as a text. -/
theorem Datum.eq_of_spelling_sameKey {name : Datum} {text : Spelling}
    (same : (Datum.spelling text).sameKey name) : name = .spelling text := by
  cases name with
  | spelling label =>
    rw [Datum.sameKey_spelling, beq_iff_eq] at same
    rw [same]
  | _ => simp [Datum.sameKey, Datum.numericKey?] at same

namespace Scope

/-- Whatever other name is given a value, a text keeps its own. -/
theorem get?_set_of_ne_spelling {name : Datum} {other : Spelling} (differ : .spelling other ≠ name)
    (scope : Scope) (value : Value) :
    (scope.set name value).get? (.spelling other) = scope.get? (.spelling other) := by
  induction scope with
  | nil =>
    have unequal : ¬ name.sameKey (.spelling other) := fun same =>
      differ (Datum.eq_of_sameKey_spelling same).symm
    simp [set, get?, unequal]
  | cons binding rest ih =>
    obtain ⟨key, old⟩ := binding
    by_cases same : key.sameKey name
    · have unequal : ¬ key.sameKey (.spelling other) := by
        intro found
        rw [Datum.eq_of_sameKey_spelling found] at same
        exact differ (Datum.eq_of_spelling_sameKey same).symm
      simp [set, get?, same, unequal]
    · simp [set, get?, same, ih]

/-- A name that is given a value changes nothing for any other name. -/
theorem get?_set_of_ne {name other : Spelling} (differ : other ≠ name) (scope : Scope) (value : Value) :
    (scope.set (.spelling name) value).get? (.spelling other) = scope.get? (.spelling other) :=
  get?_set_of_ne_spelling (fun same => differ (Datum.spelling.inj same)) scope value

theorem resolve_spelling (chain : List Scope) (name : Spelling) :
    Scope.resolve chain (.spelling name) = match find? chain (.spelling name) with
      | some value => .ok value
      | none => .error (.error (.undefinedName (.spelling name))) := rfl

/-- Every value in a scope has a property. -/
def Holds (P : Value → Prop) (scope : Scope) : Prop := ∀ binding ∈ scope, P binding.2

variable {P : Value → Prop}

theorem holds_nil : Holds P [] := by simp [Holds]

theorem Holds.get? {scope : Scope} (holds : scope.Holds P) {name : Datum} {value : Value}
    (found : scope.get? name = some value) : P value := by
  induction scope with
  | nil => cases found
  | cons binding rest ih =>
    obtain ⟨first, others⟩ := List.forall_mem_cons.1 holds
    rw [Scope.get?] at found
    split at found
    · cases found
      exact first
    · exact ih others found

theorem Holds.set {scope : Scope} (holds : scope.Holds P) (name : Datum) {value : Value}
    (new : P value) : (scope.set name value).Holds P := by
  induction scope with
  | nil => simpa [Scope.set, Holds] using new
  | cons binding rest ih =>
    obtain ⟨first, others⟩ := List.forall_mem_cons.1 holds
    rw [Scope.set]
    split
    · exact List.forall_mem_cons.2 ⟨new, others⟩
    · exact List.forall_mem_cons.2 ⟨first, ih others⟩

/-- What a chain of scopes has for a name is a value of one of them. -/
theorem holds_resolve {chain : List Scope} (each : ∀ scope ∈ chain, scope.Holds P) {name : Datum}
    {value : Value} (found : Scope.resolve chain name = .ok value) : P value := by
  obtain ⟨key, _, searched⟩ := bind_eq_ok_iff.1 found
  split at searched
  · rename_i result located
    cases searched
    obtain ⟨scope, inside, held⟩ := List.exists_of_findSome?_eq_some located
    exact (each scope inside).get? held
  · cases searched

/-- A scope of bindings has only their values. -/
theorem holds_ofBindings {bindings : List (Datum × Value)} (each : ∀ binding ∈ bindings, P binding.2)
    {scope : Scope} (made : Scope.ofBindings bindings = .ok scope) : scope.Holds P := by
  have grows : ∀ {start scope : Scope}, start.Holds P →
      bindings.foldlM (fun scope binding => do return scope.set (← binding.1.asKey) binding.2) start =
        (.ok scope : Except Fault Scope) → scope.Holds P := by
    clear made
    induction bindings with
    | nil =>
      intro start scope holds made
      cases made
      exact holds
    | cons binding rest ih =>
      intro start scope holds made
      obtain ⟨first, others⟩ := List.forall_mem_cons.1 each
      rw [List.foldlM_cons] at made
      obtain ⟨middle, one, more⟩ := bind_eq_ok_iff.1 made
      obtain ⟨key, _, set⟩ := bind_eq_ok_iff.1 one
      cases set
      exact ih others (holds.set key first) more
  exact grows holds_nil made

end Scope

end Reckoner
