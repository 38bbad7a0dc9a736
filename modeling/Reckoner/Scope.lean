import Reckoner.Value

/-!
Scopes: the names that were given a value, in the order in which they first were. A chain of scopes
is searched from the innermost scope outwards.
-/
namespace Reckoner

/-- Names with their values, oldest first. -/
abbrev Scope := List (Datum × Value)

namespace Scope

/-- The value of a name. -/
def get? (scope : Scope) (name : Datum) : Option Value :=
  match scope with
  | [] => none
  | (key, value) :: rest => if key.sameKey name then some value else get? rest name

/-- Gives a name a value: a new name goes to the end, an old one keeps its place. -/
def set (scope : Scope) (name : Datum) (value : Value) : Scope :=
  match scope with
  | [] => [(name, value)]
  | (key, old) :: rest =>
    if key.sameKey name then (key, value) :: rest else (key, old) :: set rest name value

/-- The scope of bindings, a later one of which replaces an earlier one of the same name. -/
def ofBindings (bindings : List (Datum × Value)) : Except Fault Scope :=
  bindings.foldlM (fun scope binding => do return scope.set (← binding.1.asKey) binding.2) []

/-- The value that a chain of scopes, innermost first, has for a name. -/
def find? (chain : List Scope) (name : Datum) : Option Value :=
  chain.findSome? fun scope => scope.get? name

/-- The value that a chain of scopes has for a name, or the fault that it has none. -/
def resolve (chain : List Scope) (name : Datum) : Except Fault Value := do
  let key ← name.asKey
  match find? chain key with
  | some value => return value
  | none => throw (.error (.undefinedName name))

/-- Whether a chain of scopes has a value for a name. -/
def binds (chain : List Scope) (name : Datum) : Except Fault Bool := do
  return (find? chain (← name.asKey)).isSome

@[simp] theorem get?_set_spelling (scope : Scope) (name : Spelling) (value : Value) :
    (scope.set (.spelling name) value).get? (.spelling name) = some value := by
  induction scope with
  | nil => simp [set, get?]
  | cons binding rest ih =>
    obtain ⟨key, old⟩ := binding
    by_cases same : key.sameKey (.spelling name) <;> simp [set, get?, same, ih]

end Scope

end Reckoner
