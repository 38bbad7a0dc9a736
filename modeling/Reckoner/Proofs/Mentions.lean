import Mathlib.Data.List.Forall2
import Reckoner.Proofs.Scope

/-!
The names that programs mention. Two chains of scopes accord on some names if both have the same value, or
none, for each of them, and if the functions among these values mention no other names. How the chains are
made of scopes does not matter for this, nor what they have for other names: a chain accords with the one
scope into which it is merged, and with each chain whose scopes differ from its own in other names only.
-/
namespace Reckoner

mutual

/-- All names in a node, also those in the bodies of functions. -/
def Node.mentioned : Node → List Datum
  | .program body => Node.mentionedAll body
  | .number _ => []
  | .reference name => [name]
  | .binary _ left right => left.mentioned ++ right.mentioned
  | .call name arguments => name :: Node.mentionedAll arguments
  | .definition name value => name :: value.mentioned
  | .function name parameters body => name :: (parameters ++ body.mentioned)

/-- All names in a list of nodes. -/
def Node.mentionedAll : List Node → List Datum
  | [] => []
  | node :: rest => node.mentioned ++ Node.mentionedAll rest

end

/-- A name that is one of the known texts. -/
def Datum.Among (known : Spelling → Prop) (name : Datum) : Prop :=
  ∃ text, known text ∧ name = .spelling text

/-- A node that mentions known names only. -/
def Node.Mentions (known : Spelling → Prop) (node : Node) : Prop :=
  ∀ name ∈ node.mentioned, name.Among known

/-- A function whose parameters and body mention known names only. -/
structure Function.Mentions (known : Spelling → Prop) (f : Function) : Prop where
  parameters : ∀ parameter ∈ f.parameters, parameter.Among known
  body : f.body.Mentions known

/-- A value that is no function, or one that mentions known names only. -/
def Value.Mentions (known : Spelling → Prop) : Value → Prop
  | .function f => f.Mentions known
  | _ => True

section
variable {known : Spelling → Prop}

theorem Node.mentions_binary {operator : Operator} {left right : Node}
    (mentions : (Node.binary operator left right).Mentions known) :
    left.Mentions known ∧ right.Mentions known :=
  List.forall_mem_append.1 mentions

theorem Node.mentions_definition {name : Datum} {value : Node}
    (mentions : (Node.definition name value).Mentions known) :
    name.Among known ∧ value.Mentions known :=
  List.forall_mem_cons.1 mentions

theorem Node.mentions_function {name : Datum} {parameters : List Datum} {body : Node}
    (mentions : (Node.function name parameters body).Mentions known) :
    name.Among known ∧ Function.Mentions known ⟨name, parameters, body⟩ := by
  obtain ⟨first, others⟩ := List.forall_mem_cons.1 mentions
  obtain ⟨each, inside⟩ := List.forall_mem_append.1 others
  exact ⟨first, each, inside⟩

theorem Node.mentions_mentionedAll {nodes : List Node}
    (mentions : ∀ name ∈ Node.mentionedAll nodes, name.Among known) :
    ∀ node ∈ nodes, node.Mentions known := by
  induction nodes with
  | nil => exact nofun
  | cons node rest ih =>
    obtain ⟨first, others⟩ := List.forall_mem_append.1 mentions
    exact List.forall_mem_cons.2 ⟨first, ih others⟩

theorem Node.mentions_call {name : Datum} {arguments : List Node}
    (mentions : (Node.call name arguments).Mentions known) :
    name.Among known ∧ ∀ argument ∈ arguments, argument.Mentions known := by
  obtain ⟨first, others⟩ := List.forall_mem_cons.1 mentions
  exact ⟨first, mentions_mentionedAll others⟩

end

namespace Scope

/-- A chain in which known names stand for functions only that mention known names. -/
def Closed (known : Spelling → Prop) (chain : List Scope) : Prop :=
  ∀ text value, known text → find? chain (.spelling text) = some value → value.Mentions known

/-- Chains that have the same value for each known name, or none, and are closed. -/
structure Accord (known : Spelling → Prop) (chain twin : List Scope) : Prop where
  agree : ∀ text, known text → find? chain (.spelling text) = find? twin (.spelling text)
  closed : Closed known chain

theorem find?_cons (scope : Scope) (chain : List Scope) (name : Datum) :
    find? (scope :: chain) name = (scope.get? name).or (find? chain name) := by
  rw [find?, List.findSome?_cons]
  cases scope.get? name <;> rfl

/-- The scope with the bindings of a chain, an inner one of which hides the outer ones of its name. -/
def merge (chain : List Scope) : Scope :=
  chain.foldr (fun scope rest => scope.foldr (fun binding rest => rest.set binding.1 binding.2) rest) []

theorem get?_foldr_set (scope rest : Scope) (text : Spelling) :
    (scope.foldr (fun binding rest => rest.set binding.1 binding.2) rest).get? (.spelling text) =
      (scope.get? (.spelling text)).or (rest.get? (.spelling text)) := by
  induction scope with
  | nil => rfl
  | cons binding others ih =>
    obtain ⟨key, value⟩ := binding
    rw [List.foldr_cons, get?]
    by_cases same : key.sameKey (.spelling text)
    · cases Datum.eq_of_sameKey_spelling same
      simp
    · have differ : .spelling text ≠ key := by
        rintro rfl
        exact same (by simp)
      rw [get?_set_of_ne_spelling differ, ih, if_neg same]

theorem get?_merge (chain : List Scope) (text : Spelling) :
    (merge chain).get? (.spelling text) = find? chain (.spelling text) := by
  induction chain with
  | nil => rfl
  | cons scope chain ih => rw [find?_cons, ← ih, merge, List.foldr_cons, get?_foldr_set, merge]

variable {known : Spelling → Prop} {chain twin : List Scope}

/-- A scope in front of both chains. -/
theorem Accord.cons (accord : Accord known chain twin) {scope : Scope}
    (holds : scope.Holds (Value.Mentions known)) : Accord known (scope :: chain) (scope :: twin) := by
  constructor
  · intro text inside
    rw [find?_cons, find?_cons, accord.agree text inside]
  · intro text value inside found
    rw [find?_cons] at found
    cases here : scope.get? (.spelling text) with
    | some first =>
      rw [here] at found
      cases found
      exact holds.get? here
    | none =>
      rw [here] at found
      exact accord.closed text value inside found

/-- A known name that both chains come to have a value for, while they keep their other names. -/
theorem Accord.gain (accord : Accord known chain twin) {name : Spelling} {value : Value}
    (mentions : value.Mentions known) {chainAfter twinAfter : List Scope}
    (found : find? chainAfter (.spelling name) = some value)
    (foundTwin : find? twinAfter (.spelling name) = some value)
    (others : ∀ text, text ≠ name → find? chainAfter (.spelling text) = find? chain (.spelling text))
    (othersTwin : ∀ text, text ≠ name → find? twinAfter (.spelling text) = find? twin (.spelling text)) :
    Accord known chainAfter twinAfter := by
  constructor
  · intro text inside
    by_cases same : text = name
    · rw [same, found, foundTwin]
    · rw [others text same, othersTwin text same, accord.agree text inside]
  · intro text result inside located
    by_cases same : text = name
    · rw [same, found] at located
      cases located
      exact mentions
    · rw [others text same] at located
      exact accord.closed text result inside located

/-- A known name has the same value in both chains, or both report it. -/
theorem Accord.resolve (accord : Accord known chain twin) {name : Datum} (among : name.Among known) :
    Scope.resolve chain name = Scope.resolve twin name ∧
      ∀ value, Scope.resolve chain name = .ok value → value.Mentions known := by
  obtain ⟨text, inside, rfl⟩ := among
  rw [resolve_spelling, resolve_spelling, accord.agree text inside]
  refine ⟨rfl, fun value found => ?_⟩
  split at found
  · rename_i located
    cases found
    exact accord.closed text value inside ((accord.agree text inside).trans located)
  · cases found

/-- What a chain has for known names, the merged scope has as well. -/
theorem accord_merge (closed : Closed known chain) : Accord known chain [merge chain] := by
  refine ⟨fun text _ => ?_, closed⟩
  rw [find?_cons, get?_merge]
  exact (Option.or_none).symm

/-- Chains whose scopes differ, one by one, in names that are not known. -/
theorem accord_of_forall₂ (closed : Closed known chain)
    (same : List.Forall₂ (fun scope other : Scope => ∀ text, known text →
      scope.get? (.spelling text) = other.get? (.spelling text)) chain twin) :
    Accord known chain twin := by
  refine ⟨fun text inside => ?_, closed⟩
  clear closed
  induction same with
  | nil => rfl
  | cons first _ ih => rw [find?_cons, find?_cons, first text inside, ih]

end Scope

end Reckoner
