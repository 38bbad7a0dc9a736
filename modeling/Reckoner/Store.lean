import Reckoner.Scope

/-!
Environments that share scopes. A store holds the scopes by number, and an environment is a chain of
such numbers. Pushing a scope makes a longer environment that shares all scopes of the shorter one,
so a definition in a shared scope is seen through every environment that has it in its chain.
-/
namespace Reckoner

/-- A chain of scopes, by their numbers in a store. -/
structure Environment where
  innermost : Nat
  outer : List Nat
  deriving DecidableEq, Repr

namespace Environment

/-- The numbers of the scopes, innermost first. -/
def chain (environment : Environment) : List Nat := environment.innermost :: environment.outer

/-- How many scopes an environment has. -/
def depth (environment : Environment) : Nat := environment.chain.length

/-- The number of the outermost scope. -/
def outermost (environment : Environment) : Nat :=
  environment.outer.getLastD environment.innermost

/-- The name of an environment in output. -/
def shown (environment : Environment) : String := s!"<Environment depth={environment.depth}>"

end Environment

/-- The scopes of all environments, by number. -/
structure Store where
  scopes : List Scope := []
  deriving Inhabited

namespace Store

/-- The scope with a number. -/
def scope (store : Store) (number : Nat) : Scope := store.scopes[number]?.getD []

/-- The scopes of an environment, innermost first. -/
def view (store : Store) (environment : Environment) : List Scope :=
  environment.chain.map store.scope

/-- An environment of new scopes, given innermost first. There has to be one. -/
def create (store : Store) (scopes : List Scope) : Except Fault (Environment × Store) :=
  match scopes with
  | [] => .error .noScope
  | _ :: rest =>
    let first := store.scopes.length
    .ok (⟨first, List.range' (first + 1) rest.length⟩, ⟨store.scopes ++ scopes⟩)

/-- An environment with a new scope in front of another environment. -/
def push (store : Store) (environment : Environment) (bindings : Scope) : Environment × Store :=
  (⟨store.scopes.length, environment.chain⟩, ⟨store.scopes ++ [bindings]⟩)

/-- Gives a name a value in the innermost scope of an environment. -/
def define (store : Store) (environment : Environment) (name : Datum) (value : Value) :
    Except Fault Store := do
  let key ← name.asKey
  return ⟨store.scopes.modify environment.innermost fun scope => scope.set key value⟩

/-- The value that an environment has for a name. -/
def lookup (store : Store) (environment : Environment) (name : Datum) : Except Fault Value :=
  Scope.resolve (store.view environment) name

/-- Whether an environment has a value for a name. -/
def contains (store : Store) (environment : Environment) (name : Datum) : Except Fault Bool :=
  Scope.binds (store.view environment) name

end Store

end Reckoner
