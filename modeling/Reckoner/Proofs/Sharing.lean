import Reckoner.Proofs.Scope
import Reckoner.Store

/-!
Environments that share scopes. A definition is seen through every environment that has the scope in
its chain, unless a closer scope hides the name, and it changes nothing else that any environment
shows. Pushing a scope changes nothing that was there: the new environment stands in front of the
shared scopes, and what is later defined in its own scope stays there. All this holds of any
environments, whatever operations led to them.
-/
namespace Reckoner

/-- What an environment shows of a name. -/
structure Sight where
  value : Except Fault Value
  bound : Except Fault Bool
  depth : Nat

namespace Store

/-- What an environment shows of a name. -/
def sight (store : Store) (environment : Environment) (name : Spelling) : Sight where
  value := store.lookup environment (.spelling name)
  bound := store.contains environment (.spelling name)
  depth := environment.depth

/-- A store and its environments, which any operations in any order lead to. -/
inductive Arises : Store → List Environment → Prop
  | empty : Arises {} []
  /-- An environment of new scopes. -/
  | create {store after : Store} {environments : List Environment} {scopes : List Scope}
      {environment : Environment} (arises : Arises store environments)
      (made : store.create scopes = .ok (environment, after)) :
      Arises after (environments ++ [environment])
  | push {store : Store} {environments : List Environment} {environment : Environment}
      (arises : Arises store environments) (inside : environment ∈ environments) (bindings : Scope) :
      Arises (store.push environment bindings).2
        (environments ++ [(store.push environment bindings).1])
  | define {store after : Store} {environments : List Environment} {environment : Environment}
      {name : Datum} {value : Value} (arises : Arises store environments)
      (inside : environment ∈ environments)
      (defined : store.define environment name value = .ok after) : Arises after environments

/-- Any operations, of which the definitions go to one scope only. -/
inductive Fills (target : Nat) : Store → Store → Prop
  | none (store : Store) : Fills target store store
  | create {store middle after : Store} {scopes : List Scope} {environment : Environment}
      (made : store.create scopes = .ok (environment, middle)) (more : Fills target middle after) :
      Fills target store after
  | push {store after : Store} (environment : Environment) (bindings : Scope)
      (more : Fills target (store.push environment bindings).2 after) : Fills target store after
  | define {store middle after : Store} {environment : Environment} {name : Datum} {value : Value}
      (here : environment.innermost = target)
      (defined : store.define environment name value = .ok middle) (more : Fills target middle after) :
      Fills target store after

/-- In a chain, no scope that is closer than the one with a number has a value for a name. -/
def Exposes (store : Store) (chain : List Nat) (number : Nat) (name : Spelling) : Prop :=
  ∃ closer farther, chain = closer ++ number :: farther ∧
    ∀ other ∈ closer, (store.scope other).get? (.spelling name) = none

/-- All scopes of an environment are in the store. -/
def Houses (store : Store) (environment : Environment) : Prop :=
  ∀ number ∈ environment.chain, number < store.scopes.length

section
variable {store after : Store} {environment : Environment}

theorem lookup_spelling (store : Store) (environment : Environment) (name : Spelling) :
    store.lookup environment (.spelling name) =
      match Scope.find? (store.view environment) (.spelling name) with
      | some value => .ok value
      | none => .error (.error (.undefinedName (.spelling name))) := rfl

theorem contains_spelling (store : Store) (environment : Environment) (name : Spelling) :
    store.contains environment (.spelling name) =
      .ok (Scope.find? (store.view environment) (.spelling name)).isSome := rfl

/-- What an environment shows of a name is what its scopes have for it. -/
theorem sight_congr {name : Spelling}
    (same : Scope.find? (after.view environment) (.spelling name) =
      Scope.find? (store.view environment) (.spelling name)) :
    after.sight environment name = store.sight environment name := by
  simp only [sight, lookup_spelling, contains_spelling, same]

theorem sight_of_view_eq (same : after.view environment = store.view environment) (name : Spelling) :
    after.sight environment name = store.sight environment name := sight_congr (by rw [same])

theorem sight_of_find? {name : Spelling} {value : Value}
    (found : Scope.find? (store.view environment) (.spelling name) = some value) :
    store.sight environment name = ⟨.ok value, .ok true, environment.depth⟩ := by
  simp only [sight, lookup_spelling, contains_spelling, found, Option.isSome_some]

/-- Scopes that are added to a store leave those that were in it. -/
theorem scope_append (more : List Scope) {number : Nat} (inside : number < store.scopes.length) :
    scope ⟨store.scopes ++ more⟩ number = store.scope number := by
  simp only [scope, List.getElem?_append_left inside]

theorem view_append (more : List Scope) (houses : store.Houses environment) :
    view ⟨store.scopes ++ more⟩ environment = store.view environment :=
  List.map_congr_left fun number inside => scope_append more (houses number inside)

theorem Houses.mono (houses : store.Houses environment)
    (le : store.scopes.length ≤ after.scopes.length) : after.Houses environment :=
  fun number inside => Nat.lt_of_lt_of_le (houses number inside) le

/-- The scopes of a new environment are behind those that were in the store. -/
theorem create_eq_ok {scopes : List Scope} (made : store.create scopes = .ok (environment, after)) :
    after = ⟨store.scopes ++ scopes⟩ ∧ after.Houses environment := by
  unfold create at made
  split at made
  · cases made
  · rename_i first rest
    cases made
    refine ⟨rfl, fun number inside => ?_⟩
    simp only [Environment.chain, List.mem_cons, List.mem_range'_1] at inside
    simp only [List.length_append, List.length_cons]
    omega

/-- An environment in front of which a scope was pushed ends in the same scope. -/
theorem outermost_push (store : Store) (environment : Environment) (bindings : Scope) :
    (store.push environment bindings).1.outermost = environment.outermost := by
  simp only [push, Environment.outermost, Environment.chain, List.getLastD_cons]

/-- A pushed scope holds its bindings, and behind it stand the scopes that were there. -/
theorem view_push (houses : store.Houses environment) (bindings : Scope) :
    (store.push environment bindings).2.view (store.push environment bindings).1 =
      bindings :: store.view environment := by
  have first : (store.push environment bindings).2.scope store.scopes.length = bindings := by
    simp [push, scope]
  have others := view_append [bindings] houses
  simp only [view, push, Environment.chain, List.map_cons] at first others ⊢
  rw [first, others]

theorem houses_push (houses : store.Houses environment) (bindings : Scope) :
    (store.push environment bindings).2.Houses (store.push environment bindings).1 := by
  intro number inside
  simp only [push, List.length_append, List.length_singleton]
  rcases List.mem_cons.1 inside with rfl | shared
  · exact Nat.lt_succ_self _
  · exact Nat.lt_succ_of_lt (houses number shared)

/-- A name that is a key is given its value in the innermost scope, and no other scope changes. -/
theorem define_eq_ok {name : Datum} {value : Value}
    (defined : store.define environment name value = .ok after) :
    after.scopes.length = store.scopes.length ∧
      ∀ number, number ≠ environment.innermost → after.scope number = store.scope number := by
  obtain ⟨key, _, changed⟩ := bind_eq_ok_iff.1 defined
  cases changed
  refine ⟨List.length_modify .., fun number other => ?_⟩
  simp only [scope, List.getElem?_modify_ne _ _ other.symm]

/-- Giving a text a value never fails. -/
theorem define_spelling (houses : store.Houses environment) (name : Spelling) (value : Value) :
    ∃ after, store.define environment (.spelling name) value = .ok after ∧
      after.scope environment.innermost =
        (store.scope environment.innermost).set (.spelling name) value := by
  refine ⟨_, rfl, ?_⟩
  have inside := houses environment.innermost (by simp [Environment.chain])
  simp [scope, inside]

/-- Operations leave every scope to which no definition goes. -/
theorem Fills.scope_eq {target number : Nat} (fills : Fills target store after)
    (inside : number < store.scopes.length) (other : number ≠ target) :
    after.scope number = store.scope number := by
  induction fills with
  | none => rfl
  | @create store _ _ scopes _ made _ ih =>
    obtain ⟨rfl, _⟩ := create_eq_ok made
    rw [ih (by simp only [List.length_append]; omega), scope_append scopes inside]
  | @push store _ environment bindings _ ih =>
    rw [ih (by simp only [Store.push, List.length_append]; omega)]
    exact scope_append [bindings] inside
  | define here defined _ ih =>
    obtain ⟨size, others⟩ := define_eq_ok defined
    rw [ih (by omega), others number (here ▸ other)]

end

/-- The scopes of all environments are in the store. -/
theorem Arises.houses {store : Store} {environments : List Environment}
    (arises : Arises store environments) : ∀ environment ∈ environments, store.Houses environment := by
  induction arises with
  | empty => simp
  | @create store after environments scopes environment _ made ih =>
    obtain ⟨rfl, houses⟩ := create_eq_ok made
    simp only [List.mem_append, List.mem_singleton]
    rintro other (old | rfl)
    · exact (ih other old).mono (by simp)
    · exact houses
  | @push store environments environment _ inside bindings ih =>
    simp only [List.mem_append, List.mem_singleton]
    rintro other (old | rfl)
    · exact (ih other old).mono (by simp [Store.push])
    · exact houses_push (ih environment inside) bindings
  | define _ _ defined ih =>
    exact fun other old => (ih other old).mono (Nat.le_of_eq (define_eq_ok defined).1.symm)

section
variable {store after : Store} {target : Nat} {name : Spelling} {value : Value}
  (changed : after.scope target = (store.scope target).set (.spelling name) value)
  (others : ∀ number, number ≠ target → after.scope number = store.scope number)
include changed others

/-- Every name but the one that was given a value is found as before. -/
theorem find?_of_ne {other : Spelling} (differ : other ≠ name) (chain : List Nat) :
    Scope.find? (chain.map after.scope) (.spelling other) =
      Scope.find? (chain.map store.scope) (.spelling other) := by
  have each (number : Nat) :
      (after.scope number).get? (.spelling other) = (store.scope number).get? (.spelling other) := by
    by_cases here : number = target
    · rw [here, changed, Scope.get?_set_of_ne differ]
    · rw [others number here]
  simp only [Scope.find?, List.findSome?_map, Function.comp_def, each]

/-- The name is found with its new value where no closer scope hides it. -/
theorem find?_of_exposes {chain : List Nat} (exposes : store.Exposes chain target name) :
    Scope.find? (chain.map after.scope) (.spelling name) = some value := by
  obtain ⟨closer, farther, rfl, unbound⟩ := exposes
  induction closer with
  | nil =>
    have found : (after.scope target).get? (.spelling name) = some value := by
      rw [changed, Scope.get?_set_spelling]
    simp [Scope.find?, found]
  | cons number closer ih =>
    obtain ⟨first, rest⟩ := List.forall_mem_cons.1 unbound
    by_cases here : number = target
    · -- The scope itself may stand among the closer ones; it has the new value there.
      have found : (after.scope number).get? (.spelling name) = some value := by
        rw [here, changed, Scope.get?_set_spelling]
      simp [Scope.find?, found]
    · have missed : (after.scope number).get? (.spelling name) = none := by
        rw [others number here, first]
      simpa [Scope.find?, missed] using ih rest

/-- The name is found as before where the scope is not in the chain or a closer scope hides it. -/
theorem find?_of_not_exposes {chain : List Nat} (hidden : ¬ store.Exposes chain target name) :
    Scope.find? (chain.map after.scope) (.spelling name) =
      Scope.find? (chain.map store.scope) (.spelling name) := by
  induction chain with
  | nil => rfl
  | cons number chain ih =>
    have other : number ≠ target := by
      rintro rfl
      exact hidden ⟨[], chain, rfl, by simp⟩
    cases found : (store.scope number).get? (.spelling name) with
    | some old => simp [Scope.find?, others number other, found]
    | none =>
      have further : ¬ store.Exposes chain target name := by
        rintro ⟨closer, farther, rfl, unbound⟩
        exact hidden ⟨number :: closer, farther, rfl, List.forall_mem_cons.2 ⟨found, unbound⟩⟩
      simpa [Scope.find?, others number other, found] using ih further

end

/-- Whatever operations led to a store and its environments: a definition in an environment succeeds
    and changes what an environment shows of a name only if it is the defined name, the scope is in
    the chain and no closer one has the name, and then the new value is shown. A pushed scope changes
    nothing that an environment shows, nor do later definitions in it, which leave every scope that
    was there, also one that the bindings were taken from; the new environment is one deeper and ends
    in the same global scope. A name is bound exactly where looking it up does not report it. -/
theorem Arises.shares_scopes {store : Store} {environments : List Environment}
    (arises : Arises store environments) {environment : Environment}
    (inside : environment ∈ environments) :
    (∀ (name : Spelling) (value : Value), ∃ after,
        store.define environment (.spelling name) value = .ok after ∧
          ∀ other ∈ environments, ∀ asked : Spelling,
            (asked = name ∧ store.Exposes other.chain environment.innermost name →
              after.sight other asked = ⟨.ok value, .ok true, other.depth⟩) ∧
            (¬ (asked = name ∧ store.Exposes other.chain environment.innermost name) →
              after.sight other asked = store.sight other asked)) ∧
      (∀ (bindings : Scope) (pushed : Environment) (after : Store),
        store.push environment bindings = (pushed, after) →
          pushed.depth = environment.depth + 1 ∧ pushed.outermost = environment.outermost ∧
          after.view pushed = bindings :: store.view environment ∧
          (∀ other ∈ environments, ∀ asked, after.sight other asked = store.sight other asked) ∧
          ∀ later, Fills pushed.innermost after later →
            (∀ number < store.scopes.length, later.scope number = store.scope number) ∧
            ∀ other ∈ environments, ∀ asked, later.sight other asked = store.sight other asked) ∧
      ∀ name : Spelling, ∃ bound, store.contains environment (.spelling name) = .ok bound ∧
        (bound = true ↔ store.lookup environment (.spelling name) ≠
          .error (.error (.undefinedName (.spelling name)))) := by
  have houses := arises.houses
  refine ⟨fun name value => ?_, fun bindings pushed after made => ?_, fun name => ⟨_, rfl, ?_⟩⟩
  · obtain ⟨after, defined, changed⟩ := define_spelling (houses environment inside) name value
    obtain ⟨_, others⟩ := define_eq_ok defined
    refine ⟨after, defined, fun other _ asked => ⟨?_, fun kept => sight_congr ?_⟩⟩
    · rintro ⟨rfl, exposes⟩
      exact sight_of_find? (find?_of_exposes changed others exposes)
    · by_cases same : asked = name
      · subst same
        exact find?_of_not_exposes changed others fun exposes => kept ⟨rfl, exposes⟩
      · exact find?_of_ne changed others same other.chain
  · cases made
    have kept : ∀ number < store.scopes.length,
        (store.push environment bindings).2.scope number = store.scope number :=
      fun number old => scope_append [bindings] old
    have unseen : ∀ later : Store,
        (∀ number < store.scopes.length, later.scope number = store.scope number) →
          ∀ other ∈ environments, ∀ asked, later.sight other asked = store.sight other asked := by
      intro later same other known asked
      exact sight_of_view_eq (List.map_congr_left fun number here =>
        same number (houses other known number here)) asked
    refine ⟨rfl, outermost_push store environment bindings,
      view_push (houses environment inside) bindings, unseen _ kept, fun later fills => ?_⟩
    have left : ∀ number < store.scopes.length, later.scope number = store.scope number := by
      intro number old
      have grown : number < (store.push environment bindings).2.scopes.length := by
        simp only [Store.push, List.length_append]
        omega
      exact (fills.scope_eq grown (Nat.ne_of_lt old)).trans (kept number old)
    exact ⟨left, unseen later left⟩
  · rw [lookup_spelling]
    cases Scope.find? (store.view environment) (.spelling name) <;> simp

/-- Three environments, each in front of the one before it; the last one hides the name. -/
theorem Arises.shares_scopes_hidden :
    let store : Store := ⟨[[(.text "x", .number 1)], [(.text "y", .number 2)], [(.text "x", .number 3)]]⟩
    let environments : List Environment := [⟨0, []⟩, ⟨1, [0]⟩, ⟨2, [1, 0]⟩]
    Arises store environments ∧ ∃ after, store.define ⟨0, []⟩ (.text "x") (.number 9) = .ok after ∧
      after.sight ⟨1, [0]⟩ "x" = ⟨.ok (.number 9), .ok true, 2⟩ ∧
      after.sight ⟨2, [1, 0]⟩ "x" = ⟨.ok (.number 3), .ok true, 3⟩ ∧
      after.sight ⟨1, [0]⟩ "y" = ⟨.ok (.number 2), .ok true, 2⟩ := by
  intro store environments
  have created : (⟨[]⟩ : Store).create [[(.text "x", .number 1)]] =
      .ok (⟨0, []⟩, ⟨store.scopes.take 1⟩) := rfl
  have first : Arises ⟨store.scopes.take 1⟩ [⟨0, []⟩] := Arises.empty.create created
  have second : Arises ⟨store.scopes.take 2⟩ [⟨0, []⟩, ⟨1, [0]⟩] :=
    first.push (List.mem_singleton_self _) [(.text "y", .number 2)]
  have arises : Arises store environments :=
    second.push (List.mem_cons_of_mem _ (List.mem_singleton_self _)) [(.text "x", .number 3)]
  have outermost : (⟨0, []⟩ : Environment) ∈ environments := by decide
  obtain ⟨after, defined, seen⟩ := (arises.shares_scopes outermost).1 "x" (.number 9)
  have hidden : ¬ store.Exposes [2, 1, 0] 0 "x" := by
    rintro ⟨closer, farther, split, unbound⟩
    cases closer with
    | nil => cases split
    | cons number closer =>
      obtain ⟨rfl, _⟩ := List.cons.inj split
      exact absurd (unbound 2 (by simp)) (by simp [store, scope, Scope.get?])
  refine ⟨arises, after, defined, ?_, ?_, ?_⟩
  · refine (seen ⟨1, [0]⟩ (by decide) "x").1 ⟨rfl, [1], [], rfl, ?_⟩
    simp [store, scope, Scope.get?]
  · exact (seen ⟨2, [1, 0]⟩ (by decide) "x").2 fun exposes => hidden exposes.2
  · exact (seen ⟨1, [0]⟩ (by decide) "y").2 fun exposes => absurd exposes.1 (by decide)

end Store

end Reckoner
