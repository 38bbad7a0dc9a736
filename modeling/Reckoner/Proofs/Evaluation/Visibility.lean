import Reckoner.Proofs.Evaluation.Effects
import Reckoner.Proofs.Mentions

/-!
What evaluation sees of an environment. Two environments, however they are made of scopes and whatever
scopes they share, may accord on the names that a node and the functions behind these names mention. Then
evaluating the node in the one does what it does in the other: each step finds the same values, and after
each of them the environments accord again, in the environment itself as in those that calls put in front
of it.
-/
namespace Reckoner

/-- Whether data make up a sentence that a file can hold does not depend on a text at their end. -/
theorem Datum.sentence_ending (position : Nat) (pieces : List Datum) (ending other : String) :
    (fun _ => ()) <$> Datum.sentence position (pieces ++ [.text ending]) =
      (fun _ => ()) <$> Datum.sentence position (pieces ++ [.text other]) := by
  induction pieces generalizing position with
  | nil => rfl
  | cons piece rest ih =>
    have longer (before : String) (next : Nat) :
        (fun _ => ()) <$> (before ++ ·) <$> Datum.sentence next (rest ++ [.text ending]) =
          (fun _ => ()) <$> (before ++ ·) <$> Datum.sentence next (rest ++ [.text other]) := by
      simpa only [Functor.map_map] using ih next
    cases piece with
    | spelling text => cases text with
      | broken codes half => rfl
      | whole text => exact longer _ _
    | _ => exact longer _ _

namespace Evaluation

/-- Whether an entry can be written does not depend on a text at its end. -/
theorem recorded_ending (logging : Logging) (detail : Detail) (pieces : List Datum) (ending other : String) :
    (fun _ => ()) <$> recorded logging detail (pure (pieces ++ [.text ending])) =
      (fun _ => ()) <$> recorded logging detail (pure (pieces ++ [.text other])) := by
  have alike := Datum.sentence_ending 0 pieces ending other
  unfold recorded
  split
  · split
    · simpa only [pure_bind, bind_pure_comp, Functor.map_map] using alike
    · rfl
  · rfl

/-- An entry for a call fails in the same way however many scopes there are. -/
theorem recorded_callEntry (logging : Logging) (f : Function) (values : List Value) (size other : Nat) :
    (fun _ => ()) <$> recorded logging .call (callEntry f values size) =
      (fun _ => ()) <$> recorded logging .call (callEntry f values other) := by
  unfold callEntry
  cases values.mapM Value.shown with
  | error fault => rfl
  | ok shown => exact recorded_ending logging .call [.text "call ", f.name] _ _

end Evaluation

namespace Working
variable {α β : Type} {known : Spelling → Prop} {one two : Environment}

/-- Two workspaces in which two environments accord. -/
structure Paired (known : Spelling → Prop) (one two : Environment) (first second : Workspace) : Prop where
  houses : first.store.Houses one
  housesTwin : second.store.Houses two
  accord : Scope.Accord known (first.store.view one) (second.store.view two)

/-- From two workspaces, steps end with the same result or fault, and the environments accord again. -/
inductive Concurs (known : Spelling → Prop) (one two : Environment) (Good : α → Prop)
    (work twin : Working α) (first second : Workspace) : Prop
  | ok {value : α} {after afterTwin : Workspace} (outcome : work first = .ok value after)
      (outcomeTwin : twin second = .ok value afterTwin) (paired : Paired known one two after afterTwin)
      (good : Good value)
  | error {fault : Fault} {after afterTwin : Workspace} (outcome : work first = .error fault after)
      (outcomeTwin : twin second = .error fault afterTwin) (paired : Paired known one two after afterTwin)

/-- Steps that end alike wherever two environments accord, with results that are `Good`. -/
def Concur (known : Spelling → Prop) (one two : Environment) (Good : α → Prop)
    (work twin : Working α) : Prop :=
  ∀ first second, Paired known one two first second →
    Concurs known one two Good work twin first second

variable {Good : α → Prop} {Last : β → Prop}

theorem concur_pure {value : α} (good : Good value) :
    Concur known one two Good (pure value) (pure value) := fun _ _ paired => .ok rfl rfl paired good

theorem concur_throw (fault : Fault) :
    Concur known one two Good (throw fault : Working α) (throw fault) :=
  fun _ _ paired => .error rfl rfl paired

theorem concur_lift {outcome : Except Fault α} (good : ∀ value, outcome = .ok value → Good value) :
    Concur known one two Good (lift outcome) (lift outcome) := by
  cases outcome with
  | ok value => exact concur_pure (good value rfl)
  | error fault => exact concur_throw fault

theorem concur_liftError (outcome : Except Error α) :
    Concur known one two (fun _ => True) (liftError outcome) (liftError outcome) := by
  cases outcome with
  | ok value => exact concur_pure trivial
  | error error => exact concur_throw _

theorem Concur.bind {work twin : Working α} {next further : α → Working β}
    (first : Concur known one two Good work twin)
    (more : ∀ value, Good value → Concur known one two Last (next value) (further value)) :
    Concur known one two Last (work >>= next) (twin >>= further) := by
  intro before beforeTwin paired
  cases first before beforeTwin paired with
  | @ok value middle middleTwin outcome outcomeTwin paired good =>
    cases more value good middle middleTwin paired with
    | ok outcome' outcomeTwin' paired' good' =>
      exact .ok ((bind_of_ok outcome).trans outcome') ((bind_of_ok outcomeTwin).trans outcomeTwin')
        paired' good'
    | error outcome' outcomeTwin' paired' =>
      exact .error ((bind_of_ok outcome).trans outcome') ((bind_of_ok outcomeTwin).trans outcomeTwin')
        paired'
  | error outcome outcomeTwin paired =>
    exact .error (bind_of_error outcome) (bind_of_error outcomeTwin) paired

theorem Concur.mapM {act twin : Node → Working α} {list : List Node}
    (each : ∀ node ∈ list, Concur known one two Good (act node) (twin node)) :
    Concur known one two (fun values => ∀ value ∈ values, Good value) (list.mapM act)
      (list.mapM twin) := by
  induction list with
  | nil => exact concur_pure nofun
  | cons node rest ih =>
    obtain ⟨first, others⟩ := List.forall_mem_cons.1 each
    simp only [List.mapM_cons]
    refine first.bind fun value good => (ih others).bind fun values goods => ?_
    exact concur_pure (List.forall_mem_cons.2 ⟨good, goods⟩)

theorem concur_resolve {name : Datum} (among : name.Among known) :
    Concur known one two (Value.Mentions known) (resolve one name) (resolve two name) := by
  intro first second paired
  obtain ⟨same, mentions⟩ := paired.accord.resolve among
  have here : resolve one name first = lift (Scope.resolve (first.store.view one) name) first := rfl
  have there : resolve two name second = lift (Scope.resolve (first.store.view one) name) second := by
    rw [same]
    rfl
  cases concur_lift mentions first second paired with
  | ok outcome outcomeTwin paired good =>
    exact .ok (here.trans outcome) (there.trans outcomeTwin) paired good
  | error outcome outcomeTwin paired =>
    exact .error (here.trans outcome) (there.trans outcomeTwin) paired

theorem concur_reference {name : Datum} (among : name.Among known) :
    Concur known one two (Value.Mentions known) (reference one name) (reference two name) := by
  refine (concur_resolve among).bind fun value mentions => ?_
  cases value with
  | function f => exact concur_throw _
  | _ => exact concur_pure mentions

theorem concur_callee {name : Datum} (among : name.Among known) :
    Concur known one two (Function.Mentions known) (callee one name) (callee two name) := by
  refine (concur_resolve among).bind fun value mentions => ?_
  cases value with
  | function f => exact concur_pure mentions
  | _ => exact concur_throw _

/-- Entries that fail alike, if they fail. -/
theorem concur_record (logging : Logging) (detail : Detail)
    {pieces others : Unit → Except Fault (List Datum)}
    (alike : (fun _ => ()) <$> Evaluation.recorded logging detail (pieces ()) =
      (fun _ => ()) <$> Evaluation.recorded logging detail (others ())) :
    Concur known one two (fun _ => True) (record logging detail pieces)
      (record logging detail others) := by
  intro first second paired
  have here := record_eq logging detail pieces first
  have there := record_eq logging detail others second
  cases written : Evaluation.recorded logging detail (pieces ()) with
  | ok more =>
    rw [written] at here alike
    obtain ⟨_, written', _⟩ := map_eq_ok_iff.1 alike.symm
    rw [written'] at there
    exact .ok here there ⟨paired.houses, paired.housesTwin, paired.accord⟩ trivial
  | error fault =>
    rw [written] at here alike
    rw [map_eq_error_iff.1 alike.symm] at there
    exact .error here there paired

/-- What an environment shows of names once one of them was given a value in it. -/
theorem find?_define {environment : Environment} {before : Workspace} {name : Spelling} {value : Value}
    {store : Store} (houses : before.store.Houses environment)
    (defined : before.store.define environment (.spelling name) value = .ok store) :
    Scope.find? (store.view environment) (.spelling name) = some value ∧
      ∀ text, text ≠ name → Scope.find? (store.view environment) (.spelling text) =
        Scope.find? (before.store.view environment) (.spelling text) := by
  obtain ⟨_, others⟩ := Store.define_eq_ok defined
  have changed := Store.scope_of_define houses defined
  refine ⟨Store.find?_of_exposes changed others ⟨[], environment.outer, rfl, nofun⟩, ?_⟩
  exact fun text differ => Store.find?_of_ne changed others differ environment.chain

theorem concur_define {name : Datum} (among : name.Among known) {value : Value}
    (mentions : value.Mentions known) :
    Concur known one two (fun _ => True) (define one name value) (define two name value) := by
  intro first second paired
  obtain ⟨text, _, rfl⟩ := among
  obtain ⟨store, defined, _⟩ := Store.define_spelling paired.houses text value
  obtain ⟨storeTwin, definedTwin, _⟩ := Store.define_spelling paired.housesTwin text value
  obtain ⟨found, others⟩ := find?_define paired.houses defined
  obtain ⟨foundTwin, othersTwin⟩ := find?_define paired.housesTwin definedTwin
  obtain ⟨size, _⟩ := Store.define_eq_ok defined
  obtain ⟨sizeTwin, _⟩ := Store.define_eq_ok definedTwin
  have here := define_eq one (.spelling text) value first
  have there := define_eq two (.spelling text) value second
  rw [defined] at here
  rw [definedTwin] at there
  refine .ok here there ⟨?_, ?_, ?_⟩ trivial
  · exact paired.houses.mono (Nat.le_of_eq size.symm)
  · exact paired.housesTwin.mono (Nat.le_of_eq sizeTwin.symm)
  · exact paired.accord.gain mentions found foundTwin others othersTwin

/-- Where nothing is bound in an environment, it shows what it did. -/
theorem Touches.view {environment : Environment} {before after : Workspace}
    (touches : Touches environment [] before after) (houses : before.store.Houses environment) :
    after.store.view environment = before.store.view environment := by
  refine List.map_congr_left fun number inside => ?_
  by_cases here : number = environment.innermost
  · have gains := touches.gains
    rw [here]
    generalize after.store.scope environment.innermost = scope at gains ⊢
    cases gains
    rfl
  · exact touches.others number (houses number inside) here

/-- Bodies that concur in environments with the same new scope in front do so when they return. -/
theorem concur_push {bindings : Scope} (holds : bindings.Holds (Value.Mentions known))
    {next further : Environment → Working α}
    (inner : ∀ number numberTwin, Concur known ⟨number, one.chain⟩ ⟨numberTwin, two.chain⟩ Good
      (next ⟨number, one.chain⟩) (further ⟨numberTwin, two.chain⟩))
    (binds : Binds one [] (push one bindings >>= next))
    (bindsTwin : Binds two [] (push two bindings >>= further)) :
    Concur known one two Good (push one bindings >>= next) (push two bindings >>= further) := by
  intro first second paired
  have entered : Paired known ⟨first.store.scopes.length, one.chain⟩
      ⟨second.store.scopes.length, two.chain⟩
      { first with store := (first.store.push one bindings).2 }
      { second with store := (second.store.push two bindings).2 } := by
    refine ⟨Store.houses_push paired.houses bindings, Store.houses_push paired.housesTwin bindings, ?_⟩
    have view := Store.view_push paired.houses bindings
    have viewTwin := Store.view_push paired.housesTwin bindings
    have accord := paired.accord.cons holds
    rwa [← view, ← viewTwin] at accord
  have left {after afterTwin : Workspace} (touches : Touches one [] first after)
      (touchesTwin : Touches two [] second afterTwin) : Paired known one two after afterTwin := by
    refine ⟨touches.houses paired.houses, touchesTwin.houses paired.housesTwin, ?_⟩
    rw [touches.view paired.houses, touchesTwin.view paired.housesTwin]
    exact paired.accord
  have ends := binds first paired.houses
  have endsTwin := bindsTwin second paired.housesTwin
  have untouched {environment : Environment} {before after : Workspace}
      (some : ∃ names, names <+: [] ∧ Touches environment names before after) :
      Touches environment [] before after := by
    obtain ⟨names, starts, touches⟩ := some
    rwa [List.prefix_nil.1 starts] at touches
  cases inner first.store.scopes.length second.store.scopes.length _ _ entered with
  | @ok value after afterTwin outcome outcomeTwin _ good =>
    have run : (push one bindings >>= next) first = .ok value after := outcome
    have runTwin : (push two bindings >>= further) second = .ok value afterTwin := outcomeTwin
    exact .ok run runTwin (left (ends.of_ok run) (endsTwin.of_ok runTwin)) good
  | @error fault after afterTwin outcome outcomeTwin _ =>
    have run : (push one bindings >>= next) first = .error fault after := outcome
    have runTwin : (push two bindings >>= further) second = .error fault afterTwin := outcomeTwin
    exact .error run runTwin (left (untouched (ends.of_error run)) (untouched (endsTwin.of_error runTwin)))

/-- A call binds nothing in the environment of its caller. -/
theorem binds_body (logging : Logging) (depth : Nat) (environment : Environment) (bindings : Scope)
    (f : Function) (values : List Value) :
    Binds environment [] (do
      let inner ← push environment bindings
      record logging .call fun _ => Evaluation.callEntry f values inner.depth
      f.body.evaluateIn logging depth inner) := by
  refine binds_push bindings fun number => ⟨f.body.bound, ?_⟩
  exact (binds_record _ _ _).behind fun _ => f.body.evaluateIn_binds logging depth _

end Working

open Working in
/-- A node that mentions known names only is evaluated alike wherever two environments accord on them. -/
theorem Node.evaluateIn_concur {known : Spelling → Prop} (logging : Logging) (depth : Nat)
    (one two : Environment) {node : Node} (mentions : node.Mentions known) :
    Concur known one two (Value.Mentions known) (node.evaluateIn logging depth one)
      (node.evaluateIn logging depth two) := by
  induction depth generalizing one two node with
  | zero => exact concur_throw _
  | succ depth ih =>
    cases node with
    | program body => exact concur_throw _
    | number x => exact concur_pure trivial
    | reference name => exact concur_reference (mentions name List.mem_cons_self)
    | binary operator left right =>
      obtain ⟨inLeft, inRight⟩ := mentions_binary mentions
      refine (ih one two inLeft).bind fun a _ => (concur_lift fun _ _ => trivial).bind fun a _ => ?_
      refine (ih one two inRight).bind fun b _ => (concur_lift fun _ _ => trivial).bind fun b _ => ?_
      exact (concur_liftError _).bind fun _ _ => concur_pure trivial
    | definition name value =>
      obtain ⟨among, inside⟩ := mentions_definition mentions
      refine (ih one two inside).bind fun result good => (concur_define among good).bind fun _ _ => ?_
      exact (concur_record _ _ rfl).bind fun _ _ => concur_pure good
    | function name parameters body =>
      obtain ⟨among, inside⟩ := mentions_function mentions
      have good : Value.Mentions known (.function ⟨name, parameters, body⟩) := inside
      refine (concur_define among good).bind fun _ _ => ?_
      exact (concur_record _ _ rfl).bind fun _ _ => concur_pure trivial
    | call name arguments =>
      obtain ⟨among, each⟩ := mentions_call mentions
      refine (concur_callee among).bind fun f inside => ?_
      refine (Concur.mapM fun argument here => ih one two (each argument here)).bind fun values good => ?_
      refine (concur_lift fun _ => Evaluation.parameterScope_holds good).bind fun bindings holds => ?_
      refine concur_push holds (fun number numberTwin => ?_) (binds_body _ _ _ _ f values)
        (binds_body _ _ _ _ f values)
      exact (concur_record _ _ (Evaluation.recorded_callEntry _ f values _ _)).bind fun _ _ =>
        ih _ _ inside.body

/-- Evaluating a node in two chains of scopes gives the same result, whatever was logged before, and leaves
    chains that accord. The innermost scopes stand in front of the outer ones. -/
def Node.Matches (known : Spelling → Prop) (logging : Logging) (depth : Nat) (node : Node)
    (scope : Scope) (outer : List Scope) (twin : Scope) (outerTwin : List Scope) : Prop :=
  ∀ entries entriesTwin, ∃ result after afterTwin,
    (node.evaluate logging depth outer).outcome ⟨scope, entries⟩ = (result, after) ∧
      (node.evaluate logging depth outerTwin).outcome ⟨twin, entriesTwin⟩ = (result, afterTwin) ∧
      Scope.Accord known (after.scope :: outer) (afterTwin.scope :: outerTwin)

namespace Working

/-- The scopes of a chain, by their places in it, make up an environment. -/
theorem fronts_chain (scope : Scope) (outer : List Scope) (entries : List Entry) :
    Fronts ⟨⟨scope :: outer⟩, entries⟩ ⟨0, List.range' 1 outer.length⟩ outer := by
  refine ⟨fun number inside => ?_, by simp, ?_⟩
  · simp only [Environment.chain, List.mem_cons, List.mem_range'_1] at inside
    simp only [List.length_cons]
    omega
  · refine List.ext_getElem (by simp [Workspace.outer]) fun place inside there => ?_
    simp [Workspace.outer, Store.scope, Nat.add_comm 1, there]

theorem Fronts.view {workspace : Workspace} {environment : Environment} {outer : List Scope}
    (fronts : Fronts workspace environment outer) :
    workspace.store.view environment = (workspace.frame environment).scope :: outer := by
  rw [← fronts.shows]
  rfl

/-- Chains that accord are told apart by no evaluation of a node that mentions known names only. -/
theorem matches_of_accord {known : Spelling → Prop} (logging : Logging) (depth : Nat) {node : Node}
    (mentions : node.Mentions known) {scope twin : Scope} {outer outerTwin : List Scope}
    (accord : Scope.Accord known (scope :: outer) (twin :: outerTwin)) :
    node.Matches known logging depth scope outer twin outerTwin := by
  intro entries entriesTwin
  have fronts := fronts_chain scope outer entries
  have frontsTwin := fronts_chain twin outerTwin entriesTwin
  have paired : Paired known ⟨0, List.range' 1 outer.length⟩ ⟨0, List.range' 1 outerTwin.length⟩
      ⟨⟨scope :: outer⟩, entries⟩ ⟨⟨twin :: outerTwin⟩, entriesTwin⟩ := by
    refine ⟨fronts.houses, frontsTwin.houses, ?_⟩
    rw [fronts.view, frontsTwin.view]
    exact accord
  have mirrors := node.evaluateIn_reflects logging depth _ outer (by simp) _ fronts
  have mirrorsTwin := node.evaluateIn_reflects logging depth _ outerTwin (by simp) _ frontsTwin
  cases Node.evaluateIn_concur logging depth _ _ mentions _ _ paired with
  | @ok value after afterTwin ended endedTwin pairedAfter _ =>
    obtain ⟨own, frontsAfter⟩ := mirrors.of_ok ended
    obtain ⟨ownTwin, frontsAfterTwin⟩ := mirrorsTwin.of_ok endedTwin
    refine ⟨.ok value, _, _, Evaluation.outcome_of_ok own, Evaluation.outcome_of_ok ownTwin, ?_⟩
    rw [← frontsAfter.view, ← frontsAfterTwin.view]
    exact pairedAfter.accord
  | @error fault after afterTwin ended endedTwin pairedAfter =>
    obtain ⟨own, frontsAfter⟩ := mirrors.of_error ended
    obtain ⟨ownTwin, frontsAfterTwin⟩ := mirrorsTwin.of_error endedTwin
    refine ⟨.error fault, _, _, Evaluation.outcome_of_error own, Evaluation.outcome_of_error ownTwin, ?_⟩
    rw [← frontsAfter.view, ← frontsAfterTwin.view]
    exact pairedAfter.accord

end Working

open Working in
/-- Let a node mention known names only. Where two environments have the same values for these, and the
    functions among the values mention no other names, evaluating the node in the one gives the same result
    or fault as in the other, and afterwards the environments accord again. So it does in chains of scopes,
    in particular in a chain and in the one scope into which it is merged, and in chains whose scopes differ
    in other names. -/
theorem Node.evaluate_visible {known : Spelling → Prop} (logging : Logging) (depth : Nat) {node : Node}
    (mentions : node.Mentions known) :
    (∀ one two first second, first.store.Houses one → second.store.Houses two →
        Scope.Accord known (first.store.view one) (second.store.view two) →
        ∃ result after afterTwin, (node.evaluateIn logging depth one).outcome first = (result, after) ∧
          (node.evaluateIn logging depth two).outcome second = (result, afterTwin) ∧
          Scope.Accord known (after.store.view one) (afterTwin.store.view two)) ∧
      (∀ scope twin outer outerTwin, Scope.Accord known (scope :: outer) (twin :: outerTwin) →
        node.Matches known logging depth scope outer twin outerTwin) ∧
      (∀ scope outer, Scope.Closed known (scope :: outer) →
        node.Matches known logging depth scope outer (Scope.merge (scope :: outer)) []) ∧
      ∀ scope twin outer outerTwin, Scope.Closed known (scope :: outer) →
        List.Forall₂ (fun scope other : Scope => ∀ text, known text →
          scope.get? (.spelling text) = other.get? (.spelling text)) (scope :: outer) (twin :: outerTwin) →
        node.Matches known logging depth scope outer twin outerTwin := by
  refine ⟨?_, ?_, ?_, ?_⟩
  · intro one two first second houses housesTwin accord
    cases node.evaluateIn_concur logging depth one two mentions first second ⟨houses, housesTwin, accord⟩ with
    | ok ended endedTwin paired _ =>
      exact ⟨_, _, _, outcome_of_ok ended, outcome_of_ok endedTwin, paired.accord⟩
    | error ended endedTwin paired =>
      exact ⟨_, _, _, outcome_of_error ended, outcome_of_error endedTwin, paired.accord⟩
  · intro scope twin outer outerTwin accord
    exact matches_of_accord logging depth mentions accord
  · intro scope outer closed
    exact matches_of_accord logging depth mentions (Scope.accord_merge closed)
  · intro scope twin outer outerTwin closed same
    exact matches_of_accord logging depth mentions (Scope.accord_of_forall₂ closed same)

/-- A name that is found in the outer scope of one chain and in the only scope of the other one; the name
    that the function does not mention stands for different numbers. -/
theorem Node.evaluate_visible_call :
    let f : Function := ⟨.text "f", [], .reference (.text "x")⟩
    let outer : Scope := [(.text "x", .number 1), (.text "f", .function f), (.text "z", .number 2)]
    let twin : Scope := [(.text "f", .function f), (.text "z", .number 3), (.text "x", .number 1)]
    ∃ after afterTwin,
      ((Node.call (.text "f") []).evaluate {} 9 [outer]).outcome ⟨[], []⟩ = (.ok (.number 1), after) ∧
      ((Node.call (.text "f") []).evaluate {} 9 []).outcome ⟨twin, []⟩ = (.ok (.number 1), afterTwin) := by
  intro f outer twin
  let known (text : Spelling) : Prop := text = .whole "f" ∨ text = .whole "x"
  have inside : f.Mentions known := by
    refine ⟨nofun, fun name among => ?_⟩
    exact ⟨.whole "x", .inr rfl, List.mem_singleton.1 among⟩
  have mentions : (Node.call (.text "f") []).Mentions known := by
    intro name among
    exact ⟨.whole "f", .inl rfl, List.mem_singleton.1 among⟩
  have accord : Scope.Accord known ([] :: [outer]) (twin :: []) := by
    constructor
    · rintro text (rfl | rfl)
      · rfl
      · rfl
    · rintro text value (rfl | rfl) found
      · cases found
        exact inside
      · cases found
        trivial
  obtain ⟨result, after, afterTwin, ended, endedTwin, _⟩ :=
    (evaluate_visible {} 9 mentions).2.1 [] twin [outer] [] accord [] []
  cases ended
  exact ⟨_, afterTwin, rfl, endedTwin⟩

end Reckoner
