import Reckoner.Proofs.Descent.Citations

/-!
The loops of the reader. `Loops` repeats a round until one of them ends the loop, and counts nothing. Each
loop of the reader is given the tokens ahead to count its rounds by; a round that goes on has passed at
least one token, so that count is never what ends the loop: from every cursor the loop ends after finitely
many rounds, and as the reader says.
-/
namespace Reckoner

/-- The rounds of a loop from a state on: one round gives the next state, or the result. -/
inductive Loops {σ α : Type} (round : σ → Reading (σ ⊕ α)) :
    σ → Cursor → EStateM.Result Fault Cursor α → Prop where
  | ends {state : σ} {cursor after : Cursor} {result : α}
      (last : round state cursor = .ok (.inr result) after) : Loops round state cursor (.ok result after)
  | fails {state : σ} {cursor after : Cursor} {fault : Fault}
      (last : round state cursor = .error fault after) : Loops round state cursor (.error fault after)
  | again {state next : σ} {cursor middle : Cursor} {outcome : EStateM.Result Fault Cursor α}
      (first : round state cursor = .ok (.inl next) middle) (others : Loops round next middle outcome) :
      Loops round state cursor outcome

namespace Reading

theorem complain_bind {α β : Type} (complaint : Complaint) (line : Option Int)
    (next : α → Reading β) : complain complaint line >>= next = complain complaint line := rfl

theorem map_complain {α β : Type} (complaint : Complaint) (line : Option Int) (change : α → β) :
    change <$> (complain complaint line : Reading α) = complain complaint line := rfl

/-- A round that goes on has passed some tokens. -/
def Onward {σ α : Type} (round : σ → Reading (σ ⊕ α)) : Prop :=
  ∀ state (cursor : Cursor), cursor.Ended → Spans (round state) cursor
    (fun passed step => ∀ next, step = .inl next → passed ≠ []) fun _ _ _ => True

/-- A loop that counts its rounds ends as the one that does not, if there are more rounds than tokens
    ahead. -/
theorem loops_of_rounds {σ α : Type} {round : σ → Reading (σ ⊕ α)} (onward : Onward round)
    (counted : List Token → σ → Reading α)
    (unrolled : ∀ token rounds state,
      counted (token :: rounds) state = round state >>= Sum.elim (counted rounds) pure)
    (rounds : List Token) (state : σ) {cursor : Cursor} (ended : cursor.Ended)
    (enough : cursor.ahead.length < rounds.length) :
    Loops round state cursor (counted rounds state cursor) := by
  induction rounds generalizing state cursor with
  | nil => exact absurd enough (Nat.not_lt_zero _)
  | cons token rounds ih =>
    rw [unrolled]
    cases outcome : round state cursor with
    | error fault after =>
      rw [bind_of_error outcome]
      exact .fails outcome
    | ok step after =>
      rw [bind_of_ok outcome]
      cases step with
      | inr result => exact .ends outcome
      | inl next =>
        obtain ⟨passed, passes, some⟩ := (onward state cursor ended).of_ok outcome
        refine .again outcome (ih next (passes.ended ended) ?_)
        have shorter := passes.length
        have filled := List.length_pos_iff.2 (some next rfl)
        rw [List.length_cons] at enough
        omega

end Reading

namespace Descent
open Reckoner.Reading

/-- One more operand of a chain. -/
def chainRound (operator? : Token.Kind → Option Operator) (operand : Reading Node) (left : Node) :
    Reading (Node ⊕ Node) := do
  match operator? (← peek).kind with
  | none => return .inr left
  | some operator =>
    let _ ← advance
    let right ← operand
    return .inl (.binary operator left right)

/-- One more argument of a call behind those `before`. -/
def argumentsRound (inner : Reading Node) (function : Spelling) (line : Option Int)
    (before : List Node) : Reading (List Node ⊕ List Node) := do
  let next ← inner
  let token ← peek
  match token.kind with
  | .comma =>
    let _ ← advance
    return .inl (before ++ [next])
  | .closing =>
    let _ ← advance
    return .inr (before ++ [next])
  | .finish => complain (.unmatchedCall function) line
  | .semicolon => complain (.unmatchedCall function) line
  | _ => complain (.argumentsEnd function token.found) token.line

/-- One more parameter of a function behind those in `seen`. -/
def parametersRound (function : Spelling) (seen : List Spelling) :
    Reading (List Spelling ⊕ List Spelling) := do
  let name ← consume .name (.parameter function)
  if name.lexeme ∈ seen then complain (.duplicate name.lexeme function) name.line
  else if ← sees .comma then
    let _ ← advance
    return .inl (seen ++ [name.lexeme])
  else
    let _ ← consume .closing (.parametersEnd function)
    return .inr (seen ++ [name.lexeme])

/-- One more statement of a program behind those `before`, or an empty one. -/
def statementsRound (depth : Nat) (before : List Node) : Reading (List Node ⊕ List Node) := do
  match (← peek).kind with
  | .finish => return .inr before
  | .semicolon =>
    let _ ← advance
    return .inl before
  | _ =>
    let next ← statement depth
    return .inl (before ++ [next])

theorem chain_unrolled (operator? : Token.Kind → Option Operator) (operand : Reading Node)
    (token : Token) (rounds : List Token) (left : Node) :
    chain operator? operand (token :: rounds) left =
      chainRound operator? operand left >>= Sum.elim (chain operator? operand rounds) pure := by
  unfold chainRound
  rw [chain]
  simp only [bind_assoc]
  congr 1
  funext token
  cases operator? token.kind <;> simp

theorem arguments_unrolled (inner : Reading Node) (function : Spelling) (line : Option Int)
    (token : Token) (rounds : List Token) (before : List Node) :
    (before ++ ·) <$> arguments inner function line (token :: rounds) =
      argumentsRound inner function line before >>=
        Sum.elim (fun next => (next ++ ·) <$> arguments inner function line rounds) pure := by
  unfold argumentsRound
  rw [arguments]
  simp only [bind_assoc, map_bind]
  congr 1
  funext first
  congr 1
  funext token
  cases token.kind <;> simp [complain_bind, map_complain]

theorem parameters_unrolled (function : Spelling) (token : Token) (rounds : List Token)
    (seen : List Spelling) :
    parametersFrom function (token :: rounds) seen =
      parametersRound function seen >>= Sum.elim (parametersFrom function rounds) pure := by
  unfold parametersRound
  rw [parametersFrom]
  simp only [bind_assoc]
  congr 1
  funext name
  split
  · rw [complain_bind]
  · simp only [bind_assoc]
    congr 1
    funext comma
    cases comma <;> simp

theorem statements_unrolled (depth : Nat) (token : Token) (rounds : List Token) (before : List Node) :
    (before ++ ·) <$> statements depth (token :: rounds) =
      statementsRound depth before >>=
        Sum.elim (fun next => (next ++ ·) <$> statements depth rounds) pure := by
  unfold statementsRound
  rw [statements]
  simp only [bind_assoc, map_bind]
  congr 1
  funext token
  cases token.kind <;> simp

theorem onward_chain {operator? : Token.Kind → Option Operator} {operand : Reading Node} {bound : Nat}
    (signs : Signs operator?) (each : Passer operand bound) : Onward (chainRound operator? operand) := by
  intro left cursor ended
  refine spans_peek_bind ?_
  cases sign : operator? cursor.current.kind with
  | none => exact spans_pure nofun
  | some operator =>
    refine (spans_advance ended (signs.inside sign).1).bind ended ?_
    rintro _ _ middle _ endedMiddle ⟨rfl, rfl⟩
    refine Spans.bind endedMiddle ((each middle endedMiddle).imp (fun _ _ good => good)
      fun _ _ _ _ => trivial) ?_
    intro right words after _ _ _
    exact spans_pure (by simp)

theorem onward_arguments {inner : Reading Node} {bound : Nat} (inside : Passer inner bound)
    (function : Spelling) (line : Option Int) : Onward (argumentsRound inner function line) := by
  intro before cursor ended
  refine Spans.bind ended ((inside cursor ended).imp (fun _ _ good => good) fun _ _ _ _ => trivial) ?_
  rintro next words middle _ endedMiddle ⟨_, some⟩
  refine spans_peek_bind ?_
  split
  · rename_i comma
    refine (spans_advance endedMiddle (by simp [comma])).bind endedMiddle ?_
    rintro _ _ after _ _ ⟨rfl, rfl⟩
    exact spans_pure (by simp)
  · rename_i closes
    refine (spans_advance endedMiddle (by simp [closes])).bind endedMiddle ?_
    rintro _ _ after _ _ ⟨rfl, rfl⟩
    exact spans_pure nofun
  · exact spans_complain trivial
  · exact spans_complain trivial
  · exact spans_complain trivial

theorem onward_parameters (function : Spelling) : Onward (parametersRound function) := by
  intro seen cursor ended
  refine (spans_consume ended (by simp) trivial).bind ended ?_
  rintro name _ middle _ endedMiddle ⟨rfl, _⟩
  split
  · exact spans_complain trivial
  · refine spans_sees_bind ?_
    by_cases comma : middle.current.kind = .comma
    · simp only [comma, decide_true, if_true]
      refine (spans_advance endedMiddle (by simp [comma])).bind endedMiddle ?_
      rintro _ _ after _ _ ⟨rfl, rfl⟩
      exact spans_pure (by simp)
    · simp only [comma, decide_false, Bool.false_eq_true, if_false]
      refine (spans_consume endedMiddle (by simp) trivial).bind endedMiddle ?_
      intro _ _ after _ _ _
      exact spans_pure nofun

theorem onward_statements (depth : Nat) : Onward (statementsRound depth) := by
  intro before cursor ended
  refine spans_peek_bind ?_
  split
  · exact spans_pure nofun
  · rename_i ends
    refine (spans_advance ended (by simp [ends])).bind ended ?_
    rintro _ _ after _ _ ⟨rfl, rfl⟩
    exact spans_pure (by simp)
  · refine Spans.bind ended ((spans_statement ended depth).imp (fun _ _ good => good)
      fun _ _ _ _ => trivial) ?_
    rintro next words after _ _ ⟨_, some⟩
    exact spans_pure (by simpa using some)

/-- From a cursor every loop of the reader ends, whatever it has gathered so far, and as the reader that
    counts the tokens ahead does. -/
structure LoopsEnd (depth : Nat) (cursor : Cursor) : Prop where
  sums : ∀ left, Loops (chainRound sumOperator? (term depth)) left cursor
    (chain sumOperator? (term depth) (cursor.stop :: cursor.ahead) left cursor)
  products : ∀ left, Loops (chainRound productOperator? (factor depth)) left cursor
    (chain productOperator? (factor depth) (cursor.stop :: cursor.ahead) left cursor)
  arguments : ∀ function line before, Loops (argumentsRound (expression depth) function line) before cursor
    (((before ++ ·) <$> arguments (expression depth) function line (cursor.stop :: cursor.ahead)) cursor)
  parameters : ∀ function seen, Loops (parametersRound function) seen cursor
    (parametersFrom function (cursor.stop :: cursor.ahead) seen cursor)
  statements : ∀ before, Loops (statementsRound depth) before cursor
    (((before ++ ·) <$> statements depth (cursor.stop :: cursor.ahead)) cursor)

theorem loopsEnd {cursor : Cursor} (ended : cursor.Ended) (depth : Nat) : LoopsEnd depth cursor := by
  have within : cursor.ahead.length < (cursor.stop :: cursor.ahead).length := Nat.lt_succ_self _
  have inside := passer_expression depth
  constructor
  · intro left
    exact loops_of_rounds (onward_chain signs_sum (passer_termWith inside)) (chain _ _)
      (chain_unrolled _ _) _ left ended within
  · intro left
    exact loops_of_rounds (onward_chain signs_product (passer_factorWith inside)) (chain _ _)
      (chain_unrolled _ _) _ left ended within
  · intro function line before
    exact loops_of_rounds (onward_arguments inside function line)
      (fun rounds before => (before ++ ·) <$> arguments (expression depth) function line rounds)
      (arguments_unrolled _ _ _) _ before ended within
  · intro function seen
    exact loops_of_rounds (onward_parameters function) (parametersFrom function)
      (parameters_unrolled function) _ seen ended within
  · intro before
    exact loops_of_rounds (onward_statements depth)
      (fun rounds before => (before ++ ·) <$> statements depth rounds)
      (statements_unrolled depth) _ before ended within

end Descent

end Reckoner
