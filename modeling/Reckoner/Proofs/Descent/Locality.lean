import Reckoner.Descent
import Reckoner.Proofs.Descent.Steady

/-!
Reading by descent depends only on the tokens that it has looked at. Each part of the reader is steady
where the expressions inside it are; by induction on the depth so is every expression, and with it every
program. What comes later than a complaint does not change it.
-/
namespace Reckoner.Descent
open Reckoner.Reading

/-- A step is steady at every cursor before words. -/
def Settled {α : Type} (step : Reading α) : Prop :=
  ∀ cursor : Cursor, cursor.Ended → Steady 0 (fun _ => step) cursor

/-- A chain is steady: every round takes an operator, and behind it the chain goes on with fewer tokens
    ahead. -/
theorem steady_chain {operator? : Token.Kind → Option Operator} {operand : Reading Node}
    (finish : operator? .finish = none) (each : Settled operand) {cursor : Cursor}
    (ended : cursor.Ended) (left : Node) :
    Steady 0 (fun rounds => chain operator? operand rounds left) cursor := by
  induction size : cursor.ahead.length using Nat.strongRecOn generalizing cursor left with
  | ind size ih =>
    refine Steady.round cursor.stop (fun _ _ => rfl) ?_
    simp only [chain]
    refine steady_peek_bind ended ?_
    cases sign : operator? cursor.current.kind with
    | none => exact steady_pure left
    | some operator =>
      have word : cursor.current.kind ≠ .finish := by
        intro finished
        rw [finished, finish] at sign
        cases sign
      refine steady_advance_bind ended word ?_
      have behind := ended.skip 1
      refine Steady.bind behind ((each _ behind).more (Nat.zero_le _)) fun right taken _ => ?_
      have filled := ended.length_pos word
      refine (ih _ ?_ (behind.skip taken) _ rfl).tail.more (by omega)
      simp only [Cursor.length_skip]
      omega

section
variable {inner : Reading Node} (inside : Settled inner)
include inside

theorem steady_arguments (function : Spelling) (line : Option Int) {cursor : Cursor}
    (ended : cursor.Ended) : Steady 0 (fun rounds => arguments inner function line rounds) cursor := by
  induction size : cursor.ahead.length using Nat.strongRecOn generalizing cursor with
  | ind size ih =>
    refine Steady.round cursor.stop (fun _ _ => rfl) ?_
    simp only [arguments]
    refine Steady.bind ended (inside cursor ended) fun first taken _ => ?_
    have middle := ended.skip taken
    refine steady_peek_bind middle ?_
    split
    · rename_i comma
      have word : (cursor.skip taken).current.kind ≠ .finish := by simp [comma]
      refine steady_advance_bind middle word ?_
      have filled := middle.length_pos word
      refine Steady.bind (middle.skip 1) ?_ fun others _ _ => steady_pure _
      refine (ih _ ?_ (middle.skip 1) rfl).tail.more (by omega)
      simp only [Cursor.length_skip] at filled ⊢
      omega
    · rename_i closes
      exact steady_advance_bind middle (by simp [closes]) (steady_pure _)
    · exact steady_complain rfl middle
    · exact steady_complain rfl middle
    · exact steady_complain rfl middle

/-- A call behind its name and the opening parenthesis. -/
def callBehind (inner : Reading Node) (name paren : Token) : Reading Node := do
  if ← sees .closing then
    let _ ← advance
    return .call (.spelling name.lexeme) []
  else
    return .call (.spelling name.lexeme) (← arguments inner name.lexeme paren.line (← remaining))

theorem settled_callBehind (name paren : Token) : Settled (callBehind inner name paren) := by
  intro cursor ended
  refine steady_sees_bind ended ?_
  by_cases closes : cursor.current.kind = .closing
  · simp only [closes, decide_true, if_true]
    exact steady_advance_bind ended (by simp [closes]) (steady_pure _)
  · simp only [closes, decide_false, Bool.false_eq_true, if_false]
    refine steady_remaining_bind ?_
    exact Steady.bind ended (steady_arguments inside _ _ ended) fun _ _ _ => steady_pure _

omit inside in
/-- Where a name and a parenthesis stand, an operand is a call and goes on behind them. -/
theorem factorWith_call {cursor : Cursor} (named : cursor.current.kind = .name)
    (opens : cursor.following.kind = .opening) :
    factorWith inner cursor =
      callBehind inner cursor.current cursor.following (cursor.skip 2) := by
  have paren : cursor.moved.current.kind = .opening := opens
  rw [factorWith, bind_of_ok (peek_eq cursor)]
  simp only [named]
  rw [bind_of_ok (peekNext_eq cursor), if_pos opens, callWith,
    bind_of_ok (consume_of_kind _ named), bind_of_ok (consume_of_kind _ paren), ← Cursor.skip_one,
    ← Cursor.skip_one, Cursor.skip_skip]
  rfl

omit inside in
/-- Where a name stands before anything but a parenthesis, an operand is the name. -/
theorem factorWith_name {cursor : Cursor} (named : cursor.current.kind = .name)
    (opens : cursor.following.kind ≠ .opening) :
    factorWith inner cursor = .ok (.reference (.spelling cursor.current.lexeme)) (cursor.skip 1) := by
  rw [factorWith, bind_of_ok (peek_eq cursor)]
  simp only [named]
  rw [bind_of_ok (peekNext_eq cursor), if_neg opens]
  rfl

theorem settled_factorWith : Settled (factorWith inner) := by
  intro cursor ended
  by_cases named : cursor.current.kind = .name
  · have filled := ended.length_pos (by simp [named])
    by_cases opens : cursor.following.kind = .opening
    · have two := ended.two_le_length (by simp [named]) (by simp [opens])
      refine Steady.front ended two ?_
        ((settled_callBehind inside cursor.current cursor.following _ (ended.skip 2)).more (Nat.zero_le _))
      intro twin _ _ filledTwin _ agrees
      have token := agrees.current (by omega)
      have next := agrees.following (by omega) filled (by omega)
      rw [factorWith_call (token ▸ named) (next ▸ opens), token, next]
    · refine Steady.front ended filled ?_ (steady_pure (.reference (.spelling cursor.current.lexeme)))
      intro twin _ _ filledTwin _ agrees
      have token := agrees.current (by omega)
      have next := agrees.following (by omega) filled filledTwin
      rw [factorWith_name (token ▸ named) (next ▸ opens), token]
      rfl
  · refine steady_peek_bind ended ?_
    split
    · rename_i opens
      refine steady_advance_bind ended (by simp [opens]) ?_
      have behind := ended.skip 1
      refine Steady.bind behind ((inside _ behind).more (Nat.zero_le _)) fun node taken _ => ?_
      have last := behind.skip taken
      refine steady_sees_bind last ?_
      split
      · rename_i closes
        exact steady_advance_bind last (by simp_all) (steady_pure _)
      · exact steady_complain rfl last
    · contradiction
    · rename_i number
      refine steady_advance_bind ended (by simp [number]) ?_
      unfold numeral
      split
      · exact steady_pure _
      · rename_i unread
        exact steady_throw (Fault.sight_of_toFloat unread) (ended.skip 1)
    · exact steady_complain rfl ended

theorem settled_termWith : Settled (termWith inner) := by
  intro cursor ended
  refine Steady.bind ended (settled_factorWith inside cursor ended) fun first taken _ => ?_
  exact steady_remaining_bind (steady_chain rfl (settled_factorWith inside) (ended.skip taken) first)

theorem settled_expressionWith : Settled (expressionWith inner) := by
  intro cursor ended
  refine Steady.bind ended (settled_termWith inside cursor ended) fun first taken _ => ?_
  exact steady_remaining_bind (steady_chain rfl (settled_termWith inside) (ended.skip taken) first)

end

/-- The circle of expressions is closed one level at a time. -/
theorem settled_expression (depth : Nat) : Settled (expression depth) := by
  induction depth with
  | zero => exact fun _ ended => steady_throw rfl ended
  | succ depth ih => exact settled_expressionWith ih

theorem settled_definition (depth : Nat) : Settled (definition depth) := by
  intro cursor ended
  refine steady_consume_bind ended (by simp) (fun _ _ => rfl) fun _ => ?_
  refine steady_consume_bind (ended.skip 1) (by simp) (fun _ _ => rfl) fun _ => ?_
  refine steady_consume_bind ((ended.skip 1).skip 1) (by simp) (fun _ _ => rfl) fun _ => ?_
  have behind := ((ended.skip 1).skip 1).skip 1
  refine Steady.bind behind ((settled_expression depth _ behind).more (Nat.zero_le _)) fun _ _ _ => ?_
  exact steady_pure _

/-- Parameters are steady; of a repeated one nothing behind it is looked at. -/
theorem steady_parametersFrom (function : Spelling) (seen : List Spelling) {cursor : Cursor}
    (ended : cursor.Ended) :
    Steady 0 (fun rounds => parametersFrom function rounds seen) cursor := by
  induction size : cursor.ahead.length using Nat.strongRecOn generalizing cursor seen with
  | ind size ih =>
    refine Steady.round cursor.stop (fun _ _ => rfl) ?_
    simp only [parametersFrom]
    by_cases repeated : cursor.current.kind = .name ∧ cursor.current.lexeme ∈ seen
    · obtain ⟨named, old⟩ := repeated
      refine steady_stop (.error (.parse (.duplicate cursor.current.lexeme function) cursor.current.line))
        ended (ended.length_pos (by simp [named])) (Nat.le_refl 1) ?_
      intro twin _ _ _ agrees
      have token := agrees.current (Nat.le_refl 1)
      rw [bind_of_ok (consume_of_kind _ (token ▸ named)), token, if_pos old]
      rfl
    · refine steady_consume_bind ended (by simp) (fun _ _ => rfl) fun named => ?_
      have new : cursor.current.lexeme ∉ seen := fun old => repeated ⟨named, old⟩
      have filled := ended.length_pos (by simp [named])
      have middle := ended.skip 1
      simp only [new, if_false]
      refine steady_sees_bind middle ?_
      by_cases comma : cursor.moved.current.kind = .comma
      · simp only [comma, decide_true, if_true]
        refine steady_advance_bind middle (by simp [comma]) ?_
        refine (ih _ ?_ _ (middle.skip 1) rfl).tail.more (by omega)
        simp only [Cursor.length_skip]
        omega
      · simp only [comma, decide_false, Bool.false_eq_true, if_false]
        refine steady_consume_bind middle (by simp) (fun _ _ => rfl) fun _ => ?_
        exact steady_pure _

theorem settled_parameters (function : Spelling) : Settled (parameters function) := by
  intro cursor ended
  refine steady_sees_bind ended ?_
  by_cases closes : cursor.current.kind = .closing
  · simp only [closes, decide_true, if_true]
    exact steady_advance_bind ended (by simp [closes]) (steady_pure _)
  · simp only [closes, decide_false, Bool.false_eq_true, if_false]
    exact steady_remaining_bind (steady_parametersFrom function [] ended)

theorem settled_function (depth : Nat) : Settled (function depth) := by
  intro cursor ended
  refine steady_consume_bind ended (by simp) (fun _ _ => rfl) fun _ => ?_
  refine steady_consume_bind (ended.skip 1) (by simp) (fun _ _ => rfl) fun _ => ?_
  refine steady_consume_bind ((ended.skip 1).skip 1) (by simp) (fun _ _ => rfl) fun _ => ?_
  have behind := ((ended.skip 1).skip 1).skip 1
  refine Steady.bind behind ((settled_parameters _ _ behind).more (Nat.zero_le _)) fun _ taken _ => ?_
  refine steady_consume_bind (behind.skip taken) (by simp) (fun _ _ => rfl) fun _ => ?_
  have body := (behind.skip taken).skip 1
  exact Steady.bind body ((settled_expression depth _ body).more (Nat.zero_le _)) fun _ _ _ =>
    steady_pure _

theorem settled_statementBody (depth : Nat) (kind : Token.Kind) :
    Settled (statementBody depth kind) := by
  unfold statementBody
  split
  · exact settled_definition depth
  · exact settled_function depth
  · exact settled_expression depth

/-- Statements are steady: each takes a semicolon at least. -/
theorem steady_statements (depth : Nat) {cursor : Cursor} (ended : cursor.Ended) :
    Steady 0 (fun rounds => statements depth rounds) cursor := by
  induction size : cursor.ahead.length using Nat.strongRecOn generalizing cursor with
  | ind size ih =>
    refine Steady.round cursor.stop (fun _ _ => rfl) ?_
    simp only [statements]
    refine steady_peek_bind ended ?_
    split
    · exact steady_pure _
    · rename_i ends
      have word : cursor.current.kind ≠ .finish := by simp [ends]
      have filled := ended.length_pos word
      refine steady_advance_bind ended word ?_
      refine (ih _ ?_ (ended.skip 1) rfl).tail.more (by omega)
      simp only [Cursor.length_skip]
      omega
    · -- The semicolon of the statement makes the rest shorter, so the statement is opened up to it.
      simp only [statement, bind_assoc]
      refine steady_peek_bind ended ?_
      refine Steady.bind ended (settled_statementBody depth _ cursor ended) fun node taken _ => ?_
      have middle := ended.skip taken
      refine steady_peek_bind middle ?_
      by_cases ends : (cursor.skip taken).current.kind = .semicolon
      · simp only [ends, if_true, bind_assoc, pure_bind]
        have word : (cursor.skip taken).current.kind ≠ .finish := by simp [ends]
        have filled := middle.length_pos word
        refine steady_advance_bind middle word ?_
        refine Steady.bind (middle.skip 1) ?_ fun _ _ _ => steady_pure _
        refine (ih _ ?_ (middle.skip 1) rfl).tail.more (by omega)
        simp only [Cursor.length_skip] at filled ⊢
        omega
      · simp only [ends, if_false]
        exact steady_complain rfl middle

/-- What a program is read as depends on the tokens that are taken and the one behind them. -/
theorem settled_program (depth : Nat) : Settled (program depth) := by
  intro cursor ended
  refine steady_remaining_bind ?_
  exact Steady.bind ended (steady_statements depth ended) fun _ _ _ => steady_pure _

end Reckoner.Descent
