import Reckoner.Proofs.Descent.Mends
import Reckoner.Proofs.Machine.Soundness

/-!
The machine stops at the first token that fits nowhere. From every state some more words complete a
program: at most a head, an operand, a parenthesis for every open one and a semicolon are missing. So the
machine takes the words with which programs begin and no others, and the word that it refuses is the first
one with which no program goes on.
-/
namespace Reckoner

/-- Words with which a program begins. -/
def Grammar.Viable (words : List Token) : Prop := ∃ rest clauses, Program (words ++ rest) clauses

theorem Grammar.Viable.front {words rest : List Token} (viable : Viable (words ++ rest)) : Viable words := by
  obtain ⟨more, clauses, derived⟩ := viable
  exact ⟨rest ++ more, clauses, by rwa [← List.append_assoc]⟩

namespace Machine
open Reckoner.Grammar
open Reckoner.Reading (Fillable fillable_nil)

/-- Some more words take the machine from a state to the end of a statement. -/
def Completes (state : State) : Prop :=
  Fillable fun words => ∃ clauses, words.foldlM step state = some ⟨clauses, .between⟩

theorem completes_between (clauses : List Clause) : Completes ⟨clauses, .between⟩ :=
  fillable_nil ⟨clauses, rfl⟩

/-- A state that some token takes to one that can be completed can be completed itself. -/
theorem Completes.before {state next : State} (completes : Completes next) (kind : Token.Kind)
    (known : kind ∈ Token.Kind.known ∧ kind ≠ .finish) (taken : step state (.sample kind) = some next) :
    Completes state := by
  refine .cons kind known (Fillable.imp completes fun words => ?_)
  rintro ⟨clauses, steps⟩
  exact ⟨clauses, (foldlM_cons_some taken).trans steps⟩

/-- Behind an operand the open parentheses are closed, and then the statement ends. -/
theorem completes_after {mode : Mode} {site : Site} {last : Phrase} (after : After mode site last)
    (clauses : List Clause) : Completes ⟨clauses, mode⟩ := by
  obtain ⟨heading, parens, operands⟩ := site
  induction parens generalizing mode operands last with
  | nil => exact (completes_between _).before .semicolon (by decide) (step_after after (by simp) clauses)
  | cons innermost parens ih =>
    obtain ⟨paren, outer⟩ := innermost
    cases paren with
    | group => exact (ih outer (.inl rfl)).before .closing (by decide) (step_after after (by simp) clauses)
    | call function before =>
      exact (ih outer (.inl rfl)).before .closing (by decide) (step_after after (by simp) clauses)

/-- Before an operand a numeral can stand for it. -/
theorem completes_before {mode : Mode} {site : Site} (before : Before mode site) (clauses : List Clause) :
    Completes ⟨clauses, mode⟩ :=
  (completes_after (.inl rfl) clauses).before .number (by decide) (step_before before (by simp) clauses)

/-- From every state a program can be completed. -/
theorem completes (state : State) : Completes state := by
  obtain ⟨clauses, mode⟩ := state
  have value (heading : Heading) : Completes ⟨clauses, .operand ⟨heading, [], {}⟩⟩ :=
    completes_before (.inl rfl) clauses
  have named (name : Spelling) : Completes ⟨clauses, .afterLetName name⟩ :=
    (value _).before .equals (by decide) rfl
  have closed (name : Spelling) (before : List Token) : Completes ⟨clauses, .afterParameters name before⟩ :=
    (value _).before .equals (by decide) rfl
  have listed (name : Spelling) (before : List Token) : Completes ⟨clauses, .afterParameter name before⟩ :=
    (closed name before).before .closing (by decide) rfl
  have opened (name : Spelling) : Completes ⟨clauses, .parameters name⟩ :=
    (closed name []).before .closing (by decide) rfl
  have headed (name : Spelling) : Completes ⟨clauses, .afterFuncName name⟩ :=
    (opened name).before .opening (by decide) rfl
  cases mode with
  | between => exact completes_between clauses
  | afterLet => exact (named _).before .name (by decide) rfl
  | afterLetName name => exact named name
  | afterFunc => exact (headed _).before .name (by decide) rfl
  | afterFuncName name => exact headed name
  | parameters name => exact opened name
  | nextParameter name before => exact (listed name _).before .name (by decide) rfl
  | afterParameter name before => exact listed name before
  | afterParameters name before => exact closed name before
  | operand site => exact completes_before (.inl rfl) clauses
  | afterName site name => exact completes_after (.inr ⟨name, rfl, rfl⟩) clauses
  | arguments site function => exact completes_before (.inr (.inr ⟨site, function, rfl, rfl⟩)) clauses
  | afterOperand site last => exact completes_after (.inl rfl) clauses

/-- The machine takes exactly the words with which programs begin. -/
theorem viable_iff {words : List Token} : Viable words ↔ ∃ state, words.foldlM step {} = some state := by
  constructor
  · rintro ⟨rest, clauses, derived⟩
    have steps := leads_program derived []
    rw [List.foldlM_append] at steps
    obtain ⟨state, taken, _⟩ := Option.bind_eq_some_iff.1 steps
    exact ⟨state, taken⟩
  · rintro ⟨state, taken⟩
    obtain ⟨rest, _, clauses, steps⟩ := completes state
    have whole := run_append (.finish 0) ((foldlM_append_some taken).trans steps) []
    rw [List.append_nil] at whole
    exact ⟨rest, clauses.reverse, judge_accepted_iff.1 whole⟩

/-- Words that the machine does not take all have a first one that it refuses. -/
theorem exists_refused {state : State} {words : List Token} (stops : words.foldlM step state = none) :
    ∃ front token rest next, words = front ++ token :: rest ∧ front.foldlM step state = some next ∧
      step next token = none := by
  induction words generalizing state with
  | nil => cases stops
  | cons token rest ih =>
    cases taken : step state token with
    | none => exact ⟨[], token, rest, state, rfl, rfl, taken⟩
    | some next =>
      rw [foldlM_cons_some taken] at stops
      obtain ⟨front, refused, behind, last, rfl, steps, none⟩ := ih stops
      exact ⟨token :: front, refused, behind, last, rfl, (foldlM_cons_some taken).trans steps, none⟩

/-- A token that the machine refuses behind some words begins no program behind them. -/
theorem step_eq_none_iff {front : List Token} {state : State} (taken : front.foldlM step {} = some state)
    (token : Token) : step state token = none ↔ ¬ Viable (front ++ [token]) := by
  have next : [token].foldlM step state = step state token := by
    simp only [List.foldlM_cons, List.foldlM_nil, bind_pure]
  rw [viable_iff, foldlM_append_some taken, next, ← Option.isSome_iff_exists, Option.not_isSome_iff_eq_none]

/-- On a scan the machine refuses the first token with which no program goes on, or the end of the input
    where the tokens begin a program and are none. -/
theorem judge_refused_iff {lexed : Token.Lexed} {found : Found} {line : Option Int} :
    judge lexed = .refused found line ↔
      (∃ front token rest, lexed.tokens = front ++ token :: rest ∧ Viable front ∧
        ¬ Viable (front ++ [token]) ∧ found = token.found ∧ line = token.line) ∨
      Viable lexed.tokens ∧ (¬ ∃ clauses, Program lexed.tokens clauses) ∧ found = .finish ∧
        ∃ last : Nat, lexed.ending = .finish last ∧ line = some (last : Int) := by
  obtain ⟨tokens, ending⟩ := lexed
  have stopped {state : State} (taken : tokens.foldlM step {} = some state) :
      judge ⟨tokens, ending⟩ = finish state ending := by
    have whole := run_append ending taken []
    rwa [List.append_nil] at whole
  have refusal {front rest : List Token} {token : Token} (split : tokens = front ++ token :: rest)
      {state : State} (taken : front.foldlM step {} = some state) (none : step state token = none) :
      judge ⟨tokens, ending⟩ = .refused token.found token.line := by
    rw [judge, split, run_append ending taken, run, none]
  constructor
  · intro refused
    cases taken : tokens.foldlM step {} with
    | none =>
      obtain ⟨front, token, rest, state, split, steps, none⟩ := exists_refused taken
      cases (refusal split steps none).symm.trans refused
      exact .inl ⟨front, token, rest, split, viable_iff.2 ⟨state, steps⟩,
        (step_eq_none_iff steps token).1 none, rfl, rfl⟩
    | some state =>
      have ended := (stopped taken).symm.trans refused
      cases ending with
      | stray => cases ended
      | finish last =>
        refine .inr ⟨viable_iff.2 ⟨state, taken⟩, ?_, ?_⟩
        · rintro ⟨clauses, derived⟩
          cases (judge_of_program derived last).symm.trans refused
        · rw [finish] at ended
          split at ended
          · cases ended
          · cases ended
            exact ⟨rfl, last, rfl, rfl⟩
  · rintro (⟨front, token, rest, split, viable, unfit, rfl, rfl⟩ | ⟨viable, unfinished, rfl, last, rfl, rfl⟩)
    · obtain ⟨state, taken⟩ := viable_iff.1 viable
      exact refusal split taken ((step_eq_none_iff taken token).2 unfit)
    · obtain ⟨state, taken⟩ := viable_iff.1 viable
      have ended := stopped taken
      rw [finish] at ended
      split at ended
      · exact absurd ⟨_, judge_accepted_iff.1 ended⟩ unfinished
      · exact ended

end Machine

end Reckoner
