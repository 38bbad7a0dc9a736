import Reckoner.Proofs.Descent.Mends
import Reckoner.Proofs.Descent.Soundness

/-!
What stands before a complaint can be completed. Wherever a reader by descent complains, the tokens
before the one that it complains of begin a derivation of what it was reading. Each place at which the
reader complains shows the tokens that are missing there.
-/
namespace Reckoner.Descent
open Reckoner.Grammar Reckoner.Reading

/-- Words derive a phrase of a kind. -/
def Derivable (Derives : List Token → Phrase → Prop) (words : List Token) : Prop :=
  ∃ phrase, Derives words phrase

/-- What a reader of phrases leaves at a complaint can be completed to a derivation. -/
def Mended (step : Reading Node) (Derives : List Token → Phrase → Prop) : Prop :=
  ∀ cursor : Cursor, cursor.Proper → Mends step cursor (Derivable Derives)

theorem derivable_chain {operator? : Token.Kind → Option Operator}
    {Operand : List Token → Phrase → Prop} {words : List Token} (single : Derivable Operand words) :
    Derivable (Chain operator? Operand) words := by
  obtain ⟨phrase, operand⟩ := single
  exact ⟨phrase, .single operand⟩

theorem derivable_term {words : List Token} (factor : Derivable Factor words) :
    Derivable Term words :=
  (derivable_chain factor).imp fun _ => .product

theorem derivable_expression {words : List Token} (factor : Derivable Factor words) :
    Derivable Expression words :=
  (derivable_chain (derivable_term factor)).imp fun _ => .sum

/-- A numeral can stand for every operand. -/
theorem fillable_factor : Fillable (Derivable Factor) :=
  fillable_sample .number (by decide) ⟨_, .numeral rfl⟩

theorem fillable_expression : Fillable (Derivable Expression) :=
  fillable_factor.imp fun _ => derivable_expression

section
variable {bound : Nat}

theorem mends_chain {operator? : Token.Kind → Option Operator} {operand : Reading Node}
    {Operand : List Token → Phrase → Prop} (finish : operator? .finish = none)
    (reads : Reader operand Operand bound) (each : Mended operand Operand) (rounds : List Token)
    (left : Node) {cursor : Cursor} (proper : cursor.Proper) :
    Mends (chain operator? operand rounds left) cursor
      (fun words => ∃ links, Links operator? Operand words links) := by
  induction rounds generalizing left cursor with
  | nil => exact mends_pure left
  | cons _ rounds ih =>
    refine mends_peek_bind ?_
    cases sign : operator? cursor.current.kind with
    | none => exact mends_pure left
    | some operator =>
      have word : cursor.current.kind ≠ .finish := by
        intro ended
        rw [ended, finish] at sign
        cases sign
      refine mends_advance_bind proper word ?_
      have properMiddle := (Cursor.passes_moved proper word).proper proper
      refine (reads _ properMiddle).mends properMiddle (each _ properMiddle) ?_ ?_
      · rintro words ⟨phrase, derived⟩
        exact fillable_nil ⟨_, .more sign derived .done⟩
      · rintro _ taken after _ properAfter ⟨phrase, derived, rfl⟩
        refine (ih _ properAfter).imp ?_
        rintro words ⟨links, others⟩
        exact ⟨_, .more sign derived others⟩

variable {inner : Reading Node} (reads : Reader inner Expression bound)
  (inside : Mended inner Expression)
include reads inside

/-- Words are arguments with the closing parenthesis behind them. -/
def Argued (words : List Token) : Prop :=
  ∃ taken closing phrases, words = taken ++ [closing] ∧ closing.kind = .closing ∧
    Separated Expression taken phrases

theorem mends_arguments (function : Spelling) (line : Option Int) (rounds : List Token)
    {cursor : Cursor} (proper : cursor.Proper) :
    Mends (arguments inner function line rounds) cursor Argued := by
  -- Behind an argument the closing parenthesis completes the call.
  have close {words : List Token} (item : Derivable Expression words) :
      Fillable fun missing => Argued (words ++ missing) := by
    obtain ⟨phrase, derived⟩ := item
    exact fillable_sample .closing (by decide) ⟨words, _, [phrase], rfl, rfl, .last derived⟩
  induction rounds generalizing cursor with
  | nil => exact mends_complain (.refl _) (fillable_expression.append fun _ => close)
  | cons _ rounds ih =>
    refine (reads cursor proper).mends proper (inside cursor proper) (fun words => close) ?_
    rintro _ taken middle _ properMiddle ⟨phrase, derived, rfl⟩
    refine mends_peek_bind ?_
    split
    · rename_i comma
      have word : middle.current.kind ≠ .finish := by simp [comma]
      have properAfter := (Cursor.passes_moved properMiddle word).proper properMiddle
      refine mends_advance_bind properMiddle word (((ih properAfter).imp ?_).map _)
      rintro _ ⟨others, closing, phrases, rfl, closes, listed⟩
      exact ⟨_, closing, _, by simp, closes, .more derived comma listed⟩
    · rename_i closes
      exact mends_advance_bind properMiddle (by simp [closes]) (mends_pure _)
    · exact mends_complain (.refl _) (close ⟨phrase, derived⟩)
    · exact mends_complain (.refl _) (close ⟨phrase, derived⟩)
    · exact mends_complain (.refl _) (close ⟨phrase, derived⟩)

theorem mends_callWith {cursor : Cursor} (proper : cursor.Proper)
    (named : cursor.current.kind = .name) (opens : cursor.following.kind = .opening) :
    Mends (callWith inner) cursor (Derivable Call) := by
  have word : cursor.current.kind ≠ .finish := by simp [named]
  have properFirst := (Cursor.passes_moved proper word).proper proper
  have paren : cursor.moved.current.kind = .opening := opens
  have wordParen : cursor.moved.current.kind ≠ .finish := by simp [paren]
  have properSecond := (Cursor.passes_moved properFirst wordParen).proper properFirst
  have whole {words : List Token} (argued : Argued words) :
      Derivable Call (cursor.current :: cursor.moved.current :: words) := by
    obtain ⟨taken, closing, phrases, rfl, closes, listed⟩ := argued
    exact ⟨_, .full named paren listed closes⟩
  refine mends_consume_of_kind proper (by simp) named ?_
  refine mends_consume_of_kind properFirst (by simp) paren ?_
  refine mends_sees_bind ?_
  by_cases closes : cursor.moved.moved.current.kind = .closing
  · simp only [closes, decide_true, if_true]
    exact mends_advance_bind properSecond (by simp [closes]) (mends_pure _)
  · simp only [closes, decide_false, Bool.false_eq_true, if_false]
    refine mends_remaining_bind (((mends_arguments reads inside _ _ _ properSecond).imp ?_).map _)
    exact fun words => whole

theorem mended_factorWith : Mended (factorWith inner) Factor := by
  intro cursor proper
  refine mends_peek_bind ?_
  split
  · rename_i opens
    have word : cursor.current.kind ≠ .finish := by simp [opens]
    have properMiddle := (Cursor.passes_moved proper word).proper proper
    -- Behind the expression the closing parenthesis completes the operand.
    have close {words : List Token} (item : Derivable Expression words) :
        Fillable fun missing => Derivable Factor (cursor.current :: (words ++ missing)) := by
      obtain ⟨phrase, derived⟩ := item
      exact fillable_sample .closing (by decide) ⟨phrase, .group opens derived rfl⟩
    refine mends_advance_bind proper word ?_
    refine (reads _ properMiddle).mends properMiddle (inside _ properMiddle) (fun words => close) ?_
    rintro _ taken middle _ properMiddle ⟨phrase, derived, rfl⟩
    refine mends_sees_bind ?_
    by_cases closes : middle.current.kind = .closing
    · simp only [closes, decide_true, if_true]
      exact mends_advance_bind properMiddle (by simp [closes]) (mends_pure _)
    · simp only [closes, decide_false, Bool.false_eq_true, if_false]
      exact mends_complain (.refl _) (close ⟨phrase, derived⟩)
  · rename_i named
    refine mends_peekNext_bind ?_
    by_cases opens : cursor.following.kind = .opening
    · rw [if_pos opens]
      refine (mends_callWith reads inside proper named opens).imp ?_
      rintro words ⟨phrase, derived⟩
      exact ⟨phrase, .call derived⟩
    · rw [if_neg opens]
      exact mends_advance_bind proper (by simp [named]) (mends_pure _)
  · rename_i number
    have word : cursor.current.kind ≠ .finish := by simp [number]
    have member : cursor.current ∈ cursor.ahead := by
      rw [Cursor.ahead_eq_of_current proper word]
      simp
    refine mends_advance_bind proper word ?_
    rw [numeral, (proper.legible _ member).toFloat_eq number]
    exact mends_pure _
  · exact mends_complain (.refl _) fillable_factor

theorem mended_termWith : Mended (termWith inner) Term := by
  intro cursor proper
  have factor := reader_factorWith reads
  have mended := mended_factorWith reads inside
  refine (factor cursor proper).mends proper (mended cursor proper) ?_ ?_
  · intro words operand
    exact fillable_nil (by simpa using derivable_term operand)
  · rintro _ taken after _ properAfter ⟨first, head, rfl⟩
    refine mends_remaining_bind ((mends_chain rfl factor mended _ _ properAfter).imp ?_)
    rintro words ⟨links, tail⟩
    exact ⟨_, .product (.intro head tail)⟩

theorem mended_expressionWith : Mended (expressionWith inner) Expression := by
  intro cursor proper
  have term := reader_termWith reads
  have mended := mended_termWith reads inside
  refine (term cursor proper).mends proper (mended cursor proper) ?_ ?_
  · rintro words operand
    refine fillable_nil ?_
    rw [List.append_nil]
    exact (derivable_chain operand).imp fun _ => .sum
  · rintro _ taken after _ properAfter ⟨first, head, rfl⟩
    refine mends_remaining_bind ((mends_chain rfl term mended _ _ properAfter).imp ?_)
    rintro words ⟨links, tail⟩
    exact ⟨_, .sum (.intro head tail)⟩

end

theorem mended_expression (depth : Nat) : Mended (expression depth) Expression := by
  induction depth with
  | zero =>
    intro cursor proper complaint line same
    cases same
  | succ depth ih => exact mended_expressionWith (reader_expression depth) ih

/-- Words are a statement without its semicolon, in which no parameter is repeated. -/
def Stated (words : List Token) : Prop := ∃ clause, Body words clause ∧ clause.Distinct

theorem mends_definition (depth : Nat) {cursor : Cursor} (proper : cursor.Proper)
    (starts : cursor.current.kind = .letWord) : Mends (definition depth) cursor Stated := by
  have word : cursor.current.kind ≠ .finish := by simp [starts]
  have properName := (Cursor.passes_moved proper word).proper proper
  have whole {name equals : Token} (named : name.kind = .name) (equal : equals.kind = .equals)
      {words : List Token} (value : Derivable Expression words) :
      Stated (cursor.current :: name :: equals :: words) := by
    obtain ⟨phrase, derived⟩ := value
    exact ⟨_, .definition starts named equal derived, trivial⟩
  have fill {name equals : Token} (named : name.kind = .name) (equal : equals.kind = .equals) :
      Fillable fun words => Stated (cursor.current :: name :: equals :: words) :=
    fillable_expression.imp fun _ => whole named equal
  refine mends_consume_of_kind proper (by simp) starts ?_
  refine mends_consume_bind properName (by simp) (fun _ => .refl _)
    (.cons .name (by decide) (.cons .equals (by decide) (fill rfl rfl))) fun named properEquals => ?_
  refine mends_consume_bind properEquals (by simp) (fun _ => .refl _)
    (.cons .equals (by decide) (fill named rfl)) fun equal properValue => ?_
  exact ((mended_expression depth _ properValue).imp fun _ => whole named equal).map _

/-- Words are parameters behind those in `seen`, with the closing parenthesis behind them. -/
def Listed (Names : List Token → List Token → Prop) (seen : List Spelling) (words : List Token) : Prop :=
  ∃ taken closing parameters, words = taken ++ [closing] ∧ closing.kind = .closing ∧
    Names taken parameters ∧ (seen ++ parameters.map Token.lexeme).Nodup

theorem nodup_snoc {seen : List Spelling} (distinct : seen.Nodup) {name : Spelling}
    (fresh : name ∉ seen) : (seen ++ [name]).Nodup := by
  refine List.nodup_append.2 ⟨distinct, by simp, ?_⟩
  rintro other inside _ member rfl
  exact fresh (List.mem_singleton.1 member ▸ inside)

/-- Where a parameter is repeated, what stands before it is completed. -/
theorem mends_repeated {function : Spelling} {rounds : List Token} {token : Token}
    {seen : List Spelling} {cursor : Cursor} (proper : cursor.Proper)
    (named : cursor.current.kind = .name) (old : cursor.current.lexeme ∈ seen)
    {Whole : List Token → Prop} (fillable : Fillable Whole) :
    Mends (parametersFrom function (token :: rounds) seen) cursor Whole := by
  have passes := Cursor.passes_moved proper (by simp [named])
  have taken : Ends (consume .name (.parameter function)) cursor
      (fun token after => token = cursor.current ∧ after = cursor.moved) (fun _ _ => False) := by
    refine Ends.bind (show Ends peek cursor (fun token after => token = cursor.current ∧ after = cursor)
      (fun _ _ => False) from ⟨rfl, rfl⟩) ?_ fun _ _ impossible => impossible
    rintro _ _ ⟨rfl, rfl⟩
    rw [if_pos named]
    exact ⟨rfl, rfl⟩
  refine Ends.bind taken ?_ fun _ _ impossible => impossible.elim
  rintro _ _ ⟨rfl, rfl⟩
  rw [if_pos old]
  intro complaint line same
  cases same
  exact ⟨[], ⟨cursor.current, passes⟩, fillable⟩

theorem mends_parametersFrom (function : Spelling) (rounds : List Token) {seen : List Spelling}
    (distinct : seen.Nodup) {cursor : Cursor} (proper : cursor.Proper) :
    Mends (parametersFrom function rounds seen) cursor (Listed (Separated Parameter) seen) := by
  -- Behind a new name the closing parenthesis completes the list.
  have close {seen : List Spelling} (distinct : seen.Nodup) {name : Token} (named : name.kind = .name)
      (fresh : name.lexeme ∉ seen) :
      Fillable fun words => Listed (Separated Parameter) seen (name :: words) :=
    fillable_sample .closing (by decide) ⟨[name], _, [name], rfl, rfl, .last (.intro named),
      nodup_snoc distinct fresh⟩
  induction rounds generalizing seen cursor with
  | nil => exact mends_pure seen
  | cons _ rounds ih =>
    have fillable : Fillable (Listed (Separated Parameter) seen) := by
      obtain ⟨name, named, regular, fresh⟩ := exists_fresh_name seen
      obtain ⟨missing, regulars, whole⟩ := close distinct named fresh
      exact ⟨name :: missing, List.forall_mem_cons.2 ⟨regular, regulars⟩, whole⟩
    by_cases repeated : cursor.current.kind = .name ∧ cursor.current.lexeme ∈ seen
    · obtain ⟨named, old⟩ := repeated
      exact mends_repeated proper named old fillable
    · refine mends_consume_bind proper (by simp) (fun _ => .refl _) fillable fun named properMiddle => ?_
      have old : cursor.current.lexeme ∉ seen := fun old => repeated ⟨named, old⟩
      rw [if_neg old]
      refine mends_sees_bind ?_
      by_cases comma : cursor.moved.current.kind = .comma
      · simp only [comma, decide_true, if_true]
        have word : cursor.moved.current.kind ≠ .finish := by simp [comma]
        have properAfter := (Cursor.passes_moved properMiddle word).proper properMiddle
        refine mends_advance_bind properMiddle word ((ih (nodup_snoc distinct old) properAfter).imp ?_)
        rintro _ ⟨taken, closing, parameters, rfl, closes, listed, different⟩
        exact ⟨_, closing, cursor.current :: parameters, by simp, closes,
          .more (.intro named) comma listed, by simpa using different⟩
      · simp only [comma, decide_false, Bool.false_eq_true, if_false]
        refine mends_consume_bind properMiddle (by simp) (fun _ => .refl _) ?_ fun _ _ => mends_pure _
        exact close distinct named old

theorem mends_parameters (function : Spelling) {cursor : Cursor} (proper : cursor.Proper) :
    Mends (parameters function) cursor (Listed Parameters []) := by
  refine mends_sees_bind ?_
  by_cases closes : cursor.current.kind = .closing
  · simp only [closes, decide_true, if_true]
    exact mends_advance_bind proper (by simp [closes]) (mends_pure _)
  · simp only [closes, decide_false, Bool.false_eq_true, if_false]
    refine mends_remaining_bind ((mends_parametersFrom function _ List.nodup_nil proper).imp ?_)
    rintro words ⟨taken, closing, parameters, split, closed, listed, distinct⟩
    exact ⟨taken, closing, parameters, split, closed, .full listed, distinct⟩

theorem mends_function (depth : Nat) {cursor : Cursor} (proper : cursor.Proper)
    (starts : cursor.current.kind = .funcWord) : Mends (function depth) cursor Stated := by
  have word : cursor.current.kind ≠ .finish := by simp [starts]
  have properName := (Cursor.passes_moved proper word).proper proper
  -- A name, a parenthesis, parameters, an equals sign and an expression make a function.
  have whole {name opening equals : Token} (named : name.kind = .name)
      (opens : opening.kind = .opening) {names : List Token} (listed : Listed Parameters [] names)
      (equal : equals.kind = .equals) {words : List Token} (value : Derivable Expression words) :
      Stated (cursor.current :: name :: opening :: (names ++ equals :: words)) := by
    obtain ⟨taken, closing, parameters, rfl, closes, listed, distinct⟩ := listed
    obtain ⟨phrase, derived⟩ := value
    have body := Body.function starts named opens listed closes equal derived
    exact ⟨_, by simpa using body, by simpa [Clause.Distinct] using distinct⟩
  have fillBody {name opening : Token} (named : name.kind = .name) (opens : opening.kind = .opening)
      {names : List Token} (listed : Listed Parameters [] names) :
      Fillable fun words => Stated (cursor.current :: name :: opening :: (names ++ words)) :=
    .cons .equals (by decide) (fillable_expression.imp fun _ => whole named opens listed rfl)
  have empty : Listed Parameters [] [.sample .closing] := ⟨[], _, [], rfl, rfl, .empty, by simp⟩
  have fillNames {name opening : Token} (named : name.kind = .name) (opens : opening.kind = .opening) :
      Fillable fun words => Stated (cursor.current :: name :: opening :: words) :=
    .cons .closing (by decide) (fillBody named opens empty)
  refine mends_consume_of_kind proper (by simp) starts ?_
  refine mends_consume_bind properName (by simp) (fun _ => .refl _)
    (.cons .name (by decide) (.cons .opening (by decide) (fillNames rfl rfl))) fun named properOpening => ?_
  refine mends_consume_bind properOpening (by simp) (fun _ => .refl _)
    (.cons .opening (by decide) (fillNames named rfl)) fun opens properNames => ?_
  refine (takes_parameters _ properNames 0).mends properNames (mends_parameters _ properNames)
    (fun names listed => fillBody named opens listed) ?_
  rintro _ names _ _ properEquals ⟨taken, closing, parameters, rfl, closes, derived, rfl, distinct⟩
  have listed : Listed Parameters [] (taken ++ [closing]) :=
    ⟨taken, closing, parameters, rfl, closes, derived, distinct⟩
  refine mends_consume_bind properEquals (by simp) (fun _ => .refl _) (fillBody named opens listed)
    fun equal properValue => ?_
  exact ((mended_expression depth _ properValue).imp fun _ => whole named opens listed equal).map _

theorem mends_statementBody (depth : Nat) {cursor : Cursor} (proper : cursor.Proper) :
    Mends (statementBody depth cursor.current.kind) cursor Stated := by
  unfold statementBody
  split
  · rename_i starts
    exact mends_definition depth proper starts
  · rename_i starts
    exact mends_function depth proper starts
  · refine (mended_expression depth cursor proper).imp ?_
    rintro words ⟨value, derived⟩
    exact ⟨_, .expression derived, trivial⟩

/-- Words are a program in which no parameter is repeated. -/
def Programmed (words : List Token) : Prop :=
  ∃ clauses, Program words clauses ∧ ∀ clause ∈ clauses, clause.Distinct

theorem Programmed.more {words rest : List Token} {clause : Clause} (first : Statement words [clause])
    (distinct : clause.Distinct) (others : Programmed rest) : Programmed (words ++ rest) := by
  obtain ⟨clauses, derived, all⟩ := others
  exact ⟨_, .more first derived, List.forall_mem_append.2 ⟨by simpa using distinct, all⟩⟩

theorem mends_statement (depth : Nat) {cursor : Cursor} (proper : cursor.Proper) :
    Mends (statement depth) cursor
      (fun words => ∃ clause, Statement words [clause] ∧ clause.Distinct) := by
  -- A semicolon completes the statement.
  have close {words : List Token} (stated : Stated words) :
      Fillable fun missing => ∃ clause, Statement (words ++ missing) [clause] ∧ clause.Distinct := by
    obtain ⟨clause, body, distinct⟩ := stated
    exact fillable_sample .semicolon (by decide) ⟨clause, .full body rfl, distinct⟩
  refine mends_peek_bind ?_
  refine (takes_statementBody depth _ proper).mends proper (mends_statementBody depth proper)
    (fun words => close) ?_
  rintro _ words middle _ properMiddle ⟨clause, derived, distinct, rfl⟩
  refine mends_peek_bind ?_
  by_cases ends : middle.current.kind = .semicolon
  · rw [if_pos ends]
    exact mends_advance_bind properMiddle (by simp [ends]) (mends_pure _)
  · rw [if_neg ends]
    exact mends_complain (.refl _) (close ⟨clause, derived, distinct⟩)

theorem mends_statements (depth : Nat) (rounds : List Token) {cursor : Cursor}
    (proper : cursor.Proper) : Mends (statements depth rounds) cursor Programmed := by
  have nothing : Programmed [] := ⟨[], .done, by simp⟩
  induction rounds generalizing cursor with
  | nil => exact mends_pure _
  | cons _ rounds ih =>
    refine mends_peek_bind ?_
    split
    · exact mends_pure _
    · rename_i ends
      have word : cursor.current.kind ≠ .finish := by simp [ends]
      have properAfter := (Cursor.passes_moved proper word).proper proper
      refine mends_advance_bind proper word ((ih properAfter).imp ?_)
      rintro words ⟨clauses, derived, distinct⟩
      exact ⟨clauses, .more (.empty ends) derived, distinct⟩
    · refine (takes_statement depth proper).mends proper (mends_statement depth proper) ?_ ?_
      · rintro words ⟨clause, first, distinct⟩
        exact fillable_nil (.more first distinct nothing)
      · rintro _ words middle _ properMiddle ⟨clause, first, distinct, rfl⟩
        exact ((ih properMiddle).imp fun _ => .more first distinct).map _

/-- What a program has before a complaint can be completed to a program without one. -/
theorem mends_program (depth : Nat) {cursor : Cursor} (proper : cursor.Proper) :
    Mends (program depth) cursor Programmed :=
  mends_remaining_bind ((mends_statements depth _ proper).map _)

end Reckoner.Descent
