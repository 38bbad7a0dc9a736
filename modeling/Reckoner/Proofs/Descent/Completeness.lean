import Reckoner.Proofs.Descent.Soundness

/-!
Reading by descent takes everything that the grammar derives. Words that derive a phrase are taken
whole, whatever follows them that does not continue the phrase, unless the depth is exceeded. Of a
program with repeated parameters the first complaint is reported.
-/
namespace Reckoner.Descent
open Reckoner.Grammar Reckoner.Reading

section
variable {cursor : Cursor} {bad : Fault → Cursor → Prop}

@[simp] theorem ends_peek {good : Token → Cursor → Prop} :
    Ends peek cursor good bad ↔ good cursor.current cursor := Iff.rfl

@[simp] theorem ends_peekNext {good : Token → Cursor → Prop} :
    Ends peekNext cursor good bad ↔ good cursor.following cursor := Iff.rfl

@[simp] theorem ends_sees (kind : Token.Kind) {good : Bool → Cursor → Prop} :
    Ends (sees kind) cursor good bad ↔ good (cursor.current.kind = kind) cursor := Iff.rfl

@[simp] theorem ends_advance {good : Token → Cursor → Prop} :
    Ends advance cursor good bad ↔ good cursor.current cursor.moved := Iff.rfl

@[simp] theorem ends_remaining {good : List Token → Cursor → Prop} :
    Ends remaining cursor good bad ↔ good (cursor.stop :: cursor.ahead) cursor := Iff.rfl

@[simp] theorem ends_complain {α : Type} {good : α → Cursor → Prop} (complaint : Complaint)
    (line : Option Int) :
    Ends (complain complaint line) cursor good bad ↔ bad (.error (.parse complaint line)) cursor :=
  Iff.rfl

/-- Where a token of a kind is asked for and is there, it is taken. -/
theorem ends_consume {kind : Token.Kind} {complaint : Found → Complaint}
    {good : Token → Cursor → Prop} (same : cursor.current.kind = kind) :
    Ends (consume kind complaint) cursor good bad ↔ good cursor.current cursor.moved := by
  rw [consume, ends_bind, ends_peek, if_pos same, ends_advance]

end

@[simp] theorem current_cons (token : Token) (rest : List Token) (stop : Token) :
    (⟨token :: rest, stop⟩ : Cursor).current = token := rfl

@[simp] theorem moved_cons (token : Token) (rest : List Token) (stop : Token) :
    (⟨token :: rest, stop⟩ : Cursor).moved = ⟨rest, stop⟩ := rfl

/-- Before any tokens that `Follow` lets come next, a step takes exactly `words` and ends as
    expected, unless the depth is exceeded. -/
def Recites {α : Type} (step : Reading α) (Follow : Token.Kind → Prop) (words : List Token)
    (expected : Except Fault α) : Prop :=
  ∀ (rest : List Token) (stop : Token), Follow (⟨rest, stop⟩ : Cursor).current.kind →
    Ends step ⟨words ++ rest, stop⟩
      (fun value after => expected = .ok value ∧ after = ⟨rest, stop⟩)
      (fun fault _ => fault = .depth ∨ expected = .error fault)

/-- A step that recites words ends behind them. -/
theorem Recites.ends {α : Type} {step : Reading α} {Follow : Token.Kind → Prop}
    {words rest : List Token} {value : α} {stop : Token} {good : α → Cursor → Prop}
    {bad : Fault → Cursor → Prop} (recites : Recites step Follow words (.ok value))
    (follows : Follow (⟨rest, stop⟩ : Cursor).current.kind) (deep : ∀ after, bad .depth after)
    (goesOn : good value ⟨rest, stop⟩) : Ends step ⟨words ++ rest, stop⟩ good bad := by
  refine Ends.imp (recites rest stop follows) ?_ ?_
  · rintro _ _ ⟨same, rfl⟩
    cases same
    exact goesOn
  · rintro fault after (rfl | other)
    · exact deep after
    · cases other

/-- A reading goes on behind the words that its first step recites. -/
theorem Recites.bind {α β : Type} {step : Reading α} {Follow : Token.Kind → Prop}
    {words rest : List Token} {value : α} {stop : Token} {next : α → Reading β}
    {good : β → Cursor → Prop} {bad : Fault → Cursor → Prop}
    (recites : Recites step Follow words (.ok value))
    (follows : Follow (⟨rest, stop⟩ : Cursor).current.kind) (deep : ∀ after, bad .depth after)
    (goesOn : Ends (next value) ⟨rest, stop⟩ good bad) :
    Ends (step >>= next) ⟨words ++ rest, stop⟩ good bad :=
  (ends_bind step next).2 (recites.ends follows deep goesOn)

/-- What does not continue an operand. -/
def EndsFactor (kind : Token.Kind) : Prop := kind ≠ .opening

/-- What does not continue a product. -/
def EndsTerm (kind : Token.Kind) : Prop := EndsFactor kind ∧ productOperator? kind = none

/-- What does not continue a sum. -/
def EndsExpression (kind : Token.Kind) : Prop := EndsTerm kind ∧ sumOperator? kind = none

theorem endsFactor_of_product {kind : Token.Kind} {operator : Operator}
    (sign : productOperator? kind = some operator) : EndsFactor kind := by
  rintro rfl
  cases sign

theorem endsTerm_of_sum {kind : Token.Kind} {operator : Operator}
    (sign : sumOperator? kind = some operator) : EndsTerm kind := by
  cases kind <;> simp_all [sumOperator?, EndsTerm, EndsFactor, productOperator?]

/-- A step recites the node of a phrase at legible words. -/
def Recited (step : Reading Node) (Follow : Token.Kind → Prop) (words : List Token)
    (phrase : Phrase) : Prop :=
  (∀ word ∈ words, word.Legible) → Recites step Follow words (.ok phrase.node)

section
variable {operator? : Token.Kind → Option Operator} {operand : Reading Node}
  {Follow : Token.Kind → Prop}
  (follows : ∀ {kind operator}, operator? kind = some operator → Follow kind)
include follows

theorem follow_links {Operand : List Token → Phrase → Prop} {words : List Token}
    {links : List (Operator × Phrase)} (derived : Links operator? Operand words links)
    {rest : List Token} {stop : Token} (next : Follow (⟨rest, stop⟩ : Cursor).current.kind) :
    Follow (⟨words ++ rest, stop⟩ : Cursor).current.kind := by
  cases derived with
  | done => exact next
  | more sign first tail => exact follows sign

theorem ends_chain {words : List Token} {links : List (Operator × Phrase)}
    (derived : Links operator? (Recited operand Follow) words links)
    (legible : ∀ word ∈ words, word.Legible) {rounds : List Token}
    (enough : words.length < rounds.length) (left : Node) {rest : List Token} {stop : Token}
    (next : Follow (⟨rest, stop⟩ : Cursor).current.kind)
    (last : operator? (⟨rest, stop⟩ : Cursor).current.kind = none) :
    Ends (chain operator? operand rounds left) ⟨words ++ rest, stop⟩
      (fun value after => value = Phrase.grouped left links ∧ after = ⟨rest, stop⟩)
      (fun fault _ => fault = .depth) := by
  induction derived generalizing rounds left with
  | done =>
    cases rounds with
    | nil => simp at enough
    | cons _ rounds =>
      rw [chain, ends_bind, ends_peek, List.nil_append, last]
      exact ⟨rfl, rfl⟩
  | @more token words others operator phrase links sign first tail ih =>
    cases rounds with
    | nil => simp at enough
    | cons _ rounds =>
      simp only [List.mem_cons, List.mem_append, forall_eq_or_imp] at legible
      simp only [List.length_cons, List.length_append] at enough
      rw [chain, ends_bind, ends_peek, List.cons_append, current_cons, sign]
      simp only [ends_bind, ends_advance, moved_cons, List.append_assoc]
      refine Recites.ends (first fun word inside => legible.2 word (.inl inside))
        (follow_links follows tail next) (fun _ => rfl) ?_
      exact ih (fun word inside => legible.2 word (.inr inside)) (by omega) _

/-- A chain of recited operands is recited. -/
theorem recited_chain {words : List Token} {phrase : Phrase}
    (derived : Chain operator? (Recited operand Follow) words phrase) :
    Recited (do
        let first ← operand
        chain operator? operand (← remaining) first)
      (fun kind => Follow kind ∧ operator? kind = none) words phrase := by
  obtain ⟨head, tail⟩ := derived
  rintro legible rest stop ⟨next, last⟩
  simp only [List.mem_append] at legible
  rw [List.append_assoc, Phrase.node_joined]
  refine Recites.bind (head fun word inside => legible word (.inl inside))
    (follow_links follows tail next) (fun _ => .inl rfl) ?_
  rw [ends_bind, ends_remaining]
  refine Ends.imp (ends_chain follows tail (fun word inside => legible word (.inr inside)) ?_ _ next
    last) ?_ ?_
  · simp only [List.length_cons, List.length_append]
    omega
  · rintro _ _ ⟨rfl, rfl⟩
    exact ⟨rfl, rfl⟩
  · rintro _ _ rfl
    exact .inl rfl

end

/-- Arguments and their closing parenthesis are taken whole. -/
theorem ends_arguments {inner : Reading Node} {words : List Token} {phrases : List Phrase}
    (derived : Separated (Recited inner EndsExpression) words phrases)
    (legible : ∀ word ∈ words, word.Legible) {rounds : List Token}
    (enough : words.length < rounds.length) (function : Spelling) (line : Option Int)
    {closing : Token} (closes : closing.kind = .closing) (rest : List Token) (stop : Token) :
    Ends (arguments inner function line rounds) ⟨words ++ closing :: rest, stop⟩
      (fun nodes after => nodes = phrases.map Phrase.node ∧ after = ⟨rest, stop⟩)
      (fun fault _ => fault = .depth) := by
  induction derived generalizing rounds with
  | last item =>
    cases rounds with
    | nil => simp at enough
    | cons _ rounds =>
      refine Recites.bind (item legible) ?_ (fun _ => rfl) ?_
      · rw [current_cons, closes]
        exact ⟨⟨by simp [EndsFactor], rfl⟩, rfl⟩
      · rw [ends_bind, ends_peek, current_cons]
        simp only [closes]
        exact ⟨rfl, rfl⟩
  | @more token words others phrase phrases item comma tail ih =>
    cases rounds with
    | nil => simp at enough
    | cons _ rounds =>
      simp only [List.mem_append, List.mem_cons] at legible
      simp only [List.length_append, List.length_cons] at enough
      rw [List.append_assoc, List.cons_append]
      refine Recites.bind (item fun word inside => legible word (.inl inside)) ?_ (fun _ => rfl) ?_
      · rw [current_cons, comma]
        exact ⟨⟨by simp [EndsFactor], rfl⟩, rfl⟩
      · rw [ends_bind, ends_peek, current_cons]
        simp only [comma, ends_bind, ends_advance, moved_cons, ends_pure]
        refine Ends.imp (ih (fun word inside => legible word (.inr (.inr inside))) (by omega)) ?_
          (fun _ _ deep => deep)
        rintro _ _ ⟨rfl, rfl⟩
        exact ⟨rfl, rfl⟩

/-- Words that begin an operand and are recited at every depth. -/
structure Spoken (step : Nat → Reading Node) (Follow : Token.Kind → Prop) (words : List Token)
    (phrase : Phrase) : Prop where
  begins : Begins words
  recited : ∀ depth, Recited (step depth) Follow words phrase

/-- A call is recited and begins with a name and a parenthesis. -/
def SpokenCall (words : List Token) (phrase : Phrase) : Prop :=
  (∃ name opening rest, words = name :: opening :: rest ∧ name.kind = .name ∧
    opening.kind = .opening) ∧ ∀ depth, Recited (call depth) (fun _ => True) words phrase

theorem separated_begins {words : List Token} {phrases : List Phrase}
    (derived : Separated (fun words _ => Begins words) words phrases) : Begins words := by
  cases derived with
  | last item => exact item
  | more item comma others =>
    obtain ⟨token, rest, rfl, starts⟩ := item
    exact ⟨token, _, rfl, starts⟩

theorem spokenCall_empty {name opening closing : Token} (named : name.kind = .name)
    (opens : opening.kind = .opening) (closes : closing.kind = .closing) :
    SpokenCall [name, opening, closing] (.call name.lexeme []) := by
  refine ⟨⟨name, opening, _, rfl, named, opens⟩, ?_⟩
  rintro depth legible rest stop -
  rw [call, callWith, ends_bind, ends_consume (by simpa using named)]
  rw [ends_bind, ends_consume (by simpa using opens)]
  simp [closes, Phrase.node]

theorem spokenCall_full {name opening closing : Token} {words : List Token} {phrases : List Phrase}
    (named : name.kind = .name) (opens : opening.kind = .opening)
    (inner : Separated (Spoken expression EndsExpression) words phrases)
    (closes : closing.kind = .closing) :
    SpokenCall (name :: opening :: (words ++ [closing])) (.call name.lexeme phrases) := by
  refine ⟨⟨name, opening, _, rfl, named, opens⟩, ?_⟩
  rintro depth legible rest stop -
  obtain ⟨token, others, start, starts⟩ :=
    separated_begins (inner.imp fun _ _ spoken => spoken.begins)
  have unclosed : token.kind ≠ .closing := by
    rcases starts with kind | kind | kind <;> simp [kind]
  rw [call, callWith, ends_bind, ends_consume (by simpa using named)]
  rw [ends_bind, ends_consume (by simpa using opens)]
  simp only [List.cons_append, current_cons, moved_cons, List.append_assoc, List.nil_append,
    ends_bind, ends_sees]
  have seen : (⟨words ++ closing :: rest, stop⟩ : Cursor).current = token := by rw [start]; rfl
  simp only [seen, unclosed, decide_false, Bool.false_eq_true, if_false, ends_bind, ends_remaining,
    ends_pure]
  refine Ends.imp (ends_arguments (inner.imp fun _ _ spoken => spoken.recited depth)
    (fun word inside => legible word (by simp [inside])) ?_ _ _ closes rest stop) ?_ ?_
  · simp only [List.length_cons, List.length_append]
    omega
  · rintro _ _ ⟨rfl, rfl⟩
    exact ⟨by simp [Phrase.node], rfl⟩
  · rintro _ _ rfl
    exact .inl rfl

theorem spoken_group {opening closing : Token} {words : List Token} {phrase : Phrase}
    (opens : opening.kind = .opening) (inner : Spoken expression EndsExpression words phrase)
    (closes : closing.kind = .closing) :
    Spoken factor EndsFactor (opening :: (words ++ [closing])) phrase := by
  refine ⟨⟨opening, _, rfl, .inr (.inr opens)⟩, ?_⟩
  intro depth legible rest stop _
  rw [factor, factorWith, ends_bind, ends_peek, List.cons_append, current_cons]
  simp only [opens, ends_bind, ends_advance, moved_cons, List.append_assoc, List.singleton_append]
  refine Recites.ends (inner.recited depth fun word inside => legible word (by simp [inside])) ?_
    (fun _ => .inl rfl) ?_
  · rw [current_cons, closes]
    exact ⟨⟨by simp [EndsFactor], rfl⟩, rfl⟩
  · simp [closes]

theorem spoken_call {words : List Token} {phrase : Phrase} (inner : SpokenCall words phrase) :
    Spoken factor EndsFactor words phrase := by
  obtain ⟨⟨name, opening, others, rfl, named, opens⟩, recited⟩ := inner
  refine ⟨⟨name, _, rfl, .inr (.inl named)⟩, ?_⟩
  intro depth legible rest stop _
  have whole := recited depth legible rest stop trivial
  rw [factor, factorWith, ends_bind, ends_peek, List.cons_append, current_cons]
  simp only [named, ends_bind, ends_peekNext]
  have following : (⟨name :: (opening :: others ++ rest), stop⟩ : Cursor).following = opening := rfl
  rw [following, if_pos opens]
  exact whole

theorem spoken_name {token : Token} (named : token.kind = .name) :
    Spoken factor EndsFactor [token] (.reference token.lexeme) := by
  refine ⟨⟨token, _, rfl, .inr (.inl named)⟩, ?_⟩
  intro depth legible rest stop next
  rw [factor, factorWith, ends_bind, ends_peek, List.singleton_append, current_cons]
  simp only [named, ends_bind, ends_peekNext]
  have following : (⟨token :: rest, stop⟩ : Cursor).following = (⟨rest, stop⟩ : Cursor).current := rfl
  rw [following, if_neg next]
  simp [Phrase.node]

theorem spoken_numeral {token : Token} (number : token.kind = .number) :
    Spoken factor EndsFactor [token] (.numeral token.lexeme) := by
  refine ⟨⟨token, _, rfl, .inl number⟩, ?_⟩
  intro depth legible rest stop _
  have read := (legible token (by simp)).toFloat_eq number
  rw [factor, factorWith, ends_bind, ends_peek, List.singleton_append, current_cons]
  simp [number, numeral, read, Phrase.node]

/-- Every derivation is recited. -/
theorem spoken_closed :
    Closed (Spoken expression EndsExpression) (Spoken term EndsTerm) (Spoken factor EndsFactor)
      SpokenCall where
  sum derived := by
    refine ⟨begins_chain (derived.imp fun _ _ spoken => spoken.begins), fun depth => ?_⟩
    cases depth with
    | zero => exact fun _ _ _ _ => .inl rfl
    | succ depth =>
      exact recited_chain endsTerm_of_sum (derived.imp fun _ _ spoken => spoken.recited depth)
  product derived :=
    ⟨begins_chain (derived.imp fun _ _ spoken => spoken.begins), fun depth =>
      recited_chain endsFactor_of_product (derived.imp fun _ _ spoken => spoken.recited depth)⟩
  group := spoken_group
  call := spoken_call
  name := spoken_name
  numeral := spoken_numeral
  emptyCall := spokenCall_empty
  fullCall := spokenCall_full

theorem expression_recites {words : List Token} {phrase : Phrase} (derived : Expression words phrase)
    (legible : ∀ word ∈ words, word.Legible) (depth : Nat) :
    Recites (expression depth) EndsExpression words (.ok phrase.node) :=
  (spoken_closed.expression derived).recited depth legible

theorem definition_recites {letWord name equals : Token} {words : List Token} {value : Phrase}
    (starts : letWord.kind = .letWord) (named : name.kind = .name) (equal : equals.kind = .equals)
    (derived : Expression words value) (legible : ∀ word ∈ words, word.Legible) (depth : Nat) :
    Recites (definition depth) EndsExpression (letWord :: name :: equals :: words)
      (.ok (.definition (.spelling name.lexeme) value.node)) := by
  intro rest stop next
  rw [definition, ends_bind, ends_consume (by simpa using starts)]
  rw [ends_bind, ends_consume (by simpa using named)]
  rw [ends_bind, ends_consume (by simpa using equal)]
  exact Recites.bind (expression_recites derived legible depth) next (fun _ => .inl rfl) ⟨rfl, rfl⟩

/-- The names of parameters behind those in `seen`, or the complaint about the first repeated one. -/
def namesOf (function : Spelling) (seen : List Spelling) (parameters : List Token) :
    Except Fault (List Spelling) :=
  match Clause.repeated? seen parameters with
  | some token => .error (.error (.parse (.duplicate token.lexeme function) token.line))
  | none => .ok (seen ++ parameters.map Token.lexeme)

theorem namesOf_cons {function : Spelling} {seen : List Spelling} {token : Token}
    {parameters : List Token} (fresh : token.lexeme ∉ seen) :
    namesOf function seen (token :: parameters) =
      namesOf function (seen ++ [token.lexeme]) parameters := by
  rw [namesOf, Clause.repeated?, if_neg fresh, namesOf]
  simp

theorem ends_parametersFrom (function : Spelling) {words parameters : List Token}
    (derived : Separated Parameter words parameters) {rounds : List Token}
    (enough : words.length < rounds.length) (seen : List Spelling) {closing : Token}
    (closes : closing.kind = .closing) (rest : List Token) (stop : Token) :
    Ends (parametersFrom function rounds seen) (⟨words ++ closing :: rest, stop⟩ : Cursor)
      (fun names after => namesOf function seen parameters = .ok names ∧ after = ⟨rest, stop⟩)
      (fun fault _ => namesOf function seen parameters = .error fault) := by
  induction derived generalizing rounds seen with
  | @last words name item =>
    obtain ⟨named⟩ := item
    cases rounds with
    | nil => simp at enough
    | cons _ rounds =>
      rw [parametersFrom, ends_bind, ends_consume (by simpa using named)]
      simp only [List.singleton_append, current_cons, moved_cons]
      by_cases old : name.lexeme ∈ seen
      · simp [old, namesOf, Clause.repeated?]
      · simp only [old, if_false, ends_bind, ends_sees, current_cons, closes]
        rw [if_neg (by simp), ends_bind, ends_consume (by simpa using closes), namesOf_cons old]
        exact ⟨by simp [namesOf, Clause.repeated?], rfl⟩
  | @more comma words others name parameters item separates tail ih =>
    obtain ⟨named⟩ := item
    cases rounds with
    | nil => simp at enough
    | cons _ rounds =>
      simp only [List.length_append, List.length_cons] at enough
      rw [parametersFrom, ends_bind, ends_consume (by simpa using named)]
      simp only [List.cons_append, List.nil_append, current_cons, moved_cons]
      by_cases old : name.lexeme ∈ seen
      · simp [old, namesOf, Clause.repeated?]
      · simp only [old, if_false, ends_bind, ends_sees, current_cons, separates, decide_true,
          if_true, ends_advance, moved_cons]
        rw [namesOf_cons old]
        exact ih (by omega) _

theorem ends_parameters (function : Spelling) {words parameters : List Token}
    (derived : Parameters words parameters) {closing : Token} (closes : closing.kind = .closing)
    (rest : List Token) (stop : Token) :
    Ends (Descent.parameters function) (⟨words ++ closing :: rest, stop⟩ : Cursor)
      (fun names after => namesOf function [] parameters = .ok names ∧ after = ⟨rest, stop⟩)
      (fun fault _ => namesOf function [] parameters = .error fault) := by
  rw [Descent.parameters, ends_bind, ends_sees]
  cases derived with
  | empty =>
    simp [closes, namesOf, Clause.repeated?]
  | full names =>
    have unclosed : (⟨words ++ closing :: rest, stop⟩ : Cursor).current.kind ≠ .closing := by
      cases names with
      | last item =>
        obtain ⟨named⟩ := item
        simp [named]
      | more item comma others =>
        obtain ⟨named⟩ := item
        simp [named]
    simp only [unclosed, decide_false, Bool.false_eq_true, if_false, ends_bind, ends_remaining]
    refine ends_parametersFrom function names ?_ [] closes rest stop
    simp only [List.length_cons, List.length_append]
    omega

theorem function_recites {funcWord name opening closing equals : Token}
    {names words parameters : List Token} {body : Phrase} (starts : funcWord.kind = .funcWord)
    (named : name.kind = .name) (opens : opening.kind = .opening)
    (listed : Parameters names parameters) (closes : closing.kind = .closing)
    (equal : equals.kind = .equals) (derived : Expression words body)
    (legible : ∀ word ∈ words, word.Legible) (depth : Nat) :
    Recites (function depth) EndsExpression
      (funcWord :: name :: opening :: (names ++ closing :: equals :: words))
      (Clause.tree (.function name.lexeme parameters body)) := by
  intro rest stop next
  rw [function, ends_bind, ends_consume (by simpa using starts)]
  rw [ends_bind, ends_consume (by simpa using named)]
  rw [ends_bind, ends_consume (by simpa using opens)]
  simp only [List.cons_append, List.append_assoc, current_cons, moved_cons]
  refine Ends.bind (ends_parameters name.lexeme listed closes _ stop) ?_ ?_
  · rintro _ _ ⟨made, rfl⟩
    rw [namesOf] at made
    split at made
    · cases made
    · rename_i distinct
      cases made
      rw [ends_bind, ends_consume (by simpa using equal)]
      refine Recites.bind (expression_recites derived legible depth) next (fun _ => .inl rfl) ?_
      simp [Clause.tree, Clause.complaint?, distinct, Clause.node]
  · intro fault _ made
    rw [namesOf] at made
    split at made
    · rename_i token found
      cases made
      simp [Clause.tree, Clause.complaint?, found]
    · cases made

/-- The body of a statement is recited, by its first token. -/
theorem statementBody_recites {words : List Token} {clause : Clause} (derived : Body words clause)
    (legible : ∀ word ∈ words, word.Legible) (depth : Nat) :
    ∃ token rest, words = token :: rest ∧ token.kind ≠ .finish ∧ token.kind ≠ .semicolon ∧
      Recites (statementBody depth token.kind) EndsExpression words clause.tree := by
  cases derived with
  | definition starts named equal inner =>
    refine ⟨_, _, rfl, by simp [starts], by simp [starts], ?_⟩
    rw [starts]
    exact definition_recites starts named equal inner
      (fun word inside => legible word (by simp [inside])) depth
  | function starts named opens listed closes equal inner =>
    refine ⟨_, _, rfl, by simp [starts], by simp [starts], ?_⟩
    rw [starts]
    exact function_recites starts named opens listed closes equal inner
      (fun word inside => legible word (by simp [inside])) depth
  | expression inner =>
    obtain ⟨token, rest, rfl, starts⟩ := inner.begins
    have whole := expression_recites inner legible depth
    refine ⟨token, rest, rfl, ?_, ?_, ?_⟩
    · rcases starts with kind | kind | kind <;> simp [kind]
    · rcases starts with kind | kind | kind <;> simp [kind]
    · rcases starts with kind | kind | kind <;> rw [kind] <;> exact whole

theorem statement_recites {words : List Token} {clause : Clause} (derived : Body words clause)
    (legible : ∀ word ∈ words, word.Legible) {semicolon : Token}
    (ended : semicolon.kind = .semicolon) (depth : Nat) :
    Recites (statement depth) (fun _ => True) (words ++ [semicolon]) clause.tree := by
  rintro rest stop -
  obtain ⟨token, others, rfl, _, _, recites⟩ := statementBody_recites derived legible depth
  rw [statement, ends_bind, ends_peek, List.append_assoc, List.singleton_append, List.cons_append,
    current_cons]
  refine Ends.bind (recites (semicolon :: rest) stop ?_) ?_ fun _ _ fails => fails
  · rw [current_cons, ended]
    exact ⟨⟨by simp [EndsFactor], rfl⟩, rfl⟩
  · rintro _ _ ⟨made, rfl⟩
    simp [ended, made]

/-- Every program that the grammar derives is read, or its first complaint is reported. -/
theorem ends_statements {words : List Token} {clauses : List Clause}
    (derived : Program words clauses) (legible : ∀ word ∈ words, word.Legible) {rounds : List Token}
    (enough : words.length < rounds.length) (depth : Nat) {stop : Token}
    (ends : stop.kind = .finish) :
    Ends (statements depth rounds) (⟨words, stop⟩ : Cursor)
      (fun nodes _ => clauses.mapM Clause.tree = .ok nodes)
      (fun fault _ => fault = .depth ∨ clauses.mapM Clause.tree = .error fault) := by
  induction derived generalizing rounds with
  | done =>
    cases rounds with
    | nil => simp at enough
    | cons _ rounds =>
      rw [statements, ends_bind, ends_peek]
      simp only [Cursor.current, List.headD_nil, ends]
      exact rfl
  | @more words rest clauses others first following ih =>
    cases rounds with
    | nil => simp at enough
    | cons _ rounds =>
      simp only [List.length_append, List.length_cons] at enough
      simp only [List.mem_append] at legible
      have legibleRest : ∀ word ∈ rest, word.Legible := fun word inside => legible word (.inr inside)
      cases first with
      | @empty semicolon ended =>
        rw [statements, ends_bind, ends_peek, List.singleton_append, current_cons]
        simp only [ended, ends_bind, ends_advance, moved_cons, List.nil_append]
        exact ih legibleRest (by simp at enough; omega)
      | @full semicolon words clause body ended =>
        have legibleBody : ∀ word ∈ words, word.Legible := fun word inside =>
          legible word (.inl (by simp [inside]))
        obtain ⟨token, tail, rfl, filled, notEmpty, _⟩ := statementBody_recites body legibleBody depth
        have recites := statement_recites body legibleBody ended depth rest stop trivial
        rw [statements, ends_bind, ends_peek, List.append_assoc, List.cons_append, current_cons]
        split
        · rename_i finished
          exact absurd finished filled
        · rename_i empty
          exact absurd empty notEmpty
        rw [List.append_assoc] at recites
        simp only [List.singleton_append, List.mapM_cons]
        refine Ends.bind recites ?_ ?_
        · rintro node _ ⟨made, rfl⟩
          rw [made]
          refine Ends.bind (ih legibleRest (by simp at enough; omega)) ?_ ?_
          · intro nodes _ rests
            rw [rests]
            exact rfl
          · rintro fault _ (deep | fails)
            · exact .inl deep
            · rw [fails]
              exact .inr rfl
        · rintro fault _ (deep | fails)
          · exact .inl deep
          · rw [fails]
            exact .inr rfl

/-- A program that the grammar derives is read, or its first complaint is reported, unless the depth
    is exceeded. -/
theorem ends_program {words : List Token} {clauses : List Clause} (derived : Program words clauses)
    (legible : ∀ word ∈ words, word.Legible) (depth : Nat) {stop : Token}
    (ends : stop.kind = .finish) :
    Ends (program depth) (⟨words, stop⟩ : Cursor)
      (fun node _ => Clause.programTree clauses = .ok node)
      (fun fault _ => fault = .depth ∨ Clause.programTree clauses = .error fault) := by
  rw [program, ends_bind, ends_remaining]
  refine Ends.bind (ends_statements derived legible (by simp) depth ends) ?_ ?_
  · intro nodes _ made
    rw [Clause.programTree, made]
    exact rfl
  · rintro fault _ (deep | fails)
    · exact .inl deep
    · rw [Clause.programTree, fails]
      exact .inr rfl

end Reckoner.Descent
