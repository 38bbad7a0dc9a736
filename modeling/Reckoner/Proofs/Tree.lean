import Reckoner.Proofs.Grammar

/-!
The tree of a derivation. A phrase has a node and a clause has a node or a complaint about repeated
parameters, without any limit of depth. What the levels of a phrase allow for is never anything else:
`toProgram_approximates` compares the two for all that the grammar derives from legible tokens.
-/
namespace Reckoner

/-- The number that a numeral stands for; a text that is no numeral counts as zero. -/
def Spelling.worth (lexeme : Spelling) : Float :=
  match lexeme.toFloat with
  | .ok value => value
  | .error _ => 0

theorem Spelling.worth_eq {lexeme : Spelling} {value : Float} (read : lexeme.toFloat = .ok value) :
    lexeme.worth = value := by
  rw [worth, read]

/-- A token that can be read as a number if it is a numeral. -/
def Token.Legible (token : Token) : Prop :=
  token.kind = .number → ∃ value, token.lexeme.toFloat = .ok value

/-- A legible numeral is read as the number it is worth. -/
theorem Token.Legible.toFloat_eq {token : Token} (legible : token.Legible)
    (number : token.kind = .number) : token.lexeme.toFloat = .ok token.lexeme.worth := by
  obtain ⟨value, read⟩ := legible number
  rw [read, Spelling.worth_eq read]

namespace Phrase

mutual

/-- The node of a phrase, with chains grouped to the left. -/
def node : Phrase → Node
  | numeral lexeme => .number lexeme.worth
  | reference name => .reference (.spelling name)
  | call function arguments => .call (.spelling function) (nodes arguments)
  | chain first links => grouped first.node links

/-- The nodes of phrases. -/
def nodes : List Phrase → List Node
  | [] => []
  | phrase :: rest => phrase.node :: nodes rest

/-- The node of a chain after the operands in `left`. -/
def grouped (left : Node) : List (Operator × Phrase) → Node
  | [] => left
  | (operator, operand) :: rest => grouped (.binary operator left operand.node) rest

end

@[simp] theorem nodes_eq_map (phrases : List Phrase) : nodes phrases = phrases.map node := by
  induction phrases with
  | nil => rfl
  | cons phrase rest ih => rw [nodes, ih, List.map_cons]

@[simp] theorem node_joined (first : Phrase) (links : List (Operator × Phrase)) :
    (joined first links).node = grouped first.node links := by
  cases links with
  | nil => rw [joined, grouped]
  | cons link rest => rw [joined, node]

/-- One more operand is grouped with all before it. -/
theorem grouped_append (left : Node) (links : List (Operator × Phrase)) (operator : Operator)
    (operand : Phrase) :
    grouped left (links ++ [(operator, operand)]) = .binary operator (grouped left links) operand.node := by
  induction links generalizing left with
  | nil => simp [grouped]
  | cons link links ih => simpa [grouped] using ih _

/-- What goes over from operands to a node of both goes over to a chain. -/
theorem grouped_of {P : Node → Prop}
    (binary : ∀ operator left right, P left → P right → P (.binary operator left right))
    {links : List (Operator × Phrase)} (each : ∀ link ∈ links, P link.2.node) {left : Node}
    (first : P left) : P (grouped left links) := by
  induction links generalizing left with
  | nil => exact first
  | cons link links ih =>
    obtain ⟨second, others⟩ := List.forall_mem_cons.1 each
    exact ih others (binary _ _ _ first second)

end Phrase

namespace Clause

/-- The node of a clause. -/
def node : Clause → Node
  | definition name value => .definition (.spelling name) value.node
  | function name parameters body =>
    .function (.spelling name) (parameters.map fun token => .spelling token.lexeme) body.node
  | expression value => value.node

/-- The complaint about a function that names a parameter twice. -/
def complaint? : Clause → Option Error
  | function name parameters _ =>
    (repeated? [] parameters).map fun token => .parse (.duplicate token.lexeme name) token.line
  | _ => none

/-- The node of a clause, or the complaint about it. -/
def tree (clause : Clause) : Except Fault Node :=
  match clause.complaint? with
  | some error => .error (.error error)
  | none => .ok clause.node

/-- The parameters of a function have different names. -/
def Distinct : Clause → Prop
  | function _ parameters _ => (parameters.map Token.lexeme).Nodup
  | _ => True

theorem repeated?_eq_none_iff (seen : List Spelling) (tokens : List Token) :
    repeated? seen tokens = none ↔
      (tokens.map Token.lexeme).Nodup ∧ ∀ token ∈ tokens, token.lexeme ∉ seen := by
  induction tokens generalizing seen with
  | nil => simp [repeated?]
  | cons token rest ih =>
    rw [repeated?]
    by_cases old : token.lexeme ∈ seen
    · simp [old]
    · simp only [old, if_false, ih, List.map_cons, List.nodup_cons, List.mem_append,
        List.mem_singleton, not_or, List.mem_map, List.forall_mem_cons, not_false_eq_true, true_and]
      constructor
      · rintro ⟨distinct, fresh⟩
        refine ⟨⟨?_, distinct⟩, fun other inside => (fresh other inside).1⟩
        rintro ⟨other, inside, same⟩
        exact (fresh other inside).2 same
      · rintro ⟨⟨first, distinct⟩, fresh⟩
        exact ⟨distinct, fun other inside => ⟨fresh other inside, fun same =>
          first ⟨other, inside, same⟩⟩⟩

theorem complaint?_eq_none_iff (clause : Clause) : clause.complaint? = none ↔ clause.Distinct := by
  cases clause with
  | definition name value => simp [complaint?, Distinct]
  | function name parameters body => simp [complaint?, Distinct, repeated?_eq_none_iff]
  | expression value => simp [complaint?, Distinct]

theorem tree_eq_ok_iff (clause : Clause) (node : Node) :
    clause.tree = .ok node ↔ clause.Distinct ∧ node = clause.node := by
  rw [← complaint?_eq_none_iff, tree]
  cases clause.complaint? with
  | none => simp [eq_comm]
  | some error => simp

/-- The program of clauses, or the first complaint about one of them. -/
def programTree (clauses : List Clause) : Except Fault Node := .program <$> clauses.mapM tree

theorem mapM_tree_eq_ok_iff (clauses : List Clause) (nodes : List Node) :
    clauses.mapM tree = .ok nodes ↔
      (∀ clause ∈ clauses, clause.Distinct) ∧ nodes = clauses.map node := by
  induction clauses generalizing nodes with
  | nil => simp [pure, Except.pure, eq_comm]
  | cons clause rest ih =>
    simp only [List.mapM_cons, bind_eq_ok_iff, tree_eq_ok_iff, ih, List.forall_mem_cons,
      List.map_cons]
    constructor
    · rintro ⟨_, ⟨distinct, rfl⟩, _, ⟨all, rfl⟩, made⟩
      cases made
      exact ⟨⟨distinct, all⟩, rfl⟩
    · rintro ⟨⟨distinct, all⟩, rfl⟩
      exact ⟨_, ⟨distinct, rfl⟩, _, ⟨all, rfl⟩, rfl⟩

/-- The program of clauses is made exactly where every function has different parameters. -/
theorem programTree_eq_ok_iff (clauses : List Clause) (program : Node) :
    programTree clauses = .ok program ↔
      (∀ clause ∈ clauses, clause.Distinct) ∧ program = .program (clauses.map node) := by
  simp only [programTree, map_eq_ok_iff, mapM_tree_eq_ok_iff]
  constructor
  · rintro ⟨_, ⟨distinct, rfl⟩, rfl⟩
    exact ⟨distinct, rfl⟩
  · rintro ⟨distinct, rfl⟩
    exact ⟨_, ⟨distinct, rfl⟩, rfl⟩

/-- Where no program is made of clauses, one of them repeats a parameter. -/
theorem programTree_eq_error {clauses : List Clause} {fault : Fault}
    (fails : programTree clauses = .error fault) :
    ∃ repeated function line, fault = .error (.parse (.duplicate repeated function) line) := by
  obtain ⟨clause, _, failed⟩ := exists_of_mapM_eq_error (map_eq_error_iff.1 fails)
  unfold tree at failed
  split at failed
  · rename_i error complains
    cases failed
    cases clause with
    | function name parameters body =>
      obtain ⟨token, _, rfl⟩ := Option.map_eq_some_iff.1 complains
      exact ⟨_, _, _, rfl⟩
    | _ => cases complains
  · cases failed

end Clause

namespace Grammar
open Descent (sumOperator? productOperator?)

/-- Within any levels a phrase becomes its node or runs out of levels. -/
def Levelled (phrase : Phrase) : Prop :=
  ∀ depth, Approximates (phrase.toNode depth) (.ok phrase.node)

private theorem levelled_links {links : List (Operator × Phrase)}
    (each : ∀ link ∈ links, Levelled link.2) (depth : Nat) (left : Node) :
    Approximates
      (links.foldlM (fun left link => do return .binary link.1 left (← link.2.toNode depth)) left)
      (.ok (Phrase.grouped left links)) := by
  induction links generalizing left with
  | nil => exact .refl _
  | cons link links ih =>
    obtain ⟨next, others⟩ := List.forall_mem_cons.1 each
    rw [List.foldlM_cons, Phrase.grouped]
    exact .bind_ok ((next depth).bind_ok (.refl _)) (ih others _)

private theorem levelled_joined {first : Phrase} {links : List (Operator × Phrase)}
    (head : Levelled first) (each : ∀ link ∈ links, Levelled link.2) :
    Levelled (.joined first links) := by
  intro depth
  rw [Phrase.node_joined]
  cases links with
  | nil => exact head depth
  | cons link links =>
    cases depth with
    | zero => exact .inr rfl
    | succ depth => exact (head depth).bind_ok (levelled_links each depth _)

private theorem mapM_ok {α β : Type} (make : α → β) (list : List α) :
    (list.mapM fun item => (.ok (make item) : Except Fault β)) = .ok (list.map make) := by
  induction list with
  | nil => rfl
  | cons item rest ih => simp [List.mapM_cons, ih, bind, Except.bind, pure, Except.pure]

theorem compositional_levelled : Compositional Token.Legible Levelled where
  joined := levelled_joined
  reference _ _ depth := by
    cases depth with
    | zero => exact .inr rfl
    | succ depth => exact .refl _
  numeral legible number depth := by
    cases depth with
    | zero => exact .inr rfl
    | succ depth =>
      rw [Phrase.toNode, legible.toFloat_eq number]
      exact .refl _
  call _ _ each depth := by
    cases depth with
    | zero => exact .inr rfl
    | succ depth =>
      rw [Phrase.toNode, Phrase.node, Phrase.nodes_eq_map]
      refine .bind_ok ?_ (.refl _)
      rw [← mapM_ok]
      exact .mapM fun phrase inside => each phrase inside depth

theorem Expression.toNode_approximates {words : List Token} {phrase : Phrase}
    (derived : Expression words phrase) (legible : ∀ word ∈ words, word.Legible) (depth : Nat) :
    Approximates (phrase.toNode depth) (.ok phrase.node) :=
  compositional_levelled.expression derived legible depth

theorem Body.toNode_approximates {words : List Token} {clause : Clause} (derived : Body words clause)
    (legible : ∀ word ∈ words, word.Legible) (depth : Nat) :
    Approximates (clause.toNode depth) clause.tree := by
  cases derived with
  | definition starts named equal inner =>
    have value := inner.toNode_approximates (fun word inside => legible word (by simp [inside])) depth
    exact value.bind_ok (.refl _)
  | function starts named opens listed closes equal inner =>
    have body := inner.toNode_approximates (fun word inside => legible word (by simp [inside])) depth
    refine body.bind_ok ?_
    rename_i parameters _
    cases found : Clause.repeated? [] parameters with
    | none => simp only [Clause.tree, Clause.complaint?, found]; exact .refl _
    | some token => simp only [Clause.tree, Clause.complaint?, found]; exact .refl _
  | expression inner => exact inner.toNode_approximates legible depth

theorem Program.toNode_approximates {words : List Token} {clauses : List Clause}
    (derived : Program words clauses) (legible : ∀ word ∈ words, word.Legible) (depth : Nat) :
    ∀ clause ∈ clauses, Approximates (clause.toNode depth) clause.tree := by
  intro clause inside
  obtain ⟨part, within, body⟩ := derived.body_of_mem inside
  exact body.toNode_approximates (fun word here => legible word (within word here)) depth

/-- Clauses that legible words derive become their program, get the first complaint about one of
    them, or run out of levels. -/
theorem Program.toProgram_approximates {words : List Token} {clauses : List Clause}
    (derived : Program words clauses) (legible : ∀ word ∈ words, word.Legible) (depth : Nat) :
    Approximates (Clause.toProgram depth clauses) (Clause.programTree clauses) :=
  .map _ (.mapM (derived.toNode_approximates legible depth))

end Grammar

end Reckoner
