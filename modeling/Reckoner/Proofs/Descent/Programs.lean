import Reckoner.Proofs.Descent.Completeness
import Reckoner.Proofs.Descent.Soundness

/-!
Reading by descent accepts exactly the programs of the grammar. With the depth left aside, a list of
tokens is read as the tree of its derivation, and where there is none, or a function repeats a
parameter, reading ends with a complaint.
-/
namespace Reckoner

/-- An outcome that reports an exceeded depth. -/
def LimitReported {α : Type} (outcome : Except Fault α) : Prop :=
  ∃ depth line, outcome = .error (.error (.recursionLimit depth line))

/-- The tree of a program that the grammar derives, in which no function repeats a parameter. -/
def Grammar.Describes (words : List Token) (node : Node) : Prop :=
  ∃ clauses, Program words clauses ∧ (∀ clause ∈ clauses, clause.Distinct) ∧
    node = .program (clauses.map Clause.node)

theorem Cursor.ofTokens_append {words : List Token} {stop : Token}
    (proper : (⟨words, stop⟩ : Cursor).Proper) :
    Cursor.ofTokens (words ++ [stop]) = .ok ⟨words, stop⟩ := by
  have each : ∀ word ∈ words, Cursor.isWord word = true := by
    intro word inside
    simpa [Cursor.isWord] using proper.words word inside
  have last : Cursor.isWord stop = false := by simpa [Cursor.isWord] using proper.ends
  rw [Cursor.ofTokens, if_pos (by simpa using proper.ends)]
  rw [List.dropWhile_append_of_pos each, List.takeWhile_append_of_pos each]
  simp [List.dropWhile, List.takeWhile, last]

namespace Descent
open Reckoner.Grammar Reckoner.Reading

/-- How reading a list of tokens ends, by how reading from its start ends. -/
theorem parseTokens_cases {words : List Token} {stop : Token}
    (proper : (⟨words, stop⟩ : Cursor).Proper) (depth : Nat) :
    (∃ node after, program depth (⟨words, stop⟩ : Cursor) = .ok node after ∧
        parseTokens depth (words ++ [stop]) = .ok node) ∨
      (∃ after, program depth (⟨words, stop⟩ : Cursor) = .error .depth after ∧
        LimitReported (parseTokens depth (words ++ [stop]))) ∨
      ∃ fault after, program depth (⟨words, stop⟩ : Cursor) = .error fault after ∧ fault ≠ .depth ∧
        parseTokens depth (words ++ [stop]) = .error fault := by
  rw [parseTokens, Cursor.ofTokens_append proper]
  cases outcome : program depth (⟨words, stop⟩ : Cursor) with
  | ok node after =>
    refine .inl ⟨node, after, rfl, ?_⟩
    simp [bind, Except.bind, EStateM.run, outcome, pure, Except.pure]
  | error fault after =>
    cases fault with
    | depth =>
      refine .inr (.inl ⟨after, rfl, .nesting, after.current.line, ?_⟩)
      simp [bind, Except.bind, EStateM.run, outcome, throw, throwThe, MonadExceptOf.throw]
    | _ =>
      refine .inr (.inr ⟨_, after, rfl, by simp, ?_⟩)
      simp [bind, Except.bind, EStateM.run, outcome, throw, throwThe, MonadExceptOf.throw]

/-- A list of tokens is read as a program that they describe, or the depth is exceeded, which takes
    as many tokens, or there is a complaint. -/
theorem parseTokens_sound {words : List Token} {stop : Token}
    (proper : (⟨words, stop⟩ : Cursor).Proper) (depth : Nat) :
    (∃ node, parseTokens depth (words ++ [stop]) = .ok node ∧ Describes words node) ∨
      (LimitReported (parseTokens depth (words ++ [stop])) ∧ depth ≤ words.length) ∨
      ∃ complaint line, parseTokens depth (words ++ [stop]) = .error (.error (.parse complaint line)) := by
  have takes := takes_program depth proper
  obtain ⟨node, after, outcome, result⟩ | ⟨after, outcome, result⟩ |
    ⟨fault, after, outcome, other, result⟩ := parseTokens_cases proper depth
  · obtain ⟨_, _, rfl, nodes, ⟨clauses, derived, distinct, rfl⟩, rfl⟩ := takes.of_ok outcome
    exact .inl ⟨_, result, clauses, derived, distinct, rfl⟩
  · rcases takes.of_error outcome with ⟨_, _, isComplaint⟩ | ⟨_, long⟩
    · cases isComplaint
    · exact .inr (.inl ⟨result, long⟩)
  · rcases takes.of_error outcome with ⟨complaint, line, rfl⟩ | ⟨deep, _⟩
    · exact .inr (.inr ⟨complaint, line, result⟩)
    · exact absurd deep other

/-- A program that the grammar derives is read as its tree, or the first complaint about its
    functions is reported, unless the depth is exceeded. -/
theorem parseTokens_complete {words : List Token} {stop : Token}
    (proper : (⟨words, stop⟩ : Cursor).Proper) {clauses : List Clause}
    (derived : Program words clauses) (depth : Nat) :
    parseTokens depth (words ++ [stop]) = Clause.programTree clauses ∨
      LimitReported (parseTokens depth (words ++ [stop])) := by
  have ends := ends_program derived proper.legible depth proper.ends
  obtain ⟨node, after, outcome, result⟩ | ⟨after, outcome, result⟩ |
    ⟨fault, after, outcome, other, result⟩ := parseTokens_cases proper depth
  · exact .inl (result.trans (ends.of_ok outcome).symm)
  · exact .inr result
  · rcases ends.of_error outcome with deep | fails
    · exact absurd deep other
    · exact .inl (result.trans fails.symm)

/-- A program of fewer tokens than the depth, in which no parameter is repeated, is read as its tree. -/
theorem parseTokens_of_program {words : List Token} {stop : Token}
    (proper : (⟨words, stop⟩ : Cursor).Proper) {clauses : List Clause}
    (derived : Program words clauses) (distinct : ∀ clause ∈ clauses, clause.Distinct) {depth : Nat}
    (short : words.length < depth) :
    parseTokens depth (words ++ [stop]) = .ok (.program (clauses.map Clause.node)) := by
  rcases parseTokens_complete proper derived depth with same | ⟨_, _, reported⟩
  · rw [same, Clause.programTree_eq_ok_iff]
    exact ⟨distinct, rfl⟩
  · rcases parseTokens_sound proper depth with ⟨_, read, _⟩ | ⟨_, long⟩ | ⟨_, _, complains⟩
    · simp [read] at reported
    · omega
    · simp [complains] at reported

/-- Reading by descent accepts exactly the programs of the grammar, as their trees: the depth is not
    exceeded where it is more than the number of tokens, and where it is not exceeded, a tree is read
    if and only if the tokens describe it, and without such a tree there is a complaint. -/
theorem parseTokens_exact {words : List Token} {stop : Token} (ends : stop.kind = .finish)
    (only : ∀ word ∈ words, word.kind ≠ .finish) (legible : ∀ word ∈ words, word.Legible)
    (depth : Nat) :
    (words.length < depth → ¬ LimitReported (parseTokens depth (words ++ [stop]))) ∧
      (¬ LimitReported (parseTokens depth (words ++ [stop])) →
        (∀ node, parseTokens depth (words ++ [stop]) = .ok node ↔ Describes words node) ∧
          ((∀ node, ¬ Describes words node) → ∃ complaint line,
            parseTokens depth (words ++ [stop]) = .error (.error (.parse complaint line)))) := by
  have proper : (⟨words, stop⟩ : Cursor).Proper := ⟨ends, only, legible⟩
  have sound := parseTokens_sound proper depth
  refine ⟨fun short limit => ?_, fun unlimited => ⟨fun node => ⟨fun read => ?_, ?_⟩, fun none => ?_⟩⟩
  · obtain ⟨_, _, reported⟩ := limit
    rcases sound with ⟨_, read, _⟩ | ⟨_, long⟩ | ⟨_, _, complains⟩
    · simp [read] at reported
    · omega
    · simp [complains] at reported
  · rcases sound with ⟨other, readOther, described⟩ | ⟨limit, _⟩ | ⟨_, _, complains⟩
    · rw [read] at readOther
      cases readOther
      exact described
    · exact absurd limit unlimited
    · simp [read] at complains
  · rintro ⟨clauses, derived, distinct, rfl⟩
    rcases parseTokens_complete proper derived depth with same | limit
    · rw [same, Clause.programTree_eq_ok_iff]
      exact ⟨distinct, rfl⟩
    · exact absurd limit unlimited
  · rcases sound with ⟨node, _, described⟩ | ⟨limit, _⟩ | complains
    · exact absurd described (none node)
    · exact absurd limit unlimited
    · exact complains

theorem parseTokens_exact_numeral :
    parseTokens 3 [⟨.number, "2.5", some 1⟩, ⟨.semicolon, ";", some 1⟩, Token.finish 1] =
      .ok (.program [.number (Spelling.worth "2.5")]) := by
  have legible : ∀ word ∈ [⟨.number, "2.5", some 1⟩, ⟨.semicolon, ";", some 1⟩],
      Token.Legible word := by
    simpa [Token.Legible] using ⟨_, rfl⟩
  obtain ⟨short, exact⟩ := @parseTokens_exact _ (Token.finish 1) rfl (by decide) legible 3
  refine ((exact (short (by decide))).1 _).2 ⟨[.expression (.numeral "2.5")], ?_, ?_, rfl⟩
  · have factor : Factor [⟨.number, "2.5", some 1⟩] (.numeral "2.5") := .numeral rfl
    have expression := Expression.sum (.intro (.product (.intro factor .done)) .done)
    exact .more (.full (.expression expression) rfl) .done
  · simp [Clause.Distinct]

end Descent

end Reckoner
