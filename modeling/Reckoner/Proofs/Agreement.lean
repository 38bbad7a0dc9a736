import Reckoner.Frontend
import Reckoner.Proofs.Descent.Programs
import Reckoner.Proofs.Machine.Soundness
import Reckoner.Proofs.Scan

/-!
The two readers agree. On a source whose blanks are all plain they scan the same tokens. Where the
machine accepts these, both make the tree of the same derivation or report the same parameter; where
it refuses one, there is no derivation, and its error is that of the reader by descent.
-/
namespace Reckoner

/-- The tokens of a scan are words before the end of the input. -/
theorem Cursor.proper_of_scan {blank : Char → Bool} {source : Spelling} {tokens : List Token}
    {ending : Token.Ending} (scanned : Token.scan blank source = ⟨tokens, ending⟩) (line : Nat) :
    (⟨tokens, Token.finish line⟩ : Cursor).Proper := by
  have words : (Token.scan blank source).tokens = tokens := by rw [scanned]
  subst words
  exact ⟨rfl, fun _ => Token.ne_finish_of_mem_scan, fun _ => Token.legible_of_mem_scan⟩

namespace Descent
open Reckoner.Text

theorem parse_of_stray {source : Spelling} {tokens : List Token} {character : Char} {line : Nat}
    (scanned : Token.scan isBlank source = ⟨tokens, .stray character line⟩) (depth : Nat) :
    parse depth source = .error (.error (Token.strayError source character line)) := by
  simp [parse, Token.tokenize, scanned]

theorem parse_of_finish {source : Spelling} {tokens : List Token} {line : Nat}
    (scanned : Token.scan isBlank source = ⟨tokens, .finish line⟩) (depth : Nat) :
    parse depth source = parseTokens depth (tokens ++ [Token.finish line]) := by
  simp [parse, Token.tokenize, scanned]

/-- A source that is read as a program is scanned to tokens that describe it. -/
theorem describes_of_parse {depth : Nat} {source : Spelling} {node : Node}
    (read : parse depth source = .ok node) :
    ∃ tokens line, Token.scan isBlank source = ⟨tokens, .finish line⟩ ∧
      Grammar.Describes tokens node := by
  cases scanned : Token.scan isBlank source with
  | mk tokens ending =>
    cases ending with
    | stray character line => cases (parse_of_stray scanned depth).symm.trans read
    | finish line =>
      rw [parse_of_finish scanned] at read
      refine ⟨tokens, line, rfl, ?_⟩
      rcases parseTokens_sound (Cursor.proper_of_scan scanned line) depth with
        ⟨other, readOther, described⟩ | ⟨⟨_, _, limit⟩, _⟩ | ⟨_, _, complains⟩
      · cases read.symm.trans readOther
        exact described
      · cases read.symm.trans limit
      · cases read.symm.trans complains

end Descent

namespace Machine
open Reckoner.Text Reckoner.Grammar

/-- The machine refuses a token, or it takes all of them and stops as the scan does. -/
theorem run_cases (ending : Token.Ending) (state : State) (tokens : List Token) :
    (∃ found line, run ending state tokens = .refused found line) ∨
      ∃ last, run ending state tokens = finish last ending := by
  induction tokens generalizing state with
  | nil => exact .inr ⟨state, rfl⟩
  | cons token rest ih =>
    rw [run]
    cases step state token with
    | none => exact .inl ⟨token.found, token.line, rfl⟩
    | some next => exact ih next

/-- On a scan that finishes, the machine accepts or refuses. -/
theorem judge_finish (tokens : List Token) (line : Nat) :
    (∃ found met, judge ⟨tokens, .finish line⟩ = .refused found met) ∨
      ∃ clauses, judge ⟨tokens, .finish line⟩ = .accepted clauses := by
  rcases run_cases (.finish line) {} tokens with refused | ⟨last, stopped⟩
  · exact .inl refused
  · rw [judge, stopped, finish]
    split
    · exact .inr ⟨_, rfl⟩
    · exact .inl ⟨_, _, rfl⟩

/-- On a scan that strays, the machine refuses a token or strays as well. -/
theorem judge_stray (tokens : List Token) (character : Char) (line : Nat) :
    (∃ found met, judge ⟨tokens, .stray character line⟩ = .refused found met) ∨
      judge ⟨tokens, .stray character line⟩ = .stray character line := by
  rcases run_cases (.stray character line) {} tokens with refused | ⟨last, stopped⟩
  · exact .inl refused
  · exact .inr stopped

/-- A source with a refused token is no program. -/
theorem parse_refused {depth levels : Nat} {source : Spelling} {found : Found} {line : Option Int}
    (refused : judge (Token.scan isPlainBlank source) = .refused found line) :
    ∃ fault, parse depth levels source = .error fault := by
  rw [parse, refused]
  dsimp only
  cases diagnose depth source found line with
  | ok error => exact ⟨.error error, rfl⟩
  | error fault => exact ⟨fault, rfl⟩

/-- A refused source that reading by descent fails on has the same fault. -/
theorem parse_refused_eq {depth levels : Nat} {source : Spelling} {found : Found} {line : Option Int}
    (refused : judge (Token.scan isPlainBlank source) = .refused found line) {fault : Fault}
    (fails : Descent.parse depth source = .error fault) :
    parse depth levels source = .error fault := by
  rw [parse, refused]
  simp only [diagnose, fails]
  cases fault with
  | error error =>
    dsimp only
    split <;> rfl
  | _ => rfl

/-- A source with a blank that is not plain is no program. -/
theorem parse_of_wide {depth levels : Nat} {source : Spelling} {c : Char} (inside : c ∈ source.plain.toList)
    (wide : isBlank c = true) (notPlain : isPlainBlank c = false) :
    ∃ fault, parse depth levels source = .error fault := by
  cases scanned : Token.scan isPlainBlank source with
  | mk tokens ending =>
    cases ending with
    | finish line =>
      have plain := Token.blank_of_scanFrom_finish (congrArg Token.Lexed.ending scanned) c inside wide
      rw [notPlain] at plain
      cases plain
    | stray character line =>
      rcases judge_stray tokens character line with ⟨found, met, refused⟩ | strays
      · exact parse_refused (scanned ▸ refused)
      · exact ⟨.error (Token.strayError source character line), by rw [parse, scanned, strays]⟩

/-- A program that the grammar derives is read as its tree, or the first complaint about its
    functions is reported, unless the levels are exceeded. -/
theorem parse_of_program {depth levels : Nat} {source : Spelling} {tokens : List Token} {line : Nat}
    {clauses : List Clause} (scanned : Token.scan isPlainBlank source = ⟨tokens, .finish line⟩)
    (derived : Program tokens clauses) (legible : ∀ token ∈ tokens, token.Legible) :
    parse depth levels source = Clause.programTree clauses ∨
      LimitReported (parse depth levels source) := by
  rw [parse, scanned, judge_of_program derived]
  dsimp only
  split
  · exact .inr ⟨.nesting, none, rfl⟩
  · rename_i shallow
    rcases derived.toProgram_approximates legible levels with whole | deep
    · exact .inl whole
    · exact absurd deep shallow

end Machine

namespace Frontend
open Reckoner.Text Reckoner.Grammar
variable {limits : Limits} {source : Spelling} {tokens : List Token} {line : Nat}

/-- Where the scan strays, both readers report the character. -/
theorem agree_of_stray {character : Char}
    (plain : Token.scan isPlainBlank source = ⟨tokens, .stray character line⟩)
    (scanned : Token.scan isBlank source = ⟨tokens, .stray character line⟩) :
    parse limits .machine source = parse limits .descent source := by
  have fails := Descent.parse_of_stray scanned limits.nesting
  simp only [parse, fails]
  rcases Machine.judge_stray tokens character line with ⟨found, met, refused⟩ | strays
  · exact Machine.parse_refused_eq (plain ▸ refused) fails
  · rw [Machine.parse, plain, strays]

/-- Where the scan finishes and the machine accepts, both readers make the tree of the derivation.
    Where it refuses, there is no derivation, and reading by descent says what is wrong. -/
theorem agree_of_finish (plain : Token.scan isPlainBlank source = ⟨tokens, .finish line⟩)
    (scanned : Token.scan isBlank source = ⟨tokens, .finish line⟩)
    (descent : ¬ LimitReported (parse limits .descent source))
    (machine : ¬ LimitReported (parse limits .machine source)) :
    parse limits .machine source = parse limits .descent source := by
  have proper := Cursor.proper_of_scan scanned line
  have read := Descent.parse_of_finish scanned limits.nesting
  simp only [parse] at descent machine ⊢
  rcases Machine.judge_finish tokens line with ⟨found, met, refused⟩ | ⟨clauses, accepted⟩
  · rcases Descent.parseTokens_sound proper limits.nesting with
      ⟨node, _, clauses, derived, _⟩ | ⟨limit, _⟩ | ⟨complaint, cited, complains⟩
    · rw [Machine.judge_of_program derived] at refused
      cases refused
    · exact absurd (read ▸ limit) descent
    · rw [← read] at complains
      rw [complains]
      exact Machine.parse_refused_eq (plain ▸ refused) complains
  · have derived := Machine.judge_accepted_iff.1 accepted
    rcases Descent.parseTokens_complete proper derived limits.nesting with tree | limit
    · rcases Machine.parse_of_program plain derived proper.legible with made | limit
      · rw [read, tree, made]
      · exact absurd limit machine
    · exact absurd (read ▸ limit) descent

/-- On a source whose blanks are all plain, both readers have the same outcome unless one of them
    reports an exceeded depth; a source with any other blank is no program for the machine. -/
theorem parse_agree (limits : Limits) (source : Spelling) :
    ((∀ c ∈ source.plain.toList, isBlank c = true → isPlainBlank c = true) →
        ¬ LimitReported (parse limits .descent source) →
        ¬ LimitReported (parse limits .machine source) →
        parse limits .machine source = parse limits .descent source) ∧
      ((∃ c ∈ source.plain.toList, isBlank c = true ∧ isPlainBlank c = false) →
        ∃ fault, parse limits .machine source = .error fault) := by
  refine ⟨fun narrow descent machine => ?_, ?_⟩
  · have same : Token.scan isPlainBlank source = Token.scan isBlank source := by
      refine Token.scanFrom_congr 1 fun c inside => ?_
      rw [Bool.eq_iff_iff]
      exact ⟨isBlank_of_isPlainBlank, narrow c inside⟩
    cases scanned : Token.scan isBlank source with
    | mk tokens ending =>
      rw [scanned] at same
      cases ending with
      | finish line => exact agree_of_finish same scanned descent machine
      | stray character line => exact agree_of_stray same scanned
  · rintro ⟨c, inside, wide, notPlain⟩
    exact Machine.parse_of_wide inside wide notPlain

private theorem scan_numeral (blank : Char → Bool) :
    Token.scan blank "2;" = ⟨[⟨.number, "2", some 1⟩, ⟨.semicolon, ";", some 1⟩], .finish 1⟩ := by
  have first : Token.lexeme? blank (['2'] ++ ([';'] ++ [])) = some (some .number, ['2']) := rfl
  have second : Token.lexeme? blank ([';'] ++ []) = some (some .semicolon, [';']) := rfl
  change Token.scanFrom blank 1 (['2'] ++ ([';'] ++ [])) = _
  rw [Token.scanFrom_lexeme first, Token.scanFrom_lexeme second, Token.scanFrom]
  rfl

theorem parse_agree_numeral :
    parse .standard .machine "2;" = parse .standard .descent "2;" ∧
      ∃ fault, parse .standard .machine "2;\x0b" = .error fault := by
  have descent : parse .standard .descent "2;" = .ok (.program [.number (Spelling.worth "2")]) := by
    rw [parse, Descent.parse, Token.tokenize, scan_numeral]
    rfl
  have machine : parse .standard .machine "2;" = .ok (.program [.number (Spelling.worth "2")]) := by
    rw [parse, Machine.parse, scan_numeral]
    rfl
  refine ⟨(parse_agree .standard "2;").1 (by simp [Spelling.plain, isBlank]) ?_ ?_,
    (parse_agree .standard "2;\x0b").2 ⟨'\x0b', by decide⟩⟩
  · simp [LimitReported, descent]
  · simp [LimitReported, machine]

end Frontend

end Reckoner
