import Reckoner.Token

/-!
Parentheses among tokens. Tokens are balanced if they close the parentheses that they open and no
others. The opening parenthesis in front of balanced tokens is then the innermost one that is not
closed: they do not close it, and each one that they open they close.
-/
namespace Reckoner.Token

/-- How much deeper a token leads into parentheses. -/
def tilt (token : Token) : Int :=
  match token.kind with
  | .opening => 1
  | .closing => -1
  | _ => 0

/-- How many more parentheses tokens open than close. -/
def excess : List Token → Int
  | [] => 0
  | token :: tokens => token.tilt + excess tokens

/-- Tokens that close no parenthesis in front of them. -/
def Unclosing (tokens : List Token) : Prop := ∀ front, front <+: tokens → 0 ≤ excess front

/-- Tokens that close the parentheses that they open and no others. -/
structure Balanced (tokens : List Token) : Prop where
  unclosing : Unclosing tokens
  even : excess tokens = 0

/-- An opening parenthesis that the tokens `inside` behind it do not close, and the last such one: they
    are balanced, and they close every other one among them. -/
structure Encloses (opening : Token) (inside : List Token) : Prop where
  opens : opening.kind = .opening
  balanced : Balanced inside
  last : ∀ outer later inner, inside = outer ++ later :: inner → later.kind = .opening →
    ¬ Unclosing inner

@[simp] theorem excess_nil : excess [] = 0 := rfl

@[simp] theorem excess_cons (token : Token) (tokens : List Token) :
    excess (token :: tokens) = token.tilt + excess tokens := rfl

@[simp] theorem excess_append (first second : List Token) :
    excess (first ++ second) = excess first + excess second := by
  induction first with
  | nil => simp
  | cons token first ih =>
    rw [List.cons_append, excess_cons, excess_cons, ih]
    omega

theorem tilt_opening {token : Token} (opens : token.kind = .opening) : token.tilt = 1 := by
  simp [tilt, opens]

theorem tilt_closing {token : Token} (closes : token.kind = .closing) : token.tilt = -1 := by
  simp [tilt, closes]

theorem tilt_other {token : Token} (unopened : token.kind ≠ .opening)
    (unclosed : token.kind ≠ .closing) : token.tilt = 0 := by
  unfold tilt
  split
  · contradiction
  · contradiction
  · rfl

theorem Unclosing.excess_nonneg {tokens : List Token} (unclosing : Unclosing tokens) :
    0 ≤ excess tokens := unclosing tokens (List.prefix_refl tokens)

theorem balanced_nil : Balanced [] := by
  refine ⟨fun front starts => ?_, rfl⟩
  rw [List.prefix_nil.1 starts]
  exact Int.le_refl 0

theorem Balanced.append {first second : List Token} (one : Balanced first) (two : Balanced second) :
    Balanced (first ++ second) := by
  refine ⟨fun front starts => ?_, by rw [excess_append, one.even, two.even]; rfl⟩
  rcases List.prefix_or_prefix_of_prefix starts (List.prefix_append first second) with within | beyond
  · exact one.unclosing front within
  · obtain ⟨more, rfl⟩ := beyond
    have nonneg := two.unclosing more ((List.prefix_append_right_inj first).1 starts)
    rw [excess_append, one.even]
    omega

/-- A token that is no parenthesis. -/
theorem balanced_single {token : Token} (unopened : token.kind ≠ .opening)
    (unclosed : token.kind ≠ .closing) : Balanced [token] := by
  have flat : excess [token] = 0 := by simp [tilt_other unopened unclosed]
  refine ⟨fun front starts => ?_, flat⟩
  rcases List.prefix_cons_iff.1 starts with rfl | ⟨rest, rfl, nothing⟩
  · exact Int.le_refl 0
  · rw [List.prefix_nil.1 nothing]
    exact Int.le_of_eq flat.symm

/-- Balanced tokens in parentheses. -/
theorem Balanced.enclosed {inside : List Token} (balanced : Balanced inside) {opening closing : Token}
    (opens : opening.kind = .opening) (closes : closing.kind = .closing) :
    Balanced (opening :: (inside ++ [closing])) := by
  have up := tilt_opening opens
  have down := tilt_closing closes
  have even := balanced.even
  refine ⟨fun front starts => ?_, by simp [up, down, even]⟩
  rcases List.prefix_cons_iff.1 starts with rfl | ⟨rest, rfl, behind⟩
  · exact Int.le_refl 0
  · rw [excess_cons, up]
    rcases List.prefix_concat_iff.1 behind with rfl | within
    · simp [down, even]
    · have inner := balanced.unclosing rest within
      omega

/-- In front of balanced tokens stands the innermost parenthesis that is not closed. -/
theorem Balanced.encloses {inside : List Token} (balanced : Balanced inside) {opening : Token}
    (opens : opening.kind = .opening) : Encloses opening inside := by
  refine ⟨opens, balanced, ?_⟩
  rintro outer later inner rfl opensLater unclosing
  -- One that opens behind what is not closed and is not closed itself would be left over.
  have before := balanced.unclosing outer (List.prefix_append ..)
  have behind := unclosing.excess_nonneg
  have even := balanced.even
  rw [excess_append, excess_cons, tilt_opening opensLater] at even
  omega

end Reckoner.Token
