import Reckoner.Error
import Reckoner.Text.Blank
import Reckoner.Text.Digit
import Reckoner.Text.Lines

/-!
From text to tokens. At each place one lexeme begins: a numeral, a punctuation mark, a keyword, a
name or a run of blanks, each as long as it can be. Blanks separate tokens and are dropped. A
character that begins no lexeme ends the scan. Which characters are blanks is a parameter.

A source may hold halves of surrogate pairs. Its plain text is scanned, in which a replacement character
stands for each of them: that begins no lexeme either.
-/
namespace Reckoner.Token
open Reckoner.Text

/-- The numeral at the start of a text: digits, with a point among or before them where a digit
    follows it. It is empty where no numeral begins. -/
def numeralSpan (chars : List Char) : List Char :=
  let whole := chars.takeWhile isDigit
  match chars.dropWhile isDigit with
  | '.' :: rest =>
    let fraction := rest.takeWhile isDigit
    if fraction.isEmpty then whole else whole ++ '.' :: fraction
  | _ => whole

/-- The kind of a punctuation mark. -/
def punctuation? : Char → Option Kind
  | '+' => some .plus
  | '-' => some .minus
  | '*' => some .times
  | '/' => some .divide
  | '(' => some .opening
  | ')' => some .closing
  | '=' => some .equals
  | ';' => some .semicolon
  | ',' => some .comma
  | _ => none

/-- The word at the start of a text that begins with a letter. A keyword is cut off even where more
    letters follow it. -/
def wordSpan (chars : List Char) : Kind × List Char :=
  if ['l', 'e', 't'].isPrefixOf chars then (.letWord, ['l', 'e', 't'])
  else if ['f', 'u', 'n', 'c'].isPrefixOf chars then (.funcWord, ['f', 'u', 'n', 'c'])
  else (.name, chars.takeWhile isLetter)

/-- The lexeme at the start of a text, without a kind where it is blank. -/
def lexeme? (blank : Char → Bool) (chars : List Char) : Option (Option Kind × List Char) :=
  match chars with
  | [] => none
  | c :: _ =>
    let numeral := numeralSpan chars
    if ¬ numeral.isEmpty then some (some .number, numeral)
    else
      match punctuation? c with
      | some kind => some (some kind, [c])
      | none =>
        if blank c then some (none, chars.takeWhile blank)
        else if isLetter c then
          let (kind, span) := wordSpan chars
          some (some kind, span)
        else none

/-- A lexeme has at least one character. -/
theorem lexeme?_ne_nil {blank : Char → Bool} {chars : List Char} {kind : Option Kind}
    {span : List Char} (found : lexeme? blank chars = some (kind, span)) : span ≠ [] := by
  unfold lexeme? at found
  split at found
  · simp at found
  · rename_i c rest
    simp only at found
    split at found
    · rename_i filled
      simp only [Option.some.injEq, Prod.mk.injEq] at found
      rw [← found.2]
      simpa using filled
    · split at found
      · simp only [Option.some.injEq, Prod.mk.injEq] at found
        simp [← found.2]
      · split at found
        · rename_i isBlank
          simp only [Option.some.injEq, Prod.mk.injEq] at found
          simp [← found.2, isBlank]
        · split at found
          · rename_i letter
            simp only [Option.some.injEq, Prod.mk.injEq] at found
            rw [← found.2, wordSpan]
            split
            · simp
            · split
              · simp
              · simp [letter]
          · simp at found

/-- How a scan ends. -/
inductive Ending where
  /-- At the end of the text, in this line. -/
  | finish (line : Nat)
  /-- At a character that begins no lexeme, in this line. -/
  | stray (character : Char) (line : Nat)
  deriving DecidableEq, Repr

/-- The tokens of a text up to the end of its scan. -/
structure Lexed where
  tokens : List Token
  ending : Ending
  deriving DecidableEq, Repr

/-- A scan with one more lexeme in front. -/
def Lexed.cons (kind : Option Kind) (span : List Char) (line : Nat) (after : Lexed) : Lexed :=
  match kind with
  | none => after
  | some kind => { after with tokens := ⟨kind, String.ofList span, some line⟩ :: after.tokens }

/-- The scan of a text that begins in `line`. -/
def scanFrom (blank : Char → Bool) (line : Nat) (chars : List Char) : Lexed :=
  match chars with
  | [] => ⟨[], .finish line⟩
  | c :: rest =>
    match _found : lexeme? blank (c :: rest) with
    | none => ⟨[], .stray c line⟩
    | some (kind, span) =>
      (scanFrom blank (line + lineFeeds span) ((c :: rest).drop span.length)).cons kind span line
termination_by chars.length
decreasing_by
  have filled := List.length_pos_iff.mpr (lexeme?_ne_nil _found)
  simp only [List.length_drop, List.length_cons]
  omega

/-- The scan of a source. -/
def scan (blank : Char → Bool) (source : Spelling) : Lexed := scanFrom blank 1 source.plain.toList

/-- The error for a code point that begins no token. -/
def strayCode (code line : Nat) : Error :=
  if code.isValidChar then .lex (Char.ofNat code).toString (some line) else .half code (some line)

/-- The error for the character at which the scan of a source ended. -/
def strayError (source : Spelling) (character : Char) (line : Nat) : Error :=
  strayCode (source.standing character) line

/-- The token that ends an input. -/
def finish (line : Nat) : Token := ⟨.finish, "", some line⟩

/-- The tokens of a source, the last of which is its end. -/
def tokenize (source : Spelling) : Except Error (List Token) :=
  let lexed := scan isBlank source
  match lexed.ending with
  | .finish line => .ok (lexed.tokens ++ [finish line])
  | .stray character line => .error (strayError source character line)

end Reckoner.Token
