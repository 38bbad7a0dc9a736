import Reckoner.Fault

/-!
A place in a list of tokens. Reading never goes past the first token that ends the input, so a
cursor holds the tokens before it that are still ahead, and that token. Steps of reading are written for
any kind of place, such as an index into the list.
-/
namespace Reckoner

/-- A place in a list of tokens. -/
structure Cursor where
  /-- The tokens still to be read, none of which ends the input. -/
  ahead : List Token
  /-- The token that ends the input. -/
  stop : Token
  deriving DecidableEq, Repr

/-- A step of reading, which moves the cursor or fails where it stands. -/
abbrev Reading := EStateM Fault Cursor

namespace Cursor

/-- A token other than the end of the input. -/
def isWord (token : Token) : Bool := token.kind ≠ .finish

/-- The start of a list of tokens, which has to end with the end of the input. -/
def ofTokens (tokens : List Token) : Except Fault Cursor :=
  if tokens.getLast?.map Token.kind = some .finish then
    match tokens.dropWhile isWord with
    | stop :: _ => .ok ⟨tokens.takeWhile isWord, stop⟩
    | [] => .error .noFinish
  else .error .noFinish

/-- The token at the cursor. -/
def current (cursor : Cursor) : Token := cursor.ahead.headD cursor.stop

/-- The token behind the one at the cursor. -/
def following (cursor : Cursor) : Token := (cursor.ahead.drop 1).headD cursor.stop

/-- The cursor one token on; at the end of the input it stays. -/
def moved (cursor : Cursor) : Cursor := { cursor with ahead := cursor.ahead.drop 1 }

end Cursor

/-- States that stand at a place among tokens. -/
class TokenPlace (σ : Type) where
  /-- The token at the place. -/
  current : σ → Token
  /-- The token behind the one at the place. -/
  following : σ → Token
  /-- The place one token on; at the end of the input it stays. -/
  moved : σ → σ
  /-- The tokens that are left, the end of the input included, in any order. -/
  left : σ → List Token

instance : TokenPlace Cursor where
  current := Cursor.current
  following := Cursor.following
  moved := Cursor.moved
  left cursor := cursor.stop :: cursor.ahead

namespace Reading

/-- Stops with a complaint that cites a line. -/
def complain {σ α : Type} (complaint : Complaint) (line : Option Int) : EStateM Fault σ α :=
  throw (.error (.parse complaint line))

variable {σ : Type} [TokenPlace σ]

/-- The token at the place. -/
def peek : EStateM Fault σ Token := return TokenPlace.current (← get)

/-- The token behind the one at the place. -/
def peekNext : EStateM Fault σ Token := return TokenPlace.following (← get)

/-- Whether the token at the place has a kind. -/
def sees (kind : Token.Kind) : EStateM Fault σ Bool := return (← peek).kind = kind

/-- Takes the token at the place and moves on. -/
def advance : EStateM Fault σ Token := do
  let token ← peek
  modify TokenPlace.moved
  return token

/-- Takes a token of a kind, or complains about the one that is there. -/
def consume (kind : Token.Kind) (complaint : Found → Complaint := Complaint.expected kind) :
    EStateM Fault σ Token := do
  let token ← peek
  if token.kind = kind then advance else complain (complaint token.found) token.line

/-- Takes a token of a kind, or stops with given words. -/
def consumeOr (kind : Token.Kind) (text : String) : EStateM Fault σ Token := do
  let token ← peek
  if token.kind = kind then advance else throw (.error (.stated .parse text token.line))

/-- The tokens that are left. A loop that takes a token in every round ends within as many rounds. -/
def remaining : EStateM Fault σ (List Token) := return TokenPlace.left (← get)

end Reading

/-- The token at an offset from a place in a list. Beyond the last token there is only that token; before
    the first token places count from the end, once through the list. -/
def Token.seenFrom (tokens : List Token) (place : Nat) (offset : Int) : Except Fault Token :=
  let size : Int := tokens.length
  let index := min (place + offset) (size - 1)
  let place := if index < 0 then index + size else index
  if place < 0 then .error .noToken
  else
    match tokens[place.toNat]? with
    | some token => .ok token
    | none => .error .noToken

/-- A list of tokens with a place in it, where reading can be taken step by step. -/
structure TokenTape where
  tokens : List Token
  cursor : Cursor

namespace TokenTape

/-- The start of a list of tokens. -/
def ofTokens (tokens : List Token) : Except Fault TokenTape :=
  (⟨tokens, ·⟩) <$> Cursor.ofTokens tokens

/-- How many tokens have been read. -/
def position (tape : TokenTape) : Nat :=
  (tape.tokens.takeWhile Cursor.isWord).length - tape.cursor.ahead.length

/-- The token at an offset from the cursor. -/
def tokenAt (tape : TokenTape) (offset : Int) : Except Fault Token :=
  Token.seenFrom tape.tokens tape.position offset

/-- Takes a step of reading; the cursor stays where a fault left it. -/
def read {α : Type} (tape : TokenTape) (step : Reading α) : Except Fault α × TokenTape :=
  match step.run tape.cursor with
  | .ok result cursor => (.ok result, { tape with cursor })
  | .error fault cursor => (.error fault, { tape with cursor })

end TokenTape

end Reckoner
