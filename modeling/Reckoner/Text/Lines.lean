/-!
Line ends. Text files may end a line by a carriage return, a line feed or both; read as text, each
of these becomes one line feed. Only line feeds are counted. A text can be split at any mark.
-/
namespace Reckoner.Text

/-- Every line end as a single line feed. -/
def unifyLines : List Char → List Char
  | [] => []
  | '\r' :: '\n' :: rest => '\n' :: unifyLines rest
  | c :: rest => (if c = '\r' then '\n' else c) :: unifyLines rest

/-- How many line feeds a text holds. -/
def lineFeeds (text : List Char) : Nat := text.count '\n'

@[simp] theorem lineFeeds_append (front rest : List Char) :
    lineFeeds (front ++ rest) = lineFeeds front + lineFeeds rest := List.count_append

/-- The pieces of a list between the marks in it. -/
def split {α : Type} [DecidableEq α] (mark : α) : List α → List (List α)
  | [] => [[]]
  | c :: rest =>
    if c = mark then [] :: split mark rest
    else
      match split mark rest with
      | [] => [[c]]
      | first :: more => (c :: first) :: more

/-- The lines of a text in which a line feed ends each line. -/
def linesOf (text : String) : List String :=
  let pieces := split '\n' text.toList
  let lines := if pieces.getLast? = some [] then pieces.dropLast else pieces
  lines.map String.ofList

end Reckoner.Text
