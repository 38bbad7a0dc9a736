import Reckoner.Command.Switch

/-!
The words of a command line. Each word is first sorted by its form: a switch, with a value if one is
attached, a word that looks like a switch and is none, the separator behind which no word is a
switch, or a plain word. Then the words are taken from left to right, and the first misuse ends the
reading. The first plain word that is no value of a switch is the program.

What option parsers make of letters behind one dash has changed over their releases; the rules here are
those of 3.11.2. What is attached to a switch without a value, with or without an equals sign, is read as
further switches, and from the first letter that is none on it is a value that the switch in front of it
has to ignore.
-/
namespace Reckoner.Command

/-- What a word of the command line is. -/
inductive Word where
  | plain
  /-- The first `--`. -/
  | separator
  /-- A word that looks like a switch and is none. -/
  | unknown
  /-- A switch that was written with one dash, or with two, and the value attached to it. -/
  | switch (switch : Switch) (dashes : Nat) (value : Option Spelling)
  deriving DecidableEq, Repr

/-- The text before the first equals sign and the text behind it. -/
def splitValue? (word : Spelling) : Option (String × Spelling) :=
  let chars := word.plain.toList
  let beginning := chars.takeWhile (· ≠ '=')
  if beginning.length < chars.length then
    some (String.ofList beginning, word.drop (beginning.length + 1))
  else none

/-- A word that is a negative number; a line feed may follow it. -/
def looksNegative (word : String) : Bool :=
  match word.toList with
  | '-' :: chars =>
    let body := if chars.getLast? = some '\n' then chars.dropLast else chars
    let rest := body.dropWhile Text.isDigit
    match rest with
    | [] => !body.isEmpty
    | '.' :: fraction => !fraction.isEmpty && fraction.all Text.isDigit
    | _ => false
  | _ => false

/-- How many dashes stand in front of a switch. -/
def dashesOf (word : String) : Nat := if word.startsWith "--" then 2 else 1

/-- The words for switches that a shortened word can stand for, with the value attached to it. A
    word with one dash is the switch of its first letter, and what follows is attached. -/
def candidates (word : Spelling) : List (String × Switch × Option Spelling) :=
  match word.plain.toList with
  | '-' :: '-' :: _ =>
    let (beginning, value) : String × Option Spelling :=
      match splitValue? word with
      | some (beginning, value) => (beginning, some value)
      | none => (word.plain, none)
    (Switch.table.filter fun entry => entry.1.startsWith beginning).map fun entry =>
      (entry.1, entry.2, value)
  | '-' :: letter :: _ =>
    (Switch.table.filter fun entry => entry.1 = String.ofList ['-', letter]).map fun entry =>
      (entry.1, entry.2, some (word.drop 2))
  | _ => []

/-- The switch that a word is exactly, or is up to its equals sign. -/
def exactSwitch? (word : Spelling) : Option Word :=
  match Switch.ofWord? word.plain with
  | some switch => some (.switch switch (dashesOf word.plain) none)
  | none => do
    let (beginning, value) ← splitValue? word
    let switch ← Switch.ofWord? beginning
    return .switch switch (dashesOf beginning) (some value)

/-- What a word in front of the separator is. -/
def sortWord (word : Spelling) : Except Misuse Word :=
  if ¬ word.plain.startsWith "-" ∨ word = "-" then .ok .plain
  else
    match exactSwitch? word with
    | some sorted => .ok sorted
    | none =>
      match candidates word with
      | [(name, switch, value)] => .ok (.switch switch (dashesOf name) value)
      | [] => .ok (if looksNegative word.plain ∨ word.plain.contains ' ' then .plain else .unknown)
      | several => .error (.ambiguous word (several.map (·.1)))

/-- The words of a command line with what they are. -/
def sortWords : List Spelling → Except Misuse (List (Spelling × Word))
  | [] => .ok []
  | word :: rest =>
    if word = "--" then .ok ((word, .separator) :: rest.map fun later => (later, .plain))
    else do
      let sorted ← sortWord word
      return (word, sorted) :: (← sortWords rest)

/-- What a command line asks for. Of a switch without a value, and of one whose value is only the
    separator, the path is empty. -/
structure Arguments where
  verbosity : Nat := 0
  /-- The name of the reader; no text if the value was only the separator. -/
  frontend : Datum := .text Frontend.descent.label
  tokens : Spelling := ""
  emit : Spelling := ""
  tree : Spelling := ""
  program : Spelling := ""

/-- What has been taken of a command line. -/
structure Taken where
  arguments : Arguments := {}
  /-- The exclusive switch that was given. -/
  exclusive : Option Switch := none
  /-- Whether there was a word for the program. -/
  hasProgram : Bool := false
  /-- The words that nothing was made of, latest first. -/
  extras : List Spelling := []

/-- What a command line comes to. -/
inductive Reply where
  /-- The explanation was asked for. -/
  | explain
  | proceed (arguments : Arguments)

/-- The switches without values in one word: `first` and one for every letter, by its code point,
    behind it, of which each has to be a switch. -/
def letterSwitches (first : Switch) : (letters : List Nat) → Except Misuse (List Switch)
  | [] => .ok [first]
  | letter :: rest =>
    match Switch.ofWord? (String.ofList ['-', Spelling.scalar letter]) with
    | some next => (first :: ·) <$> letterSwitches next rest
    | none => .error (.ignoredValue first (.ofCodes (letter :: rest)))

/-- The switches without values that a word stands for. Letters can be attached only to one dash. -/
def plainSwitches (switch : Switch) (dashes : Nat) :
    Option Spelling → Except Misuse (List Switch)
  | none => .ok [switch]
  | some value =>
    if dashes = 1 ∧ value ≠ "" then letterSwitches switch value.codes
    else .error (.ignoredValue switch value)

namespace Taken

/-- Takes switches without values; nothing if one of them asks for the explanation. -/
def applyPlain (taken : Taken) (switches : List Switch) : Option Taken :=
  if .help ∈ switches then none
  else
    let verbosity := taken.arguments.verbosity + switches.length
    some { taken with arguments := { taken.arguments with verbosity } }

/-- The arguments with the value of a switch. -/
def store (arguments : Arguments) (switch : Switch) (value : Spelling) :
    Except Misuse Arguments :=
  let path : Spelling := if value = "--" then "" else value
  match switch with
  | .frontend =>
    if value = "--" then .ok { arguments with frontend := .list [] }
    else if value ∈ Frontend.labels.map Spelling.whole then
      .ok { arguments with frontend := .spelling value }
    else .error (.badChoice value)
  | .tokens => .ok { arguments with tokens := path }
  | .emit => .ok { arguments with emit := path }
  | .tree => .ok { arguments with tree := path }
  | _ => .ok arguments

/-- Notes that a switch was given, unless another one excludes it. -/
def exclude (given : Option Switch) (switch : Switch) : Except Misuse (Option Switch) :=
  match given with
  | none => .ok (if switch.isExclusive then some switch else none)
  | some other =>
    if switch.isExclusive ∧ other ≠ switch then .error (.excluded switch other) else .ok given

/-- Takes a switch with its value. -/
def applyValue (taken : Taken) (switch : Switch) (value : Spelling) : Except Misuse Taken := do
  let arguments ← store taken.arguments switch value
  let exclusive ← exclude taken.exclusive switch
  return { taken with arguments, exclusive }

/-- Takes a word as the program. -/
def applyProgram (taken : Taken) (program : Spelling) : Taken :=
  { taken with arguments := { taken.arguments with program }, hasProgram := true }

/-- Puts a word aside. -/
def setAside (taken : Taken) (word : Spelling) : Taken :=
  { taken with extras := word :: taken.extras }

/-- What the words come to when all of them were taken. -/
def finish (taken : Taken) : Except Misuse Reply :=
  if taken.extras.isEmpty then .ok (.proceed taken.arguments)
  else .error (.unrecognized taken.extras.reverse)

end Taken

/-- Takes the words from left to right. The separator is dropped where it stands next to the program
    or where no program was given. -/
def takeWords (taken : Taken) : List (Spelling × Word) → Except Misuse Reply
  | [] => taken.finish
  | (_, .switch switch dashes value) :: rest =>
    if switch.takesValue then
      match value, rest with
      | some value, rest => do takeWords (← taken.applyValue switch value) rest
      | none, (value, .plain) :: rest => do takeWords (← taken.applyValue switch value) rest
      | none, _ => .error (.missingValue switch)
    else do
      match taken.applyPlain (← plainSwitches switch dashes value) with
      | some next => takeWords next rest
      | none => return .explain
  | (word, .unknown) :: rest => takeWords (taken.setAside word) rest
  | (word, .separator) :: rest =>
    if taken.hasProgram then takeWords (taken.setAside word) rest
    else
      match rest with
      | (program, .plain) :: rest => takeWords (taken.applyProgram program) rest
      | rest => takeWords taken rest
  | (word, .plain) :: rest =>
    if taken.hasProgram then takeWords (taken.setAside word) rest
    else
      match rest with
      | (_, .separator) :: rest => takeWords (taken.applyProgram word) rest
      | rest => takeWords (taken.applyProgram word) rest

/-- Reads a command line. -/
def readWords (words : List Spelling) : Except Misuse Reply := do
  takeWords {} (← sortWords words)

end Reckoner.Command
