import Reckoner.Command.Arguments
import Reckoner.Proofs.Outcome

/-!
Command lines of switches and their values. Words that nobody can take for switches go where the
switch before them, or the lack of one, puts them.
-/
namespace Reckoner.Command

/-- A word that is taken as it is, for the value of the switch before it or for the program: it is
    not empty, which would count as not given, nobody takes it for a switch, and it is not the
    separator. -/
structure Plain (word : Spelling) : Prop where
  filled : word ≠ ""
  other : word ≠ "--"
  sorted : sortWord word = .ok .plain

/-- A word for a switch stands for that switch. -/
theorem sortWord_of_switch {word : String} {switch : Switch} {dashes : Nat}
    (dashed : word.startsWith "-" = true) (more : word ≠ "-")
    (known : Switch.ofWord? word = some switch) (count : dashesOf word = dashes) :
    sortWord word = .ok (.switch switch dashes none) := by
  have other : Spelling.whole word ≠ "-" := fun same => more (Spelling.whole.inj same)
  simp [sortWord, exactSwitch?, Spelling.plain, dashed, other, known, count]

theorem sortWord_verbose : sortWord "-v" = .ok (.switch .verbose 1 none) :=
  sortWord_of_switch (by decide +kernel) (by decide) rfl (by decide +kernel)

theorem sortWord_frontend : sortWord "--frontend" = .ok (.switch .frontend 2 none) :=
  sortWord_of_switch (by decide +kernel) (by decide) rfl (by decide +kernel)

theorem sortWord_emit : sortWord "--emit-ast" = .ok (.switch .emit 2 none) :=
  sortWord_of_switch (by decide +kernel) (by decide) rfl (by decide +kernel)

theorem sortWord_tree : sortWord "--ast" = .ok (.switch .tree 2 none) :=
  sortWord_of_switch (by decide +kernel) (by decide) rfl (by decide +kernel)

/-- A word with no dash in front is taken as it is. -/
theorem sortWord_of_bare {word : Spelling} (bare : ¬ word.plain.startsWith "-") :
    sortWord word = .ok .plain := if_pos (.inl bare)

theorem plain_label (frontend : Frontend) : Plain frontend.label := by
  cases frontend
  · exact ⟨by decide, by decide, sortWord_of_bare (by decide +kernel)⟩
  · exact ⟨by decide, by decide, sortWord_of_bare (by decide +kernel)⟩

theorem sortWords_cons {word : Spelling} {sorted : Word} {words : List Spelling}
    {list : List (Spelling × Word)} (other : word ≠ "--") (first : sortWord word = .ok sorted)
    (rest : sortWords words = .ok list) : sortWords (word :: words) = .ok ((word, sorted) :: list) := by
  rw [sortWords, if_neg other, first, rest]
  rfl

/-- A command line with a verbosity. -/
def verbosely (verbosity : Nat) (words : List Spelling) : List Spelling :=
  List.replicate verbosity (Spelling.whole "-v") ++ words

/-- The sorted words for a verbosity, with others behind them. -/
def verboseSorted (verbosity : Nat) (list : List (Spelling × Word)) : List (Spelling × Word) :=
  List.replicate verbosity (Spelling.whole "-v", Word.switch .verbose 1 none) ++ list

theorem sortWords_verbosely (verbosity : Nat) {words : List Spelling} {list : List (Spelling × Word)}
    (rest : sortWords words = .ok list) :
    sortWords (verbosely verbosity words) = .ok (verboseSorted verbosity list) := by
  induction verbosity with
  | zero => exact rest
  | succ verbosity ih => exact sortWords_cons (by decide) sortWord_verbose ih

/-- Every switch for the verbosity adds one to it. -/
theorem takeWords_verboseSorted (verbosity : Nat) (taken : Taken) (list : List (Spelling × Word)) :
    takeWords taken (verboseSorted verbosity list) =
      takeWords { taken with arguments := { taken.arguments with
        verbosity := taken.arguments.verbosity + verbosity } } list := by
  induction verbosity generalizing taken with
  | zero => rfl
  | succ verbosity ih =>
    have one : takeWords taken (verboseSorted (verbosity + 1) list) =
        takeWords { taken with arguments := { taken.arguments with
          verbosity := taken.arguments.verbosity + 1 } } (verboseSorted verbosity list) := by
      change takeWords taken ((Spelling.whole "-v", .switch .verbose 1 none) :: _) = _
      rw [takeWords.eq_def]
      rfl
    rw [one, ih, Nat.add_assoc, Nat.add_comm 1]

/-- Reads the command line that runs a program. -/
theorem readWords_program (verbosity : Nat) (frontend : Frontend) {file : Spelling}
    (plain : Plain file) :
    readWords (verbosely verbosity ["--frontend", frontend.label, file]) =
      .ok (.proceed { verbosity, frontend := .text frontend.label, program := file }) := by
  have last : sortWords [file] = .ok [(file, .plain)] := sortWords_cons plain.other plain.sorted rfl
  have label := sortWords_cons (plain_label frontend).other (plain_label frontend).sorted last
  have words := sortWords_verbosely verbosity (sortWords_cons (by decide) sortWord_frontend label)
  rw [readWords, words]
  change takeWords _ _ = _
  rw [takeWords_verboseSorted, Nat.zero_add]
  cases frontend <;> rfl

/-- Reads the command line that writes the tree of a program. -/
theorem readWords_emit (frontend : Frontend) {file : Spelling} (plain : Plain file) :
    readWords ["--frontend", frontend.label, "--emit-ast", file] =
      .ok (.proceed { frontend := .text frontend.label, emit := file }) := by
  have last : sortWords [file] = .ok [(file, .plain)] := sortWords_cons plain.other plain.sorted rfl
  have words := sortWords_cons (by decide) sortWord_frontend
    (sortWords_cons (plain_label frontend).other (plain_label frontend).sorted
      (sortWords_cons (by decide) sortWord_emit last))
  have kept (arguments : Arguments) :
      Taken.store arguments .emit file = .ok { arguments with emit := file } := by
    rw [Taken.store, if_neg plain.other]
  rw [readWords, words]
  cases frontend <;>
    · simp only [bind, Except.bind, takeWords, Switch.takesValue, Taken.applyValue, kept]
      rfl

/-- Reads the command line that runs a tree. -/
theorem readWords_tree (verbosity : Nat) {file : Spelling} (plain : Plain file) :
    readWords (verbosely verbosity ["--ast", file]) = .ok (.proceed { verbosity, tree := file }) := by
  have last : sortWords [file] = .ok [(file, .plain)] := sortWords_cons plain.other plain.sorted rfl
  have words := sortWords_verbosely verbosity (sortWords_cons (by decide) sortWord_tree last)
  have kept (arguments : Arguments) :
      Taken.store arguments .tree file = .ok { arguments with tree := file } := by
    rw [Taken.store, if_neg plain.other]
  rw [readWords, words]
  change takeWords _ _ = _
  rw [takeWords_verboseSorted, Nat.zero_add]
  simp only [bind, Except.bind, takeWords, Switch.takesValue, Taken.applyValue, kept]
  rfl

end Reckoner.Command
