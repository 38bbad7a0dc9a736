import Reckoner.Command.Folder

/-!
Files that are put into a folder. A path leads to a place only through directories, so a file that is
put there makes no directory that was not there before: it changes what stands at its own place and
nothing else, and every path leads where it led.
-/
namespace Reckoner

/-- The names of a path are the first names of another. -/
def Path.through (path longer : Path) : Bool :=
  longer.root = path.root ∧ path.names.isPrefixOf longer.names

namespace Folder

/-- Every directory on the way to a place is there. -/
def Leads (folder : Folder) (place : Path) : Prop :=
  ∀ names, names <+: place.names → names ≠ place.names →
    folder.at? ⟨place.root, names⟩ = some .directory

/-- The same directories are in two folders. -/
def Alike (folder other : Folder) : Prop :=
  ∀ place, folder.at? place = some .directory ↔ other.at? place = some .directory

section
variable {folder other : Folder} {root : String} {place path : Path}

theorem Leads.push {names : List Spelling} (leads : folder.Leads ⟨root, names⟩)
    (directory : folder.at? ⟨root, names⟩ = some .directory) (name : Spelling) :
    folder.Leads ⟨root, names ++ [name]⟩ := by
  intro shorter before proper
  rcases List.prefix_concat_iff.1 before with rfl | inside
  · exact absurd rfl proper
  · by_cases same : shorter = names
    · rw [same]
      exact directory
    · exact leads shorter inside same

theorem Leads.shorten {names shorter : List Spelling} (leads : folder.Leads ⟨root, names⟩)
    (before : shorter <+: names) : folder.Leads ⟨root, shorter⟩ := by
  intro inner inside proper
  refine leads inner (inside.trans before) ?_
  rintro rfl
  exact proper (inside.eq_of_length_le before.length_le)

theorem Leads.up {reversed : List Spelling} (leads : folder.Leads ⟨root, reversed.reverse⟩)
    (directory : folder.at? ⟨root, reversed.reverse⟩ = some .directory) :
    folder.Leads ⟨root, (up root reversed).reverse⟩ := by
  cases reversed with
  | nil =>
    by_cases none : root = ""
    · simpa [Folder.up, none] using leads.push directory ".."
    · simpa [Folder.up, none] using leads
  | cons name rest =>
    by_cases above : name = ".."
    · simpa [Folder.up, above] using leads.push directory ".."
    · rw [Folder.up, if_neg above]
      exact leads.shorten (by simp)

theorem follow_cons_eq_ok {name : Spelling} {rest reversed : List Spelling}
    (arrives : folder.follow root reversed (name :: rest) = .ok place) :
    folder.at? ⟨root, reversed.reverse⟩ = some .directory ∧
      folder.follow root (if name = ".." then up root reversed else name :: reversed) rest =
        .ok place := by
  rw [follow] at arrives
  by_cases directory : folder.at? ⟨root, reversed.reverse⟩ = some .directory
  · by_cases long : nameLimit < byteSize name
    · simp [directory, long] at arrives
    · rw [if_neg (fun missing => missing directory), if_neg long] at arrives
      exact ⟨directory, arrives⟩
  · simp [directory] at arrives

/-- Whoever follows names arrives where directories lead. -/
theorem leads_follow {names : List Spelling} {reversed : List Spelling}
    (arrives : folder.follow root reversed names = .ok place)
    (leads : folder.Leads ⟨root, reversed.reverse⟩) : folder.Leads place := by
  induction names generalizing reversed with
  | nil =>
    cases arrives
    exact leads
  | cons name rest ih =>
    obtain ⟨directory, further⟩ := follow_cons_eq_ok arrives
    by_cases above : name = ".."
    · rw [if_pos above] at further
      exact ih further (leads.up directory)
    · rw [if_neg above] at further
      exact ih further (by simpa using leads.push directory name)

theorem follow_of_locate (found : folder.locate path = .ok place) :
    folder.follow path.root [] path.names = .ok place := by
  unfold locate at found
  split at found
  · cases found
  · split at found
    · cases found
    · exact found

theorem leads_locate (found : folder.locate path = .ok place) : folder.Leads place := by
  refine leads_follow (follow_of_locate found) ?_
  intro names before proper
  exact absurd (List.prefix_nil.1 before) proper

theorem Alike.follow (alike : folder.Alike other) (names reversed : List Spelling) :
    folder.follow root reversed names = other.follow root reversed names := by
  induction names generalizing reversed with
  | nil => rfl
  | cons name rest ih =>
    have same := alike ⟨root, reversed.reverse⟩
    simp only [Folder.follow, ih, ne_eq, same]

/-- Paths lead to the same places through the same directories. -/
theorem Alike.locate (alike : folder.Alike other) (path : Path) :
    folder.locate path = other.locate path := by
  simp only [Folder.locate, alike.follow]

/-- A path to a place ends with the name of the place. -/
theorem getLast?_follow {names reversed : List Spelling} {name : Spelling} (other : name ≠ "..")
    (arrives : folder.follow root reversed (names ++ [name]) = .ok place) :
    place.names.getLast? = some name := by
  induction names generalizing reversed with
  | nil =>
    obtain ⟨_, further⟩ := follow_cons_eq_ok arrives
    rw [if_neg other] at further
    cases further
    simp
  | cons first rest ih => exact ih (follow_cons_eq_ok arrives).2

theorem lookup_entry (path asked : Path) (item : Item) (items : List (Path × Item)) :
    ((path, item) :: items).lookup asked = if asked = path then some item else items.lookup asked := by
  by_cases same : asked = path
  · simp [same]
  · have differ : (asked == path) = false := by simpa using same
    rw [List.lookup_cons, differ, if_neg same]

theorem lookup_replace (items : List (Path × Item)) (item : Item) (asked : Path) :
    (items.map fun entry => if entry.1 = place then (place, item) else entry).lookup asked =
      if asked = place then if items.any fun entry => entry.1 = place then some item else none
      else items.lookup asked := by
  induction items with
  | nil => simp
  | cons entry items ih =>
    obtain ⟨path, old⟩ := entry
    rw [List.map_cons, List.any_cons]
    by_cases here : path = place
    · by_cases same : asked = place <;> simp [here, same, lookup_entry, ih]
    · rw [if_neg here, lookup_entry, lookup_entry, ih, decide_eq_false here, Bool.false_or]
      by_cases same : asked = place
      · have other : ¬ asked = path := fun there => here (there.symm.trans same)
        rw [if_neg other, if_pos same, if_pos same]
      · simp [same]

theorem lookup_put (item : Item) (asked : Path) :
    (folder.put place item).items.lookup asked =
      if asked = place then some item else folder.items.lookup asked := by
  unfold put
  split
  · rename_i present
    simp only [lookup_replace, present, if_true]
  · rename_i absent
    simp only [List.lookup_append, lookup_entry, List.lookup_nil]
    by_cases same : asked = place
    · have nothing : folder.items.lookup place = none := by
        refine List.lookup_eq_none_iff.2 fun entry inside => ?_
        rw [bne_iff_ne]
        rintro rfl
        exact absent (List.any_eq_true.2 ⟨entry, inside, by simp⟩)
      simp [same, nothing]
    · simp [same]

theorem any_put (item : Item) (test : Path → Bool) :
    ((folder.put place item).items.any fun entry => test entry.1) =
      ((folder.items.any fun entry => test entry.1) || test place) := by
  unfold put
  split
  · rename_i present
    have kept : ∀ entry : Path × Item,
        (if entry.1 = place then (place, item) else entry).1 = entry.1 := by
      intro entry
      split
      · rename_i here
        exact here.symm
      · rfl
    obtain ⟨entry, inside, here⟩ := List.any_eq_true.1 present
    rw [decide_eq_true_eq] at here
    have implied : test place = true → (folder.items.any fun entry => test entry.1) = true := by
      intro holds
      exact List.any_eq_true.2 ⟨entry, inside, here ▸ holds⟩
    simp only [List.any_map, Function.comp_def, kept]
    cases holds : test place with
    | false => simp
    | true => simp [implied holds]
  · simp

theorem at?_of_some {item : Item} (listed : folder.items.lookup place = some item) :
    folder.at? place = some item := by
  rw [at?, listed]

theorem at?_of_none (unlisted : folder.items.lookup place = none) :
    folder.at? place =
      if (folder.items.any fun entry => place.through entry.1) ∨ place.names.all (· = "..") then
        some .directory
      else none := by
  rw [at?, unlisted]
  rfl

/-- What is put at a place that directories lead to stands there, and everything else stays. -/
theorem at?_put (leads : folder.Leads place) (item : Item) (asked : Path) :
    (folder.put place item).at? asked = if asked = place then some item else folder.at? asked := by
  by_cases same : asked = place
  · rw [if_pos same]
    exact at?_of_some (by rw [lookup_put, if_pos same])
  rw [if_neg same]
  have listed : (folder.put place item).items.lookup asked = folder.items.lookup asked := by
    rw [lookup_put, if_neg same]
  cases found : folder.items.lookup asked with
  | some old => rw [at?_of_some found, at?_of_some (listed.trans found)]
  | none =>
    rw [at?_of_none (listed.trans found), any_put]
    by_cases inside : asked.through place = true
    · have directory : folder.at? asked = some .directory := by
        obtain ⟨root, before⟩ := of_decide_eq_true inside
        have proper : asked.names ≠ place.names := fun names =>
          same (by rw [Path.mk.injEq]; exact ⟨root.symm, names⟩)
        have led := leads asked.names (List.isPrefixOf_iff_prefix.1 before) proper
        rwa [root] at led
      simp [inside, directory]
    · rw [at?_of_none found, Bool.eq_false_iff.2 inside, Bool.or_false]

theorem alike_put (leads : folder.Leads place) (file : folder.at? place ≠ some .directory)
    (content : Content) : (folder.put place (.file content)).Alike folder := by
  intro asked
  rw [at?_put leads]
  by_cases same : asked = place
  · rw [if_pos same, same]
    simp [file]
  · rw [if_neg same]

end

end Folder

end Reckoner
