import Reckoner.Proofs.Datum.Numbers

/-!
Documents read back. A datum of texts, numbers, lists and records is written with one part a line,
and reading the document gives the datum again: the reader skips the margins, reads each part up to
the comma or the line end behind it and finds the bracket that closes the container.
-/
namespace Reckoner.Datum

mutual

/-- How deep the containers of a datum are nested, itself included. -/
def levels : Datum → Nat
  | list items => levelsOfItems items + 1
  | record fields => levelsOfFields fields + 1
  | _ => 1

/-- The levels of the deepest item. -/
def levelsOfItems : List Datum → Nat
  | [] => 0
  | item :: rest => max item.levels (levelsOfItems rest)

/-- The levels of the deepest field. -/
def levelsOfFields : List (Spelling × Datum) → Nat
  | [] => 0
  | (_, value) :: rest => max value.levels (levelsOfFields rest)

end

/-- A datum of texts, numbers, lists, and records with one value for each key. -/
inductive Portable : Datum → Prop
  | text (value : String) : Portable (.text value)
  | number (x : Float) : Portable (.number x)
  | list {items : List Datum} (each : ∀ item ∈ items, Portable item) : Portable (.list items)
  | record {fields : List (String × Datum)} (distinct : (fields.map Prod.fst).Nodup)
      (each : ∀ field ∈ fields, Portable field.2) :
      Portable (.record (fields.map fun field => (.whole field.1, field.2)))

theorem levels_pos (datum : Datum) : 0 < datum.levels := by
  cases datum <;> simp [levels]

theorem levels_le_of_mem {items : List Datum} {item : Datum} (inside : item ∈ items) :
    item.levels ≤ levelsOfItems items := by
  induction items with
  | nil => cases inside
  | cons first rest ih =>
    rw [levelsOfItems]
    rcases List.mem_cons.1 inside with rfl | later
    · exact Nat.le_max_left ..
    · exact (ih later).trans (Nat.le_max_right ..)

theorem levels_le_of_field {fields : List (String × Datum)} {field : String × Datum}
    (inside : field ∈ fields) :
    field.2.levels ≤ levelsOfFields (fields.map fun field => (.whole field.1, field.2)) := by
  induction fields with
  | nil => cases inside
  | cons first rest ih =>
    rw [List.map_cons, levelsOfFields]
    rcases List.mem_cons.1 inside with rfl | later
    · exact Nat.le_max_left ..
    · exact (ih later).trans (Nat.le_max_right ..)

open Scan

theorem mem_margin {depth : Nat} {c : Char} (inside : c ∈ (margin depth).toList) :
    c = '\n' ∨ c = ' ' := by
  have spaces (count : Nat) : ∀ c ∈ ("".pushn ' ' count).toList, c = ' ' := by
    induction count with
    | zero =>
      intro c inside
      cases inside
    | succ count ih =>
      intro c inside
      have pushed : "".pushn ' ' (count + 1) = ("".pushn ' ' count).push ' ' := rfl
      rw [pushed, String.toList_push, List.mem_append] at inside
      rcases inside with earlier | last
      · exact ih c earlier
      · exact List.mem_singleton.1 last
  rw [margin, String.toList_append, List.mem_append] at inside
  rcases inside with feed | space
  · exact .inl (List.mem_singleton.1 feed)
  · exact .inr (spaces _ c space)

theorem isGap_margin (depth : Nat) : ∀ c ∈ (margin depth).toList, isGap c = true := by
  intro c inside
  rcases mem_margin inside with rfl | rfl <;> rfl

theorem exists_margin (depth : Nat) : ∃ spaces, (margin depth).toList = '\n' :: spaces := by
  rw [margin, String.toList_append]
  exact ⟨_, rfl⟩

/-- Parts with margins in front of each and a closing line behind them. -/
def laidOut (gap last : List Char) (parts : List (List Char)) : List Char :=
  gap ++ (',' :: gap).intercalate parts ++ last

theorem toList_writtenParts (opening closing : String) (depth : Nat) {parts : List String}
    (some : parts ≠ []) :
    (writtenParts opening closing depth parts).toList =
      opening.toList ++ (laidOut (margin (depth + 1)).toList (margin depth).toList
        (parts.map String.toList) ++ closing.toList) := by
  have comma : ("," ++ margin (depth + 1)).toList = ',' :: (margin (depth + 1)).toList := by
    rw [String.toList_append]
    rfl
  have full : ¬ parts.isEmpty = true := by simpa using some
  rw [writtenParts, if_neg full]
  simp only [String.toList_append, String.toList_intercalate, comma, laidOut, List.append_assoc]

theorem toList_writtenParts_nil (opening closing : String) (depth : Nat) :
    (writtenParts opening closing depth []).toList = opening.toList ++ closing.toList := by
  change (opening ++ closing).toList = _
  rw [String.toList_append]

theorem exists_writtenParts (opening closing : String) (depth : Nat) (parts : List String) :
    ∃ more, (writtenParts opening closing depth parts).toList = opening.toList ++ more := by
  unfold writtenParts
  split
  · exact ⟨_, String.toList_append⟩
  · simp only [String.toList_append, List.append_assoc]
    exact ⟨_, rfl⟩

theorem mem_intercalate {mark : List Char} {parts : List (List Char)} {c : Char}
    (inside : c ∈ mark.intercalate parts) : c ∈ mark ∨ ∃ part ∈ parts, c ∈ part := by
  induction parts with
  | nil => cases inside
  | cons first parts ih =>
    cases parts with
    | nil => exact .inr ⟨first, by simp, by simpa using inside⟩
    | cons second parts =>
      rw [List.intercalate_cons_cons, List.mem_append, List.mem_append] at inside
      rcases inside with (here | between) | later
      · exact .inr ⟨first, by simp, here⟩
      · exact .inl between
      · rcases ih later with between | ⟨part, member, within⟩
        · exact .inl between
        · exact .inr ⟨part, by simp [member], within⟩

theorem length_le_intercalate {mark part : List Char} {parts : List (List Char)}
    (inside : part ∈ parts) : part.length ≤ (mark.intercalate parts).length := by
  induction parts with
  | nil => cases inside
  | cons first parts ih =>
    cases parts with
    | nil =>
      obtain rfl := List.mem_singleton.1 inside
      simp [List.intercalate]
    | cons second parts =>
      rw [List.intercalate_cons_cons, List.length_append, List.length_append]
      rcases List.mem_cons.1 inside with rfl | later
      · omega
      · have := ih later
        omega

theorem length_le_writtenParts (opening closing : String) (depth : Nat) {part : List Char}
    {parts : List String} (inside : part ∈ parts.map String.toList) :
    part.length ≤ (writtenParts opening closing depth parts).toList.length := by
  have some : parts ≠ [] := by
    rintro rfl
    cases inside
  have within := @length_le_intercalate (',' :: (margin (depth + 1)).toList) _ _ inside
  rw [toList_writtenParts opening closing depth some, laidOut]
  simp only [List.length_append]
  omega

theorem count_le_intercalate {mark : List Char} (some : mark ≠ []) (parts : List (List Char)) :
    parts.length ≤ (mark.intercalate parts).length + 1 := by
  have size := List.length_pos_iff.2 some
  induction parts with
  | nil => simp
  | cons first parts ih =>
    cases parts with
    | nil => simp
    | cons second parts =>
      rw [List.intercalate_cons_cons, List.length_append, List.length_append, List.length_cons]
      omega

theorem head?_intercalate (mark : List Char) (c : Char) (chars : List Char)
    (parts : List (List Char)) (behind : List Char) :
    (mark.intercalate ((c :: chars) :: parts) ++ behind).head? = some c := by
  cases parts with
  | nil => simp
  | cons second parts => simp [List.intercalate_cons_cons]

theorem ended_comma (rest : List Char) : Ended (',' :: rest) := by
  intro c head
  cases head
  exact .inl rfl

/-- A part of a container: it is read up to what may follow a value, and begins with no blank. -/
structure Part (item : Scan Datum) (chars : List Char) (datum : Datum) : Prop where
  reads : ∀ {rest : List Char}, Ended rest → ∀ position, Gives item ⟨chars ++ rest, position⟩ datum rest
  begins : ∃ c more, chars = c :: more ∧ isGap c = false ∧ c ≠ ']' ∧ c ≠ '\ufeff'

theorem ended_last {last : List Char} (feed : ∃ spaces, last = '\n' :: spaces) (rest : List Char) :
    Ended (last ++ rest) := by
  obtain ⟨spaces, rfl⟩ := feed
  intro c head
  cases head
  exact .inr rfl

/-- A field in a document. -/
def fieldChars (write : Datum → List Char) (field : String × Datum) : List Char :=
  (writtenText field.1).toList ++ ':' :: ' ' :: write field.2

section
variable {item : Scan Datum} {gap last : List Char} (blank : ∀ c ∈ gap, isGap c = true)
  (blankLast : ∀ c ∈ last, isGap c = true) (feed : ∃ spaces, last = '\n' :: spaces)
include blank blankLast feed

/-- The items of a list are read up to the bracket that closes it. -/
theorem gives_listItems {write : Datum → List Char} {items : List Datum} {fuel : Nat}
    (some : items ≠ []) (size : items.length ≤ fuel)
    (parts : ∀ datum ∈ items, Part item (write datum) datum) (rest : List Char) (position : Nat) :
    Gives (listItems item fuel)
      ⟨(',' :: gap).intercalate (items.map write) ++ (last ++ ']' :: rest), position⟩ items rest := by
  induction items generalizing fuel position with
  | nil => exact absurd rfl some
  | cons first items ih =>
    obtain ⟨fuel, rfl⟩ := Nat.exists_eq_succ_of_ne_zero (Nat.ne_zero_of_lt size)
    obtain ⟨part, others⟩ := List.forall_mem_cons.1 parts
    rw [listItems]
    cases items with
    | nil =>
      have ended := ended_last feed (']' :: rest)
      rw [List.map_singleton, List.intercalate_singleton]
      refine (part.reads ended position).bind fun after => ?_
      refine (gives_skipGaps blankLast (by simp [isGap]) after).bind fun _ => ?_
      exact ⟨rfl, rfl⟩
    | cons second items =>
      have more := ih (List.cons_ne_nil second items) (Nat.le_of_succ_le_succ size) others
      obtain ⟨c, chars, begins, solid, _⟩ := (others second (by simp)).begins
      have solid : ∀ c ∈ ((',' :: gap).intercalate ((second :: items).map write) ++
          (last ++ ']' :: rest)).head?, ¬ isGap c = true := by
        rw [List.map_cons, begins, head?_intercalate]
        simp [solid]
      rw [List.map_cons, List.map_cons, List.intercalate_cons_cons, List.append_assoc,
        List.append_assoc, ← List.map_cons]
      refine (part.reads (ended_comma _) position).bind fun after => ?_
      refine (@gives_skipGaps [] _ (by simp) (by simp [isGap]) after).bind fun after => ?_
      change Gives (do skip 1; skipGaps; return first :: (← listItems item fuel)) ⟨_, after⟩ _ _
      refine (gives_skip [','] _ after).bind fun after => ?_
      refine (gives_skipGaps blank solid after).bind fun after => ?_
      exact (more after).bind fun _ => ⟨rfl, rfl⟩

omit blank blankLast feed in
/-- A field is read up to what may follow its value. -/
theorem gives_field {write : Datum → List Char} {size : Nat} {field : String × Datum}
    (long : field.1.length < size) (part : Part item (write field.2) field.2) {rest : List Char}
    (ended : Ended rest) {result : Fields} {behind : List Char} {next : Spelling → Datum → Scan Fields}
    (goesOn : ∀ position, Gives (next field.1 field.2) ⟨rest, position⟩ result behind) (position : Nat) :
    Gives (do
      let key ← quotedText size
      skipGaps
      let colon ← get
      if colon.rest.head? ≠ some ':' then fail "Expecting ':' delimiter" colon.position
      else
        skip 1
        skipGaps
        let value ← item
        next key value) ⟨fieldChars write field ++ rest, position⟩ result behind := by
  obtain ⟨c, chars, begins, solid, _⟩ := part.begins
  have value : ∀ d ∈ (write field.2 ++ rest).head?, ¬ isGap d = true := by
    simp [begins, solid]
  rw [fieldChars, List.append_assoc]
  refine (gives_quotedText field.1 long _ position).bind fun after => ?_
  refine (@gives_skipGaps [] _ (by simp) (by simp [isGap]) after).bind fun after => ?_
  change Gives (do skip 1; skipGaps; let value ← item; next field.1 value) ⟨_, after⟩ _ _
  refine (gives_skip [':'] _ after).bind fun after => ?_
  refine (@gives_skipGaps [' '] _ (by simp [isGap]) value after).bind fun after => ?_
  exact (part.reads ended after).bind goesOn

/-- The fields of a record are read up to the brace that closes it. -/
theorem gives_recordFields {write : Datum → List Char} {fields : List (String × Datum)}
    {size fuel : Nat} (some : fields ≠ []) (many : fields.length ≤ fuel)
    (long : ∀ field ∈ fields, field.1.length < size)
    (parts : ∀ field ∈ fields, Part item (write field.2) field.2) (before : Fields)
    (rest : List Char) (position : Nat) :
    Gives (recordFields item size fuel before)
      ⟨(',' :: gap).intercalate (fields.map (fieldChars write)) ++ (last ++ '}' :: rest), position⟩
      (fields.foldl (fun fields field => setField fields field.1 field.2) before) rest := by
  induction fields generalizing fuel before position with
  | nil => exact absurd rfl some
  | cons first fields ih =>
    obtain ⟨fuel, rfl⟩ := Nat.exists_eq_succ_of_ne_zero (Nat.ne_zero_of_lt many)
    obtain ⟨part, others⟩ := List.forall_mem_cons.1 parts
    obtain ⟨short, longs⟩ := List.forall_mem_cons.1 long
    have quote (more : List Char) : (fieldChars write first ++ more).head? = Option.some '"' := by
      rw [fieldChars, toList_writtenText]
      rfl
    rw [Gives, recordFields, ends_bind, ends_get]
    cases fields with
    | nil =>
      rw [List.map_singleton, List.intercalate_singleton]
      dsimp only
      rw [quote, if_neg (not_not.2 rfl)]
      refine gives_field short part (ended_last feed ('}' :: rest)) (fun after => ?_) position
      exact (gives_skipGaps blankLast (by simp [isGap]) after).bind fun _ => ⟨rfl, rfl⟩
    | cons second fields =>
      have more := ih (List.cons_ne_nil second fields) (Nat.le_of_succ_le_succ many) longs others
        (setField before first.1 first.2)
      have solid : ∀ c ∈ ((',' :: gap).intercalate ((second :: fields).map (fieldChars write)) ++
          (last ++ '}' :: rest)).head?, ¬ isGap c = true := by
        rw [List.map_cons, fieldChars, toList_writtenText, List.cons_append, head?_intercalate]
        simp [isGap]
      rw [List.map_cons, List.map_cons, List.intercalate_cons_cons, List.append_assoc,
        List.append_assoc, ← List.map_cons]
      dsimp only
      rw [quote, if_neg (not_not.2 rfl)]
      refine gives_field short part (ended_comma _) (fun after => ?_) position
      refine (@gives_skipGaps [] _ (by simp) (by simp [isGap]) after).bind fun after => ?_
      change Gives (do skip 1; skipGaps; recordFields item size fuel (setField before first.1 first.2))
        ⟨_, after⟩ _ _
      refine (gives_skip [','] _ after).bind fun after => ?_
      exact (gives_skipGaps blank solid after).bind more

end

theorem setField_of_new {fields : Fields} {key : Spelling} (new : ∀ field ∈ fields, field.1 ≠ key)
    (value : Datum) : setField fields key value = fields ++ [(key, value)] := by
  induction fields with
  | nil => rfl
  | cons field fields ih =>
    obtain ⟨other, others⟩ := List.forall_mem_cons.1 new
    rw [setField, if_neg other, ih others]
    rfl

/-- Fields with keys of their own stay as they are. -/
theorem foldl_setField {fields : List (String × Datum)} (distinct : (fields.map Prod.fst).Nodup)
    {before : Fields} (new : ∀ field ∈ fields, ∀ old ∈ before, old.1 ≠ .whole field.1) :
    fields.foldl (fun fields field => setField fields field.1 field.2) before =
      before ++ fields.map fun field => (.whole field.1, field.2) := by
  induction fields generalizing before with
  | nil => simp
  | cons field fields ih =>
    obtain ⟨first, others⟩ := List.forall_mem_cons.1 new
    obtain ⟨alone, rest⟩ := List.nodup_cons.1 distinct
    rw [List.foldl_cons, setField_of_new first, ih rest, List.map_cons, List.append_assoc,
      List.singleton_append]
    intro later inside old earlier
    rcases List.mem_append.1 earlier with before | same
    · exact others later inside old before
    · obtain rfl := List.mem_singleton.1 same
      intro equal
      exact alone (List.mem_map.2 ⟨later, inside, (Spelling.whole.inj equal).symm⟩)

theorem writtenItems_eq_map (depth : Nat) (items : List Datum) :
    writtenItems depth items = items.map (writtenAt depth) := by
  induction items with
  | nil => rfl
  | cons item items ih => rw [writtenItems, ih, List.map_cons]

theorem map_writtenFields (depth : Nat) (fields : List (String × Datum)) :
    (writtenFields depth (fields.map fun field => (.whole field.1, field.2))).map String.toList =
      fields.map (fieldChars fun value => (value.writtenAt depth).toList) := by
  induction fields with
  | nil => rfl
  | cons field fields ih =>
    rw [List.map_cons, writtenFields, List.map_cons, ih, List.map_cons, String.toList_append,
      String.toList_append, fieldChars, List.append_assoc]
    rfl

theorem length_le_writtenText (value : String) : value.length < (writtenText value).toList.length := by
  have each (chars : List Char) : chars.length ≤ (chars.flatMap writtenChar).length := by
    induction chars with
    | nil => simp
    | cons c chars ih =>
      have some : 0 < (writtenChar c).length := by
        unfold writtenChar
        split <;> try simp
        split <;> simp
      rw [List.flatMap_cons, List.length_append, List.length_cons]
      omega
  have sized := each value.toList
  rw [String.length_toList] at sized
  rw [toList_writtenText, List.length_cons, List.length_append]
  omega

namespace Portable

/-- What a datum is written with begins with no blank and no closing bracket. -/
theorem begins {datum : Datum} (portable : datum.Portable) (depth : Nat) :
    ∃ c more, (datum.writtenAt depth).toList = c :: more ∧ isGap c = false ∧ c ≠ ']' ∧
      c ≠ '\ufeff' := by
  cases portable with
  | text value =>
    rw [writtenAt, toList_writtenText]
    exact ⟨_, _, rfl, rfl, by decide, by decide⟩
  | number x =>
    obtain ⟨c, more, written, numeric⟩ := exists_numeric x
    exact ⟨c, more, written, by simpa using not_isGap_of_isNumeric numeric,
      isNumeric_ne numeric rfl, isNumeric_ne numeric rfl⟩
  | list each =>
    obtain ⟨more, written⟩ := exists_writtenParts "[" "]" depth (writtenItems (depth + 1) _)
    exact ⟨'[', more, written, rfl, by decide, by decide⟩
  | record distinct each =>
    obtain ⟨more, written⟩ := exists_writtenParts "\x7b" "\x7d" depth (writtenFields (depth + 1) _)
    exact ⟨'\x7b', more, written, rfl, by decide, by decide⟩

theorem gives_list {items : List Datum} {fuel depth indent : Nat}
    (parts : ∀ item ∈ items, Part (value fuel depth) (item.writtenAt (indent + 1)).toList item)
    (size : ((Datum.list items).writtenAt indent).toList.length < fuel) (rest : List Char)
    (position : Nat) :
    Gives (listValue (value fuel depth) fuel)
      ⟨((Datum.list items).writtenAt indent).toList ++ rest, position⟩ (.list items) rest := by
  cases items with
  | nil =>
    have empty : ((Datum.list []).writtenAt indent).toList = ['[', ']'] := by
      rw [writtenAt, writtenItems, toList_writtenParts_nil]
      rfl
    rw [empty]
    exact ⟨rfl, rfl⟩
  | cons first items =>
    have shown : (writtenItems (indent + 1) (first :: items)).map String.toList =
        (first :: items).map fun item => (item.writtenAt (indent + 1)).toList := by
      rw [writtenItems_eq_map, List.map_map]
      rfl
    have some : writtenItems (indent + 1) (first :: items) ≠ [] := by simp [writtenItems]
    have many := @count_le_intercalate (',' :: (margin (indent + 1)).toList) (by simp)
      ((first :: items).map fun item => (item.writtenAt (indent + 1)).toList)
    rw [writtenAt, toList_writtenParts _ _ _ some, shown, laidOut] at size ⊢
    simp only [List.length_append, List.length_map] at size many
    obtain ⟨c, more, begins, solid, unclosed, _⟩ := (parts first (by simp)).begins
    have enough : (first :: items).length ≤ fuel := by omega
    have inner := gives_listItems (isGap_margin (indent + 1)) (isGap_margin indent)
      (exists_margin indent) (List.cons_ne_nil first items) enough parts rest
    have head (behind : List Char) : ((',' :: (margin (indent + 1)).toList).intercalate
        ((first :: items).map fun item => (item.writtenAt (indent + 1)).toList) ++ behind).head? =
          Option.some c := by
      rw [List.map_cons, begins, head?_intercalate]
    simp only [List.append_assoc]
    refine (gives_skip ['['] _ position).bind fun after => ?_
    refine (gives_skipGaps (isGap_margin (indent + 1)) (by rw [head]; simp [solid]) after).bind fun after => ?_
    rw [Gives, ends_bind, ends_get]
    dsimp only
    rw [head, if_neg (by simpa using unclosed)]
    exact (inner after).bind fun _ => ⟨rfl, rfl⟩

theorem gives_record {fields : List (String × Datum)} (distinct : (fields.map Prod.fst).Nodup)
    {fuel depth indent : Nat}
    (parts : ∀ field ∈ fields, Part (value fuel depth) (field.2.writtenAt (indent + 1)).toList field.2)
    (size : ((Datum.record (fields.map fun field => (.whole field.1, field.2))).writtenAt
      indent).toList.length < fuel) (rest : List Char) (position : Nat) :
    Gives (recordValue (value fuel depth) fuel)
      ⟨((Datum.record (fields.map fun field => (.whole field.1, field.2))).writtenAt indent).toList ++
        rest, position⟩ (.record (fields.map fun field => (.whole field.1, field.2))) rest := by
  cases fields with
  | nil =>
    have empty : ((Datum.record []).writtenAt indent).toList = ['\x7b', '\x7d'] := by
      rw [writtenAt, writtenFields, toList_writtenParts_nil]
      rfl
    rw [List.map_nil, empty]
    exact ⟨rfl, rfl⟩
  | cons first fields =>
    have shown := map_writtenFields (indent + 1) (first :: fields)
    have some : writtenFields (indent + 1) ((first :: fields).map fun field => (.whole field.1, field.2)) ≠
        [] := by simp [writtenFields]
    have whole := @foldl_setField (first :: fields) distinct [] (by simp)
    have many := @count_le_intercalate (',' :: (margin (indent + 1)).toList) (by simp)
      ((first :: fields).map (fieldChars fun value => (value.writtenAt (indent + 1)).toList))
    rw [writtenAt, toList_writtenParts _ _ _ some, shown, laidOut] at size ⊢
    simp only [List.length_append, List.length_map] at size many
    have enough : (first :: fields).length ≤ fuel := by omega
    have long : ∀ field ∈ first :: fields, field.1.length < fuel := by
      intro field inside
      have text := length_le_writtenText field.1
      have listed : fieldChars (fun value => (value.writtenAt (indent + 1)).toList) field ∈
          (first :: fields).map (fieldChars fun value => (value.writtenAt (indent + 1)).toList) :=
        List.mem_map.2 ⟨field, inside, rfl⟩
      have part := @length_le_intercalate (',' :: (margin (indent + 1)).toList) _ _ listed
      rw [fieldChars, List.length_append] at part
      omega
    have inner := @gives_recordFields (value fuel depth) _ _ (isGap_margin (indent + 1))
      (isGap_margin indent) (exists_margin indent) (fun value => (value.writtenAt (indent + 1)).toList)
      _ _ _ (List.cons_ne_nil first fields) enough long parts [] rest
    have head (behind : List Char) : ((',' :: (margin (indent + 1)).toList).intercalate
        ((first :: fields).map (fieldChars fun value => (value.writtenAt (indent + 1)).toList)) ++
          behind).head? = Option.some '"' := by
      rw [List.map_cons, fieldChars, toList_writtenText, List.cons_append, head?_intercalate]
    simp only [List.append_assoc]
    refine (gives_skip ['\x7b'] _ position).bind fun after => ?_
    refine (gives_skipGaps (isGap_margin (indent + 1)) (by rw [head]; simp [isGap]) after).bind fun after => ?_
    rw [Gives, ends_bind, ends_get]
    dsimp only
    rw [head, if_neg (by simp)]
    rw [whole, List.nil_append] at inner
    exact (inner after).bind fun _ => ⟨rfl, rfl⟩

/-- A datum is read as it was written, by a reader that goes as deep as its containers are nested. -/
theorem gives {datum : Datum} (portable : datum.Portable) {depth fuel : Nat}
    (room : datum.levels ≤ depth) {indent : Nat}
    (size : (datum.writtenAt indent).toList.length < fuel) {rest : List Char} (ended : Ended rest)
    (position : Nat) :
    Gives (value fuel depth) ⟨(datum.writtenAt indent).toList ++ rest, position⟩ datum rest := by
  induction portable generalizing depth indent rest position with
  | text value =>
    obtain ⟨depth, rfl⟩ := Nat.exists_eq_succ_of_ne_zero (Nat.ne_zero_of_lt ((levels_pos _).trans_le room))
    rw [writtenAt] at size ⊢
    have long := length_le_writtenText value
    have text := gives_quotedText value (long.trans size) rest position
    rw [toList_writtenText] at text ⊢
    exact text.bind fun _ => ⟨rfl, rfl⟩
  | number x =>
    obtain ⟨depth, rfl⟩ := Nat.exists_eq_succ_of_ne_zero (Nat.ne_zero_of_lt ((levels_pos _).trans_le room))
    rw [writtenAt]
    exact gives_number x _ fuel ended position
  | @list items each ih =>
    obtain ⟨depth, rfl⟩ := Nat.exists_eq_succ_of_ne_zero (Nat.ne_zero_of_lt ((levels_pos _).trans_le room))
    have parts : ∀ item ∈ items, Part (value fuel depth) (item.writtenAt (indent + 1)).toList item := by
      intro item inside
      have lower : item.levels ≤ depth := (levels_le_of_mem inside).trans (Nat.le_of_succ_le_succ room)
      have shorter : (item.writtenAt (indent + 1)).toList.length < fuel := by
        have listed : (item.writtenAt (indent + 1)).toList ∈
            (writtenItems (indent + 1) items).map String.toList := by
          rw [writtenItems_eq_map, List.map_map]
          exact List.mem_map.2 ⟨item, inside, rfl⟩
        rw [writtenAt] at size
        exact (length_le_writtenParts "[" "]" indent listed).trans_lt size
      exact ⟨fun ended position => ih item inside lower shorter ended position,
        (each item inside).begins (indent + 1)⟩
    have inner := gives_list parts size rest position
    obtain ⟨more, written⟩ := exists_writtenParts "[" "]" indent (writtenItems (indent + 1) items)
    rw [writtenAt, written] at inner ⊢
    exact inner
  | @record fields distinct each ih =>
    obtain ⟨depth, rfl⟩ := Nat.exists_eq_succ_of_ne_zero (Nat.ne_zero_of_lt ((levels_pos _).trans_le room))
    have parts : ∀ field ∈ fields,
        Part (value fuel depth) (field.2.writtenAt (indent + 1)).toList field.2 := by
      intro field inside
      have lower : field.2.levels ≤ depth :=
        (levels_le_of_field inside).trans (Nat.le_of_succ_le_succ room)
      have shorter : (field.2.writtenAt (indent + 1)).toList.length < fuel := by
        have listed : fieldChars (fun value => (value.writtenAt (indent + 1)).toList) field ∈
            (writtenFields (indent + 1) (fields.map fun field => (.whole field.1, field.2))).map
              String.toList := by
          rw [map_writtenFields]
          exact List.mem_map.2 ⟨field, inside, rfl⟩
        have part := length_le_writtenParts "\x7b" "\x7d" indent listed
        rw [writtenAt] at size
        rw [fieldChars, List.length_append, List.length_cons, List.length_cons] at part
        omega
      exact ⟨fun ended position => ih field inside lower shorter ended position,
        (each field inside).begins (indent + 1)⟩
    have inner := gives_record distinct parts size rest position
    obtain ⟨more, written⟩ := exists_writtenParts "\x7b" "\x7d" indent
      (writtenFields (indent + 1) (fields.map fun field => (.whole field.1, field.2)))
    rw [writtenAt, written] at inner ⊢
    exact inner

/-- The document of a datum has the datum in it. -/
theorem read_write {datum : Datum} (portable : datum.Portable) {depth : Nat}
    (room : datum.levels ≤ depth) : read depth datum.write = .ok datum := by
  obtain ⟨c, more, begins, solid, _, noMark⟩ := portable.begins 0
  have unmarked : ¬ datum.write.startsWith "\ufeff" = true := by
    rw [String.startsWith_string_iff, write, begins]
    rintro ⟨rest, same⟩
    exact noMark (List.cons.inj same).1.symm
  have whole : Gives (document depth) ⟨datum.write.toList, 0⟩ datum [] := by
    have inner := @gives datum portable depth (datum.write.toList.length + 1) room 0
      (Nat.lt_succ_self _) [] (by simp [Ended])
    rw [Gives, document, ends_bind, ends_get]
    have start := @gives_skipGaps [] datum.write.toList (by simp) (by rw [write, begins]; simp [solid]) 0
    refine start.bind fun after => ?_
    rw [List.append_nil] at inner
    refine (inner after).bind fun after => ?_
    exact (@gives_skipGaps [] [] (by simp) (by simp) after).bind fun _ => ⟨rfl, rfl⟩
  obtain ⟨position, ended⟩ := whole.eq_ok
  rw [read, if_neg unmarked, ended]

theorem return_not_mem_writtenText (value : String) : '\r' ∉ (writtenText value).toList := by
  have control : ∀ code < 0x20, '\r' ∉ Text.hexDigits 4 code := by decide
  have each (c : Char) : '\r' ∉ writtenChar c := by
    unfold writtenChar
    split
    all_goals try decide
    split
    · rename_i small
      simpa using control _ small
    · intro inside
      obtain rfl := List.mem_singleton.1 inside
      contradiction
  rw [toList_writtenText]
  simp [each]

theorem not_mem_writtenParts {opening closing : String} {depth : Nat} {parts : List String}
    (first : '\r' ∉ opening.toList) (last : '\r' ∉ closing.toList)
    (each : ∀ part ∈ parts.map String.toList, '\r' ∉ part) :
    '\r' ∉ (writtenParts opening closing depth parts).toList := by
  have margins (depth : Nat) : '\r' ∉ (margin depth).toList := by
    intro inside
    rcases mem_margin inside with same | same <;> cases same
  by_cases some : parts = []
  · rw [some, toList_writtenParts_nil, List.mem_append]
    exact not_or.2 ⟨first, last⟩
  · rw [toList_writtenParts opening closing depth some, laidOut]
    simp only [List.mem_append, not_or]
    refine ⟨first, ⟨⟨margins _, fun inside => ?_⟩, margins _⟩, last⟩
    rcases mem_intercalate inside with comma | ⟨part, member, within⟩
    · rcases List.mem_cons.1 comma with same | inside
      · cases same
      · exact margins _ inside
    · exact each part member within

/-- A document has no carriage return in it. -/
theorem return_not_mem {datum : Datum} (portable : datum.Portable) (indent : Nat) :
    '\r' ∉ (datum.writtenAt indent).toList := by
  induction portable generalizing indent with
  | text value =>
    rw [writtenAt]
    exact return_not_mem_writtenText value
  | number x =>
    rw [writtenAt]
    intro inside
    exact absurd (isNumeric_written x _ inside) (by decide)
  | list each ih =>
    rw [writtenAt]
    refine not_mem_writtenParts (by decide) (by decide) fun part inside => ?_
    rw [writtenItems_eq_map, List.map_map] at inside
    obtain ⟨item, member, rfl⟩ := List.mem_map.1 inside
    exact ih item member (indent + 1)
  | record distinct each ih =>
    rw [writtenAt]
    refine not_mem_writtenParts (by decide) (by decide) fun part inside => ?_
    rw [map_writtenFields] at inside
    obtain ⟨field, member, rfl⟩ := List.mem_map.1 inside
    simp [fieldChars, return_not_mem_writtenText, ih field member (indent + 1)]

end Portable

end Reckoner.Datum
