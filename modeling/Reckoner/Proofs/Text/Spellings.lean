import Reckoner.Text.Spelling

/-!
Spellings by their code points. A spelling is read as a plain text with one character for every code
point, of which only the replacement stands for several.
-/
namespace Reckoner

namespace Spelling

@[simp] theorem codes_append (a b : Spelling) : (a ++ b).codes = a.codes ++ b.codes := by
  change (append a b).codes = _
  cases a with
  | whole x =>
    cases b with
    | whole y => simp [append, codes]
    | broken _ _ => exact codes_ofCodes _
  | broken _ _ => exact codes_ofCodes _

theorem codes_inj {a b : Spelling} (same : a.codes = b.codes) : a = b := by
  rw [← ofCodes_codes a, ← ofCodes_codes b, same]

theorem ofCodes_append (a b : List Nat) : ofCodes (a ++ b) = ofCodes a ++ ofCodes b :=
  codes_inj (by simp)

theorem append_ne (spelling : Spelling) {ending text : String}
    (other : ¬ ending.toList <:+ text.toList) : spelling ++ whole ending ≠ whole text := by
  intro same
  have codes := congrArg Spelling.codes same
  rw [codes_append] at codes
  obtain ⟨front, tail, parts, _, endings⟩ := List.map_eq_append_iff.1 codes.symm
  have whole : tail = ending.toList :=
    (List.map_inj_right fun _ _ => Char.toNat_inj.1).1 endings
  exact other ⟨front, by rw [parts, whole]⟩

theorem scalar_toNat (c : Char) : scalar c.toNat = c := by
  have valid : c.toNat.isValidChar := c.valid
  rw [scalar, if_pos valid, Char.ofNat_toNat]

theorem plain_eq (spelling : Spelling) : spelling.plain = String.ofList (spelling.codes.map scalar) := by
  cases spelling with
  | whole text => simp [plain, codes, Function.comp_def, scalar_toNat]
  | broken codes half => rfl

theorem toList_plain (spelling : Spelling) : spelling.plain.toList = spelling.codes.map scalar := by
  rw [plain_eq, String.toList_ofList]

theorem toList_plain_append (a b : Spelling) :
    (a ++ b).plain.toList = a.plain.toList ++ b.plain.toList := by
  simp [toList_plain]

/-- Only the replacement character is read from other code points than its own. -/
theorem eq_toNat_of_scalar {code : Nat} {c : Char} (reads : scalar code = c) (other : c ≠ '\ufffd') :
    code = c.toNat := by
  unfold scalar at reads
  split at reads
  · rename_i valid
    rw [← reads, Char.ofNat, dif_pos valid]
    rfl
  · exact absurd reads.symm other

/-- A character other than the replacement stands for itself. -/
theorem standing_of_ne (spelling : Spelling) {c : Char} (other : c ≠ '\ufffd') :
    spelling.standing c = c.toNat := by
  unfold standing
  cases found : spelling.codes.find? fun code => scalar code = c with
  | none => rfl
  | some code => exact eq_toNat_of_scalar (by simpa using List.find?_some found) other

@[simp] theorem standing_whole (text : String) (c : Char) : (whole text).standing c = c.toNat := by
  unfold standing
  cases found : (whole text).codes.find? fun code => scalar code = c with
  | none => rfl
  | some code =>
    obtain ⟨d, _, rfl⟩ := List.mem_map.1 (List.mem_of_find?_eq_some found)
    have reads : scalar d.toNat = c := by simpa using List.find?_some found
    rw [← reads, scalar_toNat]
    rfl

/-- A character of the plain text is read from the code point at its place. -/
theorem exists_code {spelling : Spelling} {front rest : List Char} {c : Char}
    (place : spelling.plain.toList = front ++ c :: rest) :
    ∃ code, spelling.codes[front.length]? = some code ∧ scalar code = c := by
  rw [toList_plain] at place
  obtain ⟨early, _, codes, rfl, behind⟩ := List.map_eq_append_iff.1 place
  obtain ⟨code, later, rfl, rfl, _⟩ := List.map_eq_cons_iff.1 behind
  exact ⟨code, by simp [codes], rfl⟩

/-- Where a character is read first, there stands what it stands for. -/
theorem standing_of_first {spelling : Spelling} {front rest : List Char} {c : Char}
    (place : spelling.plain.toList = front ++ c :: rest) (first : c ∉ front) :
    spelling.codes[front.length]? = some (spelling.standing c) := by
  rw [toList_plain] at place
  obtain ⟨early, _, codes, rfl, behind⟩ := List.map_eq_append_iff.1 place
  obtain ⟨code, later, rfl, rfl, _⟩ := List.map_eq_cons_iff.1 behind
  have none : early.find? (fun other => scalar other = scalar code) = none := by
    rw [List.find?_eq_none]
    intro other inside same
    exact first (List.mem_map.2 ⟨other, inside, by simpa using same⟩)
  rw [standing, codes, List.find?_append, none]
  simp

/-- Behind a spelling in which a character is not read, it stands for what it does by itself. -/
theorem standing_append_of_not_mem {a : Spelling} {c : Char} (absent : c ∉ a.plain.toList)
    (b : Spelling) : (a ++ b).standing c = b.standing c := by
  have none : a.codes.find? (fun code => scalar code = c) = none := by
    rw [List.find?_eq_none]
    intro code inside same
    rw [toList_plain] at absent
    exact absent (List.mem_map.2 ⟨code, inside, by simpa using same⟩)
  rw [standing, codes_append, List.find?_append, none]
  rfl

end Spelling

end Reckoner
