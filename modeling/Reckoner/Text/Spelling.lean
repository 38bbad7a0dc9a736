import Reckoner.Text.Lines
import Reckoner.Text.Quoted

/-!
Spellings: texts as documents and callers hand them over. They can hold half of a surrogate pair,
which is no character; a text with such a half is kept by its code points, every other text is a
string. So a spelling and its code points determine each other.
-/
namespace Reckoner

/-- A text that may hold halves of surrogate pairs. -/
inductive Spelling where
  | whole (text : String)
  /-- A text with half of a surrogate pair in it, by its code points. -/
  | broken (codes : List Nat) (half : ¬ ∀ code ∈ codes, code.isValidChar)
  deriving DecidableEq, Repr

instance : Inhabited Spelling := ⟨.whole ""⟩

instance : Coe String Spelling := ⟨.whole⟩

namespace Spelling

/-- The spelling of code points. -/
def ofCodes (codes : List Nat) : Spelling :=
  if valid : ∀ code ∈ codes, code.isValidChar then whole (String.ofList (codes.map Char.ofNat))
  else broken codes valid

/-- The code points of a spelling. -/
def codes : Spelling → List Nat
  | whole text => text.toList.map Char.toNat
  | broken codes _ => codes

/-- The character of a code point, and a replacement for half of a surrogate pair. -/
def scalar (code : Nat) : Char := if code.isValidChar then Char.ofNat code else '\ufffd'

/-- A spelling as a string, with a replacement for every half. -/
def plain : Spelling → String
  | whole text => text
  | broken codes _ => String.ofList (codes.map scalar)

/-- The first code point of a spelling that `plain` reads as a character. -/
def standing (spelling : Spelling) (character : Char) : Nat :=
  (spelling.codes.find? fun code => scalar code = character).getD character.toNat

/-- A spelling in quotes. -/
def quoted : Spelling → String
  | whole text => Text.quoted text
  | broken codes _ => Text.quotedCodes codes

/-- A spelling without its first `count` code points. -/
def drop (spelling : Spelling) (count : Nat) : Spelling := ofCodes (spelling.codes.drop count)

/-- Two spellings in one. -/
def append (a b : Spelling) : Spelling :=
  match a, b with
  | whole x, whole y => whole (x ++ y)
  | a, b => ofCodes (a.codes ++ b.codes)

instance : Append Spelling := ⟨append⟩

/-- Spellings in one, with a mark between them. -/
def joined (mark : Char) (spellings : List Spelling) : Spelling :=
  ofCodes ([mark.toNat].intercalate (spellings.map codes))

/-- The pieces of a spelling between the marks in it. -/
def split (mark : Char) (spelling : Spelling) : List Spelling :=
  (Text.split mark.toNat spelling.codes).map ofCodes

@[simp] theorem codes_ofCodes (list : List Nat) : (ofCodes list).codes = list := by
  unfold ofCodes
  split
  · rename_i valid
    simp only [codes, String.toList_ofList, List.map_map]
    conv => rhs; rw [← List.map_id list]
    refine List.map_congr_left fun code inside => ?_
    rw [Function.comp_apply, Char.ofNat, dif_pos (valid code inside)]
    rfl
  · rfl

@[simp] theorem ofCodes_codes (spelling : Spelling) : ofCodes spelling.codes = spelling := by
  cases spelling with
  | whole text =>
    have valid : ∀ code ∈ text.toList.map Char.toNat, code.isValidChar := by
      intro code inside
      obtain ⟨c, _, rfl⟩ := List.mem_map.1 inside
      exact c.valid
    rw [ofCodes, codes, dif_pos valid]
    simp [Function.comp_def]
  | broken list half => exact dif_neg half

end Spelling

end Reckoner
