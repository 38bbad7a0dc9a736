import Reckoner.Datum.Reader
import Reckoner.Datum.Writer
import Reckoner.Proofs.Outcome

/-!
Texts in documents read back. Each character of a text is written in a way of its own, plain, behind
a backslash or by its code point, and a reader at that place gets the character back and stands
behind it.
-/
namespace Reckoner.Datum

namespace Scan
variable {α β : Type}

/-- A scan from a place gives a value and leaves what follows in the text. -/
def Gives (scan : Scan α) (place : Place) (value : α) (rest : List Char) : Prop :=
  Ends scan place (fun result after => result = value ∧ after.rest = rest) (fun _ _ => False)

/-- A scan goes on from where its first part stopped. -/
theorem Gives.bind {first : Scan α} {next : α → Scan β} {place : Place} {value : α} {result : β}
    {middle rest : List Char} (gives : Gives first place value middle)
    (goesOn : ∀ position, Gives (next value) ⟨middle, position⟩ result rest) :
    Gives (first >>= next) place result rest := by
  refine Ends.bind gives ?_ fun _ _ => False.elim
  rintro _ ⟨_, position⟩ ⟨rfl, rfl⟩
  exact goesOn position

theorem Gives.eq_ok {scan : Scan α} {place : Place} {value : α} {rest : List Char}
    (gives : Gives scan place value rest) : ∃ position, scan place = .ok value ⟨rest, position⟩ := by
  cases ended : scan place with
  | ok result after =>
    obtain ⟨rfl, rfl⟩ := Ends.of_ok gives ended
    exact ⟨after.position, rfl⟩
  | error fault after => exact (Ends.of_error gives ended).elim

theorem gives_skip (chars rest : List Char) (position : Nat) :
    Gives (skip chars.length) ⟨chars ++ rest, position⟩ () rest :=
  ⟨rfl, List.drop_left⟩

theorem gives_skipGaps {gap rest : List Char} (gaps : ∀ c ∈ gap, isGap c)
    (none : ∀ c ∈ rest.head?, ¬ isGap c) (position : Nat) :
    Gives skipGaps ⟨gap ++ rest, position⟩ () rest := by
  have taken : (gap ++ rest).takeWhile isGap = gap := by
    rw [List.takeWhile_append_of_pos gaps]
    cases rest with
    | nil => simp
    | cons c rest => simp [none c rfl]
  refine ⟨rfl, ?_⟩
  change (gap ++ rest).drop ((gap ++ rest).takeWhile isGap).length = rest
  rw [taken, List.drop_left]

end Scan

open Scan

/-- What the control characters are written as has their code. -/
theorem hexCode?_control : ∀ code < 0x20, hexCode? (Text.hexDigits 4 code) = some code := by decide

theorem length_hexDigits (width code : Nat) : (Text.hexDigits width code).length = width := by
  induction width generalizing code with
  | zero => rfl
  | succ width ih => rw [Text.hexDigits, List.length_append, ih, List.length_singleton]

/-- A code escape of a control character, with something behind it. -/
theorem codeEscape_control {code : Nat} (control : code < 0x20) (position : Nat) (c : Char)
    (rest : List Char) :
    codeEscape position (Text.hexDigits 4 code ++ c :: rest) = .ok (code, 4) := by
  have size := length_hexDigits 4 code
  have digits : (Text.hexDigits 4 code ++ c :: rest).take 4 = Text.hexDigits 4 code :=
    List.take_left' size
  have read : hexCode? (Text.hexDigits 4 code ++ c :: rest) = some code := by
    have same := hexCode?_control code control
    unfold hexCode? at same ⊢
    rw [digits]
    rwa [List.take_of_length_le (by omega)] at same
  have long : ¬ ((Text.hexDigits 4 code ++ c :: rest).take 5).length ≤ 4 := by
    rw [List.length_take, List.length_append, size, List.length_cons]
    omega
  unfold codeEscape
  rw [if_neg long, read]
  exact if_neg (by omega)

section
variable {start fuel : Nat} {tail rest : List Char} {codes : List Nat}
  (more : ∀ position, Gives (textBody start fuel) ⟨tail, position⟩ codes rest)
include more

theorem gives_shortEscape {mark c : Char} (short : shortEscape? mark = some c) (other : mark ≠ 'u')
    (position : Nat) :
    Gives (textBody start (fuel + 1)) ⟨'\\' :: mark :: tail, position⟩ (c.toNat :: codes) rest := by
  rw [Gives, textBody, ends_bind, ends_get]
  simp only [short]
  exact (gives_skip ['\\', mark] tail position).bind fun _ => (more _).bind fun _ => ⟨rfl, rfl⟩

theorem gives_codeEscape {c : Char} (control : c.toNat < 0x20) {next : Char} {behind : List Char}
    (same : tail = next :: behind) (position : Nat) :
    Gives (textBody start (fuel + 1))
      ⟨'\\' :: 'u' :: Text.hexDigits 4 c.toNat ++ tail, position⟩ (c.toNat :: codes) rest := by
  have size := length_hexDigits 4 c.toNat
  have taken : Gives (skip (2 + 4)) ⟨'\\' :: 'u' :: Text.hexDigits 4 c.toNat ++ tail, position⟩ ()
      tail := by
    have skipped := gives_skip ('\\' :: 'u' :: Text.hexDigits 4 c.toNat) tail position
    simpa [size] using skipped
  rw [Gives, textBody, ends_bind, ends_get]
  simp only [List.cons_append, same, codeEscape_control control]
  rw [same] at taken more
  exact taken.bind fun _ => (more _).bind fun _ => ⟨rfl, rfl⟩

theorem gives_plainChar {c : Char} (quote : c ≠ '"') (backslash : c ≠ '\\') (control : ¬ c.toNat < 0x20)
    (position : Nat) :
    Gives (textBody start (fuel + 1)) ⟨c :: tail, position⟩ (c.toNat :: codes) rest := by
  rw [Gives, textBody, ends_bind, ends_get]
  dsimp only
  split
  · rename_i empty
    cases empty
  · rename_i same
    exact absurd (List.cons.inj same).1 quote
  · rename_i same
    exact absurd (List.cons.inj same).1 backslash
  · rename_i same
    exact absurd (List.cons.inj same).1 backslash
  · rename_i same
    exact absurd (List.cons.inj same).1 backslash
  · rename_i same
    cases same
    rw [if_neg (by omega)]
    exact (gives_skip [c] tail position).bind fun _ => (more _).bind fun _ => ⟨rfl, rfl⟩

/-- A character of a text, with something behind it, is read as it was written. -/
theorem gives_writtenChar (c : Char) {next : Char} {behind : List Char} (same : tail = next :: behind)
    (position : Nat) :
    Gives (textBody start (fuel + 1)) ⟨writtenChar c ++ tail, position⟩ (c.toNat :: codes) rest := by
  unfold writtenChar
  split
  · exact gives_shortEscape more rfl (by decide) position
  · exact gives_shortEscape more rfl (by decide) position
  · exact gives_shortEscape more rfl (by decide) position
  · exact gives_shortEscape more rfl (by decide) position
  · exact gives_shortEscape more rfl (by decide) position
  · exact gives_shortEscape more rfl (by decide) position
  · exact gives_shortEscape more rfl (by decide) position
  · split
    · exact gives_codeEscape more ‹_› same position
    · exact gives_plainChar more ‹_› ‹_› ‹_› position

end

/-- The characters of a text up to its closing quote are read as they were written. -/
theorem gives_textBody (start : Nat) {chars : List Char} {fuel : Nat} (size : chars.length < fuel)
    (rest : List Char) (position : Nat) :
    Gives (textBody start fuel) ⟨chars.flatMap writtenChar ++ '"' :: rest, position⟩
      (chars.map Char.toNat) rest := by
  induction chars generalizing fuel position with
  | nil =>
    obtain ⟨fuel, rfl⟩ := Nat.exists_eq_succ_of_ne_zero (Nat.ne_zero_of_lt size)
    exact ⟨rfl, rfl⟩
  | cons c chars ih =>
    obtain ⟨fuel, rfl⟩ := Nat.exists_eq_succ_of_ne_zero (Nat.ne_zero_of_lt size)
    have more := ih (Nat.lt_of_succ_lt_succ size)
    have behind : ∃ next tail, chars.flatMap writtenChar ++ '"' :: rest = next :: tail := by
      cases shown : chars.flatMap writtenChar with
      | nil => exact ⟨_, _, rfl⟩
      | cons next tail => exact ⟨_, _, rfl⟩
    obtain ⟨next, tail, same⟩ := behind
    rw [List.flatMap_cons, List.append_assoc, List.map_cons]
    exact gives_writtenChar more c same position

theorem toList_writtenText (value : String) :
    (writtenText value).toList = '"' :: (value.toList.flatMap writtenChar ++ ['"']) := by
  rw [writtenText, String.toList_ofList]
  rfl

/-- A text is read as it was written. -/
theorem gives_quotedText (value : String) {fuel : Nat} (size : value.length < fuel)
    (rest : List Char) (position : Nat) :
    Gives (quotedText fuel) ⟨(writtenText value).toList ++ rest, position⟩ (.whole value) rest := by
  have body : ∀ after, Gives (textBody position fuel)
      ⟨value.toList.flatMap writtenChar ++ '"' :: rest, after⟩ (value.toList.map Char.toNat) rest :=
    gives_textBody position (by rwa [String.length_toList]) rest
  have spelled : Spelling.ofCodes (value.toList.map Char.toNat) = .whole value :=
    Spelling.ofCodes_codes (.whole value)
  rw [toList_writtenText, Gives, quotedText, ends_bind, ends_get, List.cons_append,
    List.append_assoc]
  refine (gives_skip ['"'] _ position).bind fun after => (body after).bind fun _ => ?_
  rw [spelled]
  exact ⟨rfl, rfl⟩

end Reckoner.Datum
