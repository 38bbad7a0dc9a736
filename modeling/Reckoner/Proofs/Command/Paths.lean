import Reckoner.Command.Path
import Reckoner.Proofs.Text.Spellings

/-!
Paths whose texts are made longer. An ending behind a text that ends with a name becomes part of that
name.
-/
namespace Reckoner

namespace Text
variable {α : Type} [DecidableEq α] {mark c : α} {rest list : List α}

theorem split_mark : split mark (mark :: rest) = [] :: split mark rest := by
  rw [split, if_pos rfl]

theorem split_ne_nil (mark : α) (list : List α) : split mark list ≠ [] := by
  cases list with
  | nil => simp [split]
  | cons c rest =>
    rw [split]
    split
    · simp
    · split <;> simp

theorem split_other (other : c ≠ mark) (rest : List α) : ∃ first more,
    split mark rest = first :: more ∧ split mark (c :: rest) = (c :: first) :: more := by
  obtain ⟨first, more, pieces⟩ := List.exists_cons_of_ne_nil (split_ne_nil mark rest)
  exact ⟨first, more, pieces, by rw [split, if_neg other, pieces]⟩

theorem split_of_not_mem (none : mark ∉ list) : split mark list = [list] := by
  induction list with
  | nil => rfl
  | cons c rest ih =>
    obtain ⟨other, others⟩ := not_or.1 (mt List.mem_cons.2 none)
    rw [split, if_neg (Ne.symm other), ih others]

/-- An ending without marks belongs to the last piece. -/
theorem split_append {ending last : List α} {pieces : List (List α)} (none : mark ∉ ending)
    (before : split mark list = pieces ++ [last]) :
    split mark (list ++ ending) = pieces ++ [last ++ ending] := by
  induction list generalizing pieces last with
  | nil =>
    obtain ⟨rfl, rfl⟩ : pieces = [] ∧ last = [] := by
      cases pieces <;> simp_all [split]
    exact split_of_not_mem none
  | cons c rest ih =>
    rw [List.cons_append]
    by_cases here : c = mark
    · subst here
      rw [split_mark] at before ⊢
      cases pieces with
      | nil => simp [split_ne_nil] at before
      | cons piece pieces =>
        obtain ⟨rfl, later⟩ := List.cons.inj before
        rw [ih later]
        rfl
    · obtain ⟨first, more, whole, parts⟩ := split_other here rest
      obtain ⟨longer, others, grown, result⟩ := split_other here (rest ++ ending)
      rw [parts] at before
      rw [result]
      cases pieces with
      | nil =>
        obtain ⟨rfl, rfl⟩ := List.cons.inj before
        have same : longer :: others = [first ++ ending] :=
          grown.symm.trans (@ih first [] whole)
        obtain ⟨rfl, rfl⟩ := List.cons.inj same
        rfl
      | cons piece pieces =>
        obtain ⟨rfl, rfl⟩ := List.cons.inj before
        have same : longer :: others = first :: (pieces ++ [last ++ ending]) :=
          grown.symm.trans (@ih last (first :: pieces) whole)
        obtain ⟨rfl, rfl⟩ := List.cons.inj same
        rfl

theorem mem_of_mem_split {piece : List α} (inside : piece ∈ split mark list) {x : α}
    (member : x ∈ piece) : x ∈ list ∧ x ≠ mark := by
  induction list generalizing piece with
  | nil =>
    rw [split, List.mem_singleton] at inside
    simp [inside] at member
  | cons c rest ih =>
    by_cases here : c = mark
    · subst here
      rw [split_mark] at inside
      rcases List.mem_cons.1 inside with rfl | later
      · cases member
      · obtain ⟨within, other⟩ := ih later member
        exact ⟨List.mem_cons_of_mem _ within, other⟩
    · obtain ⟨first, more, whole, parts⟩ := split_other here rest
      rw [parts] at inside
      rw [whole] at ih
      rcases List.mem_cons.1 inside with rfl | later
      · rcases List.mem_cons.1 member with rfl | within
        · exact ⟨List.mem_cons_self, here⟩
        · obtain ⟨held, other⟩ := ih List.mem_cons_self within
          exact ⟨List.mem_cons_of_mem _ held, other⟩
      · obtain ⟨held, other⟩ := ih (List.mem_cons_of_mem _ later) member
        exact ⟨List.mem_cons_of_mem _ held, other⟩

end Text

namespace Path

/-- A text of a path ends with a name, neither with a slash nor with the name `.`. -/
def Named (text : Spelling) : Prop :=
  ∃ (pieces : List Spelling) (name : Spelling),
    text.split '/' = pieces ++ [name] ∧ name ≠ "" ∧ name ≠ "."

theorem rootOf_append {chars : List Char} (some : ∃ c ∈ chars, c ≠ '/') (more : List Char) :
    rootOf (chars ++ more) = rootOf chars := by
  obtain ⟨c, inside, other⟩ := some
  match chars with
  | [] => cases inside
  | [first] =>
    have : first ≠ '/' := by simp_all
    simp [rootOf, this]
  | [first, second] =>
    by_cases a : first = '/' <;> by_cases b : second = '/' <;> simp_all [rootOf]
  | first :: second :: third :: rest =>
    by_cases a : first = '/' <;> by_cases b : second = '/' <;> by_cases d : third = '/' <;>
      simp [rootOf, a, b, d]

theorem Named.exists_other {text : Spelling} (named : Named text) : ∃ c ∈ text.plain.toList, c ≠ '/' := by
  obtain ⟨pieces, name, whole, some, _⟩ := named
  have piece : name.codes ∈ Text.split '/'.toNat text.codes := by
    have inside : name ∈ text.split '/' := by simp [whole]
    obtain ⟨piece, member, rfl⟩ := List.mem_map.1 inside
    rwa [Spelling.codes_ofCodes]
  have filled : name.codes ≠ [] := by
    intro none
    exact some (Spelling.codes_inj none)
  obtain ⟨code, rest, codes⟩ := List.exists_cons_of_ne_nil filled
  obtain ⟨inside, other⟩ := Text.mem_of_mem_split piece (codes ▸ List.mem_cons_self)
  refine ⟨Spelling.scalar code, ?_, ?_⟩
  · rw [Spelling.plain_eq, String.toList_ofList]
    exact List.mem_map_of_mem inside
  · intro slash
    unfold Spelling.scalar at slash
    split at slash
    · rename_i valid
      have same := congrArg Char.toNat slash
      rw [Char.ofNat, dif_pos valid] at same
      exact other same
    · cases slash

/-- An ending of a text becomes an ending of the last name. -/
theorem Named.ofText_append {text : Spelling} (named : Named text) {ending : String}
    (none : '/' ∉ ending.toList) (long : 1 < ending.length) :
    ofText (text ++ Spelling.whole ending) = (ofText text).extended ending := by
  have some := named.exists_other
  obtain ⟨pieces, name, whole, filled, other⟩ := named
  have grown : (text ++ Spelling.whole ending).split '/' = pieces ++ [name ++ Spelling.whole ending] := by
    obtain ⟨front, tail, codes, fronts, tails⟩ := List.map_eq_append_iff.1 whole
    obtain ⟨last, rfl, same⟩ := List.map_eq_singleton_iff.1 tails
    have free : '/'.toNat ∉ (Spelling.whole ending).codes := by
      intro inside
      obtain ⟨c, member, slash⟩ := List.mem_map.1 inside
      exact none (Char.toNat_inj.1 slash ▸ member)
    rw [Spelling.split, Spelling.codes_append, Text.split_append free codes, List.map_append, fronts,
      List.map_singleton, Spelling.ofCodes_append, same, Spelling.ofCodes_codes]
  have kept : ∀ short : List Char, short.length ≤ 1 → ¬ ending.toList <:+ short := by
    intro short few inside
    have size := inside.length_le
    rw [String.length_toList] at size
    omega
  have nonempty := name.append_ne (kept "".toList (by decide))
  have notDot := name.append_ne (kept ".".toList (by decide))
  simp only [ofText, extended, grown, whole, Spelling.toList_plain_append, rootOf_append some]
  simp [nonempty, notDot, filled, other]

end Path

end Reckoner
