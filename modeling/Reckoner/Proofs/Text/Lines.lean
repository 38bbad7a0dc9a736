import Reckoner.Log
import Reckoner.Proofs.Command.Paths

/-!
Texts made of lines. Where no line end is inside a line, the lines that a text is written of are those
that are read from it.
-/
namespace Reckoner

namespace Text

theorem unifyLines_of_not_mem {chars : List Char} (none : '\r' ∉ chars) : unifyLines chars = chars := by
  induction chars with
  | nil => rfl
  | cons c chars ih =>
    obtain ⟨other, others⟩ := not_or.1 (mt List.mem_cons.2 none)
    rw [unifyLines, if_neg (Ne.symm other), ih others]
    intro rest same
    exact absurd same.symm other

/-- A mark behind a piece ends it. -/
theorem split_append_mark {α : Type} [DecidableEq α] {mark : α} {piece : List α} (none : mark ∉ piece)
    (rest : List α) : split mark (piece ++ mark :: rest) = piece :: split mark rest := by
  induction piece with
  | nil => exact split_mark
  | cons c piece ih =>
    obtain ⟨other, others⟩ := not_or.1 (mt List.mem_cons.2 none)
    rw [List.cons_append, split, if_neg (Ne.symm other), ih others]

theorem split_lines {lines : List (List Char)} (none : ∀ line ∈ lines, '\n' ∉ line) :
    split '\n' (lines.flatMap (· ++ ['\n'])) = lines ++ [[]] := by
  induction lines with
  | nil => rfl
  | cons line lines ih =>
    obtain ⟨first, others⟩ := List.forall_mem_cons.1 none
    rw [List.flatMap_cons, List.append_assoc, List.singleton_append, split_append_mark first, ih others,
      List.cons_append]

end Text

/-- A log of entries without line ends is read line by line. -/
theorem Log.lines_of_plain {log : Log}
    (plain : ∀ entry ∈ log, '\n' ∉ entry.text.toList ∧ '\r' ∉ entry.text.toList) :
    log.lines = log.map Entry.text := by
  have written : log.write.toList = (log.map (·.text.toList)).flatMap (· ++ ['\n']) := by
    simp [write, String.toList_join, List.flatMap_map]
  have noReturn : '\r' ∉ log.write.toList := by
    rw [written]
    simp only [List.mem_flatMap, List.mem_map, List.mem_append, List.mem_singleton]
    rintro ⟨_, ⟨entry, inside, rfl⟩, among | other⟩
    · exact (plain entry inside).2 among
    · cases other
  have noFeed : ∀ line ∈ log.map (·.text.toList), '\n' ∉ line := by
    intro line inside
    obtain ⟨entry, among, rfl⟩ := List.mem_map.1 inside
    exact (plain entry among).1
  rw [lines, Text.unifyLines_of_not_mem noReturn, Text.linesOf, String.toList_ofList, written,
    Text.split_lines noFeed]
  simp

end Reckoner
