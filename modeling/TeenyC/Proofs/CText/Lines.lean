import TeenyC.Proofs.Syntax.LineText

/-!
# The lines of a text

A C text is looked at as text here, line by line: the lines that the generator writes are the
lines that are found in it.
-/

namespace TeenyC

/-- The lines of a text, without their line ends.  What comes after the last line end is no
line. -/
def textLines (text : String) : List String :=
  (text.toList.splitOn '\n').dropLast.map String.ofList

namespace Syntax

theorem textLines_cons {line : String} (unbroken : Line.Unbroken line.toList) (rest : String) :
    textLines (line ++ "\n" ++ rest) = line :: textLines rest := by
  have characters : (line ++ "\n" ++ rest).toList = line.toList ++ '\n' :: rest.toList := by
    simp
  have notEnd : ∀ c ∈ line.toList, (c == '\n') = false :=
    fun c isIn => beq_false_of_ne (unbroken c isIn)
  have others : rest.toList.splitOn '\n' ≠ [] := List.splitOnP_ne_nil _ _
  rw [textLines, characters, List.splitOn, List.splitOnP_append_cons_of_forall_mem notEnd _ rfl,
    ← List.splitOn, List.dropLast_cons_of_ne_nil others, List.map_cons, String.ofList_toList,
    textLines]

/-- The lines of C are the lines of their text. -/
theorem textLines_render {lines : List Line} (wellFormed : ∀ line ∈ lines, line.WellFormed) :
    textLines (render lines) = lines.map Line.text := by
  induction lines with
  | nil => rfl
  | cons line rest inductionHypothesis =>
      rcases List.forall_mem_cons.mp wellFormed with ⟨lineGood, restGood⟩
      rw [render, textLines_cons (Line.unbroken_text lineGood), inductionHypothesis restGood,
        List.map_cons]

theorem count_map_text {lines : List Line} {line : Line}
    (wellFormed : ∀ line ∈ lines, line.WellFormed) (lineGood : line.WellFormed) :
    (lines.map Line.text).count line.text = lines.count line := by
  induction lines with
  | nil => rfl
  | cons first rest inductionHypothesis =>
      rcases List.forall_mem_cons.mp wellFormed with ⟨firstGood, restGood⟩
      have same : first.text = line.text ↔ first = line :=
        ⟨Line.text_injective firstGood lineGood, congrArg Line.text⟩
      simp only [List.map_cons, List.count_cons, inductionHypothesis restGood, beq_iff_eq, same]

/-- A line stands in a text as often as it was written. -/
theorem count_textLines_render {lines : List Line} {line : Line}
    (wellFormed : ∀ line ∈ lines, line.WellFormed) (lineGood : line.WellFormed) :
    (textLines (render lines)).count line.text = lines.count line := by
  rw [textLines_render wellFormed, count_map_text wellFormed lineGood]

end Syntax

end TeenyC
