import TeenyC.Proofs.FileTree.Growth
import TeenyC.Proofs.Paths

/-!
# Writing output files

Output files are written one after the other, each after the directories in front of it were
made.  Afterwards every one of them holds its text, if no two lead to the same place, and
everywhere else there is what was there before, apart from new directories.
-/

namespace TeenyC

namespace FileTree

/-! ## One file -/

/-- The location is that of a proper beginning of one of the paths. -/
def IsAbove (paths : List Path) (location : Location) : Prop :=
  ∃ path ∈ paths, ∃ above : Path, above.Above path ∧ location = above.destination

/-- An output file is written, after directories in front of it were made. -/
def WritesFile (output : Path × String) (before after : FileTree) : Prop :=
  ∃ middle, Grows (IsAbove [output.1]) before middle ∧
    write output.1 (.ofString output.2) middle = .ok () after

section File

variable {output : Path × String} {before after : FileTree} {location : Location}

theorem IsAbove.mono {paths others : List Path} (isAbove : IsAbove paths location)
    (within : paths ⊆ others) : IsAbove others location := by
  obtain ⟨path, isIn, higher⟩ := isAbove
  exact ⟨path, within isIn, higher⟩

/-- Making the directories upward of the parent of a path makes directories in front of it. -/
theorem makeDirectories_grows {path parent : Path} (linkFree : before.LinkFree)
    (isParent : path.parent? = some parent) :
    Grows (IsAbove [path]) before (leaves (makeDirectories parent) before) := by
  refine (makeUpward_grows linkFree parent.upward).mono ?_
  rintro location ⟨higher, isIn, same⟩
  exact ⟨path, List.mem_cons_self, higher, Path.above_of_mem_upward isParent isIn, same⟩

namespace WritesFile

variable (writes : WritesFile output before after) (linkFree : before.LinkFree)
include writes linkFree

theorem exists_put : ∃ middle, Grows (IsAbove [output.1]) before middle ∧ middle.LinkFree ∧
    middle.isDirectory output.1.destination = false ∧
    after = middle.put output.1.destination (.file (.ofString output.2)) := by
  obtain ⟨middle, grows, written⟩ := writes
  have middleLinkFree := grows.linkFree linkFree
  obtain ⟨_, _, notDirectory, same⟩ := write_eq_ok middleLinkFree written
  exact ⟨middle, grows, middleLinkFree, notDirectory, same⟩

theorem linkFree_after : after.LinkFree := by
  obtain ⟨middle, _, middleLinkFree, notDirectory, rfl⟩ := writes.exists_put linkFree
  exact linkFree_put_file middleLinkFree notDirectory _

theorem keeps : Keeps before after := by
  obtain ⟨middle, grows, _, notDirectory, rfl⟩ := writes.exists_put linkFree
  exact grows.keeps.trans (keeps_put notDirectory _)

theorem get?_destination :
    after.get? output.1.destination = some (.file (.ofString output.2)) := by
  obtain ⟨middle, _, _, notDirectory, rfl⟩ := writes.exists_put linkFree
  rw [get?_put_of_not_isDirectory notDirectory, if_pos rfl]

theorem growsAt (elsewhere : location ≠ output.1.destination) :
    GrowsAt (IsAbove [output.1]) before after location := by
  obtain ⟨middle, grows, _, notDirectory, rfl⟩ := writes.exists_put linkFree
  rw [GrowsAt, get?_put_of_not_isDirectory notDirectory, if_neg elsewhere]
  exact grows location

theorem read {other : FileTree} (otherLinkFree : other.LinkFree) (stays : Keeps after other)
    (isFile : other.get? output.1.destination = after.get? output.1.destination) :
    other.read output.1 = .ok (.ofString output.2) := by
  rw [writes.get?_destination linkFree] at isFile
  obtain ⟨middle, grows, written⟩ := writes
  exact read_of_write (grows.linkFree linkFree) otherLinkFree written stays isFile

omit linkFree in
theorem leadsDown {last : String} (isLast : output.1.pieces.getLast? = some last) :
    LeadsDown last := by
  obtain ⟨middle, _, written⟩ := writes
  exact leadsDown_of_write written isLast

end WritesFile

end File

/-! ## Several files -/

/-- Output files are written one after the other. -/
inductive WritesFiles : List (Path × String) → FileTree → FileTree → Prop
  | nil (tree : FileTree) : WritesFiles [] tree tree
  | cons {output : Path × String} {rest : List (Path × String)} {before middle after : FileTree}
      (first : WritesFile output before middle) (others : WritesFiles rest middle after) :
      WritesFiles (output :: rest) before after

namespace WritesFiles

variable {outputs : List (Path × String)} {before after : FileTree} {location : Location}

theorem concat {output : Path × String} {last : FileTree}
    (writes : WritesFiles outputs before after) (wrote : WritesFile output after last) :
    WritesFiles (outputs ++ [output]) before last := by
  induction writes with
  | nil => exact .cons wrote (.nil last)
  | cons first others inductionHypothesis => exact .cons first (inductionHypothesis wrote)

theorem linkFree_after (writes : WritesFiles outputs before after) (linkFree : before.LinkFree) :
    after.LinkFree := by
  induction writes with
  | nil => exact linkFree
  | cons first others inductionHypothesis =>
      exact inductionHypothesis (first.linkFree_after linkFree)

theorem keeps (writes : WritesFiles outputs before after) (linkFree : before.LinkFree) :
    Keeps before after := by
  induction writes with
  | nil => exact Keeps.refl _
  | cons first others inductionHypothesis =>
      exact (first.keeps linkFree).trans (inductionHypothesis (first.linkFree_after linkFree))

/-- Where no output file leads, there is what was there before, or a directory that was made for
an output file. -/
theorem growsAt (writes : WritesFiles outputs before after) (linkFree : before.LinkFree)
    (elsewhere : ∀ output ∈ outputs, location ≠ output.1.destination) :
    GrowsAt (IsAbove (outputs.map Prod.fst)) before after location := by
  induction writes with
  | nil => exact .inl rfl
  | cons first others inductionHypothesis =>
      obtain ⟨here, further⟩ := List.forall_mem_cons.mp elsewhere
      have firstGrows := first.growsAt linkFree here
      have otherGrows := inductionHypothesis (first.linkFree_after linkFree) further
      exact (firstGrows.mono fun _ isAbove => isAbove.mono (by simp)).trans
        (otherGrows.mono fun _ isAbove => isAbove.mono (List.subset_cons_self ..))

theorem leadsDown (writes : WritesFiles outputs before after)
    {output : Path × String} (isIn : output ∈ outputs) {last : String}
    (isLast : output.1.pieces.getLast? = some last) : LeadsDown last := by
  induction writes with
  | nil => cases isIn
  | cons first others inductionHypothesis =>
      rcases List.mem_cons.mp isIn with rfl | isIn
      · exact first.leadsDown isLast
      · exact inductionHypothesis isIn

/-- Output files that lead to different places hold their texts when all are written. -/
theorem holds (writes : WritesFiles outputs before after) (linkFree : before.LinkFree)
    (distinct : outputs.Pairwise fun first second => first.1.destination ≠ second.1.destination)
    {output : Path × String} (isIn : output ∈ outputs) :
    after.get? output.1.destination = some (.file (.ofString output.2)) ∧
      after.read output.1 = .ok (.ofString output.2) := by
  induction writes with
  | nil => cases isIn
  | cons first others inductionHypothesis =>
      have middleLinkFree := first.linkFree_after linkFree
      obtain ⟨differs, distinctOthers⟩ := List.pairwise_cons.mp distinct
      rcases List.mem_cons.mp isIn with rfl | isIn
      · -- The files that come later lead elsewhere, so this one stays.
        have present := first.get?_destination linkFree
        have stays := (others.growsAt middleLinkFree differs).get?_eq (by simp [present])
        exact ⟨stays.trans present, first.read linkFree (others.linkFree_after middleLinkFree)
          (others.keeps middleLinkFree) stays⟩
      · exact inductionHypothesis middleLinkFree distinctOthers isIn

end WritesFiles

end FileTree

end TeenyC
