import RouteBinder.Proofs.FileSystem.AllOrNothing
import RouteBinder.Proofs.Project.Runs

/-!
# RouteBinder.Proofs.Project.ArtifactWrites

**Artifacts are written as a whole, or not at all.** `Generation.writeArtifact` tells apart what
`AtomicWrite.write` may come to. For every destination, text and file tree, and for all steps that may be
refused, either no step went wrong and the destination has exactly the text, or the failure is raised and
every file is as it was (`Generation.writeArtifact_all_or_nothing`).
-/

namespace RouteBinder.Project.Generation

open FileSystem FileTree

variable [Host] {destination : Path} {text : String} {refused : Refusals} {workspace : Workspace}

/-- No step of a write goes wrong: none is refused, and nothing stands in the way of the destination. -/
def Undisturbed (faults : AtomicWrite.Faults) (destination : Path) (files : FileTree) : Prop :=
  (∀ step ∈ AtomicWrite.steps destination files, faults step = false) ∧
    AtomicWrite.Unobstructed destination files

/-- An undisturbed write of an artifact puts its text at the destination, and changes no other file. -/
theorem exists_of_undisturbed (h : Undisturbed (refused destination) destination workspace.files) :
    ∃ after,
      (writeArtifact ⟨destination, text⟩ refused).runOn workspace =
        (.ok (), { workspace with files := after }) ∧
      after.content? destination = some text.toUTF8 ∧
      Replaces destination.resolve.parts text.toUTF8 workspace.files after := by
  have hwritten : (AtomicWrite.write (refused destination) destination text.toUTF8
      workspace.files).2 = true := AtomicWrite.write_eq_true_iff.2 h
  refine ⟨_, ?_, AtomicWrite.content?_write_self hwritten, AtomicWrite.replaces_write hwritten⟩
  rw [runOn_writeArtifact, if_pos hwritten]

/-- A disturbed one raises the failure. The files that were there are there, and no other ones. -/
theorem exists_of_not_undisturbed
    (h : ¬ Undisturbed (refused destination) destination workspace.files) :
    ∃ after,
      (writeArtifact ⟨destination, text⟩ refused).runOn workspace =
        (.error (.writeFailed destination), { workspace with files := after }) ∧
      Keeps workspace.files after := by
  have hwritten : (AtomicWrite.write (refused destination) destination text.toUTF8
      workspace.files).2 = false := Bool.eq_false_iff.2 fun hw => h (AtomicWrite.write_eq_true_iff.1 hw)
  refine ⟨_, ?_, AtomicWrite.keeps_write hwritten⟩
  rw [runOn_writeArtifact, if_neg (Bool.eq_false_iff.1 hwritten)]

/-- **A write of an artifact happens, or nothing does.** Either no step goes wrong; then the destination
has exactly the text, and the files in all other places are those from before. Or some step goes wrong; then
the failure is raised, and the same files stand in all places, so that the destination has what it had and
no temporary file is left. What could be read before is then read as before. -/
theorem writeArtifact_all_or_nothing (destination : Path) (text : String) (refused : Refusals)
    (workspace : Workspace) :
    ∃ after,
      (Undisturbed (refused destination) destination workspace.files ∧
        (writeArtifact ⟨destination, text⟩ refused).runOn workspace =
          (.ok (), { workspace with files := after }) ∧
        after.content? destination = some text.toUTF8 ∧
        Replaces destination.resolve.parts text.toUTF8 workspace.files after) ∨
      (¬ Undisturbed (refused destination) destination workspace.files ∧
        (writeArtifact ⟨destination, text⟩ refused).runOn workspace =
          (.error (.writeFailed destination), { workspace with files := after }) ∧
        SameFiles workspace.files after ∧
        ∀ path bytes, workspace.files.content? path = some bytes →
          after.content? path = some bytes) := by
  by_cases h : Undisturbed (refused destination) destination workspace.files
  · obtain ⟨after, hrun, hcontent, hreplaces⟩ := exists_of_undisturbed h
    exact ⟨after, Or.inl ⟨h, hrun, hcontent, hreplaces⟩⟩
  · obtain ⟨after, hrun, hkeeps⟩ := exists_of_not_undisturbed h
    exact ⟨after, Or.inr ⟨h, hrun, hkeeps.sameFiles, fun path bytes => hkeeps.content?⟩⟩

end RouteBinder.Project.Generation
