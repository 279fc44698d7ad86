import FirmwareWorkspace.Proofs.Document.Merging
import FirmwareWorkspace.Proofs.LineRange
import FirmwareWorkspace.Proofs.Load.Contribution

/-!
# Documents of published snapshots

A published document merges the passes that the last unit over its file made. Its dead lines
therefore ascend, and the ranges that are shown of them are their maximal runs.

Main result: `Workspace.load_inactiveRanges`.
-/
namespace FirmwareWorkspace

/-- The last passes over a file are passes of a unit. -/
theorem exists_of_mem_lastPasses (config : Configuration) (system : FileSystem) (files : FileSet)
    (paths : List Path) (file : FileId) (pass : FilePass)
    (member : pass ∈ lastPasses (journals config system files paths) file) :
    ∃ files path, pass ∈ passes (LoadUnit.journal config system files path) := by
  have passed := ((mem_passesOver _ _ _).mp member).1
  rcases lastOver_mem_or_nil (journals config system files paths) file with listed | empty
  · obtain ⟨numbered, path, given⟩ := mem_journals config system files paths _ listed
    rw [given] at passed
    exact ⟨numbered, path, (mem_passes _ _).mpr passed⟩
  · rw [empty] at passed
    cases passed

theorem Reflects.merges {config : Configuration} {system : FileSystem} {files : FileSet}
    {paths : List Path} {snapshot : Snapshot}
    (reflects : Reflects (journals config system files paths) snapshot) (file : FileId)
    (document : Document) (found : snapshot.document? file = some document) :
    document.Merges (lastPasses (journals config system files paths) file) := by
  rw [reflects.documents] at found
  refine .of_documentOf _ document found fun pass member => ?_
  obtain ⟨numbered, path, passed⟩ :=
    exists_of_mem_lastPasses config system files paths file pass member
  exact Reader.isSplit_of_mem_passes _ _ _ _ _ _ pass passed

open LineRange in
/-- Joining ascending lines to ranges gives their maximal runs and nothing else does, and no sum
overflows, up to the last line number; the lines of a range can be counted unless it holds all line
numbers. The ranges that a published snapshot shows of a document are the maximal runs of its dead
lines, and hold as many lines. -/
theorem Workspace.load_inactiveRanges :
    (∀ lines : List Nat, lines.Pairwise (· < ·) → (∀ line ∈ lines, line < lineLimit) →
      (∃ missing < lineLimit, missing ∉ lines) →
      (∀ ranges, Decomposes ranges lines ↔ ranges = coalesce lines) ∧
        coalesce? lines = some (coalesce lines) ∧
        ∀ range ∈ coalesce lines, range.lineCount? = some range.lineCount) ∧
    ∀ (workspace : Workspace) (system : FileSystem) (cancellation : Cancellation)
      (snapshot : Snapshot), (workspace.load system cancellation).1.result = .ok snapshot →
      ∀ file document, snapshot.document? file = some document →
        document.inactiveLines.Pairwise (· < ·) ∧
          Decomposes (snapshot.inactiveRanges file) document.inactiveLines ∧
          ((snapshot.inactiveRanges file).map lineCount).sum = document.inactiveLines.length := by
  constructor
  · rintro lines ascending bounded ⟨missing, fits, absent⟩
    have decomposes := decomposes_coalesce lines ascending
    refine ⟨fun ranges => ⟨fun other => other.eq_coalesce ascending, ?_⟩,
      coalesce_eq_some lines ascending bounded, ?_⟩
    · rintro rfl
      exact decomposes
    · exact decomposes.lineCount_eq_some ascending bounded missing fits absent
  · intro workspace system cancellation snapshot published file document found
    -- The passes over the document mark their lines in order, and merging only strikes lines out.
    have ascending :=
      ((load_reflects workspace system cancellation snapshot published).merges file document
        found).ascending
    have shown : snapshot.inactiveRanges file = coalesce document.inactiveLines := by
      rw [Snapshot.inactiveRanges, found]
      rfl
    have decomposes := decomposes_coalesce document.inactiveLines ascending
    rw [shown]
    exact ⟨ascending, decomposes, decomposes.sum_lineCount ascending⟩

/-- A workspace of one platform. -/
def singlePlatform : Workspace :=
  .new { Configuration.initial with workspaceRoot := ⟨"/ws"⟩, roots := [⟨"P.dsc"⟩] }

/-- A platform with two branches that are never taken. -/
def deadBranches : FileSystem :=
  .memory (.ofList [(⟨"/ws/P.dsc"⟩,
    "!if FALSE\nDEFINE A = 1\nDEFINE B = 1\n!else\n!if FALSE\nDEFINE C = 1\n!endif\n!endif\n")])

open LineRange in
/-- The last line number ends a range, and both branches are shown. -/
theorem deadBranches_inactiveRanges :
    coalesce? [0, 1, 4294967294, 4294967295] = some [⟨0, 1⟩, ⟨4294967294, 4294967295⟩] ∧
      ∃ snapshot document, (singlePlatform.load deadBranches .never).1.result = .ok snapshot ∧
        snapshot.document? ⟨0⟩ = some document ∧ document.inactiveLines = [1, 2, 5] ∧
        Decomposes (snapshot.inactiveRanges ⟨0⟩) [1, 2, 5] := by
  obtain ⟨pure, shown⟩ := Workspace.load_inactiveRanges
  constructor
  · rw [(pure [0, 1, 4294967294, 4294967295] (by decide) (by decide)
      ⟨2, by decide, by decide⟩).2.1]
    decide
  · have dead : (singlePlatform.load deadBranches .never).1.result.toOption.bind (fun snapshot =>
        (snapshot.document? ⟨0⟩).map (·.inactiveLines)) = some [1, 2, 5] := by
      decide +kernel
    cases published : (singlePlatform.load deadBranches .never).1.result with
    | error failure =>
      rw [published] at dead
      cases dead
    | ok snapshot =>
      rw [published] at dead
      obtain ⟨document, found, lines⟩ := Option.map_eq_some_iff.mp dead
      refine ⟨snapshot, document, rfl, found, lines, ?_⟩
      rw [← lines]
      exact (shown _ _ _ snapshot published _ document found).2.1

end FirmwareWorkspace
