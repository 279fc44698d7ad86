import FirmwareWorkspace.Line.Kind
import FirmwareWorkspace.Proofs.Qualifier

/-!
# Where blocks can open

The block of a component is opened only by lines of a section of components. Every other
kind of line leaves blocks closed or as they are. A section header lists stored qualifiers.
-/
namespace FirmwareWorkspace

/-- A line that opens a block stands among components, and a header lists stored qualifiers. -/
structure LineKind.FitsIn (sectionType : String) (kind : LineKind) : Prop where
  header : ∀ qualifiers, kind = .sectionHeader qualifiers →
    ∀ qualifier ∈ qualifiers, qualifier.IsStored
  component : ∀ path, kind = .component path true → sectionType = "components"
  blockOpen : kind = .blockOpen → sectionType = "components"

namespace Line

theorem definitionLine_fits (sectionType : String) (cs : List Char) :
    (definitionLine cs).FitsIn sectionType := by
  unfold definitionLine
  split <;> exact ⟨nofun, nofun, nofun⟩

theorem libraryClassLine_fits (sectionType : String) (cs : List Char) :
    (libraryClassLine cs).FitsIn sectionType := by
  unfold libraryClassLine
  split <;> exact ⟨nofun, nofun, nofun⟩

theorem tokenLine_fits (sectionType : String) (cs : List Char) (declares : String → LineKind)
    (fits : ∀ token, (declares token).FitsIn sectionType) :
    (tokenLine cs declares).FitsIn sectionType := by
  unfold tokenLine
  split
  · exact fits _
  · exact ⟨nofun, nofun, nofun⟩

theorem componentsLine_fits (subsection : Option String) (cs : List Char) :
    (componentsLine subsection cs).FitsIn "components" := by
  unfold componentsLine
  split
  · exact ⟨nofun, nofun, fun _ => rfl⟩
  · split
    · exact ⟨nofun, nofun, nofun⟩
    · split
      · exact ⟨nofun, nofun, nofun⟩
      · split
        · split
          · exact libraryClassLine_fits _ cs
          · exact ⟨nofun, nofun, nofun⟩
        · unfold componentEntry
          dsimp only
          split
          · split
            · exact ⟨nofun, fun _ _ => rfl, nofun⟩
            · exact ⟨nofun, nofun, nofun⟩
          · exact ⟨nofun, nofun, nofun⟩

theorem flashLine_fits (sectionType : String) (cs : List Char) :
    (flashLine cs).FitsIn sectionType := by
  unfold flashLine
  split
  · exact ⟨nofun, nofun, nofun⟩
  · split
    · exact ⟨nofun, fun _ same => Bool.noConfusion (LineKind.component.inj same).2, nofun⟩
    · exact ⟨nofun, nofun, nofun⟩

theorem pcdUsageLine_fits (sectionType : String) (cs : List Char) :
    (pcdUsageLine cs).FitsIn sectionType := by
  unfold pcdUsageLine
  split <;> exact ⟨nofun, nofun, nofun⟩

theorem headerLine_fits (sectionType : String) (cs : List Char) :
    (headerLine cs).FitsIn sectionType := by
  unfold headerLine
  split <;> exact ⟨nofun, nofun, nofun⟩

theorem guidDeclarationLine_fits (sectionType : String) (kind : GuidKind) (cs : List Char) :
    (guidDeclarationLine kind cs).FitsIn sectionType := by
  unfold guidDeclarationLine
  split
  · exact ⟨nofun, nofun, nofun⟩
  · dsimp only
    split <;> exact ⟨nofun, nofun, nofun⟩

theorem classifyEntry_fits (dialect : Dialect) (sectionType : String) (subsection : Option String)
    (cs : List Char) : (classifyEntry dialect sectionType subsection cs).FitsIn sectionType := by
  unfold classifyEntry
  split
  · exact definitionLine_fits _ cs
  · exact libraryClassLine_fits _ cs
  · exact componentsLine_fits subsection cs
  -- Sources, packages, library classes and identifiers of modules.
  iterate 7 exact tokenLine_fits _ cs _ fun _ => ⟨nofun, nofun, nofun⟩
  iterate 5 exact pcdUsageLine_fits _ cs
  -- Packages.
  · exact tokenLine_fits _ cs _ fun _ => ⟨nofun, nofun, nofun⟩
  · exact headerLine_fits _ cs
  iterate 3 exact guidDeclarationLine_fits _ _ cs
  · exact flashLine_fits _ cs
  · exact ⟨nofun, nofun, nofun⟩

/-- Whatever a line is classified as fits in its section. -/
theorem classify_fits (dialect : Dialect) (sectionType : String) (subsection : Option String)
    (text : String) : (classify dialect sectionType subsection text).FitsIn sectionType := by
  unfold classify
  dsimp only
  split
  next qualifiers header =>
    exact ⟨fun _ same => LineKind.sectionHeader.inj same ▸
      Qualifier.isStored_of_header _ qualifiers header, nofun, nofun⟩
  · split
    · exact definitionLine_fits _ _
    · exact classifyEntry_fits dialect sectionType subsection _

end Line

end FirmwareWorkspace
