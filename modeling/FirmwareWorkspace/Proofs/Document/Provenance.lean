import FirmwareWorkspace.Proofs.Document.Passes

/-!
# Where symbols come from

Whatever reading a file emits bears the marks of the place where it was found. A symbol has
the stored qualifiers of its section. One with an owner stands in the block of a component,
hence under a header of components, and one with a target aims at a path in its normal form.
-/
namespace FirmwareWorkspace

/-- A symbol has stored qualifiers. One with an owner is declared among components, and a target
is normal. -/
structure Symbol.IsSound (symbol : Symbol) : Prop where
  qualifiers : ∀ qualifier ∈ symbol.qualifiers, qualifier.IsStored
  owner : symbol.owner ≠ none →
    ∃ first rest, symbol.qualifiers = first :: rest ∧ first.sectionType = "components"
  target : ∀ path, symbol.target = some path → path.normalize = path

/-- A section state with an owner stands under a header of components. -/
theorem SectionState.IsSound.components {place : SectionState} (sound : place.IsSound)
    (owned : place.owner ≠ none) :
    ∃ first rest, place.qualifiers = first :: rest ∧ first.sectionType = "components" := by
  have inside : place.inBlock = true := by
    unfold SectionState.owner at owned
    split at owned
    · assumption
    · exact absurd rfl owned
  have type := sound.sectionType.symm.trans (sound.block inside)
  cases qualifiers : place.qualifiers with
  | nil =>
    rw [qualifiers] at type
    exact absurd type (by decide)
  | cons first rest =>
    rw [qualifiers] at type
    exact ⟨first, rest, rfl, type⟩

/-- A pass that stands in a sound section and has emitted sound symbols. -/
structure PassState.IsSound (state : PassState) : Prop where
  place : state.place.IsSound
  symbols : ∀ symbol ∈ state.pass.symbols, symbol.IsSound

namespace PassState.IsSound

theorem survives : Survives IsSound where
  diagnostic _ _ _ _ sound := { sound with }
  tables _ _ _ sound := { sound with }
  place _ _ kept sound := { sound with place := kept sound.place }
  stack _ _ sound := { sound with }
  symbol state symbol emits sound :=
    { sound with
      symbols := by
        intro other member
        rcases List.mem_append.mp member with old | new
        · exact sound.symbols other old
        · rw [List.mem_singleton.mp new]
          constructor
          · rw [emits.qualifiers]
            exact sound.place.stored
          · intro owned
            rw [emits.qualifiers]
            exact sound.place.components (emits.owner.resolve_left owned ▸ owned)
          · exact emits.target }
  inactive _ _ sound := { sound with }
  inclusion _ _ sound := { sound with }

theorem opening {state : PassState} (sound : state.IsSound) (path : Path) :
    (PassState.opening state.reader path (some state.pass.dialect) state.place).IsSound where
  place := sound.place
  symbols _ member := nomatch member

theorem resume {state last : PassState} (sound : state.IsSound)
    (ended : last.IsSound) (fatal : Option FatalError) :
    PassState.IsSound ⟨.finish last fatal, last.place, state.pass⟩ where
  place := ended.place
  symbols := sound.symbols

end PassState.IsSound

/-- Sound passes stay so, and everything they enter is sound. -/
theorem Runs.isSound {system : FileSystem} {depth line : Nat} {state : PassState}
    {lines : List String} {events : List ReadEvent} {outcome : Step}
    (run : Runs system depth state line lines events outcome)
    (sound : state.IsSound) :
    outcome.1.IsSound ∧
      ∀ pass ∈ passes events, ∀ symbol ∈ pass.symbols, symbol.IsSound := by
  have survives := PassState.IsSound.survives
  induction run with
  | done => exact ⟨sound, fun _ member => nomatch member⟩
  | stop _ stopped =>
    have stepped := survives.of_step stopped sound
    rw [passes_emittedUntil]
    exact ⟨stepped, fun _ member => nomatch member⟩
  | advance _ moved _ ih =>
    have stepped := survives.of_step moved sound
    rw [passes_emittedUntil_append]
    exact ih stepped
  | @shut _ state line raw _ entry _ _ enters _ _ ih =>
    have entered := survives.entry enters sound
    rw [passes_emittedUntil_append]
    exact ih (survives.report _ line _ rfl entered)
  | @enter _ state last line raw _ _ entry _ _ fatal _ enters _ _ _ innerIH ih =>
    have entered := survives.entry enters sound
    have ⟨ended, inner⟩ := innerIH (entered.opening _)
    have ⟨reached, later⟩ := ih (entered.resume ended fatal)
    exact ⟨reached, forall_passes_enter inner ended.symbols later⟩

/-- Reading a file from a sound section leaves passes with sound symbols. -/
theorem Reader.isSound_of_mem_passes (system : FileSystem) (depth : Nat) (path : Path)
    (inherited : Option Dialect) (place : SectionState) (reader : Reader) (sound : place.IsSound)
    (pass : FilePass) (member : pass ∈ passes (journal system depth path inherited place reader))
    (symbol : Symbol) (inside : symbol ∈ pass.symbols) :
    symbol.IsSound := by
  have begun : (PassState.opening reader path.normalize inherited place).IsSound :=
    ⟨sound, fun _ absent => nomatch absent⟩
  have sounds : ∀ pass ∈ passes (journal system depth path inherited place reader),
      ∀ symbol ∈ pass.symbols, symbol.IsSound :=
    forall_passes_journal system depth path inherited place reader
      fun _ _ _ _ _ run => (run.isSound begun).imp_left (·.symbols)
  exact sounds pass member symbol inside

end FirmwareWorkspace
