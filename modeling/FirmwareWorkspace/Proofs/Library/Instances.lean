import FirmwareWorkspace.Load
import FirmwareWorkspace.Proofs.Library.Declared
import FirmwareWorkspace.Proofs.Library.Specificity

/-!
# Declarations that tie, and the files they name

Declarations of a library class that tie are compared by the text of their values. The same text
can name different files from different directories, and different texts can name one file, so
the answer tells whether the declarations agree on an instance only where agreeing on the text
means agreeing on the file.

Main result: `resolve_tells_instances_iff`.
-/
namespace FirmwareWorkspace.Library

/-- The suitable declarations of maximal rank. -/
def competing (declared : List Symbol) (context : ConsumerContext) : List Symbol :=
  (suitable declared context).filter fun symbol =>
    ∀ other ∈ suitable declared context, rank context other ≤ rank context symbol

/-- Whether declarations agree on what a view shows of them. -/
def Agree {β : Type} (view : Symbol → β) (symbols : List Symbol) : Prop :=
  ∀ first ∈ symbols, ∀ second ∈ symbols, view first = view second

instance {β : Type} [DecidableEq β] (view : Symbol → β) (symbols : List Symbol) :
    Decidable (Agree view symbols) :=
  inferInstanceAs (Decidable (∀ first ∈ symbols, ∀ second ∈ symbols, view first = view second))

/-- An answer tells about instances: one is found if all declarations name it, and the class is
ambiguous if two of them name different ones. -/
def TellsInstances (answer : LibraryResolution) (symbols : List Symbol) : Prop :=
  (answer.isFound = true ↔ symbols ≠ [] ∧ Agree (·.target) symbols) ∧
    (answer.isAmbiguous = true ↔ ¬Agree (·.target) symbols)

/-! ### Declarations with one value -/

/-- Declarations agree if the others agree with the first one. -/
theorem agree_cons_iff {β : Type} (view : Symbol → β) (first : Symbol) (rest : List Symbol) :
    Agree view (first :: rest) ↔ ∀ other ∈ rest, view first = view other := by
  constructor
  · intro agree other member
    exact agree first (.head _) other (.tail _ member)
  · intro same
    have own : ∀ other ∈ first :: rest, view first = view other :=
      List.forall_mem_cons.mpr ⟨rfl, same⟩
    exact fun one member another memberToo => (own one member).symm.trans (own another memberToo)

/-- What is left of declarations when those with the value of an earlier one are dropped. -/
inductive Merged (symbols : List Symbol) : List Symbol → Prop
  | none (empty : symbols = []) : Merged symbols []
  | one (first : Symbol) (head : symbols.head? = some first) (agree : Agree (·.value) symbols) :
      Merged symbols [first]
  | several (first second : Symbol) (rest : List Symbol) (differ : ¬Agree (·.value) symbols) :
      Merged symbols (first :: second :: rest)

theorem merged_eraseDupsBy (symbols : List Symbol) :
    Merged symbols (symbols.eraseDupsBy (·.value == ·.value)) := by
  cases symbols with
  | nil => exact .none rfl
  | cons first rest =>
    rw [List.eraseDupsBy_cons]
    -- What differs from the first value decides between one declaration and several.
    generalize others : rest.filter _ = later
    cases later with
    | nil =>
      refine .one first rfl ((agree_cons_iff _ first rest).mpr fun other member => ?_)
      have same : other.value = first.value := by
        simpa using List.filter_eq_nil_iff.mp others other member
      exact same.symm
    | cons second more =>
      rw [List.eraseDupsBy_cons]
      refine .several first second _ fun agree => ?_
      have listed : second ∈ second :: more := .head _
      rw [← others] at listed
      have ⟨member, differs⟩ := List.mem_filter.mp listed
      have same := (agree_cons_iff _ first rest).mp agree second member
      simp [same] at differs

/-! ### Answers -/

theorem Merged.found_iff {symbols left : List Symbol} (merged : Merged symbols left) :
    (LibraryResolution.ofCandidates left).isFound = true ↔
      symbols ≠ [] ∧ Agree (·.value) symbols := by
  cases merged with
  | none empty => simp [LibraryResolution.ofCandidates, LibraryResolution.isFound,
      LibraryResolution.symbol?, empty]
  | one first head agree =>
    have present : symbols ≠ [] := by
      rintro rfl
      cases head
    exact ⟨fun _ => ⟨present, agree⟩, fun _ => rfl⟩
  | several first second rest differ => exact ⟨nofun, fun both => absurd both.2 differ⟩

theorem Merged.ambiguous_iff {symbols left : List Symbol} (merged : Merged symbols left) :
    (LibraryResolution.ofCandidates left).isAmbiguous = true ↔ ¬Agree (·.value) symbols := by
  cases merged with
  | none empty =>
    subst empty
    exact ⟨nofun, fun differ => absurd (fun _ none => nomatch none) differ⟩
  | one first head agree => exact ⟨nofun, fun differ => absurd agree differ⟩
  | several first second rest differ => exact ⟨fun _ => differ, fun _ => rfl⟩

theorem Merged.head_of_found {symbols left : List Symbol} (merged : Merged symbols left)
    (symbol : Symbol) (found : LibraryResolution.ofCandidates left = .found symbol) :
    symbols.head? = some symbol := by
  cases merged with
  | none => cases found
  | one first head agree =>
    cases found
    exact head
  | several => cases found

/-- An answer about values tells about instances exactly if the declarations agree on the one as
they do on the other. -/
theorem tellsInstances_iff (answer : LibraryResolution) (symbols : List Symbol)
    (found : answer.isFound = true ↔ symbols ≠ [] ∧ Agree (·.value) symbols)
    (ambiguous : answer.isAmbiguous = true ↔ ¬Agree (·.value) symbols) :
    TellsInstances answer symbols ↔ (Agree (·.value) symbols ↔ Agree (·.target) symbols) := by
  rw [TellsInstances, found, ambiguous]
  exact ⟨fun ⟨_, differ⟩ => not_iff_not.mp differ,
    fun same => ⟨and_congr_right fun _ => same, not_congr same⟩⟩

/-- Without an override, the declarations of maximal rank that suit the consumer are compared by
their values: one is found, and it is the first of them, if they agree; otherwise the class is
ambiguous. This answer tells whether they name the same instance exactly if agreeing on the value
means agreeing on the file that they name. -/
theorem resolve_tells_instances_iff (index : SymbolIndex) (className : String)
    (context : ConsumerContext)
    (free : ∀ symbol ∈ index.ofKindNamed .libraryClass className,
      symbol.owner ≠ some context.component) :
    let tied := competing (index.ofKindNamed .libraryClass className) context
    let answer := resolve index className context
    (answer.isFound = true ↔ tied ≠ [] ∧ Agree (·.value) tied) ∧
      (answer.isAmbiguous = true ↔ ¬Agree (·.value) tied) ∧
      (∀ symbol, answer = .found symbol → tied.head? = some symbol) ∧
      (TellsInstances answer tied ↔ (Agree (·.value) tied ↔ Agree (·.target) tied)) := by
  intro tied answer
  have merged := merged_eraseDupsBy tied
  have answered : answer = .ofCandidates (tied.eraseDupsBy (·.value == ·.value)) :=
    resolve_of_free index className context free
  rw [answered]
  exact ⟨merged.found_iff, merged.ambiguous_iff, merged.head_of_found,
    tellsInstances_iff _ tied merged.found_iff merged.ambiguous_iff⟩

/-! ### One spelling in two directories -/

def twoDirectories : Workspace :=
  .new { Configuration.initial with workspaceRoot := ⟨"/ws"⟩, roots := [⟨"P.dsc"⟩] }

/-- Two included files name an instance beside them by the same text. -/
def twoDirectoriesFiles : FileSystem :=
  .memory (.ofList [
    (⟨"/ws/P.dsc"⟩, "!include A/X.inc\n!include B/X.inc\n"),
    (⟨"/ws/A/X.inc"⟩, "[LibraryClasses]\nL|Lib.inf\n"),
    (⟨"/ws/B/X.inc"⟩, "[LibraryClasses]\nL|Lib.inf\n"),
    (⟨"/ws/A/Lib.inf"⟩, ""), (⟨"/ws/B/Lib.inf"⟩, "")])

/-- The class is bound to the instance of the first directory, although that of the second one has
as good a claim. -/
theorem twoDirectories_binds :
    ∃ snapshot symbol, (twoDirectories.load twoDirectoriesFiles .never).1.result = .ok snapshot ∧
      let context : ConsumerContext := ⟨"/ws/M.inf", "*", "*"⟩
      let tied := competing (snapshot.symbols.ofKindNamed .libraryClass "L") context
      (∀ symbol ∈ snapshot.symbols.ofKindNamed .libraryClass "L",
        symbol.owner ≠ some context.component) ∧
        tied.map (·.target) = [some ⟨"/ws/A/Lib.inf"⟩, some ⟨"/ws/B/Lib.inf"⟩] ∧
        resolve snapshot.symbols "L" context = .found symbol ∧
        symbol.target = some ⟨"/ws/A/Lib.inf"⟩ ∧
        ¬TellsInstances (resolve snapshot.symbols "L" context) tied := by
  -- Both declarations have the same text, but each directory has a library of its own.
  have computed : ((twoDirectories.load twoDirectoriesFiles .never).1.result.toOption).any
      (fun snapshot =>
        let context : ConsumerContext := ⟨"/ws/M.inf", "*", "*"⟩
        let declared := snapshot.symbols.ofKindNamed .libraryClass "L"
        (∀ symbol ∈ declared, symbol.owner ≠ some context.component) ∧
          (competing declared context).map (·.target) =
            [some ⟨"/ws/A/Lib.inf"⟩, some ⟨"/ws/B/Lib.inf"⟩] ∧
          Agree (·.value) (competing declared context) ∧
          ¬Agree (·.target) (competing declared context)) = true := by
    decide +kernel
  cases published : (twoDirectories.load twoDirectoriesFiles .never).1.result with
  | error failure =>
    rw [published] at computed
    cases computed
  | ok snapshot =>
    rw [published] at computed
    obtain ⟨free, targets, spelledAlike, apart⟩ := of_decide_eq_true computed
    have ⟨found, _, first, tells⟩ :=
      resolve_tells_instances_iff snapshot.symbols "L" ⟨"/ws/M.inf", "*", "*"⟩ free
    have some : competing (snapshot.symbols.ofKindNamed .libraryClass "L")
        ⟨"/ws/M.inf", "*", "*"⟩ ≠ [] := by
      intro none
      rw [none] at targets
      cases targets
    obtain ⟨symbol, answer⟩ := Option.isSome_iff_exists.mp (found.mpr ⟨some, spelledAlike⟩)
    have resolved := LibraryResolution.eq_found_of_symbol _ symbol answer
    have target : symbol.target = .some ⟨"/ws/A/Lib.inf"⟩ := by
      have shown := congrArg List.head? targets
      rw [List.head?_map, first symbol resolved] at shown
      exact Option.some.inj shown
    exact ⟨snapshot, symbol, rfl, free, targets, resolved, target,
      fun told => apart ((tells.mp told).mp spelledAlike)⟩

end FirmwareWorkspace.Library
