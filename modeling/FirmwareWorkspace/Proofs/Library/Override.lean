import FirmwareWorkspace.Proofs.Library.Declared
import FirmwareWorkspace.Proofs.Library.Specificity
import FirmwareWorkspace.Proofs.Load.Contribution

/-!
# Overrides and architectures

An override belongs to the component in whose block it stands, and that component is known
by its path alone. A module that is listed for two architectures with a block for each
therefore has the overrides of both blocks, and the one that was added last is taken for
either architecture.

Main result: `Workspace.load_override_iff` says for which overrides the answer is that of
the component's own block, which is the last override among those for its architecture.
-/
namespace FirmwareWorkspace

namespace Library

/-- Written under a header of components for an architecture. -/
def IsWrittenFor (arch : String) (symbol : Symbol) : Prop :=
  ∃ qualifier ∈ symbol.qualifiers, qualifier.sectionType = "components" ∧
    Meets qualifier.arch arch

instance (arch : String) (symbol : Symbol) : Decidable (IsWrittenFor arch symbol) :=
  inferInstanceAs (Decidable (∃ qualifier ∈ symbol.qualifiers, _ ∧ _))

/-- The answer if only blocks for the architecture of the consumer counted. -/
def resolveOwn (index : SymbolIndex) (className : String) (context : ConsumerContext) :
    LibraryResolution :=
  match ((overrides index className context).filter (IsWrittenFor context.arch ·)).getLast? with
  | some symbol => .found symbol
  | none => .ofCandidates (survivors index className context)

theorem owner_of_mem_globalDeclarations (index : SymbolIndex) (className : String)
    (symbol : Symbol) (member : symbol ∈ globalDeclarations index className) :
    symbol.owner = none :=
  Option.isNone_iff_eq_none.mp (List.mem_filter.mp member).2

/-- An owned answer is the last override, for whatever architecture it was written. -/
theorem getLast_of_resolve (index : SymbolIndex) (className : String) (context : ConsumerContext)
    (symbol : Symbol) (resolved : resolve index className context = .found symbol)
    (owned : symbol.owner ≠ none) :
    (overrides index className context).getLast? = some symbol := by
  refine (getLast_or_global_of_resolve _ _ _ _ resolved).resolve_right fun outside => ?_
  exact owned (owner_of_mem_globalDeclarations index className symbol outside)

/-- The last override is the answer of the own blocks exactly if it stands in one. -/
theorem resolveOwn_iff (index : SymbolIndex) (className : String) (context : ConsumerContext)
    (symbol : Symbol) (owned : symbol.owner ≠ none)
    (last : (overrides index className context).getLast? = some symbol) :
    resolveOwn index className context = .found symbol ↔ IsWrittenFor context.arch symbol := by
  constructor
  · intro resolved
    unfold resolveOwn at resolved
    split at resolved
    next own found =>
      cases resolved
      exact of_decide_eq_true (List.mem_filter.mp (List.mem_of_getLast? found)).2
    · -- No block of the component answered, so the answer was declared outside all blocks.
      have outside := mem_globalDeclarations_of_survives _ _ _ _
        (mem_of_ofCandidates _ _ resolved)
      exact absurd (owner_of_mem_globalDeclarations index className symbol outside) owned
  · intro written
    obtain ⟨front, listed⟩ := List.getLast?_eq_some_iff.mp last
    have own : ((overrides index className context).filter
        (IsWrittenFor context.arch ·)).getLast? = some symbol := by
      simp [listed, written]
    simp only [resolveOwn, own]

end Library

/-- An override that a loaded workspace answers with stands among components. It is the last
one of its component, whatever the architecture of the consumer, and it is the answer of the
consumer's own blocks exactly if it was written for that architecture. -/
theorem Workspace.load_override_iff (workspace : Workspace) (system : FileSystem)
    (cancellation : Cancellation) (snapshot : Snapshot)
    (published : (workspace.load system cancellation).1.result = .ok snapshot)
    (className : String) (context : ConsumerContext) (symbol : Symbol)
    (resolved : Library.resolve snapshot.symbols className context = .found symbol)
    (owned : symbol.owner = some context.component) :
    (∃ first rest, symbol.qualifiers = first :: rest ∧ first.sectionType = "components") ∧
      (∀ other : ConsumerContext, other.component = context.component →
        Library.resolve snapshot.symbols className other = .found symbol) ∧
      (Library.resolve snapshot.symbols className context =
          Library.resolveOwn snapshot.symbols className context ↔
        Library.IsWrittenFor context.arch symbol) := by
  have owner : symbol.owner ≠ none := by
    rw [owned]
    exact Option.some_ne_none _
  have last := Library.getLast_of_resolve _ _ _ symbol resolved owner
  refine ⟨?_, fun other same => ?_, ?_⟩
  · have reflects := load_reflects workspace system cancellation snapshot published
    have held := Library.mem_slots_of_resolve _ _ _ symbol resolved
    exact (reflects.isSound _ _ _ _ _ symbol held).owner owner
  · refine Library.resolve_of_override _ _ _ symbol ?_
    rw [← last, Library.overrides, Library.overrides, same]
  · rw [resolved, eq_comm]
    exact Library.resolveOwn_iff _ _ _ symbol owner last

/-! ### A module with two blocks -/

def twoBlocks : Workspace :=
  .new { Configuration.initial with workspaceRoot := ⟨"/ws"⟩, roots := [⟨"P.dsc"⟩] }

/-- A platform that lists a module for two architectures, with an override for each. -/
def twoBlocksFiles : FileSystem :=
  .memory (.ofList [
    (⟨"/ws/P.dsc"⟩, "[Components.IA32]\nM.inf \x7b\n<LibraryClasses>\nL|A.inf\n\x7d\n" ++
      "[Components.X64]\nM.inf \x7b\n<LibraryClasses>\nL|B.inf\n\x7d\n"),
    (⟨"/ws/M.inf"⟩, ""), (⟨"/ws/A.inf"⟩, ""), (⟨"/ws/B.inf"⟩, "")])

/-- For the first architecture the answer is the override of the second one. -/
theorem twoBlocks_leaks :
    ∃ snapshot symbol, (twoBlocks.load twoBlocksFiles .never).1.result = .ok snapshot ∧
      Library.resolve snapshot.symbols "L" ⟨"/ws/M.inf", "ia32", "*"⟩ = .found symbol ∧
      symbol.value = "B.inf" ∧ ¬Library.IsWrittenFor "ia32" symbol ∧
      Library.resolve snapshot.symbols "L" ⟨"/ws/M.inf", "ia32", "*"⟩ ≠
        Library.resolveOwn snapshot.symbols "L" ⟨"/ws/M.inf", "ia32", "*"⟩ := by
  have answered : ((twoBlocks.load twoBlocksFiles .never).1.result.toOption.bind fun snapshot =>
      (Library.resolve snapshot.symbols "L" ⟨"/ws/M.inf", "ia32", "*"⟩).symbol?).any (fun symbol =>
        symbol.value = "B.inf" ∧ symbol.owner = some "/ws/M.inf" ∧
          ¬Library.IsWrittenFor "ia32" symbol) = true := by
    decide +kernel
  cases published : (twoBlocks.load twoBlocksFiles .never).1.result with
  | error failure =>
    rw [published] at answered
    cases answered
  | ok snapshot =>
    rw [published] at answered
    obtain ⟨symbol, found, told⟩ := (Option.any_eq_true _ _).mp answered
    obtain ⟨value, owned, foreign⟩ := of_decide_eq_true told
    have resolved := LibraryResolution.eq_found_of_symbol _ symbol found
    have ⟨_, _, own⟩ := Workspace.load_override_iff _ _ _ snapshot published "L"
      ⟨"/ws/M.inf", "ia32", "*"⟩ symbol resolved owned
    exact ⟨snapshot, symbol, rfl, resolved, value, foreign, fun same => foreign (own.mp same)⟩

end FirmwareWorkspace
