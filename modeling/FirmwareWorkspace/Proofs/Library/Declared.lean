import FirmwareWorkspace.Library
import FirmwareWorkspace.Proofs.Registry

/-!
# Answers are declarations

Whatever a library class resolves to was declared for it, and what comes from the cascade was
declared outside all blocks.
-/
namespace FirmwareWorkspace

theorem SymbolIndex.mem_slots_of_collect (index : SymbolIndex) (slots : List Nat) (symbol : Symbol)
    (member : symbol ∈ index.collect slots) : symbol ∈ index.slots := by
  obtain ⟨slot, _, found⟩ := List.mem_filterMap.mp member
  exact Array.mem_of_getElem? found

theorem LibraryResolution.eq_found_of_symbol (resolution : LibraryResolution) (symbol : Symbol)
    (answer : resolution.symbol? = some symbol) : resolution = .found symbol := by
  cases resolution with
  | found other => exact congrArg found (Option.some.inj answer)
  | ambiguous symbols => cases answer
  | notFound => cases answer

namespace Library

variable (index : SymbolIndex) (className : String) (context : ConsumerContext) (symbol : Symbol)

theorem mem_globalDeclarations_of_survives
    (member : symbol ∈ survivors index className context) :
    symbol ∈ globalDeclarations index className := by
  have kept := (Registry.mem_addAllNew _ _ _ symbol member).resolve_left List.not_mem_nil
  -- Both stages of the cascade leave candidates out and add none.
  have narrowed (isSpecific : Specificity → Bool) (candidates : List (Symbol × Specificity))
      (candidate : Symbol × Specificity)
      (member : candidate ∈ keepSpecific isSpecific candidates) : candidate ∈ candidates := by
    unfold keepSpecific at member
    split at member
    · exact (List.mem_filter.mp member).1
    · exact member
  obtain ⟨candidate, remaining, rfl⟩ := List.mem_map.mp kept
  obtain ⟨declared, listed, ranked⟩ :=
    List.mem_filterMap.mp (narrowed _ _ _ (narrowed _ _ _ remaining))
  obtain ⟨_, _, rfl⟩ := Option.map_eq_some_iff.mp ranked
  exact listed

theorem mem_of_ofCandidates (symbols : List Symbol)
    (answer : LibraryResolution.ofCandidates symbols = .found symbol) : symbol ∈ symbols := by
  match symbols with
  | [] => cases answer
  | [only] =>
    cases answer
    exact .head _
  | _ :: _ :: _ => cases answer

/-- An answer is the last override or a declaration outside all blocks. -/
theorem getLast_or_global_of_resolve (resolved : resolve index className context = .found symbol) :
    (overrides index className context).getLast? = some symbol ∨
      symbol ∈ globalDeclarations index className := by
  unfold resolve at resolved
  split at resolved
  next last found =>
    cases resolved
    exact .inl found
  · exact .inr (mem_globalDeclarations_of_survives _ _ _ _ (mem_of_ofCandidates _ _ resolved))

theorem mem_slots_of_resolve (resolved : resolve index className context = .found symbol) :
    symbol ∈ index.slots := by
  have declared : symbol ∈ declarations index className := by
    rcases getLast_or_global_of_resolve _ _ _ _ resolved with last | outside
    · exact (List.mem_filter.mp (List.mem_of_getLast? last)).1
    · exact (List.mem_filter.mp outside).1
  exact index.mem_slots_of_collect _ symbol (List.mem_filter.mp declared).1

end Library

end FirmwareWorkspace
