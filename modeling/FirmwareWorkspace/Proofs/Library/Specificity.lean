import FirmwareWorkspace.Library
import FirmwareWorkspace.Proofs.Registry
import Mathlib.Data.Bool.Basic
import Mathlib.Data.List.MinMax
import Mathlib.Data.Prod.Lex

/-!
# Most specific library declarations

The resolution of a library class is stated once more without the cascade. Every
declaration has a rank, the lexicographic maximum over its qualifiers that apply,
and the declarations of maximal rank compete. Main result: discarding general
declarations first by module type and then by architecture gives the same answer,
for any number of declarations and qualifiers and for wildcards on both sides.
-/
namespace FirmwareWorkspace.Library

/-! ### The rule -/

/-- A stored restriction is met by the consumer. -/
def Meets (stored wanted : String) : Prop :=
  stored = wildcard ∨ stored = wanted ∨ wanted = wildcard

instance (stored wanted : String) : Decidable (Meets stored wanted) :=
  inferInstanceAs (Decidable (_ ∨ _ ∨ _))

/-- A qualifier for library classes whose restrictions the consumer meets. -/
structure Suits (context : ConsumerContext) (qualifier : Qualifier) : Prop where
  classes : qualifier.sectionType = "libraryclasses"
  arch : Meets qualifier.arch context.arch
  moduleType : Meets qualifier.moduleType context.moduleType

instance (context : ConsumerContext) (qualifier : Qualifier) :
    Decidable (Suits context qualifier) :=
  decidable_of_iff (qualifier.sectionType = "libraryclasses" ∧
      Meets qualifier.arch context.arch ∧ Meets qualifier.moduleType context.moduleType)
    ⟨fun ⟨classes, arch, moduleType⟩ => ⟨classes, arch, moduleType⟩,
      fun ⟨classes, arch, moduleType⟩ => ⟨classes, arch, moduleType⟩⟩

/-- How narrow a qualifier is; the module type comes first. -/
def narrowness (qualifier : Qualifier) : Bool ×ₗ Bool :=
  toLex (decide (qualifier.moduleType ≠ wildcard), decide (qualifier.arch ≠ wildcard))

/-- The narrowest qualifier of a declaration that suits the consumer. -/
def rank (context : ConsumerContext) (symbol : Symbol) : WithBot (Bool ×ₗ Bool) :=
  ((symbol.qualifiers.filter (Suits context ·)).map narrowness).maximum

/-- The declarations outside all blocks with a qualifier that suits the consumer. -/
def suitable (declared : List Symbol) (context : ConsumerContext) : List Symbol :=
  declared.filter fun symbol =>
    symbol.owner = none ∧ ∃ qualifier ∈ symbol.qualifiers, Suits context qualifier

/-- The suitable declarations of maximal rank, the first of each value. -/
def narrowest (declared : List Symbol) (context : ConsumerContext) : List Symbol :=
  ((suitable declared context).filter fun symbol =>
    ∀ other ∈ suitable declared context, rank context other ≤ rank context symbol).eraseDupsBy
      (·.value == ·.value)

/-- The answer for a consumer, given the declarations of the class in their order. -/
inductive Answers (declared : List Symbol) (context : ConsumerContext) : LibraryResolution → Prop
  /-- The last override in the block of the component. -/
  | override (earlier later : List Symbol) (symbol : Symbol)
      (order : declared = earlier ++ symbol :: later)
      (own : symbol.owner = some context.component)
      (last : ∀ other ∈ later, other.owner ≠ some context.component) :
      Answers declared context (.found symbol)
  | none (free : ∀ symbol ∈ declared, symbol.owner ≠ some context.component)
      (remaining : (narrowest declared context).length = 0) :
      Answers declared context .notFound
  | one (symbol : Symbol) (free : ∀ symbol ∈ declared, symbol.owner ≠ some context.component)
      (remaining : narrowest declared context = [symbol]) :
      Answers declared context (.found symbol)
  | several (free : ∀ symbol ∈ declared, symbol.owner ≠ some context.component)
      (remaining : 2 ≤ (narrowest declared context).length) :
      Answers declared context (.ambiguous (narrowest declared context))

/-! ### Specificity and rank -/

theorem covers_iff (stored wanted : String) :
    covers stored wanted = true ↔ Meets stored wanted := by
  simp only [covers, Meets, Bool.or_eq_true, beq_iff_eq]
  tauto

theorem applies_iff (context : ConsumerContext) (qualifier : Qualifier) :
    applies context qualifier = true ↔ Suits context qualifier := by
  simp only [applies, Bool.and_eq_true, beq_iff_eq, covers_iff, libraryClassesSection]
  exact ⟨fun ⟨⟨classes, arch⟩, moduleType⟩ => ⟨classes, arch, moduleType⟩,
    fun ⟨classes, arch, moduleType⟩ => ⟨⟨classes, arch⟩, moduleType⟩⟩

namespace Specificity

def pair (specificity : Specificity) : Bool ×ₗ Bool :=
  toLex (specificity.moduleType, specificity.arch)

theorem pair_le_iff (left right : Specificity) :
    left.pair ≤ right.pair ↔ (left.moduleType = true → right.moduleType = true) ∧
      (left.moduleType = right.moduleType → left.arch = true → right.arch = true) := by
  obtain ⟨leftType, leftArch⟩ := left
  obtain ⟨rightType, rightArch⟩ := right
  revert leftType leftArch rightType rightArch
  decide

theorem pair_max (left right : Specificity) :
    (left.max right).pair = Max.max left.pair right.pair := by
  obtain ⟨leftType, leftArch⟩ := left
  obtain ⟨rightType, rightArch⟩ := right
  revert leftType leftArch rightType rightArch
  decide

theorem foldl_max_pair (first : Specificity) (rest : List Specificity) :
    ((rest.foldl max first).pair : WithBot (Bool ×ₗ Bool)) =
      ((first :: rest).map pair).maximum := by
  induction rest generalizing first with
  | nil => rfl
  | cons second rest ih =>
    rw [List.foldl_cons, ih]
    simp only [List.map_cons, List.maximum_cons, pair_max, WithBot.coe_max, max_assoc]

end Specificity

theorem rank_eq (context : ConsumerContext) (symbol : Symbol) :
    rank context symbol = (specificity? context symbol).elim ⊥ (fun found => ↑found.pair) := by
  have same : symbol.qualifiers.filter (applies context) =
      symbol.qualifiers.filter (Suits context ·) :=
    List.filter_congr fun qualifier _ => by
      rw [Bool.eq_iff_iff, applies_iff, decide_eq_true_eq]
  have pairs (qualifiers : List Qualifier) :
      qualifiers.map narrowness =
        (qualifiers.map Specificity.ofQualifier).map Specificity.pair := by
    rw [List.map_map]
    rfl
  simp only [rank, specificity?, same, pairs]
  cases found : (symbol.qualifiers.filter (Suits context ·)).map Specificity.ofQualifier with
  | nil => rfl
  | cons first rest => exact (Specificity.foldl_max_pair first rest).symm

theorem specificity?_isSome (context : ConsumerContext) (symbol : Symbol) :
    (specificity? context symbol).isSome = true ↔
      ∃ qualifier ∈ symbol.qualifiers, Suits context qualifier := by
  simp only [specificity?, ← applies_iff]
  cases found : (symbol.qualifiers.filter (applies context)).map Specificity.ofQualifier with
  | nil => simp_all
  | cons first rest =>
    have present : symbol.qualifiers.filter (applies context) ≠ [] := by
      intro empty
      simp [empty] at found
    simpa [List.filter_eq_nil_iff] using present

/-! ### The cascade -/

/-- One stage of the cascade keeps what no specific candidate rules out. -/
theorem keepSpecific_eq_filter (isSpecific : Specificity → Bool)
    (candidates : List (Symbol × Specificity)) :
    keepSpecific isSpecific candidates = candidates.filter fun candidate =>
      ∀ other ∈ candidates, isSpecific other.2 = true → isSpecific candidate.2 = true := by
  unfold keepSpecific
  split
  next present =>
    -- A specific candidate rules out the others.
    obtain ⟨witness, member, specific⟩ := List.any_eq_true.mp present
    refine List.filter_congr fun candidate _ => ?_
    rw [Bool.eq_iff_iff, decide_eq_true_eq]
    exact ⟨fun yes _ _ _ => yes, fun all => all witness member specific⟩
  next absent =>
    -- Nothing is ruled out.
    refine (List.filter_eq_self.mpr fun candidate _ => ?_).symm
    rw [decide_eq_true_eq]
    intro other member specific
    exact absurd (List.any_eq_true.mpr ⟨other, member, specific⟩) absent

/-- Both stages together keep the candidates of maximal rank. -/
theorem cascade_eq_filter (candidates : List (Symbol × Specificity)) :
    keepSpecific (·.arch) (keepSpecific (·.moduleType) candidates) =
      candidates.filter fun candidate =>
        ∀ other ∈ candidates, other.2.pair ≤ candidate.2.pair := by
  rw [keepSpecific_eq_filter, keepSpecific_eq_filter, List.filter_filter]
  refine List.filter_congr fun candidate member => ?_
  rw [Bool.eq_iff_iff]
  simp only [Bool.and_eq_true, decide_eq_true_eq, List.mem_filter, Specificity.pair_le_iff]
  constructor
  · rintro ⟨archs, types⟩ other present
    -- A candidate of the same module type has passed the first stage, too.
    refine ⟨types other present, fun equal => archs other ⟨present, ?_⟩⟩
    intro rival listed specific
    rw [equal]
    exact types rival listed specific
  · intro all
    refine ⟨fun other ⟨present, types⟩ => ?_, fun other present => (all other present).1⟩
    -- Whoever passed the first stage is as specific in the module type as the candidate.
    have equal : other.2.moduleType = candidate.2.moduleType :=
      Bool.eq_iff_iff.mpr ⟨(all other present).1, types candidate member⟩
    exact (all other present).2 equal

theorem distinctValues_eq (symbols : List Symbol) :
    distinctValues symbols = symbols.eraseDupsBy (·.value == ·.value) := by
  rw [distinctValues, Registry.addAllNew_eq_eraseDupsBy Symbol.value]
  simp

/-- The declarations with their specificity, without those that do not apply. -/
def tagged (context : ConsumerContext) (symbols : List Symbol) : List (Symbol × Specificity) :=
  symbols.filterMap fun symbol =>
    (specificity? context symbol).map fun specificity => (symbol, specificity)

theorem map_filter_tagged (context : ConsumerContext) (symbols : List Symbol)
    (keep : Symbol × Specificity → Bool) :
    ((tagged context symbols).filter keep).map (·.1) = symbols.filter fun symbol =>
      (specificity? context symbol).any fun specificity => keep (symbol, specificity) := by
  induction symbols with
  | nil => rfl
  | cons symbol rest ih =>
    unfold tagged at ih ⊢
    cases found : specificity? context symbol with
    | none => simp [found, ih]
    | some specificity =>
      cases kept : keep (symbol, specificity) <;> simp [found, kept, ih]

theorem mem_tagged (context : ConsumerContext) (symbols : List Symbol) (symbol : Symbol)
    (specificity : Specificity) : (symbol, specificity) ∈ tagged context symbols ↔
      symbol ∈ symbols ∧ specificity? context symbol = some specificity := by
  simp only [tagged, List.mem_filterMap, Option.map_eq_some_iff, Prod.mk.injEq]
  constructor
  · rintro ⟨other, member, found, equal, rfl, rfl⟩
    exact ⟨member, equal⟩
  · rintro ⟨member, equal⟩
    exact ⟨symbol, member, specificity, equal, rfl, rfl⟩

theorem mem_suitable (declared : List Symbol) (context : ConsumerContext) (symbol : Symbol) :
    symbol ∈ suitable declared context ↔ symbol ∈ declared.filter (·.owner.isNone) ∧
      (specificity? context symbol).isSome = true := by
  simp only [suitable, List.mem_filter, decide_eq_true_eq, specificity?_isSome,
    Option.isNone_iff_eq_none, and_assoc]

theorem maximal_iff (declared : List Symbol) (context : ConsumerContext) (symbol : Symbol)
    (specificity : Specificity) (found : specificity? context symbol = some specificity) :
    (∀ other ∈ tagged context (declared.filter (·.owner.isNone)),
        other.2.pair ≤ specificity.pair) ↔
      ∀ other ∈ suitable declared context, rank context other ≤ rank context symbol := by
  have own : rank context symbol = ↑specificity.pair := by rw [rank_eq, found]; rfl
  constructor
  · intro all other member
    obtain ⟨listed, some⟩ := (mem_suitable declared context other).mp member
    obtain ⟨specific, equal⟩ := Option.isSome_iff_exists.mp some
    have below := all (other, specific) ((mem_tagged _ _ _ _).mpr ⟨listed, equal⟩)
    rw [own, rank_eq, equal]
    exact WithBot.coe_le_coe.mpr below
  · rintro all ⟨other, specific⟩ member
    obtain ⟨listed, equal⟩ := (mem_tagged _ _ _ _).mp member
    have below := all other ((mem_suitable _ _ _).mpr ⟨listed, by rw [equal]; rfl⟩)
    rw [own, rank_eq, equal] at below
    exact WithBot.coe_le_coe.mp below

/-- What the cascade leaves are the suitable declarations of maximal rank. -/
theorem survivors_eq_narrowest (index : SymbolIndex) (className : String)
    (context : ConsumerContext) :
    survivors index className context =
      narrowest (index.ofKindNamed .libraryClass className) context := by
  have listed : survivors index className context = distinctValues
      ((keepSpecific (·.arch) (keepSpecific (·.moduleType)
        (tagged context (globalDeclarations index className)))).map (·.1)) := rfl
  rw [listed, cascade_eq_filter, map_filter_tagged, distinctValues_eq, narrowest]
  -- Duplicates are dropped on both sides; compare the filters before that.
  congr 1
  generalize declared : index.ofKindNamed .libraryClass className = symbols
  rw [globalDeclarations, declarations, declared]
  change _ = List.filter _ (List.filter _ symbols)
  rw [List.filter_filter, List.filter_filter]
  refine List.filter_congr fun symbol member => ?_
  rw [Bool.eq_iff_iff]
  simp only [Bool.and_eq_true, decide_eq_true_eq, Option.isNone_iff_eq_none,
    ← specificity?_isSome]
  cases found : specificity? context symbol with
  | none => simp
  | some specificity =>
    simp only [Option.any_some, decide_eq_true_eq, Option.isSome_some, and_true,
      maximal_iff symbols context symbol specificity found]

theorem getLast?_overrides (index : SymbolIndex) (className : String)
    (context : ConsumerContext) (symbol : Symbol) :
    (overrides index className context).getLast? = some symbol ↔
      ∃ earlier later, declarations index className = earlier ++ symbol :: later ∧
        symbol.owner = some context.component ∧
        ∀ other ∈ later, other.owner ≠ some context.component := by
  simp only [overrides, List.getLast?_eq_some_iff, List.filter_eq_append_iff,
    List.filter_eq_cons_iff, decide_eq_true_eq]
  constructor
  · rintro ⟨_, front, back, order, -, between, later, rfl, before, own, last⟩
    exact ⟨front ++ between, later, by simp [order], own, by simpa using last⟩
  · rintro ⟨earlier, later, order, own, last⟩
    exact ⟨_, earlier, symbol :: later, order, rfl, [], later, rfl, by simp, own,
      by simpa using last⟩

theorem overrides_eq_nil_iff (index : SymbolIndex) (className : String)
    (context : ConsumerContext) :
    (overrides index className context).getLast? = none ↔
      ∀ symbol ∈ index.ofKindNamed .libraryClass className,
        symbol.owner ≠ some context.component := by
  simp [overrides, declarations]

/-! ### Resolution -/

theorem resolve_of_override (index : SymbolIndex) (className : String)
    (context : ConsumerContext) (symbol : Symbol)
    (last : (overrides index className context).getLast? = some symbol) :
    resolve index className context = .found symbol := by
  simp only [resolve, last]

theorem resolve_of_free (index : SymbolIndex) (className : String) (context : ConsumerContext)
    (free : ∀ symbol ∈ index.ofKindNamed .libraryClass className,
      symbol.owner ≠ some context.component) :
    resolve index className context =
      .ofCandidates (narrowest (index.ofKindNamed .libraryClass className) context) := by
  have none := (overrides_eq_nil_iff index className context).mpr free
  simp only [resolve, none, survivors_eq_narrowest]

/-- Resolution gives the answer of the rule: the last override of the component; without
one, the declarations of maximal rank decide. -/
theorem resolve_eq_iff_answers (index : SymbolIndex) (className : String)
    (context : ConsumerContext) (resolution : LibraryResolution) :
    resolve index className context = resolution ↔
      Answers (index.ofKindNamed .libraryClass className) context resolution := by
  constructor
  · rintro rfl
    cases last : (overrides index className context).getLast? with
    | some symbol =>
      obtain ⟨earlier, later, order, own, after⟩ :=
        (getLast?_overrides index className context symbol).mp last
      rw [resolve_of_override index className context symbol last]
      exact .override earlier later symbol order own after
    | none =>
      -- Without an override the number of survivors decides.
      have free := (overrides_eq_nil_iff index className context).mp last
      rw [resolve_of_free index className context free]
      match remaining : narrowest (index.ofKindNamed .libraryClass className) context with
      | [] => exact .none free (by rw [remaining]; rfl)
      | [symbol] => exact .one symbol free remaining
      | first :: second :: rest =>
        have several := Answers.several free (by rw [remaining]; simp)
        rwa [remaining] at several
  · intro answers
    cases answers with
    | override earlier later symbol order own after =>
      refine resolve_of_override index className context symbol ?_
      rw [getLast?_overrides]
      exact ⟨earlier, later, order, own, after⟩
    | none free remaining =>
      rw [resolve_of_free index className context free, List.length_eq_zero_iff.mp remaining]
      rfl
    | one symbol free remaining =>
      rw [resolve_of_free index className context free, remaining]
      rfl
    | several free remaining =>
      rw [resolve_of_free index className context free]
      match narrowest (index.ofKindNamed .libraryClass className) context, remaining with
      | first :: second :: rest, _ => rfl

end FirmwareWorkspace.Library
