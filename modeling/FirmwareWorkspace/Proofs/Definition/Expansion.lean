import FirmwareWorkspace.Proofs.Definition.Reference
import Mathlib.Logic.Function.Iterate
import Mathlib.Order.Nat

/-!
# Repeated passes and recursive expansion

References are replaced by passes over the whole text. `Expands` says what a reader expects
instead: the value of a bound reference is expanded in turn, to the end, and put in its place.

A pass takes one link off every chain of bound references. If no chain has more links than there
are passes, the passes reach the end of all of them, and both readings agree.
-/
namespace FirmwareWorkspace.DefinitionTable

/-- A chain of bound references: the first stands in the text, each other one in the value of the
one before it. -/
inductive IsChain (table : DefinitionTable) : List Char → List String → Prop
  | nil {cs : List Char} : IsChain table cs []
  | cons {cs : List Char} {name value : String} {names : List String}
      (held : name ∈ referenceNames 0 cs) (bound : table.value? name = some value)
      (after : IsChain table value.toList names) : IsChain table cs (name :: names)

/-- The recursive expansion of a text. -/
inductive Expands (table : DefinitionTable) : List Char → List Char → Prop
  | nil : Expands table [] []
  | plain {c : Char} {rest out : List Char} (other : c ≠ '$') (after : Expands table rest out) :
      Expands table (c :: rest) (c :: out)
  | unbound {name rest out : List Char} (isName : IsReferable name)
      (free : table.value? (.ofList name) = none) (after : Expands table rest out) :
      Expands table (reference name ++ rest) (reference name ++ out)
  | bound {name rest inner out : List Char} {value : String} (isName : IsReferable name)
      (found : table.value? (.ofList name) = some value)
      (inside : Expands table value.toList inner) (after : Expands table rest out) :
      Expands table (reference name ++ rest) (inner ++ out)

/-- A text has one expansion at most. -/
theorem Expands.unique {table : DefinitionTable} {cs out other : List Char}
    (expands : table.Expands cs out) (expandsToo : table.Expands cs other) : out = other := by
  -- A text begins with a plain character or with a reference, never with both.
  induction expands generalizing other with
  | nil =>
    cases expandsToo
    rfl
  | plain ordinary _ ih =>
    generalize whole : _ :: _ = cs at expandsToo
    cases expandsToo with
    | nil => cases whole
    | plain _ after =>
      cases whole
      rw [ih after]
    | unbound | bound =>
      cases whole
      exact absurd rfl ordinary
  | unbound isName free _ ih =>
    generalize whole : reference _ ++ _ = cs at expandsToo
    cases expandsToo with
    | nil => cases whole
    | plain ordinary _ =>
      cases whole
      exact absurd rfl ordinary
    | unbound isNameToo _ after =>
      obtain ⟨rfl, rfl⟩ := reference_append_inj isName isNameToo whole
      rw [ih after]
    | bound isNameToo found _ _ =>
      obtain ⟨rfl, rfl⟩ := reference_append_inj isName isNameToo whole
      cases free.symm.trans found
  | bound isName found _ _ insideIh afterIh =>
    generalize whole : reference _ ++ _ = cs at expandsToo
    cases expandsToo with
    | nil => cases whole
    | plain ordinary _ =>
      cases whole
      exact absurd rfl ordinary
    | unbound isNameToo free _ =>
      obtain ⟨rfl, rfl⟩ := reference_append_inj isName isNameToo whole
      cases free.symm.trans found
    | bound isNameToo foundToo inside after =>
      obtain ⟨rfl, rfl⟩ := reference_append_inj isName isNameToo whole
      cases found.symm.trans foundToo
      rw [insideIh inside, afterIh after]

/-! ### The number of passes -/

section Passes

variable (table : DefinitionTable)

/-- Stopping at a pass that changes nothing makes no difference. -/
theorem passes_eq_iterate (count : Nat) (cs : List Char) :
    table.passes count cs = table.pass^[count] cs := by
  induction count generalizing cs with
  | zero => rfl
  | succ count ih =>
    rw [passes]
    split
    next idle =>
      -- The passes that are left out would change nothing either.
      exact (Function.iterate_fixed idle _).symm
    · rw [ih, Function.iterate_succ_apply]

theorem toList_replaceAll (text : String) :
    (table.replaceAll text).toList = table.pass^[table.maxPasses] text.toList := by
  rw [replaceAll, String.toList_ofList, passes_eq_iterate]

/-- The passes that are made: as many as are allowed, or up to the first that changes nothing. -/
theorem exists_least_passes (cs : List Char) :
    ∃ count, IsLeast {count | count = table.maxPasses ∨
        0 < count ∧ table.pass^[count] cs = table.pass^[count - 1] cs} count ∧
      table.pass^[table.maxPasses] cs = table.pass^[count] cs := by
  have some : ∃ count, count = table.maxPasses ∨
      0 < count ∧ table.pass^[count] cs = table.pass^[count - 1] cs := ⟨_, .inl rfl⟩
  refine ⟨Nat.find some, Nat.isLeast_find some, ?_⟩
  have bound : Nat.find some ≤ table.maxPasses := Nat.find_min' some (.inl rfl)
  generalize found : Nat.find some = count at bound
  rcases found ▸ Nat.find_spec some with all | ⟨positive, idle⟩
  · rw [all]
  · -- What the idle pass left alone, later passes leave alone.
    obtain ⟨before, rfl⟩ := Nat.exists_eq_add_one.mpr positive
    rw [Nat.add_sub_cancel, Function.iterate_succ_apply'] at idle
    obtain ⟨more, enough⟩ := Nat.exists_eq_add_of_le' bound
    rw [enough, Function.iterate_add_apply, Function.iterate_succ_apply', idle,
      Function.iterate_fixed idle]

end Passes

/-! ### Chains -/

section Chains

variable {table : DefinitionTable}

theorem IsChain.mono {cs more : List Char} {chain : List String} (isChain : table.IsChain cs chain)
    (held : referenceNames 0 cs ⊆ referenceNames 0 more) : table.IsChain more chain := by
  cases isChain with
  | nil => exact .nil
  | cons first bound after => exact .cons (held first) bound after

/-- A chain of the result of a pass had one link more before. -/
theorem IsChain.before_pass (values : table.HasSpelledValues) {cs : List Char}
    (spelled : IsSpelled cs) {chain : List String} (isChain : table.IsChain (table.pass cs) chain) :
    chain = [] ∨ ∃ name, table.IsChain cs (name :: chain) := by
  cases isChain with
  | nil => exact .inl rfl
  | @cons _ name _ names held bound after =>
    rw [referenceNames_pass values spelled] at held
    obtain ⟨outer, first, within⟩ := List.mem_flatMap.mp held
    cases found : table.value? outer with
    | none =>
      -- A reference that the pass left alone is not bound.
      rw [found] at within
      rw [List.mem_singleton.mp within] at bound
      cases found.symm.trans bound
    | some value =>
      rw [found] at within
      exact .inr ⟨outer, .cons first found (.cons within bound after)⟩

/-- Whether all chains of bound references in a text have at most `count` links. -/
def isShallow (table : DefinitionTable) : Nat → List Char → Bool
  | 0, cs => (referenceNames 0 cs).all fun name => (table.value? name).isNone
  | count + 1, cs => (referenceNames 0 cs).all fun name =>
    (table.value? name).all fun value => isShallow table count value.toList

theorem IsChain.length_le {cs : List Char} {chain : List String} {count : Nat}
    (isChain : table.IsChain cs chain) (shallow : table.isShallow count cs = true) :
    chain.length ≤ count := by
  induction isChain generalizing count with
  | nil => exact Nat.zero_le _
  | cons held bound _ ih =>
    cases count with
    | zero =>
      have free := List.all_eq_true.mp shallow _ held
      rw [bound] at free
      cases free
    | succ count =>
      have deeper := List.all_eq_true.mp shallow _ held
      rw [bound] at deeper
      exact Nat.succ_le_succ (ih deeper)

theorem short_pass (values : table.HasSpelledValues) {cs : List Char} (spelled : IsSpelled cs)
    {count : Nat} (short : ∀ chain, table.IsChain cs chain → chain.length ≤ count + 1)
    (chain : List String) (isChain : table.IsChain (table.pass cs) chain) :
    chain.length ≤ count := by
  rcases isChain.before_pass values spelled with rfl | ⟨name, longer⟩
  · exact Nat.zero_le _
  · exact Nat.le_of_succ_le_succ (short _ longer)

/-- Passes that reach the end of all chains leave no bound reference. -/
theorem unbound_iterate (values : table.HasSpelledValues) {cs : List Char}
    (spelled : IsSpelled cs) (count : Nat)
    (short : ∀ chain, table.IsChain cs chain → chain.length ≤ count) (name : String)
    (held : name ∈ referenceNames 0 (table.pass^[count] cs)) : table.value? name = none := by
  induction count generalizing cs with
  | zero =>
    cases bound : table.value? name with
    | none => rfl
    | some value => exact absurd (short _ (.cons held bound .nil)) (Nat.not_succ_le_zero _)
  | succ count ih => exact ih (values.pass spelled) (short_pass values spelled short) held

theorem pass_of_unbound {cs : List Char} (spelled : IsSpelled cs)
    (unbound : ∀ name ∈ referenceNames 0 cs, table.value? name = none) : table.pass cs = cs := by
  induction spelled with
  | nil => rfl
  | plain other _ ih =>
    rw [referenceNames_cons _ _ other] at unbound
    rw [pass_cons _ _ _ other, ih unbound]
  | refer isName _ ih =>
    rw [referenceNames_reference _ _ isName] at unbound
    rw [pass_reference _ _ _ isName, replacement, unbound _ (.head _),
      ih fun name member => unbound name (.tail _ member)]
    rfl

end Chains

/-! ### Expansion -/

section Expansion

variable {table : DefinitionTable} (values : table.HasSpelledValues)
include values

theorem isSpelled_iterate {cs : List Char} (spelled : IsSpelled cs) (count : Nat) :
    IsSpelled (table.pass^[count] cs) := by
  induction count generalizing cs with
  | zero => exact spelled
  | succ count ih => exact ih (values.pass spelled)

theorem iterate_pass_append {left : List Char} (spelled : IsSpelled left) (right : List Char)
    (count : Nat) :
    table.pass^[count] (left ++ right) = table.pass^[count] left ++ table.pass^[count] right := by
  induction count generalizing left right with
  | zero => rfl
  | succ count ih =>
    rw [Function.iterate_succ_apply, pass_append _ spelled, ih (values.pass spelled)]
    rfl

/-- What a pass leaves alone stays at the beginning of a text. -/
theorem iterate_pass_idle {left : List Char} (spelled : IsSpelled left)
    (idle : table.pass left = left) (right : List Char) (count : Nat) :
    table.pass^[count] (left ++ right) = left ++ table.pass^[count] right := by
  rw [iterate_pass_append values spelled, Function.iterate_fixed idle]

/-- Passes that reach the end of all chains give the expansion. -/
theorem expands_iterate {cs : List Char} (spelled : IsSpelled cs) (count : Nat)
    (short : ∀ chain, table.IsChain cs chain → chain.length ≤ count) :
    table.Expands cs (table.pass^[count] cs) := by
  -- A value has shorter chains than the text that refers to it; within a text, piece by piece.
  induction count using Nat.strongRecOn generalizing cs with
  | ind count shorter =>
    induction spelled with
    | nil =>
      rw [Function.iterate_fixed rfl]
      exact .nil
    | @plain c rest other _ ih =>
      have alone : IsSpelled [c] := .plain other .nil
      have idle : table.pass [c] = [c] := pass_cons table c [] other
      rw [← List.singleton_append, iterate_pass_idle values alone idle]
      refine .plain other (ih fun chain isChain => short chain (isChain.mono ?_))
      rw [referenceNames_cons _ _ other]
      exact List.Subset.refl _
    | @refer name rest isName _ ih =>
      have names := referenceNames_reference name rest isName
      have after := ih fun chain isChain => short chain (isChain.mono (by
        rw [names]
        exact List.subset_cons_self _ _))
      cases found : table.value? (.ofList name) with
      | none =>
        have idle := pass_reference table name [] isName
        rw [List.append_nil, replacement, found] at idle
        rw [iterate_pass_idle values isName.isSpelled (idle.trans (List.append_nil _))]
        exact .unbound isName found after
      | some value =>
        have link (chain : List String) (isChain : table.IsChain value.toList chain) :
            chain.length + 1 ≤ count :=
          short (.ofList name :: chain) (.cons (by rw [names]; exact .head _) found isChain)
        -- The first pass puts the value in, and the others have its shorter chains to follow.
        obtain ⟨fewer, rfl⟩ := Nat.exists_eq_add_one.mpr (link [] .nil)
        have inside := shorter fewer (Nat.lt_succ_self _) (values _ value found)
          fun chain isChain => Nat.le_of_succ_le_succ (link chain isChain)
        rw [Function.iterate_succ_apply, pass_reference _ _ _ isName, replacement, found,
          Option.elim_some, iterate_pass_append values (values _ value found)]
        exact .bound isName found inside after

end Expansion

/-- Replacing expands. If every dollar sign of a text and of all values begins a complete
reference, and no chain of bound references is longer than the number of passes, then replacing
gives the recursive expansion, without any bound reference left, and changes nothing the next
time. (A chain that comes back to a name could be made as long as one likes.) For any text and
values, replacing makes as many passes as are allowed, or up to the first that changes nothing. -/
theorem replaceAll_expands (table : DefinitionTable) (text : String) :
    (isWhole text.toList = true →
      (∀ name value, table.value? name = some value → isWhole value.toList = true) →
      (∀ chain, table.IsChain text.toList chain → chain.length ≤ table.maxPasses) →
        (∀ out, table.Expands text.toList out ↔ out = (table.replaceAll text).toList) ∧
          (∀ name ∈ referenceNames 0 (table.replaceAll text).toList, table.value? name = none) ∧
          table.replaceAll (table.replaceAll text) = table.replaceAll text) ∧
      ∃ count, IsLeast {count | count = table.maxPasses ∨
          0 < count ∧ table.pass^[count] text.toList = table.pass^[count - 1] text.toList} count ∧
        (table.replaceAll text).toList = table.pass^[count] text.toList := by
  rw [toList_replaceAll]
  refine ⟨fun whole wholeValues short => ?_, table.exists_least_passes text.toList⟩
  have spelled := isSpelled_of_isWhole _ whole
  have values : table.HasSpelledValues := fun name value bound =>
    isSpelled_of_isWhole _ (wholeValues name value bound)
  have expands := expands_iterate values spelled table.maxPasses short
  have unbound := unbound_iterate values spelled table.maxPasses short
  have idle := pass_of_unbound (isSpelled_iterate values spelled _) unbound
  refine ⟨fun out => ⟨fun other => other.unique expands, fun equal => equal ▸ expands⟩, unbound, ?_⟩
  rw [← String.toList_inj, toList_replaceAll, toList_replaceAll]
  exact Function.iterate_fixed idle _

/-- Two macros, one of which refers to the other. -/
def libraryMacros : DefinitionTable :=
  (((new 2).set "PKG" "OvmfPkg" none).2.set "LIB_DIR" "$(PKG)/Library" none).2

theorem libraryMacros_expand :
    let text := "$(LIB_DIR)/$(MISSING).inf"
    isWhole text.toList = true ∧
      (∀ name value, libraryMacros.value? name = some value → isWhole value.toList = true) ∧
      (∀ chain, libraryMacros.IsChain text.toList chain →
        chain.length ≤ libraryMacros.maxPasses) ∧
      libraryMacros.Expands text.toList "OvmfPkg/Library/$(MISSING).inf".toList := by
  intro text
  have whole : isWhole text.toList = true := by decide +kernel
  have wholeValues (name value : String) (bound : libraryMacros.value? name = some value) :
      isWhole value.toList = true := by
    obtain ⟨definition, found, rfl⟩ := Option.map_eq_some_iff.mp bound
    have all : ∀ definition ∈ libraryMacros.definitions,
        isWhole definition.value.toList = true := by decide +kernel
    exact all definition (List.mem_of_find?_eq_some found)
  have short (chain : List String) (isChain : libraryMacros.IsChain text.toList chain) :
      chain.length ≤ libraryMacros.maxPasses := isChain.length_le (by decide +kernel)
  have ⟨expands, _⟩ := (replaceAll_expands libraryMacros text).1 whole wholeValues short
  exact ⟨whole, wholeValues, short, (expands _).mpr (by decide +kernel)⟩

end FirmwareWorkspace.DefinitionTable
